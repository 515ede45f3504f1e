import EmployeePortal.Core.Middleware
import EmployeePortal.Framework.Filling

/-!
# Health

`ReadinessService.check`, `database_is_ready` and the three health routes, over the two
things they ask.
-/

namespace EmployeePortal.Health

open EmployeePortal.Python EmployeePortal.Framework EmployeePortal.Core

inductive HealthOp where
  /-- `SELECT 1` on a connection of the engine. -/
  | selectOne
  | ping

abbrev HealthOp.Answer : HealthOp → Type
  | .selectOne => Unit
  | .ping => Bool

abbrev HealthTask (α : Type) : Type := Prog HealthOp HealthOp.Answer Exc α

/-- `except Exception`: a `SystemExit` is no `Exception`. -/
def exceptException {α : Type} (p : HealthTask α) (default : α) : HealthTask α :=
  tryCatchThe Exc p fun
    | .systemExit message => throw (.systemExit message)
    | _ => return default

def databaseIsReady : HealthTask Bool :=
  exceptException (do
    Prog.perform HealthOp.selectOne
    return true) false

/-- `ReadinessService.check`. -/
def check : HealthTask (Dict String) := do
  let database ← databaseIsReady
  let redis_ready ← exceptException (Prog.perform HealthOp.ping) false
  return [("database", if database then "ok" else "unavailable"),
    ("redis", if redis_ready then "ok" else "unavailable")]

structure HealthResponse where
  status : String
  dependencies : Option (Dict String) := none

/-- `health` and `live`. -/
def live : HealthResponse where
  status := "ok"

/-- `ready`: its status code and its answer. -/
def ready : HealthTask (ℕ × HealthResponse) := do
  let checks ← check
  let is_ready := checks.all fun check => check.2 == "ok"
  return (if is_ready then 200 else 503, {
    status := if is_ready then "ready" else "not_ready"
    dependencies := some checks })

end EmployeePortal.Health
