import EmployeePortal.Auth.User
import EmployeePortal.Database.Rules

/-!
# `record_audit`
-/

namespace EmployeePortal.Audit

open EmployeePortal.Python EmployeePortal.Framework

/-- What a handler reads of its request. -/
structure Request where
  client : Option String := none
  user_agent : Option String := none
  request_id : Option String := none

/-- The arguments of `record_audit` that differ from caller to caller. -/
structure Entry where
  action : String
  resource : String
  result : String
  target_employee : Option String := none
  details : Option (Dict String) := none

/-- The row `record_audit` adds. -/
def event (request : Request) (user : AuthenticatedUser) (entry : Entry) : AuditEvent where
  entra_oid := some user.oid
  user_upn := user.preferred_username
  action := entry.action
  resource := entry.resource
  target_employee := entry.target_employee
  client_ip := request.client
  user_agent := truthy (some (String.ofList ((request.user_agent.getD "").toList.take 512)))
  result := entry.result
  correlation_id := request.request_id.getD "unavailable"
  details := entry.details

def recordAudit (request : Request) (user : AuthenticatedUser) (entry : Entry) :
    Coroutine Unit := do
  await (.add (.event (event request user entry)))
  await .commit

theorem recordAudit_only {P : Op → Prop} {request : Request} {user : AuthenticatedUser}
    {entry : Entry} (hadd : P (.add (.event (event request user entry)))) (hcommit : P .commit) :
    (recordAudit request user entry).Only P :=
  Prog.Only.bind (Prog.Only.perform hadd) fun _ => Prog.Only.perform hcommit

section Rules

variable {K : Contract Database} {sem : OpSem Op Op.Answer Exc Database Session}
  (hK : Conforms K sem) {s : Database} {l : Session}

include hK

/-- In a session with nothing pending the event is committed alone. -/
theorem recordAudit_safe {request : Request} {user : AuthenticatedUser} {entry : Entry}
    {Q : Post Exc Unit Database Session} (hl : l.pending = [])
    (recorded : ∀ s₁ s₂ l₂, K.rely s s₁ → K.inv s₁ →
      s₂.toTables = s₁.insertAll [.event (event request user entry)] →
      l₂ = { l with committed := l.committed ++ [.event (event request user entry)] } →
      sem .commit s₁ { l with pending := [.event (event request user entry)] } (.ok ()) s₂ l₂ →
      K.inv s₂ ∧ K.guar s₁ s₂ ∧ Q (.ok ()) s₂ l₂)
    (failed : ∀ s₁, K.rely s s₁ → K.inv s₁ →
      sem .commit s₁ { l with pending := [.event (event request user entry)] }
        (.error .databaseError) s₁ l → Q (.error .databaseError) s₁ l) :
    Safe K sem (recordAudit request user entry) Q s l := by
  obtain ⟨pending, read, seen, loaded, answered, committed⟩ := l
  dsimp only at hl
  subst hl
  unfold recordAudit
  refine Safe.bind (hK.add (Q := fun r s₁ l₁ => K.rely s s₁ ∧
    l₁ = ⟨[.event (event request user entry)], read, seen, loaded, answered, committed⟩ ∧
      r = .ok ()) fun s₁ hrely _ => ⟨hrely, rfl, rfl⟩) ?_ ?_
  · rintro _ s₁ l₁ ⟨hrely, rfl, -⟩
    refine hK.commit (fun s₂ s₃ l₂ hrely₂ hinv hcommit hl₂ hsem => ?_)
      (fun s₂ _ _ hcommit => absurd hcommit (s₂.commit_event _))
      (fun s₂ hrely₂ hinv hsem => failed s₂ (K.rely_trans hrely hrely₂) hinv hsem)
    exact recorded s₂ s₃ l₂ (K.rely_trans hrely hrely₂) hinv
      (Database.commit_eq_some.mp hcommit) hl₂ hsem
  · rintro e s₁ l₁ ⟨-, -, h⟩
    cases h

end Rules

end EmployeePortal.Audit
