import EmployeePortal.Audit.Service
import EmployeePortal.D365.LeaveService
import EmployeePortal.D365.ProfileService
import EmployeePortal.Employees.ProvisioningService

/-!
# The employee routes
-/

namespace EmployeePortal.Employees

open EmployeePortal.Python EmployeePortal.Framework EmployeePortal.D365 EmployeePortal.Audit

/-- The role check every route depends on. -/
def portalUser : AuthenticatedUser → Except Exc AuthenticatedUser :=
  requireRoles ["employee", "manager", "hr", "finance", "portal_admin", "auditor"]

def mappingRequired : Exc :=
  .portal ⟨"MAPPING_REQUIRED", "No D365 employee matched your verified Entra identity.", 403⟩

/-! ## What the routes put on record -/

def provisionEntry (mapping : Mapping) : Entry where
  action := "IDENTITY_AUTO_PROVISION"
  resource := "employee_identity_mapping"
  result := "SUCCESS"
  target_employee := some mapping.d365_personnel_number
  details := some [("source", "d365_oid_auto_verified")]

/-- The event of a route that shows data. -/
def viewEntry (action resource : String) (mapping : Option Mapping) : Entry where
  action := action
  resource := resource
  result := "SUCCESS"
  target_employee := mapping.map Mapping.d365_personnel_number

section Routes

variable [UnicodeData]

/-! ## `resolve_identity` -/

/-- `provision`, with its audit event when it returns a mapping. -/
def provisionAudited (request : Request) (user : AuthenticatedUser) :
    Coroutine (Option Mapping) := do
  match ← provision user with
  | none => return none
  | some mapping =>
      recordAudit request user (provisionEntry mapping)
      return some mapping

def resolveIdentity (request : Request) (user : AuthenticatedUser) (required : Bool) :
    Coroutine (Option Mapping) := do
  let mapping ←
    match ← findVerified user.oid with
    | some mapping => pure (some mapping)
    | none => provisionAudited request user
  match mapping with
  | none => if required then throw mappingRequired else return none
  | some mapping => return some mapping

/-! ## The handlers -/

/-- The shape of the three handlers: the role check, the caller's row, the data
for it, the audit event. -/
def route {α : Type} (request : Request) (user : AuthenticatedUser) (required : Bool)
    (action resource : String) (fetch : Option Mapping → Coroutine α) : Coroutine α := do
  let user ← portalUser user
  let mapping ← resolveIdentity request user required
  let answer ← fetch mapping
  recordAudit request user (viewEntry action resource mapping)
  return answer

/-- `assert mapping is not None`. -/
def asserted {α : Type} (fetch : Mapping → Coroutine α) : Option Mapping → Coroutine α
  | some mapping => fetch mapping
  | none => throw .assertionError

def meResponse (user : AuthenticatedUser) (mapping : Option Mapping) : MeResponse where
  oid := user.oid
  name := user.name
  username := user.preferred_username
  roles := user.roles.sort
  mapping_status := if mapping.isSome then "verified" else "unmapped"

def me (request : Request) (user : AuthenticatedUser) : Coroutine MeResponse :=
  route request user false "PROFILE_VIEW" "/api/v1/me"
    fun mapping => return meResponse user mapping

def myProfile (request : Request) (user : AuthenticatedUser) :
    Coroutine EmployeeProfileResponse :=
  route request user true "PROFILE_VIEW" "/api/v1/me/profile" (asserted getProfile)

def myLeaveBalances (request : Request) (user : AuthenticatedUser) :
    Coroutine LeaveBalancesResponse :=
  route request user true "LEAVE_BALANCE_VIEW" "/api/v1/me/leave-balances"
    (asserted getBalances)

/-! ## Rules -/

/-- `Q`, with `None` refused where a mapping is required. -/
def orRequired (required : Bool) (Q : Post Exc (Option Mapping) Database Session) :
    Post Exc (Option Mapping) Database Session
  | .ok (some mapping), s, l => Q (.ok (some mapping)) s l
  | .ok none, s, l => if required then Q (.error mappingRequired) s l else Q (.ok none) s l
  | .error e, s, l => Q (.error e) s l

section Rules

variable {K : Contract Database} {sem : OpSem Op Op.Answer Exc Database Session}
  (hK : Conforms K sem) {s : Database} {l : Session}

include hK

/-- A mapping is a verified row of the token's oid, or what `provision` returned
with its audit event committed. -/
theorem resolveIdentity_safe (request : Request) (user : AuthenticatedUser) (required : Bool)
    {Q : Post Exc (Option Mapping) Database Session} (hl : l.pending = [])
    (verified : ∀ s₁ m, K.rely s s₁ → K.inv s₁ → m ∈ s₁.mappings →
      m.entra_oid = some user.oid → m.enabled = true → m.verified = true →
      Q (.ok (some m)) s₁ (l.select s₁ [m]))
    (provisioned : ∀ s₁ seen, K.inv s₁ → Safe K sem (provisionAudited request user)
      (orRequired required Q) s₁ { l with seen := seen })
    (failed : ∀ e s₁ l₁, l₁.pending = [] → l₁.committed = l.committed →
      Q (.error e) s₁ l₁) :
    Safe K sem (resolveIdentity request user required) Q s l := by
  unfold resolveIdentity
  refine Safe.bind_iff.mpr (findVerified_safe hK user.oid (fun s₁ m => ?_) (fun s₁ _ hinv => ?_)
    fun s₁ e l₁ _ hpending hcommitted => failed e s₁ l₁ (hpending.trans hl) hcommitted)
  · exact verified s₁ m
  · have hl₁ : l.select s₁ [] = { l with seen := s₁.mappings } := by
      simp [Session.select]
    rw [hl₁]
    refine Safe.bind_iff.mpr ((provisioned s₁ s₁.mappings hinv).mono ?_)
    rintro (e | _ | m) s₂ l₂ hQ
    · exact hQ
    · cases required <;> exact hQ
    · exact hQ

end Rules

end Routes

end EmployeePortal.Employees
