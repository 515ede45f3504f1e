import EmployeePortal.Portal.Outcome

/-!
# Who is shown what, and that it is on record

Two consequences of the outcomes of the routes, in every state of every run
from any database: what a route shows belongs to a row the request itself found
or wrote, enabled, verified and carrying the token's oid; and before a route
shows anything the fact is a committed audit event.
-/

namespace EmployeePortal

open EmployeePortal.Python EmployeePortal.Framework EmployeePortal.Employees
  EmployeePortal.Tools EmployeePortal.Audit EmployeePortal.D365

/-- The contract that asks nothing of anybody. -/
abbrev unconstrained : Contract Database := .anyone fun _ => True

theorem conforms_unconstrained : Conforms unconstrained Sem := ⟨id, fun _ => trivial, id⟩

section Authorization

variable [UnicodeData]

theorem commits_unconstrained : Commits unconstrained Sem where
  auto _ _ _ _ _ _ _ _ _ _ := ⟨trivial, trivial⟩
  manual _ _ _ _ _ _ _ _ _ := ⟨trivial, trivial⟩
  event _ _ _ _ := ⟨trivial, trivial⟩

variable {db : Database} {P : Portal.Pool} {t : Portal.Thread}

/-- Whatever a call returned, it returned with its outcome. -/
theorem outcome_of_reaches (h : portal.Reaches ⟨db, []⟩ P) (ht : t ∈ P.threads)
    {reply : Reply} (hret : t.Returned reply) :
    Outcome unconstrained t.call reply t.sess := by
  obtain ⟨i, hi⟩ := List.getElem?_of_mem ht
  have hsafe := System.safe_of_reaches (S := portal) (K := unconstrained)
    (Q := fun _ c r _ l => ∀ reply, r = .ok reply → Outcome unconstrained c reply l)
    (fun _ _ h => h) (fun _ _ _ _ _ _ h _ _ => h) (fun _ _ _ _ => ⟨trivial, trivial⟩)
    (fun _ c s _ _ => body_safe conforms_unconstrained commits_unconstrained c s)
    h (System.safe_nil _ _ _ trivial)
  exact System.post_of_returned hsafe hi hret reply rfl

/-- The request read the row, or wrote it, as an enabled and verified row of this
oid. -/
structure ReadAsVerified (l : Session) (oid : String) (m : Mapping) : Prop where
  held : m ∈ l.read ∨ Row.mapping m ∈ l.committed
  enabled : m.enabled = true
  verified : m.verified = true
  owned : Owns oid m

theorem Disclosed.readAsVerified {request : Request} {user : AuthenticatedUser}
    {action resource : String} {l : Session} {mapping : Option Mapping} {m : Mapping}
    (h : Disclosed unconstrained request user action resource l mapping)
    (hm : mapping = some m) : ReadAsVerified l user.oid m :=
  have ⟨hgranted, howns⟩ := h.granted m hm
  ⟨hgranted.held, hgranted.enabled, hgranted.verified, howns⟩

/-- **Object-level authorization.** A profile carries the personnel number, and
every leave balance comes from a D365 record with the personnel number and the
company, of a row that the request read as enabled and verified for the token's
oid; whatever D365 answered and whatever others did meanwhile. -/
theorem object_level_authorization (h : portal.Reaches ⟨db, []⟩ P) (ht : t ∈ P.threads) :
    (∀ request user response, t.call = .myProfile request user →
      t.Returned (.profile response) →
      ∃ m, ReadAsVerified t.sess user.oid m ∧
        response.employee.personnelNumber = m.d365_personnel_number) ∧
    (∀ request user response, t.call = .myLeaveBalances request user →
      t.Returned (.balances response) →
      ∃ m, ReadAsVerified t.sess user.oid m ∧
        ∀ b ∈ response.balances, ∃ fields raw,
          FetchedFor m t.sess fields raw ∧ readBalance fields raw = .ok (some b)) := by
  refine ⟨fun request user response hcall hret => ?_,
    fun request user response hcall hret => ?_⟩
  · have houtcome := outcome_of_reaches h ht hret
    rw [hcall] at houtcome
    obtain ⟨m, hdisclosed, hprofile⟩ := houtcome
    exact ⟨m, hdisclosed.readAsVerified rfl, hprofile.personnel_number⟩
  · have houtcome := outcome_of_reaches h ht hret
    rw [hcall] at houtcome
    obtain ⟨m, hdisclosed, hbalances⟩ := houtcome
    exact ⟨m, hdisclosed.readAsVerified rfl, hbalances.fetched⟩

end Authorization

/-! ### A first sign-in -/

section Example

open scoped Ascii

def exampleConfiguration (mapping_key : String) (fields : List (String × String)) :
    EntityMapping where
  mapping_key := mapping_key
  entity_name := "Workers"
  personnel_number_field := some "PersonnelNumber"
  company_field := some "DataArea"
  field_mapping := fields.map fun (key, field) => (key, .str field)
  enabled := true

/-- A portal with all three integrations configured and no rows yet. -/
def exampleDatabase : Database := .empty
  [exampleConfiguration "identity" [("entraOid", "Oid"), ("entraUpn", "Upn"),
      ("personnelNumber", "PersonnelNumber"), ("company", "DataArea")],
    exampleConfiguration "profile" [("personnelNumber", "PersonnelNumber")],
    exampleConfiguration "leave_balance" [("leaveType", "Type"), ("available", "Available")]]
  (by decide)

/-- What `exampleUser`'s oid denotes. -/
def exampleUuid : Uuid := ⟨10, by decide⟩

/-- What `uuid4` answers first and second. -/
def firstId : Uuid := ⟨1, by decide⟩

def secondId : Uuid := ⟨2, by decide⟩

def exampleUser : AuthenticatedUser where
  oid := "00000000-0000-0000-0000-00000000000a"
  tid := "contoso"
  preferred_username := some "ada@example.org"
  roles := {"employee"}

/-- D365 answers with one record of this worker. -/
def exampleAnswer (oid personnel_number company : String) : Hint :=
  .payload [("value", .arr [.obj [("Oid", .str oid), ("Upn", .str "ada@example.org"),
    ("PersonnelNumber", .str personnel_number), ("DataArea", .str company),
    ("Type", .str "Annual"), ("Available", .int 12)]])]

/-- Call `i` signs in for the first time: no verified row, the configuration,
D365's answer, no conflict, the insert and its audit event. -/
def firstSignIn (i : ℕ) (answer : Hint) (id : Uuid) : List (System.Cue Hint Call) :=
  [.run i .go, .run i .go, .run i answer, .run i .go, .run i (.uuid id),
    .run i .go, .run i .go, .run i .go, .run i .go, .run i .go]

/-- Call `i` fetches its data and puts that on record. -/
def fetchAndRecord (i : ℕ) (answer : Hint) : List (System.Cue Hint Call) :=
  [.run i .go, .run i answer, .run i .go, .run i .go]

def exampleCues : List (System.Cue Hint Call) :=
  let answer := exampleAnswer exampleUser.oid "000123" "usmf"
  firstSignIn 0 answer firstId ++ fetchAndRecord 0 answer

/-- The profile shows this personnel number. -/
def isProfileOf (personnel_number : String) : Reply → Bool
  | .profile response => response.employee.personnelNumber = personnel_number
  | _ => false

theorem exampleRun : ((Portal.runCall exampleDatabase (.myProfile {} exampleUser)
    exampleCues).bind (Portal.reply · 0)).any (isProfileOf "000123") = true := by
  decide +kernel

theorem object_level_authorization_firstSignIn :
    ∃ (P : Portal.Pool) (t : Portal.Thread) (response : EmployeeProfileResponse),
      portal.Reaches ⟨exampleDatabase, []⟩ P ∧ t.Returned (.profile response) ∧
      ∃ m, ReadAsVerified t.sess exampleUser.oid m ∧
        response.employee.personnelNumber = m.d365_personnel_number := by
  obtain ⟨P, t, reply, h, ht, hcall, hret, hreply⟩ := Portal.exists_run _ exampleRun
  cases reply with
  | profile response =>
    exact ⟨P, t, response, h, hret,
      (object_level_authorization h ht).1 {} exampleUser response hcall hret⟩
  | _ => cases hreply

end Example

/-! ## The audit record -/

section Audit

variable [UnicodeData] {db : Database} {P : Portal.Pool} {t : Portal.Thread}

/-- A committed event stays in the table. -/
theorem committed_event_stored (h : portal.Reaches ⟨db, []⟩ P) (ht : t ∈ P.threads)
    {e : AuditEvent} (he : Row.event e ∈ t.sess.committed) : e ∈ P.store.events := by
  have hkept : ∀ {o : Op} {s s' : Database} {l l' : Session} {r : Except Exc o.Answer},
      Sem o s l r s' l' → ∀ x ∈ s.events, x ∈ s'.events := by
    intro o s s' l l' r hsem x hx
    rcases hsem.store with rfl | ⟨hcommit, -⟩
    · exact hx
    · rw [Database.commit_eq_some.mp hcommit]
      exact Tables.mem_events_insertAll.mpr (Or.inl hx)
  refine System.sess_of_reaches (fun s l => Row.event e ∈ l.committed → e ∈ s.events)
    (fun _ h => by cases h) ?_ (fun _ _ _ _ _ _ _ hsem _ hl hmem => hkept hsem e (hl hmem))
    (fun _ _ henv _ hl hmem => henv.events ▸ hl hmem) h (by simp) t ht he
  intro c o s l r s' l' hsem hl hmem
  cases hsem
  case committed hcommit =>
    rw [Database.commit_eq_some.mp hcommit]
    rcases List.mem_append.mp hmem with hmem | hmem
    · exact Tables.mem_events_insertAll.mpr (Or.inl (hl hmem))
    · exact Tables.mem_events_insertAll.mpr (Or.inr hmem)
  all_goals exact hl hmem

/-- The event a route has to leave: the caller's oid, the route, `SUCCESS`, and the
employee concerned, committed by the request itself. -/
structure OnRecord (P : Portal.Pool) (t : Portal.Thread) (oid resource : String)
    (employee : Option String) (e : AuditEvent) : Prop where
  committed : Row.event e ∈ t.sess.committed
  stored : e ∈ P.store.events
  entra_oid : e.entra_oid = some oid
  resource_eq : e.resource = resource
  result : e.result = "SUCCESS"
  target_employee : e.target_employee = employee

theorem Disclosed.onRecord {request : Request} {user : AuthenticatedUser}
    {action resource : String} {mapping : Option Mapping}
    (h : portal.Reaches ⟨db, []⟩ P) (ht : t ∈ P.threads)
    (hd : Disclosed unconstrained request user action resource t.sess mapping) :
    ∃ e, OnRecord P t user.oid resource (mapping.map Mapping.d365_personnel_number) e :=
  ⟨_, hd.audited, committed_event_stored h ht hd.audited, rfl, rfl, rfl, rfl⟩

/-- **No disclosure without an audit record.** A route that returned has committed
its event before, and the event names the employee whose data it returned. -/
theorem no_disclosure_without_audit (h : portal.Reaches ⟨db, []⟩ P) (ht : t ∈ P.threads) :
    (∀ request user response, t.call = .me request user → t.Returned (.me response) →
      ∃ mapping : Option Mapping, ∃ e,
        OnRecord P t user.oid "/api/v1/me" (mapping.map Mapping.d365_personnel_number) e ∧
        (∀ m, mapping = some m → ReadAsVerified t.sess user.oid m) ∧
        response.mapping_status = (if mapping.isSome then "verified" else "unmapped")) ∧
    (∀ request user response, t.call = .myProfile request user →
      t.Returned (.profile response) →
      ∃ m e, OnRecord P t user.oid "/api/v1/me/profile" (some m.d365_personnel_number) e ∧
        ReadAsVerified t.sess user.oid m ∧ ProfileOf m t.sess response) ∧
    (∀ request user response, t.call = .myLeaveBalances request user →
      t.Returned (.balances response) →
      ∃ m e, OnRecord P t user.oid "/api/v1/me/leave-balances"
        (some m.d365_personnel_number) e ∧ ReadAsVerified t.sess user.oid m ∧
        BalancesOf m t.sess response) := by
  refine ⟨fun request user response hcall hret => ?_, fun request user response hcall hret => ?_,
    fun request user response hcall hret => ?_⟩
  · have houtcome := outcome_of_reaches h ht hret
    rw [hcall] at houtcome
    obtain ⟨mapping, hdisclosed, rfl⟩ := houtcome
    obtain ⟨e, he⟩ := hdisclosed.onRecord h ht
    exact ⟨mapping, e, he, fun m hm => hdisclosed.readAsVerified hm, rfl⟩
  · have houtcome := outcome_of_reaches h ht hret
    rw [hcall] at houtcome
    obtain ⟨m, hdisclosed, hprofile⟩ := houtcome
    obtain ⟨e, he⟩ := hdisclosed.onRecord h ht
    exact ⟨m, e, he, hdisclosed.readAsVerified rfl, hprofile⟩
  · have houtcome := outcome_of_reaches h ht hret
    rw [hcall] at houtcome
    obtain ⟨m, hdisclosed, hbalances⟩ := houtcome
    obtain ⟨e, he⟩ := hdisclosed.onRecord h ht
    exact ⟨m, e, he, hdisclosed.readAsVerified rfl, hbalances⟩

end Audit

section Example

open scoped Ascii

theorem no_disclosure_without_audit_firstSignIn :
    ∃ (P : Portal.Pool) (t : Portal.Thread) (response : EmployeeProfileResponse),
      portal.Reaches ⟨exampleDatabase, []⟩ P ∧ t.Returned (.profile response) ∧
      ∃ e, OnRecord P t exampleUser.oid "/api/v1/me/profile"
        (some response.employee.personnelNumber) e := by
  obtain ⟨P, t, reply, h, ht, hcall, hret, hreply⟩ := Portal.exists_run _ exampleRun
  cases reply with
  | profile response =>
    obtain ⟨m, e, he, -, hprofile⟩ :=
      (no_disclosure_without_audit h ht).2.1 {} exampleUser response hcall hret
    exact ⟨P, t, response, h, hret, e, hprofile.personnel_number ▸ he⟩
  | _ => cases hreply

end Example

end EmployeePortal
