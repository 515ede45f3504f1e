import EmployeePortal.Portal.Authorization

/-!
# Refusals leave no record

`record_audit` is called where something succeeded and nowhere else: no coroutine of the
portal adds an event whose result is not `SUCCESS`. A request that is refused, by the
role check, for want of a mapping or over a conflict, therefore leaves nothing behind
that says so, whatever path it took to the refusal.
-/

namespace EmployeePortal

open EmployeePortal.Python EmployeePortal.Framework EmployeePortal.Employees
  EmployeePortal.Tools EmployeePortal.Audit EmployeePortal.D365

/-- An event that records anything but a success. -/
def AuditEvent.isRefusal (e : AuditEvent) : Bool := e.result ≠ "SUCCESS"

def Row.isRefusal : Row → Bool
  | .event e => e.isRefusal
  | _ => false

/-- The operation adds no such event. -/
def Op.Unaccusing : Op → Prop
  | .add row => row.isRefusal = false
  | _ => True

/-- The events of a table that record anything but a success. -/
def refusals (t : Tables) : List AuditEvent := t.events.filter AuditEvent.isRefusal

/-- The session neither added nor committed such an event. -/
def Session.Unaccusing (l : Session) : Prop :=
  ∀ row ∈ l.pending ++ l.committed, row.isRefusal = false

theorem refusals_insertAll (t : Tables) {rows : List Row}
    (h : ∀ row ∈ rows, row.isRefusal = false) : refusals (t.insertAll rows) = refusals t := by
  induction rows generalizing t with
  | nil => rfl
  | cons row rows ih =>
    rw [Tables.insertAll_cons, ih _ fun x hx => h x (List.mem_cons_of_mem _ hx)]
    have hrow := h row List.mem_cons_self
    cases row with
    | mapping m => rfl
    | history x => rfl
    | event e =>
      have he : e.isRefusal = false := hrow
      rw [Tables.insert_event, refusals, List.filter_append, List.filter_singleton, he]
      exact List.append_nil _

theorem Session.Unaccusing.clear {l l' : Session} (h : l.Unaccusing) (hpending : l'.pending = [])
    (hcommitted : l'.committed = l.committed) : l'.Unaccusing := by
  intro row hrow
  rw [hpending, hcommitted] at hrow
  exact h row (List.mem_append_right _ hrow)

/-- What an operation that adds no refusal keeps. -/
theorem unaccusing_sem {o : Op} {s s' : Database} {l l' : Session} {r : Except Exc o.Answer}
    (ho : o.Unaccusing) (h : Sem o s l r s' l') (hl : l.Unaccusing) :
    refusals s'.toTables = refusals s.toTables ∧ l'.Unaccusing := by
  cases h
  case added row =>
    refine ⟨rfl, fun x hx => ?_⟩
    rw [List.append_assoc] at hx
    rcases List.mem_append.mp hx with hx | hx
    · exact hl x (List.mem_append_left _ hx)
    rcases List.mem_append.mp hx with hx | hx
    · obtain rfl := List.mem_singleton.mp hx
      exact ho
    · exact hl x (List.mem_append_right _ hx)
  case committed h =>
    rw [Database.commit_eq_some.mp h]
    refine ⟨refusals_insertAll _ fun row hrow => hl row (List.mem_append_left _ hrow), ?_⟩
    intro row hrow
    rw [List.nil_append] at hrow
    exact hl row (List.mem_append.mpr (List.mem_append.mp hrow).symm)
  case refused h => exact ⟨rfl, hl.clear rfl rfl⟩
  case commitFailed => exact ⟨rfl, hl.clear rfl rfl⟩
  case rolledBack => exact ⟨rfl, hl.clear rfl rfl⟩
  case rollbackFailed => exact ⟨rfl, hl.clear rfl rfl⟩
  all_goals exact ⟨rfl, hl⟩

theorem AdminStep.refusals {db db' : Database} (h : AdminStep db db') :
    EmployeePortal.refusals db'.toTables = EmployeePortal.refusals db.toTables := by
  rw [EmployeePortal.refusals, h.events, EmployeePortal.refusals]

/-- The coroutine adds no event that records anything but a success. -/
def Unaccusing {α : Type} (p : Coroutine α) : Prop := p.Only Op.Unaccusing

/-- One operation of a call that does not accuse. -/
theorem unaccusing_step {t : Portal.Thread} {o : Op} {k : Except Exc o.Answer → Coroutine Reply}
    {s s' : Database} {l' : Session} {r : Except Exc o.Answer}
    (ht : Unaccusing t.prog ∧ t.sess.Unaccusing) (hop : t.prog = .op o k)
    (hsem : Sem o s t.sess r s' l') :
    refusals s'.toTables = refusals s.toTables ∧ Unaccusing (k r) ∧ l'.Unaccusing := by
  obtain ⟨honly, hl⟩ := ht
  rw [hop] at honly
  obtain ⟨hs', hl'⟩ := unaccusing_sem honly.1 hsem hl
  exact ⟨hs', honly.2 r, hl'⟩

/-- The record of a success. -/
theorem unaccusing_recordAudit (request : Request) (user : AuthenticatedUser) {entry : Entry}
    (h : entry.result = "SUCCESS") : Unaccusing (recordAudit request user entry) := by
  refine recordAudit_only ?_ trivial
  change decide (entry.result ≠ "SUCCESS") = false
  simp [h]

theorem unaccusing_required (mapping : Option Mapping) (required : Bool) :
    Unaccusing (match mapping with
      | none => if required then throw mappingRequired else return none
      | some mapping => return some mapping) := by
  cases mapping with
  | some mapping => trivial
  | none => cases required <;> trivial

/-! ## Refused requests -/

/-- Whose request it is, of the employee routes. -/
def Call.routeCaller : Call → Option AuthenticatedUser
  | .me _ user | .myProfile _ user | .myLeaveBalances _ user => some user
  | _ => none

/-- The `PortalError` a request ended in. -/
def Portal.refusal : Portal.Thread → Option PortalError
  | ⟨_, _, .raise (.portal error), false⟩ => some error
  | _ => none

/-- The request of this user to an employee route ended in one of the three refusals. -/
def Refused (t : Portal.Thread) (user : AuthenticatedUser) : Prop :=
  t.call.routeCaller = some user ∧ (Portal.refusal t).any (fun error =>
    error.code ∈ ["ROLE_DENIED", "MAPPING_REQUIRED", "MAPPING_CONFLICT"]) = true

instance (t : Portal.Thread) (user : AuthenticatedUser) : Decidable (Refused t user) :=
  inferInstanceAs (Decidable (_ ∧ _))

/-- The session committed an event that says this caller was refused. -/
def RefusalRecorded (oid : String) (l : Session) : Prop :=
  ∃ e, Row.event e ∈ l.committed ∧ e.entra_oid = some oid ∧ e.isRefusal = true

/-- If the request was refused, it committed an event that says so. -/
def RefusalAudited (t : Portal.Thread) : Prop :=
  ∀ user, Refused t user → RefusalRecorded user.oid t.sess

theorem Session.Unaccusing.not_recorded {l : Session} (h : l.Unaccusing) (oid : String) :
    ¬ RefusalRecorded oid l := by
  rintro ⟨e, he, -, hrefusal⟩
  have hnone : e.isRefusal = false := h _ (List.mem_append_right _ he)
  rw [hnone] at hrefusal
  cases hrefusal

/-! ## No call accuses -/

section Calls

variable [UnicodeData]

theorem unaccusing_requiredConfiguration (mapping_key : String) (missing : PortalError) :
    Unaccusing (requiredConfiguration mapping_key missing) := by
  unfold requiredConfiguration
  refine Prog.Only.bind (Prog.Only.perform trivial) fun found => ?_
  cases found with
  | none => trivial
  | some configuration => exact Prog.Only.bind (Prog.Only.ofExcept _) fun _ => trivial

theorem unaccusing_getEntity (entity : String) (query : ODataQuery) :
    Unaccusing (getEntity entity query) := by
  unfold getEntity
  refine Prog.Only.bind (Prog.Only.ofExcept _) fun _ => ?_
  exact Prog.Only.bind (Prog.Only.ofExcept _) fun _ => Prog.Only.perform trivial

theorem unaccusing_confirm (user : AuthenticatedUser) : Unaccusing (confirm user) := by
  unfold confirm
  by_cases hupn : callerUpn user = ""
  · simp only [hupn, if_true]
    trivial
  simp only [hupn, if_false]
  cases Uuid.parse user.oid with
  | none => trivial
  | some u =>
    refine Prog.Only.bind (unaccusing_requiredConfiguration _ _) fun configuration => ?_
    refine Prog.Only.bind (Prog.Only.ofExcept _) fun fields => ?_
    refine Prog.Only.bind (Prog.Only.tryCatch ?_ fun e => ?_) fun payload => Prog.Only.ofExcept _
    · unfold identityQuery
      refine Prog.Only.bind (Prog.Only.ofExcept _) fun _ => ?_
      refine Prog.Only.bind (Prog.Only.ofExcept _) fun _ => ?_
      exact unaccusing_getEntity _ _
    · cases e <;> trivial

theorem unaccusing_provision (user : AuthenticatedUser) : Unaccusing (provision user) := by
  unfold provision
  refine Prog.Only.bind (unaccusing_confirm user) fun found => ?_
  cases found with
  | none => trivial
  | some w =>
    exact settle_only (fun _ => trivial) trivial trivial trivial (fun _ => rfl) fun _ => rfl

theorem unaccusing_resolveIdentity (request : Request) (user : AuthenticatedUser)
    (required : Bool) : Unaccusing (resolveIdentity request user required) := by
  unfold resolveIdentity
  refine Prog.Only.bind (findVerified_only (fun _ => trivial) user.oid) fun found => ?_
  cases found with
  | some mapping => trivial
  | none =>
    change Unaccusing (provisionAudited request user >>= _)
    refine Prog.Only.bind ?_ fun mapping => unaccusing_required mapping required
    unfold provisionAudited
    refine Prog.Only.bind (unaccusing_provision user) fun mapping => ?_
    cases mapping with
    | none => trivial
    | some mapping =>
      exact Prog.Only.bind (unaccusing_recordAudit request user rfl) fun _ => trivial

theorem unaccusing_route {α : Type} (request : Request) (user : AuthenticatedUser)
    (required : Bool) (action resource : String) {fetch : Option Mapping → Coroutine α}
    (hfetch : ∀ mapping, Unaccusing (fetch mapping)) :
    Unaccusing (route request user required action resource fetch) := by
  unfold route
  refine Prog.Only.bind (Prog.Only.ofExcept _) fun user => ?_
  refine Prog.Only.bind (unaccusing_resolveIdentity request user required) fun mapping => ?_
  refine Prog.Only.bind (hfetch mapping) fun answer => ?_
  exact Prog.Only.bind (unaccusing_recordAudit request user rfl) fun _ => trivial

theorem unaccusing_getProfile (identity : Mapping) : Unaccusing (getProfile identity) := by
  unfold getProfile
  refine Prog.Only.bind (unaccusing_requiredConfiguration _ _) fun _ => ?_
  refine Prog.Only.bind (Prog.Only.ofExcept _) fun _ => ?_
  refine Prog.Only.bind (Prog.Only.ofExcept _) fun _ => ?_
  refine Prog.Only.bind (Prog.Only.ofExcept _) fun _ => ?_
  exact Prog.Only.bind (unaccusing_getEntity _ _) fun _ => Prog.Only.ofExcept _

theorem unaccusing_leaveRecords (configuration : EntityMapping) (identity : Mapping) :
    Unaccusing (leaveRecords configuration identity) := by
  unfold leaveRecords
  refine Prog.Only.bind (Prog.Only.ofExcept _) fun _ => ?_
  refine Prog.Only.bind (Prog.Only.ofExcept _) fun _ => ?_
  refine Prog.Only.bind (Prog.Only.ofExcept _) fun _ => ?_
  refine Prog.Only.bind (unaccusing_getEntity _ _) fun _ => ?_
  exact Prog.Only.bind (Prog.Only.ofExcept _) fun _ => trivial

theorem unaccusing_leaveConfiguration (mapping_key : String) (required : Bool) :
    Unaccusing (leaveConfiguration mapping_key required) := by
  unfold leaveConfiguration
  refine Prog.Only.bind (Prog.Only.perform trivial) fun found => ?_
  cases found.filter (·.mapping_key = mapping_key) with
  | none => cases required <;> trivial
  | some configuration =>
    refine Prog.Only.bind (Prog.Only.ofExcept _) fun _ => ?_
    cases truthy configuration.company_field with
    | none => trivial
    | some field => exact Prog.Only.bind (Prog.Only.ofExcept _) fun _ => trivial

theorem unaccusing_getBalances (identity : Mapping) : Unaccusing (getBalances identity) := by
  unfold getBalances
  refine Prog.Only.bind (unaccusing_leaveConfiguration _ _) fun found => ?_
  cases found with
  | none => trivial
  | some configuration =>
    refine Prog.Only.bind (unaccusing_leaveRecords configuration identity) fun answer => ?_
    obtain ⟨records, fields⟩ := answer
    dsimp only
    split
    · refine Prog.Only.bind (unaccusing_leaveConfiguration _ _) fun found => ?_
      cases found with
      | none => exact Prog.Only.bind (Prog.Only.ofExcept _) fun _ => trivial
      | some fallback =>
        refine Prog.Only.bind (unaccusing_leaveRecords fallback identity) fun _ => ?_
        exact Prog.Only.bind (Prog.Only.ofExcept _) fun _ => trivial
    · exact Prog.Only.bind (Prog.Only.ofExcept _) fun _ => trivial

-- without this, elaboration evaluates the UUID parser on a variable
attribute [local irreducible] uuidOf

theorem unaccusing_createIdentityMapping (args : Args) :
    Unaccusing (createIdentityMapping args) := by
  unfold createIdentityMapping
  refine Prog.Only.bind (Prog.Only.ofExcept _) fun oid => ?_
  refine Prog.Only.bind (Prog.Only.ofExcept _) fun approved_by => ?_
  dsimp only
  split
  · trivial
  split
  · trivial
  unfold createApproved
  refine Prog.Only.bind (Prog.Only.perform trivial) fun taken => ?_
  cases taken with
  | some mapping => trivial
  | none =>
    refine Prog.Only.bind (Prog.Only.perform trivial) fun _ => ?_
    refine Prog.Only.bind (Prog.Only.perform rfl) fun _ => ?_
    refine Prog.Only.bind (Prog.Only.perform rfl) fun _ => ?_
    exact Prog.Only.bind (Prog.Only.perform trivial) fun _ => trivial

theorem unaccusing_body (c : Call) : Unaccusing c.body := by
  cases c with
  | findVerified entra_oid =>
    exact Prog.Only.bind (findVerified_only (fun _ => trivial) entra_oid) fun _ => trivial
  | provision user => exact Prog.Only.bind (unaccusing_provision user) fun _ => trivial
  | resolveIdentity request user required =>
    exact Prog.Only.bind (unaccusing_resolveIdentity request user required) fun _ => trivial
  | createIdentityMapping args =>
    exact Prog.Only.bind (unaccusing_createIdentityMapping args) fun _ => trivial
  | me request user =>
    exact Prog.Only.bind (unaccusing_route request user false _ _ fun _ => trivial)
      fun _ => trivial
  | myProfile request user =>
    refine Prog.Only.bind (unaccusing_route request user true _ _ fun mapping => ?_)
      fun _ => trivial
    cases mapping with
    | none => trivial
    | some mapping => exact unaccusing_getProfile mapping
  | myLeaveBalances request user =>
    refine Prog.Only.bind (unaccusing_route request user true _ _ fun mapping => ?_)
      fun _ => trivial
    cases mapping with
    | none => trivial
    | some mapping => exact unaccusing_getBalances mapping

variable {db : Database} {P : Portal.Pool} {t : Portal.Thread}

/-- **No refusal is on record.** In every run from any database, whatever D365 answers and
whatever others do: no request to the employee routes that ends refused has committed an
event that says so, and the table has no such event that it did not have before the run. -/
theorem refusals_unrecorded (h : portal.Reaches ⟨db, []⟩ P) (ht : t ∈ P.threads) :
    (RefusalAudited t ↔ ∀ user, ¬ Refused t user) ∧
      refusals P.store.toTables = refusals db.toTables := by
  obtain ⟨hstore, hthreads⟩ := System.thread_of_reaches (S := portal)
    (fun s => refusals s.toTables = refusals db.toTables)
    (fun _ t => Unaccusing t.prog ∧ t.sess.Unaccusing)
    (fun _ c _ => ⟨unaccusing_body c, fun _ hrow => by cases hrow⟩)
    (fun _ _ _ _ _ _ _ _ hs ht _ hop hsem =>
      have ⟨hs', ht'⟩ := unaccusing_step ht hop hsem
      ⟨hs'.trans hs, ht'⟩)
    (fun _ _ ht => ht) (fun _ _ hs henv => henv.refusals.trans hs) h rfl
    (fun _ _ ht => by cases ht)
  obtain ⟨i, hi⟩ := List.getElem?_of_mem ht
  have hunaccusing : t.sess.Unaccusing := (hthreads i t hi).2
  refine ⟨⟨fun haudited user hrefused => ?_, fun hnone user hrefused => ?_⟩, hstore⟩
  · exact hunaccusing.not_recorded user.oid (haudited user hrefused)
  · exact absurd hrefused (hnone user)

end Calls

/-! ### Nobody in D365 -/

section Example

open scoped Ascii

/-- `/me/profile` by a user D365 does not know: no verified row, the configuration, an
answer without a record. -/
def unknownVisit : List (System.Cue Hint Call) :=
  [.spawn (.myProfile {} exampleUser), .run 0 .go, .run 0 .go,
    .run 0 (.payload [("value", .arr [])])]

/-- The database takes every write. -/
def AcceptsWrites : Call → (o : Op) → Database → Session → Except Exc o.Answer → Prop
  | _, .commit, _, _, r => r ≠ .error .databaseError
  | _, _, _, _, _ => True

instance (c : Call) (o : Op) (s : Database) (l : Session) (r : Except Exc o.Answer) :
    Decidable (AcceptsWrites c o s l r) :=
  match o, r with
  | .commit, r => inferInstanceAs (Decidable (r ≠ .error .databaseError))
  | .scalars _, _ | .scalar _, _ | .configuration _, _ | .add _, _ | .rollback, _ | .uuid4, _
  | .getEntity _ _, _ => .isTrue trivial

/-- The user is refused with `MAPPING_REQUIRED`, and nothing is committed. -/
theorem not_refusals_audited :
    ¬ ∀ (P : Portal.Pool), (portal.given AcceptsWrites).Reaches ⟨exampleDatabase, []⟩ P →
      ∀ t ∈ P.threads, RefusalAudited t := by
  intro hall
  have hrun : (System.play (portal.given AcceptsWrites)
      (System.heed (fun _ => Op.play) AcceptsWrites) unknownVisit ⟨exampleDatabase, []⟩).any
        (fun P => P.threads.any fun t => Refused t exampleUser ∧ t.sess.committed = []) = true := by
    decide +kernel
  obtain ⟨P, hplay, hthreads⟩ := (Option.any_eq_true _ _).mp hrun
  obtain ⟨t, ht, hrefused⟩ := List.any_eq_true.mp hthreads
  obtain ⟨hrefused, hcommitted⟩ := of_decide_eq_true hrefused
  have hreaches := System.play_reaches (S := portal.given AcceptsWrites)
    (System.heed_sem (S := portal) (fun _ _ _ _ _ _ _ _ => Op.play_sem) AcceptsWrites) hplay
  obtain ⟨e, he, -⟩ := hall P hreaches t ht exampleUser hrefused
  rw [hcommitted] at he
  cases he

/-- The same visit: refused, and not on record. -/
theorem refusals_unrecorded_unknown : ∃ (P : Portal.Pool) (t : Portal.Thread),
    Refused t exampleUser ∧ ¬ RefusalAudited t ∧ refusals P.store.toTables = [] := by
  obtain ⟨P, hreaches, hthreads⟩ := Portal.exists_pool ⟨exampleDatabase, []⟩ unknownVisit
    (fun P => P.threads.any fun t => Refused t exampleUser) (by decide +kernel)
  obtain ⟨t, ht, hrefused⟩ := List.any_eq_true.mp hthreads
  obtain ⟨hrecorded, hstore⟩ := refusals_unrecorded hreaches ht
  exact ⟨P, t, of_decide_eq_true hrefused,
    fun haudited => hrecorded.mp haudited exampleUser (of_decide_eq_true hrefused), hstore⟩

end Example

end EmployeePortal
