import EmployeePortal.Portal.Revocation
import Mathlib.Algebra.Group.Int.Defs
import Mathlib.Tactic.Ring

/-!
# Provisioning and its audit event

A first sign-in is committed twice: `provision` commits the mapping, and then
`resolve_identity` commits the event that says so. The books are kept for each
UUID: a provisioned mapping counts one, its event counts minus one, and what the
tables gained is the sum over the sessions (`System.conserved`). A session whose
own rows come to zero is *settled*; once nothing runs and all sessions are
settled, events and mappings agree in number.

A session is left unsettled in three ways (`ProvisioningRecorded`): `provision`
returns a mapping it found and did not insert, and an event is written all the
same; the commit of the event fails; the request is cut off before it.
-/

namespace EmployeePortal

open EmployeePortal.Python EmployeePortal.Framework EmployeePortal.Employees
  EmployeePortal.Audit EmployeePortal.D365

section Books

variable [UnicodeData]

/-! ## The books of one UUID -/

/-- A mapping that `provision` inserted for `u`. -/
def isProvisioned (u : Uuid) (m : Mapping) : Bool :=
  m.mapping_source = "d365_oid_auto_verified" && m.entra_oid.any (Denotes · u)

/-- An event that records a provisioning for `u`. -/
def isProvisioningEvent (u : Uuid) (e : AuditEvent) : Bool :=
  e.action = "IDENTITY_AUTO_PROVISION" && e.entra_oid.any (Denotes · u)

def provisionedRows (u : Uuid) (t : Tables) : ℕ := t.mappings.countP (isProvisioned u)

def provisioningEvents (u : Uuid) (t : Tables) : ℕ := t.events.countP (isProvisioningEvent u)

/-- As many events as provisioned mappings, for every UUID. -/
def ProvisioningAudited (t : Tables) : Prop :=
  ∀ u, provisioningEvents u t = provisionedRows u t

/-- What a row adds to the books. -/
def entryOf (u : Uuid) : Row → ℤ
  | .mapping m => if isProvisioned u m then 1 else 0
  | .history _ => 0
  | .event e => if isProvisioningEvent u e then -1 else 0

def balance (u : Uuid) (rows : List Row) : ℤ := (rows.map (entryOf u)).sum

@[simp] theorem balance_nil (u : Uuid) : balance u [] = 0 := rfl

@[simp] theorem balance_cons (u : Uuid) (row : Row) (rows : List Row) :
    balance u (row :: rows) = entryOf u row + balance u rows := by
  simp [balance]

@[simp] theorem balance_append (u : Uuid) (rows rows' : List Row) :
    balance u (rows ++ rows') = balance u rows + balance u rows' := by
  simp [balance]

/-- Mappings less events. -/
def surplus (u : Uuid) (t : Tables) : ℤ := provisionedRows u t - provisioningEvents u t

theorem surplus_insert (u : Uuid) (t : Tables) (row : Row) :
    surplus u (t.insert row) = surplus u t + entryOf u row := by
  cases row with
  | mapping m =>
    simp only [surplus, provisionedRows, provisioningEvents, Tables.insert_mapping, entryOf,
      List.countP_append, List.countP_singleton]
    split <;> push_cast <;> ring
  | history h => simp [surplus, provisionedRows, provisioningEvents, entryOf]
  | event e =>
    simp only [surplus, provisionedRows, provisioningEvents, Tables.insert_event, entryOf,
      List.countP_append, List.countP_singleton]
    split <;> push_cast <;> ring

theorem surplus_insertAll (u : Uuid) (t : Tables) (rows : List Row) :
    surplus u (t.insertAll rows) = surplus u t + balance u rows := by
  induction rows generalizing t with
  | nil => simp
  | cons row rows ih => rw [Tables.insertAll_cons, ih, surplus_insert, balance_cons, add_assoc]

/-- Every operation adds to the tables what it adds to its session's rows. -/
theorem surplus_sem (u : Uuid) {o : Op} {s s' : Database} {l l' : Session}
    {r : Except Exc o.Answer} (h : Sem o s l r s' l') :
    surplus u s'.toTables + balance u l.committed =
      surplus u s.toTables + balance u l'.committed := by
  cases h
  case committed h =>
    rw [Database.commit_eq_some.mp h, surplus_insertAll, balance_append]
    ring
  all_goals rfl

/-! ## Settled sessions -/

/-- The provisionings the session committed and the events it committed for them
cancel out, for every UUID. -/
def Session.Settled (l : Session) : Prop := ∀ u, balance u l.committed = 0

theorem Session.settled_start : ({} : Session).Settled := fun _ => rfl

theorem Session.Settled.congr {l l' : Session} (h : l.Settled)
    (hcommitted : l'.committed = l.committed) : l'.Settled :=
  fun u => by rw [hcommitted]; exact h u

/-- An event of another action leaves the books as they are. -/
theorem Session.Settled.record {l : Session} (h : l.Settled) {e : AuditEvent}
    (he : e.action ≠ "IDENTITY_AUTO_PROVISION") :
    Session.Settled { l with committed := l.committed ++ [.event e] } := by
  intro u
  have hentry : entryOf u (.event e) = 0 := by simp [entryOf, isProvisioningEvent, he]
  simp [h u, hentry]

/-- A mapping, its history and the event of the provisioning cancel out. -/
theorem Session.Settled.insert {l : Session} (h : l.Settled) {user : AuthenticatedUser}
    {w : Worker} {u : Uuid} (hu : Denotes user.oid u) (hoid : w.entra_oid = u.toText) (id : Uuid)
    (request : Request) : Session.Settled { l with
      committed := l.committed ++ [.mapping (autoMapping id user w), .history (autoHistory id w)] ++
        [.event (event request user (provisionEntry (autoMapping id user w)))] } := by
  intro v
  have hdenotes : Denotes w.entra_oid v ↔ Denotes user.oid v := by
    rw [hoid]
    unfold Denotes at *
    rw [Uuid.parse_toText, hu]
  have hentries : entryOf v (.event (event request user (provisionEntry (autoMapping id user w)))) =
      -entryOf v (.mapping (autoMapping id user w)) := by
    simp only [entryOf, isProvisioningEvent, isProvisioned, event, provisionEntry, autoMapping,
      Option.any_some, hdenotes]
    split <;> rfl
  simp only [balance_append, balance_cons, balance_nil, h v, hentries]
  simp [entryOf]

end Books

/-! ## The employee routes -/

section Routes

variable [UnicodeData]

/-- Requests to the employee routes and nobody else, any of them cut off at any
time. -/
def routes : System Op Op.Answer Exc Reply Database Session Call :=
  { portal.only (fun c => c.isRoute = true) with env := fun _ _ => False }

instance : DecidablePred (routes : System _ _ _ _ _ _ _).admits :=
  fun c => inferInstanceAs (Decidable (True ∧ c.isRoute = true))

instance (c : Call) : DecidablePred ((routes : System _ _ _ _ _ _ _).cuts c) :=
  fun _ => .isTrue trivial

/-- The rows are one row, and it is the caller's own mapping. -/
def ownRowOnly (w : Worker) : List Mapping → Bool
  | [m] => isSameMapping m w
  | _ => false

/-- The action a row records. -/
def Row.action : Row → Option String
  | .event e => some e.action
  | _ => none

/-- The worker a conflict query is about. -/
def conflictWorker : Op → Option Worker
  | .scalars (.or_ (.eq .entra_oid oid)
      (.and_ (.eq .d365_personnel_number number) (.eq .d365_company company))) =>
      some ⟨oid, "", number, company⟩
  | _ => none

/-- The conflict query does not meet the caller's own mapping, and the commit of a
provisioning event does not fail. -/
structure ProvisioningRecorded (_ : Call) (o : Op) (s : Database) (l : Session)
    (r : Except Exc o.Answer) : Prop where
  inserts : ∀ w ∈ conflictWorker o, ownRowOnly w (s.mappings.filter
    (conflictRow w.entra_oid w.personnel_number w.company).holds) = false
  commits : o.isCommit = true → r.isOk = false →
    ∀ row ∈ l.pending, row.action ≠ some "IDENTITY_AUTO_PROVISION"

instance (c : Call) (o : Op) (s : Database) (l : Session) (r : Except Exc o.Answer) :
    Decidable (ProvisioningRecorded c o s l r) :=
  decidable_of_iff (_ ∧ _) ⟨fun ⟨x, y⟩ => ⟨x, y⟩, fun ⟨x, y⟩ => ⟨x, y⟩⟩

/-- The routes, with `ProvisioningRecorded` and no request cut off between the
commit of its mapping and the commit of its event. -/
def recordedRoutes : System Op Op.Answer Exc Reply Database Session Call :=
  { routes.given ProvisioningRecorded with cuts := fun _ l => l.Settled }

instance : DecidablePred (recordedRoutes : System _ _ _ _ _ _ _).admits :=
  inferInstanceAs (DecidablePred routes.admits)

open Classical in
noncomputable instance (c : Call) :
    DecidablePred ((recordedRoutes : System _ _ _ _ _ _ _).cuts c) := inferInstance

/-! ## Every request settles -/

/-- The session is settled and nothing is pending. -/
def SettlesTo {α : Type} : Post Exc α Database Session :=
  fun _ _ l => l.Settled ∧ l.pending = []

variable {c : Call} {s : Database} {l : Session}

theorem conforms_recorded (c : Call) : Conforms unconstrained (recordedRoutes.sem c) :=
  ⟨fun hsem => hsem.1, fun _ => trivial, id⟩

/-- A conflict query that found the caller's own mapping is not one of these runs. -/
theorem not_found_own {w : Worker} {m : Mapping} {l' : Session} (hsame : isSameMapping m w = true)
    (h : recordedRoutes.sem c (.scalars
      (conflictRow w.entra_oid w.personnel_number w.company)) s l (.ok [m]) s l') : False := by
  have hfilter : s.mappings.filter
      (conflictRow w.entra_oid w.personnel_number w.company).holds = [m] := by
    cases h.1 with
    | selected hperm => exact List.perm_singleton.mp hperm.symm
  have hrecorded : ownRowOnly ⟨w.entra_oid, "", w.personnel_number, w.company⟩
      (s.mappings.filter (conflictRow w.entra_oid w.personnel_number w.company).holds) = false :=
    h.2.inserts _ rfl
  rw [hfilter] at hrecorded
  exact Bool.false_ne_true (hrecorded.symm.trans hsame)

theorem recordAudit_settles {request : Request} {user : AuthenticatedUser} {entry : Entry}
    (hl : SettlesTo (.ok ()) s l) (hentry : entry.action ≠ "IDENTITY_AUTO_PROVISION") :
    Safe unconstrained (recordedRoutes.sem c) (recordAudit request user entry) SettlesTo s l := by
  refine recordAudit_safe (conforms_recorded c) hl.2 ?_ fun _ _ _ _ => hl
  rintro s₁ s₂ _ _ _ _ rfl _
  exact ⟨trivial, trivial, hl.1.record hentry, hl.2⟩

theorem provisionAudited_settles (request : Request) (user : AuthenticatedUser)
    (hl : SettlesTo (.ok ()) s l) :
    Safe unconstrained (recordedRoutes.sem c) (provisionAudited request user) SettlesTo s l := by
  unfold provisionAudited
  have hidle : ∀ {l' : Session}, l.Idle l' → l'.Settled ∧ l'.pending = [] := fun h =>
    ⟨hl.1.congr h.committed, h.pending.trans hl.2⟩
  refine Safe.bind_iff.mpr (provision_safe (conforms_recorded c) user ?_
    (fun s₁ l₁ h => hidle h) fun _ _ _ h => hidle h)
  intro s₁ l₁ w u h hu hoid
  obtain ⟨hsettled, hpending⟩ := hidle h
  refine settle_safe (conforms_recorded c) user w hpending ?_ ?_
    fun _ _ _ hpending' hcommitted => ⟨hsettled.congr hcommitted, hpending'⟩
  · intro s₂ seen m _ _ hsame hsem
    exact (not_found_own hsame hsem).elim
  · rintro s₂ s₃ s₄ id l₂ l₃ _ _ _ _ - rfl _ -
    refine ⟨trivial, trivial, ?_⟩
    refine Safe.bind_iff.mpr (recordAudit_safe (conforms_recorded c) hpending ?_ ?_)
    · rintro s₅ s₆ _ _ _ _ rfl _
      exact ⟨trivial, trivial, hsettled.insert hu hoid id request, hpending⟩
    · intro s₅ _ _ hsem
      exact absurd rfl (hsem.2.commits rfl rfl _ (List.mem_singleton_self _))

theorem route_settles {α : Type} {request : Request} {user : AuthenticatedUser}
    {required : Bool} {action resource : String} {fetch : Option Mapping → Coroutine α}
    (haction : action ≠ "IDENTITY_AUTO_PROVISION")
    (hfetch : ∀ mapping s l, Safe unconstrained (recordedRoutes.sem c) (fetch mapping)
      (fun _ _ l' => l.Idle l') s l) (hl : SettlesTo (.ok ()) s l) :
    Safe unconstrained (recordedRoutes.sem c)
      (route request user required action resource fetch) SettlesTo s l := by
  unfold route
  cases hrole : portalUser user with
  | error e => exact hl
  | ok user' =>
  obtain rfl := requireRoles_ok hrole
  simp only [Prog.liftM_eq, Prog.ofExcept_ok, Prog.ret_bind]
  refine Safe.bind (R := SettlesTo) ?_ ?_ fun _ _ _ h => h
  · refine resolveIdentity_safe (conforms_recorded c) request user' required hl.2 ?_ ?_
      fun _ _ _ hpending hcommitted => ⟨hl.1.congr hcommitted, hpending⟩
    · exact fun _ _ _ _ _ _ _ _ => hl
    · intro s₁ seen _
      refine (provisionAudited_settles request user' (s := s₁)
        (l := { l with seen := seen }) hl).mono ?_
      rintro (e | _ | m) s₂ l₂ h
      · exact h
      · cases required <;> exact h
      · exact h
  · rintro mapping s₁ l₁ ⟨hsettled, hpending⟩
    refine Safe.bind (hfetch mapping s₁ l₁) ?_ fun _ _ l₂ hidle =>
      ⟨hsettled.congr hidle.committed, hidle.pending.trans hpending⟩
    intro a s₂ l₂ hidle
    refine Safe.bind (recordAudit_settles (s := s₂)
      ⟨hsettled.congr hidle.committed, hidle.pending.trans hpending⟩ haction)
      (fun _ _ _ h => h) fun _ _ _ h => h

theorem body_settles (hc : c.isRoute = true) (s : Database) :
    Safe unconstrained (recordedRoutes.sem c) c.body SettlesTo s {} := by
  have hl : SettlesTo (.ok ()) s {} := ⟨Session.settled_start, rfl⟩
  cases c with
  | me request user =>
    refine Safe.bind (route_settles (by decide) (fun _ _ l => ?_) hl)
      (fun _ _ _ h => h) fun _ _ _ h => h
    exact .refl l
  | myProfile request user =>
    refine Safe.bind (route_settles (by decide) (fun mapping s l => ?_) hl)
      (fun _ _ _ h => h) fun _ _ _ h => h
    cases mapping with
    | none => exact .refl l
    | some m => exact (getProfile_safe (conforms_recorded _) m).mono fun _ _ _ h => h.1
  | myLeaveBalances request user =>
    refine Safe.bind (route_settles (by decide) (fun mapping s l => ?_) hl)
      (fun _ _ _ h => h) fun _ _ _ h => h
    cases mapping with
    | none => exact .refl l
    | some m => exact (getBalances_safe (conforms_recorded _) m).mono fun _ _ _ h => h.1
  | _ => cases hc

/-- **Provisioning audit matches provisioning.** Once no request is running, a
UUID has as many provisioning events as provisioned mappings, if it had so
before, as in an empty database, and every request on the way met its condition. -/
theorem provisioning_audited {db : Database} (hdb : ProvisioningAudited db.toTables)
    {P : Portal.Pool} (h : recordedRoutes.Reaches ⟨db, []⟩ P) (hquiet : P.Quiet) :
    ProvisioningAudited P.store.toTables := by
  have hsafe := System.safe_of_reaches (S := recordedRoutes) (K := unconstrained)
    (Q := fun _ _ => SettlesTo) (fun _ _ h => h) (fun _ _ _ _ _ _ h _ _ => h)
    (fun _ _ _ h => h.elim) (fun _ c s hc _ => body_settles hc.2 s) h
    (System.safe_nil _ _ _ trivial)
  have hcuts := System.cuts_of_reaches h (fun _ ht => by cases ht)
  -- a call is settled when it returns, and it is cut off only when it is
  have hsettled : ∀ t ∈ P.threads, t.sess.Settled := by
    intro t ht
    obtain ⟨i, hi⟩ := List.getElem?_of_mem ht
    cases hcut : t.cut with
    | true => exact hcuts t ht hcut
    | false =>
      have hown := hsafe.2 i t hi hcut
      rcases hquiet t ht with hcut' | ⟨a, hprog⟩ | ⟨e, hprog⟩
      · rw [hcut] at hcut'
        cases hcut'
      · rw [hprog] at hown
        exact hown.1
      · rw [hprog] at hown
        exact hown.1
  intro u
  -- what the table is ahead or behind is what the sessions are together
  have hconserved := System.conserved (S := recordedRoutes)
    (fun s : Database => surplus u s.toTables) (fun l => balance u l.committed) rfl
    (fun _ _ h => h.elim) (fun _ _ _ _ _ _ _ hsem => surplus_sem u hsem.1) h
  have htotal : P.total (fun l => balance u l.committed) = 0 := by
    refine List.sum_eq_zero fun x hx => ?_
    obtain ⟨t, ht, rfl⟩ := List.mem_map.mp hx
    exact hsettled t ht u
  rw [htotal] at hconserved
  have hstart := hdb u
  simp only [surplus, Pool.total, List.map_nil, List.sum_nil, add_zero] at hconserved
  omega

end Routes

/-! ## A second sign-in -/

section Example

open scoped Ascii

/-- `/me` by a user who signs in for the first time. -/
def firstVisit : List (System.Cue Hint Call) :=
  .spawn (.me {} exampleUser) ::
    firstSignIn 0 (exampleAnswer exampleUser.oid "000123" "usmf") firstId ++
    [.run 0 .go, .run 0 .go]

/-- `/me` by the same user with the oid in capitals: no row has that text, D365
confirms the user, and the conflict query meets the row of the first visit. -/
def secondVisit : List (System.Cue Hint Call) :=
  [.spawn (.me {} exampleUserInCapitals), .run 1 .go, .run 1 .go,
    .run 1 (exampleAnswer exampleUser.oid "000123" "usmf"), .run 1 .go,
    .run 1 .go, .run 1 .go, .run 1 .go, .run 1 .go]

/-- Two visits of one user leave one mapping and two provisioning events. -/
theorem not_provisioning_audited :
    ¬ ∀ P : Portal.Pool, routes.Reaches ⟨exampleDatabase, []⟩ P → P.Quiet →
      ProvisioningAudited P.store.toTables := by
  intro hall
  have hrun : (System.play routes (fun _ => Op.play) (firstVisit ++ secondVisit)
      ⟨exampleDatabase, []⟩).any (fun P => P.Quiet ∧
        provisioningEvents exampleUuid P.store.toTables ≠
          provisionedRows exampleUuid P.store.toTables) = true := by
    decide +kernel
  obtain ⟨P, hplay, hP⟩ := (Option.any_eq_true _ _).mp hrun
  obtain ⟨hquiet, hne⟩ := of_decide_eq_true hP
  exact hne (hall P (System.play_reaches (fun _ _ _ _ _ _ _ _ => Op.play_sem) hplay) hquiet _)

theorem provisioningAudited_empty (configurations : List EntityMapping)
    (h : (configurations.map EntityMapping.mapping_key).Nodup) :
    ProvisioningAudited (Database.empty configurations h).toTables := fun _ => rfl

/-- The first visit leaves one mapping, with its event. -/
theorem provisioning_audited_firstVisit :
    ∃ P : Portal.Pool, P.store.mappings.length = 1 ∧ ProvisioningAudited P.store.toTables := by
  have hrun : (System.play recordedRoutes (System.heed (fun _ => Op.play) ProvisioningRecorded)
      firstVisit ⟨exampleDatabase, []⟩).any
        (fun P => P.Quiet ∧ P.store.mappings.length = 1) = true := by
    decide +kernel
  obtain ⟨P, hplay, hP⟩ := (Option.any_eq_true _ _).mp hrun
  obtain ⟨hquiet, hlength⟩ := of_decide_eq_true hP
  have h := System.play_reaches (S := recordedRoutes) (System.heed_sem (S := routes)
    (fun _ _ _ _ _ _ _ _ => Op.play_sem) ProvisioningRecorded) hplay
  exact ⟨P, hlength, provisioning_audited (provisioningAudited_empty _ _) h hquiet⟩

end Example

end EmployeePortal
