import EmployeePortal.Auth.User
import EmployeePortal.D365.Client
import EmployeePortal.Employees.MappingService

/-!
# `IdentityProvisioningService`

`provision` has two halves. `confirm` asks D365 who the caller is and does not
touch the identity tables; `settle` looks for rows in the way, inserts the
mapping with its history, and looks again when the insert was refused. The
rules at the end say what each half may leave behind.
-/

namespace EmployeePortal.Employees

open EmployeePortal.Python EmployeePortal.Framework EmployeePortal.D365

def requiredIdentityFields : List String :=
  ["entraOid", "entraUpn", "personnelNumber", "company"]

/-- The error when D365 cannot be asked or does not make sense. -/
def provisioningUnavailable : Exc :=
  .portal ⟨"IDENTITY_PROVISIONING_UNAVAILABLE",
    "Employee identity verification is temporarily unavailable.", 503⟩

def provisioningNotConfigured : PortalError :=
  ⟨"IDENTITY_PROVISIONING_NOT_CONFIGURED",
    "Automatic employee identity verification is not configured.", 503⟩

/-- What D365 confirmed about the caller. -/
structure Worker where
  entra_oid : String
  entra_upn : String
  personnel_number : String
  company : String

/-! ## The conflict query and the same-mapping test -/

/-- The condition of `_find_conflicts`. -/
def conflictRow (entra_oid personnel_number company : String) : Where :=
  .or_ (.eq .entra_oid entra_oid)
    (.and_ (.eq .d365_personnel_number personnel_number) (.eq .d365_company company))

theorem conflictRow_holds {entra_oid personnel_number company : String} {m : Mapping} :
    (conflictRow entra_oid personnel_number company).holds m = true ↔
      m.entra_oid = some entra_oid ∨
        m.d365_personnel_number = personnel_number ∧ m.d365_company = some company := by
  simp [conflictRow, Column.of]

def findConflicts (w : Worker) : Coroutine (List Mapping) :=
  await (.scalars (conflictRow w.entra_oid w.personnel_number w.company))

section Provision

variable [UnicodeData]

def isSameMapping (mapping : Mapping) (w : Worker) : Bool :=
  mapping.entra_oid = some w.entra_oid &&
    mapping.d365_personnel_number = w.personnel_number &&
    casefold (mapping.d365_company.getD "") = casefold w.company &&
    mapping.enabled && mapping.verified

theorem isSameMapping_iff {m : Mapping} {w : Worker} :
    isSameMapping m w = true ↔ m.entra_oid = some w.entra_oid ∧
      m.d365_personnel_number = w.personnel_number ∧
      casefold (m.d365_company.getD "") = casefold w.company ∧
      m.enabled = true ∧ m.verified = true := by
  simp [isSameMapping, and_assoc]

/-! ## Asking D365 -/

/-- `_validated_fields`. -/
def identityFields (raw : Dict Json) : Except Exc (Dict String) := do
  let fields ← selectFields requiredIdentityFields raw
  if ∀ key ∈ requiredIdentityFields, (fields.get? key).isSome then return fields
  else throw (.portal ⟨"IDENTITY_PROVISIONING_NOT_CONFIGURED",
    "Automatic employee identity mapping is incomplete.", 503⟩)

/-- A required field is there, and it is an identifier. -/
theorem item_identityFields {raw : Dict Json} {fields : Dict String}
    (h : identityFields raw = .ok fields) {key : String} (hkey : key ∈ requiredIdentityFields) :
    ∃ field, fields.get? key = some field ∧ item fields key = .ok field ∧
      isIdentifier field = true := by
  obtain ⟨hselect, hmapped⟩ := selectFields_of_checked h
  obtain ⟨field, hfield⟩ := Option.isSome_iff_exists.mp (hmapped key hkey)
  obtain ⟨xs, ys, hfields, -⟩ := List.lookup_eq_some_iff.mp hfield
  refine ⟨field, hfield, by rw [item, hfield], selectFields_ok hselect (key, field) ?_⟩
  rw [hfields]
  exact List.mem_append_right _ List.mem_cons_self

/-- `_verify_record`. -/
def verifyRecord (record : Dict Json) (fields : Dict String) (entra_oid upn : String) :
    Except Exc (String × String) := do
  let some returned := Uuid.parse ((record.getD (← item fields "entraOid") .null).text)
    | throw mappingConflict
  let returned_upn :=
    strip (casefold (record.getD (← item fields "entraUpn") (.str "")).text)
  if returned.toText ≠ entra_oid ∨ returned_upn ≠ upn then throw mappingConflict
  let personnel_number :=
    strip (record.getD (← item fields "personnelNumber") (.str "")).text
  let company := strip (record.getD (← item fields "company") (.str "")).text
  if personnel_number = "" ∨ 64 < personnel_number.length then throw mappingConflict
  if company = "" ∨ 32 < company.length then throw mappingConflict
  return (personnel_number, company)

/-- `user.preferred_username.casefold().strip()`, empty when there is none. -/
def callerUpn (user : AuthenticatedUser) : String :=
  match truthy user.preferred_username with
  | some name => strip (casefold name)
  | none => ""

/-- The request for the caller's identity record. -/
def identityQuery (configuration : EntityMapping) (fields : Dict String) (upn : String) :
    Coroutine (Dict Json) := do
  let filter ← equals (← item fields "entraUpn") upn
  getEntity configuration.entity_name
    { select := (fields.map Prod.snd).eraseDups, filter_expression := some filter,
      top := some 2 }

/-- What the answer says about the caller, `none` where nothing. -/
def readAnswer (payload : Dict Json) (fields : Dict String) (entra_oid upn : String) :
    Except Exc (Option Worker) :=
  match payload.get? "value" with
  | some (.arr []) => return none
  | some (.arr [.obj record]) => do
      let (personnel_number, company) ← verifyRecord record fields entra_oid upn
      return some ⟨entra_oid, upn, personnel_number, company⟩
  | some (.arr _) => throw mappingConflict
  | _ => throw provisioningUnavailable

/-- The first half of `provision`; `none` where it returns `None`. -/
def confirm (user : AuthenticatedUser) : Coroutine (Option Worker) := do
  let upn := callerUpn user
  if upn = "" then return none
  let some oid := Uuid.parse user.oid | throw mappingConflict
  let configuration ← requiredConfiguration "identity" provisioningNotConfigured
  let fields ← identityFields configuration.field_mapping
  let payload ←
    try identityQuery configuration fields upn
    catch
      | .d365 _ _ => throw provisioningUnavailable
      | e => throw e
  readAnswer payload fields oid.toText upn

/-! ## Writing the mapping -/

def autoMapping (id : Uuid) (user : AuthenticatedUser) (w : Worker) : Mapping where
  id := id
  entra_oid := some w.entra_oid
  entra_upn := some w.entra_upn
  entra_email := (truthy user.email).map casefold
  d365_personnel_number := w.personnel_number
  d365_company := some w.company
  mapping_source := "d365_oid_auto_verified"
  verified := true
  enabled := true

def autoHistory (id : Uuid) (w : Worker) : History where
  mapping_id := id
  changed_by_oid := w.entra_oid
  change_type := "AUTO_VERIFY_D365_OID"
  after_values := [("entra_oid", w.entra_oid), ("d365_personnel_number", w.personnel_number),
    ("d365_company", w.company), ("mapping_source", "d365_oid_auto_verified")]

/-- The only row found, when it is the caller's own. -/
def sameOrConflict (w : Worker) : List Mapping → Coroutine (Option Mapping)
  | [mapping] => if isSameMapping mapping w then return some mapping else throw mappingConflict
  | _ => throw mappingConflict

/-- Look again after a refused commit. -/
def reread (w : Worker) : Coroutine (Option Mapping) := do
  await .rollback
  sameOrConflict w (← findConflicts w)

/-- Insert the mapping with its history. -/
def insertMapping (user : AuthenticatedUser) (w : Worker) : Coroutine (Option Mapping) := do
  let id ← await .uuid4
  await (.add (.mapping (autoMapping id user w)))
  await (.add (.history (autoHistory id w)))
  try
    await .commit
    pure (some (autoMapping id user w))
  catch
    | .integrityError => reread w
    | e => throw e

/-- The second half of `provision`. -/
def settle (user : AuthenticatedUser) (w : Worker) : Coroutine (Option Mapping) := do
  match ← findConflicts w with
  | [] => insertMapping user w
  | existing => sameOrConflict w existing

def provision (user : AuthenticatedUser) : Coroutine (Option Mapping) := do
  match ← confirm user with
  | none => return none
  | some w => settle user w

/-! ## Which operations the second half comes to -/

theorem sameOrConflict_only {P : Op → Prop} (w : Worker) (rows : List Mapping) :
    (sameOrConflict w rows).Only P := by
  match rows with
  | [] => trivial
  | [mapping] =>
    rw [sameOrConflict]
    by_cases hsame : isSameMapping mapping w = true
    · rw [if_pos hsame]
      trivial
    · rw [if_neg hsame]
      trivial
  | _ :: _ :: _ => trivial

theorem settle_only {P : Op → Prop} {user : AuthenticatedUser} {w : Worker}
    (hscalars : ∀ x, P (.scalars x)) (huuid4 : P .uuid4) (hcommit : P .commit)
    (hrollback : P .rollback) (hmapping : ∀ id, P (.add (.mapping (autoMapping id user w))))
    (hhistory : ∀ id, P (.add (.history (autoHistory id w)))) : (settle user w).Only P := by
  have hfind : (findConflicts w).Only P := Prog.Only.perform (hscalars _)
  unfold settle
  refine Prog.Only.bind hfind fun rows => ?_
  cases rows with
  | cons mapping rows => exact sameOrConflict_only w _
  | nil =>
    change (insertMapping user w).Only P
    unfold insertMapping
    refine Prog.Only.bind (Prog.Only.perform huuid4) fun id => ?_
    refine Prog.Only.bind (Prog.Only.perform (hmapping id)) fun _ => ?_
    refine Prog.Only.bind (Prog.Only.perform (hhistory id)) fun _ => ?_
    refine Prog.Only.tryCatch (Prog.Only.bind (Prog.Only.perform hcommit) fun _ => trivial) ?_
    intro e
    cases e with
    | integrityError =>
      change (reread w).Only P
      unfold reread
      refine Prog.Only.bind (Prog.Only.perform hrollback) fun _ => ?_
      exact Prog.Only.bind hfind fun rows => sameOrConflict_only w rows
    | _ => trivial

/-! ## What each half may leave behind -/

theorem readAnswer_ok {payload : Dict Json} {fields : Dict String} {entra_oid upn : String}
    {w : Worker} (h : readAnswer payload fields entra_oid upn = .ok (some w)) :
    w.entra_oid = entra_oid := by
  unfold readAnswer at h
  split at h
  · cases h
  · obtain ⟨_, _, h⟩ := bind_eq_ok.mp h
    cases h
    rfl
  · cases h
  · cases h

section Rules

variable {K : Contract Database} {sem : OpSem Op Op.Answer Exc Database Session}
  (hK : Conforms K sem) {s : Database} {l : Session}

theorem sameOrConflict_safe {w : Worker} {rows : List Mapping}
    {Q : Post Exc (Option Mapping) Database Session}
    (same : ∀ m, rows = [m] → isSameMapping m w = true → Q (.ok (some m)) s l)
    (conflict : (∀ m, rows = [m] → ¬ isSameMapping m w = true) →
      Q (.error mappingConflict) s l) :
    Safe K sem (sameOrConflict w rows) Q s l := by
  match rows with
  | [m] =>
    simp only [sameOrConflict]
    split
    · rename_i hsame
      exact same m rfl hsame
    · rename_i hsame
      exact conflict fun m' h => by cases h; exact hsame
  | [] => exact conflict fun _ h => by cases h
  | _ :: _ :: _ => exact conflict fun _ h => by cases h

include hK

theorem identityQuery_safe (configuration : EntityMapping) (fields : Dict String)
    (upn : String) :
    Safe K sem (identityQuery configuration fields upn) (fun _ _ l' => l.Idle l') s l := by
  unfold identityQuery
  cases hfield : item fields "entraUpn" with
  | error e => exact .refl l
  | ok field =>
    cases hfilter : equals field upn with
    | error e =>
      simp only [Prog.liftM_eq, Prog.ofExcept_ok, Prog.ret_bind, hfilter, Prog.ofExcept_error,
        Prog.raise_bind]
      exact .refl l
    | ok filter =>
      simp only [hfilter, Prog.liftM_eq, Prog.ofExcept_ok, Prog.ret_bind]
      exact (getEntity_safe hK _ _).mono fun _ _ _ h => h.1

theorem confirm_safe (user : AuthenticatedUser) :
    Safe K sem (confirm user) (fun r _ l' => l.Idle l' ∧ ∀ w, r = .ok (some w) →
      ∃ u, Uuid.parse user.oid = some u ∧ w.entra_oid = u.toText) s l := by
  have hfail : ∀ {P : Worker → Prop} {l' e}, l.Idle l' → l.Idle l' ∧
      ∀ w, (.error e : Except Exc (Option Worker)) = .ok (some w) → P w :=
    fun hidle => ⟨hidle, fun _ h => by cases h⟩
  unfold confirm
  by_cases hupn : callerUpn user = ""
  · simp only [hupn, if_true]
    exact ⟨.refl l, fun _ h => by cases h⟩
  simp only [hupn, if_false]
  cases hoid : Uuid.parse user.oid with
  | none => exact ⟨.refl l, fun _ h => by cases h⟩
  | some u =>
    refine Safe.bind (requiredConfiguration_safe hK _ _) ?_ fun _ _ _ h => hfail h.1
    rintro configuration s₁ l₁ ⟨hidle₁, -⟩
    refine Safe.bind (Safe.ofExcept (Q := fun _ _ l' => l.Idle l') hidle₁) ?_
      fun _ _ _ => hfail
    intro fields s₂ l₂ hidle₂
    refine Safe.bind (Safe.tryCatch (Q := fun _ _ l' => l.Idle l')
      (identityQuery_safe hK configuration fields (callerUpn user))
      (fun _ _ _ h => hidle₂.trans h) fun e _ l₃ h => ?_) ?_ fun _ _ _ => hfail
    · cases e <;> exact hidle₂.trans h
    · intro payload s₃ l₃ hidle₃
      refine Safe.ofExcept ⟨hidle₃, fun w hw => ⟨u, rfl, readAnswer_ok hw⟩⟩

/-- The contract's side of an insert: the mapping and its history go in
together, at a store where the conflict query had found nothing before. -/
theorem settle_safe (user : AuthenticatedUser) (w : Worker)
    {Q : Post Exc (Option Mapping) Database Session} (hl : l.pending = [])
    (found : ∀ s₁ seen m, K.inv s₁ → m ∈ s₁.mappings → isSameMapping m w = true →
      sem (.scalars (conflictRow w.entra_oid w.personnel_number w.company)) s₁
        { l with seen := seen } (.ok [m]) s₁ (l.select s₁ [m]) →
      Q (.ok (some m)) s₁ (l.select s₁ [m]))
    (inserted : ∀ s₁ s₂ s₃ id l₂ l₃, K.inv s₁ → K.rely s₁ s₂ → K.inv s₂ →
      (∀ m ∈ s₁.mappings,
        ¬ (conflictRow w.entra_oid w.personnel_number w.company).holds m = true) →
      l₂ = { l with
        seen := s₁.mappings
        pending := [.mapping (autoMapping id user w), .history (autoHistory id w)] } →
      l₃ = { l with
        seen := s₁.mappings
        committed := l.committed ++
          [.mapping (autoMapping id user w), .history (autoHistory id w)] } →
      s₃.toTables = s₂.insertAll
        [.mapping (autoMapping id user w), .history (autoHistory id w)] →
      sem .commit s₂ l₂ (.ok ()) s₃ l₃ →
      K.inv s₃ ∧ K.guar s₂ s₃ ∧ Q (.ok (some (autoMapping id user w))) s₃ l₃)
    (failed : ∀ e s₁ l₁, l₁.pending = [] → l₁.committed = l.committed →
      Q (.error e) s₁ l₁) :
    Safe K sem (settle user w) Q s l := by
  obtain ⟨pending, read, seen, loaded, answered, committed⟩ := l
  dsimp only at hl
  subst hl
  -- either look at the table ends here or the rows of a conflict do
  have hfound : ∀ s₁ seen rows, K.inv s₁ → rows.Perm (s₁.mappings.filter
        (conflictRow w.entra_oid w.personnel_number w.company).holds) →
      sem (.scalars (conflictRow w.entra_oid w.personnel_number w.company)) s₁
        ⟨[], read, seen, loaded, answered, committed⟩ (.ok rows) s₁
        ⟨[], read ++ rows, s₁.mappings, loaded, answered, committed⟩ →
      Safe K sem (sameOrConflict w rows) Q s₁
        ⟨[], read ++ rows, s₁.mappings, loaded, answered, committed⟩ := by
    intro s₁ seen rows hinv hperm hsem
    refine sameOrConflict_safe (fun m hm hsame => ?_) fun _ => failed _ _ _ rfl rfl
    subst hm
    have hmem := hperm.subset (List.mem_singleton_self m)
    exact found s₁ seen m hinv (List.mem_of_mem_filter hmem) hsame hsem
  unfold settle findConflicts
  refine Safe.bind_iff.mpr (hK.scalars (fun s₁ rows _ hinv hperm hsem => ?_)
    fun _ _ _ _ => failed _ _ _ rfl rfl)
  match rows with
  | m :: ms => exact hfound s₁ seen _ hinv hperm hsem
  | [] =>
  have hfree : ∀ m ∈ s₁.mappings,
      ¬ (conflictRow w.entra_oid w.personnel_number w.company).holds m = true :=
    List.filter_eq_nil_iff.mp (List.nil_perm.mp hperm)
  show Safe K sem (insertMapping user w) Q s₁
    ⟨[], read ++ [], s₁.mappings, loaded, answered, committed⟩
  rw [List.append_nil]
  refine Safe.bind_iff.mpr (hK.uuid4 fun s₂ id hrely₂ hinv₂ _ => ?_)
  refine Safe.bind_iff.mpr (hK.add fun s₃ hrely₃ hinv₃ => ?_)
  refine Safe.bind_iff.mpr (hK.add fun s₄ hrely₄ hinv₄ => ?_)
  refine Safe.tryCatch_iff.mpr (Safe.bind_iff.mpr (hK.commit ?_ ?_ ?_))
  · intro s₅ s₆ l₆ hrely₅ hinv₅ hcommit hl₆ hsem₅
    have hrely := K.rely_trans hrely₂ (K.rely_trans hrely₃ (K.rely_trans hrely₄ hrely₅))
    exact inserted s₁ s₅ s₆ id _ l₆ hinv hrely hinv₅ hfree rfl hl₆
      (Database.commit_eq_some.mp hcommit) hsem₅
  · intro s₅ _ _ _
    refine Safe.bind_iff.mpr (hK.rollback (fun s₆ _ _ => ?_) fun _ _ _ _ => failed _ _ _ rfl rfl)
    refine Safe.bind_iff.mpr (hK.scalars (fun s₇ rows _ hinv₇ hperm₇ hsem₇ => ?_)
      fun _ _ _ _ => failed _ _ _ rfl rfl)
    exact hfound s₇ _ rows hinv₇ hperm₇ hsem₇
  · exact fun _ _ _ _ => failed _ _ _ rfl rfl

/-- `provision` inserts or finds a row only for the UUID its caller's oid denotes. -/
theorem provision_safe (user : AuthenticatedUser)
    {Q : Post Exc (Option Mapping) Database Session}
    (settled : ∀ s₁ l₁ w u, l.Idle l₁ → Uuid.parse user.oid = some u →
      w.entra_oid = u.toText → Safe K sem (settle user w) Q s₁ l₁)
    (unmatched : ∀ s₁ l₁, l.Idle l₁ → Q (.ok none) s₁ l₁)
    (failed : ∀ e s₁ l₁, l.Idle l₁ → Q (.error e) s₁ l₁) :
    Safe K sem (provision user) Q s l := by
  unfold provision
  refine Safe.bind (confirm_safe hK user) ?_ fun e s₁ l₁ h => failed e s₁ l₁ h.1
  rintro (_ | w) s₁ l₁ ⟨hidle, hw⟩
  · exact unmatched s₁ l₁ hidle
  · obtain ⟨u, hu, hoid⟩ := hw w rfl
    exact settled s₁ l₁ w u hidle hu hoid

end Rules

end Provision

end EmployeePortal.Employees
