import EmployeePortal.D365.Balances
import EmployeePortal.D365.ProfileService
import EmployeePortal.Employees.ProvisioningTrace

/-!
# What the services ask of a configuration row

Before a service asks D365 it checks the row it has found: the name of the entity, the
columns of the logical fields, the identity field and the fields of its filter. Here are
these steps by themselves, what a row needs to pass them, and that each service takes
them before anything else.
-/

namespace EmployeePortal.Employees

open EmployeePortal.Python EmployeePortal.Framework EmployeePortal.D365

/-- The keys of `d365_entity_mapping` that a service reads. -/
inductive ServiceKey where
  | identity
  | profile
  | leave_balance
  | leave_balance_active

namespace ServiceKey

def mapping_key : ServiceKey → String
  | identity => "identity"
  | profile => "profile"
  | leave_balance => "leave_balance"
  | leave_balance_active => "leave_balance_active"

/-- The logical fields the service knows. -/
def known : ServiceKey → List String
  | identity => requiredIdentityFields
  | profile => profileFieldNames
  | leave_balance | leave_balance_active => leaveBalanceFieldNames

/-- Those it cannot do without. -/
def required : ServiceKey → List String
  | identity => requiredIdentityFields
  | profile => ["personnelNumber"]
  | leave_balance | leave_balance_active => ["leaveType"]

/-- The service asks by the identity field of the row. -/
def byIdentityField : ServiceKey → Bool
  | identity => false
  | _ => true

end ServiceKey

/-- A `ValueError`, or a `PortalError` whose code ends with `_NOT_CONFIGURED`. -/
def isMisconfiguration : Exc → Bool
  | .valueError _ => true
  | .portal e => "_NOT_CONFIGURED".toList.isSuffixOf e.code.toList
  | _ => false

/-- The required fields are mapped, and every known field that is mapped is mapped to an
identifier. -/
def Selectable (known required : List String) (raw : Dict Json) : Prop :=
  (∀ logical ∈ required, ∃ field, (logical, Json.str field) ∈ raw) ∧
    ∀ logical ∈ known, ∀ field, (logical, Json.str field) ∈ raw → isIdentifier field = true

/-- What the service of a key needs of a row's columns. -/
structure Complete (key : ServiceKey) (field_mapping : Dict Json)
    (personnel_number_field company_field : Option String) : Prop where
  field_mapping : Selectable key.known key.required field_mapping
  personnel_number_field : key.byIdentityField = true →
    ∃ field, personnel_number_field = some field ∧ isIdentifier field = true
  company_field : key.byIdentityField = true → ∀ field, company_field = some field →
    field ≠ "" → isIdentifier field = true

/-! ## The steps -/

section Steps

variable [UnicodeData]

/-- The left-hand sides of `equals(f1, v1), .., equals(fn, vn)`. -/
def fieldSides (pairs : List (String × String)) : Except Exc Unit :=
  pairs.forM fun p => discard (validateIdentifier p.1)

/-- `IdentityProvisioningService`: `_configuration`, `_validated_fields`, and the field of
the filter. -/
def identitySteps (configuration : EntityMapping) : Except Exc Unit := do
  let _ ← validateIdentifier configuration.entity_name
  let fields ← identityFields configuration.field_mapping
  discard (validateIdentifier (← item fields "entraUpn"))

/-- `D365ProfileService`: `_configuration`, `_validated_fields`, `_required_identifier`,
and the fields of the filter. -/
def profileSteps (configuration : EntityMapping) (identity : Mapping) : Except Exc Unit := do
  let _ ← validateIdentifier configuration.entity_name
  let _ ← profileFields configuration.field_mapping
  let personnel_field ← requiredIdentifier
    (profileNotConfigured "Profile identity field is missing.")
    configuration.personnel_number_field
  fieldSides (identityPairs personnel_field configuration identity)

/-- `if configuration.company_field: validate_identifier(configuration.company_field)`. -/
def validateCompanyField (company_field : Option String) : Except Exc Unit :=
  match truthy company_field with
  | some field => discard (validateIdentifier field)
  | none => .ok ()

/-- `D365LeaveService`: `_configuration`, `_validated_fields`, `_required_identifier`, and
the fields of the filter. -/
def leaveSteps (configuration : EntityMapping) (identity : Mapping) : Except Exc Unit := do
  let _ ← validateIdentifier configuration.entity_name
  validateCompanyField configuration.company_field
  let _ ← leaveFields configuration.field_mapping
  let personnel_field ← requiredIdentifier
    (leaveNotConfigured "Leave identity field is missing.") configuration.personnel_number_field
  fieldSides (identityPairs personnel_field configuration identity)

/-- The steps of the service that reads the key, for the row of one employee. -/
def ServiceKey.steps (configuration : EntityMapping) (identity : Mapping) :
    ServiceKey → Except Exc Unit
  | .identity => identitySteps configuration
  | .profile => profileSteps configuration identity
  | .leave_balance | .leave_balance_active => leaveSteps configuration identity

/-- Nobody's request is stopped by a misconfiguration. -/
def ServiceKey.Passes (key : ServiceKey) (configuration : EntityMapping) : Prop :=
  ∀ identity e, key.steps configuration identity = .error e → isMisconfiguration e = false

/-! ## What they raise -/

theorem validateIdentifier_raises (value : String) :
    Raises (isMisconfiguration · = true) (validateIdentifier value) := by
  unfold validateIdentifier
  split
  · exact .ok _
  · exact .error rfl

omit [UnicodeData] in
theorem discard_raises {P : Exc → Prop} {x : Except Exc String} (h : Raises P x) :
    Raises P (discard x) := by
  cases x with
  | error e => exact .error (h e rfl)
  | ok s => exact .ok ()

theorem fieldSides_raises (pairs : List (String × String)) :
    Raises (isMisconfiguration · = true) (fieldSides pairs) := by
  induction pairs with
  | nil => exact .ok ()
  | cons p pairs ih => exact (discard_raises (validateIdentifier_raises p.1)).bind fun _ _ => ih

theorem selectFields_raises (keys : List String) (raw : Dict Json) :
    Raises (isMisconfiguration · = true) (selectFields keys raw) := by
  intro e he
  obtain ⟨p, -, hp⟩ := exists_of_mapM_error he
  exact (validateIdentifier_raises p.2).bind (fun _ _ => .ok _) e hp

theorem requiredIdentifier_raises {missing : PortalError}
    (h : isMisconfiguration (.portal missing) = true) (value : Option String) :
    Raises (isMisconfiguration · = true) (requiredIdentifier missing value) := by
  unfold requiredIdentifier
  split
  · exact .error h
  · exact validateIdentifier_raises _

/-- The columns, or what is raised when those required are not among them. -/
theorem requiredFields_raises {C : Dict String → Prop} [DecidablePred C] {missing : PortalError}
    (h : isMisconfiguration (.portal missing) = true) (keys : List String) (raw : Dict Json) :
    Raises (isMisconfiguration · = true) (do
      let fields ← selectFields keys raw
      if C fields then return fields else throw (.portal missing)) := by
  refine (selectFields_raises keys raw).bind fun fields _ => ?_
  split
  · exact .ok _
  · exact .error h

/-! ## When a row passes them -/

omit [UnicodeData] in
theorem mem_entraUpn : "entraUpn" ∈ requiredIdentityFields := by decide

omit [UnicodeData] in
theorem discard_bind {α β : Type} (x : Except Exc α) (f : Unit → Except Exc β) :
    discard x >>= f = x >>= fun _ => f () := by
  cases x <;> rfl

omit [UnicodeData] in
theorem discard_eq_ok {x : Except Exc String} :
    discard x = .ok () ↔ ∃ s, x = .ok s := by
  constructor
  · intro h
    cases x with
    | error e => cases h
    | ok s => exact ⟨s, rfl⟩
  · rintro ⟨s, rfl⟩
    rfl

theorem discard_validateIdentifier {value : String} :
    discard (validateIdentifier value) = .ok () ↔ isIdentifier value = true := by
  rw [discard_eq_ok]
  simp only [validateIdentifier_ok, exists_eq_right]

theorem fieldSides_ok {pairs : List (String × String)} :
    fieldSides pairs = .ok () ↔ ∀ p ∈ pairs, isIdentifier p.1 = true := by
  constructor
  · intro h p hp
    exact discard_validateIdentifier.mp (forM_ok h p hp)
  · intro h
    induction pairs with
    | nil => rfl
    | cons p pairs ih =>
      obtain ⟨hp, hpairs⟩ := List.forall_mem_cons.mp h
      exact bind_eq_ok.mpr ⟨(), discard_validateIdentifier.mpr hp, ih hpairs⟩

theorem requiredIdentifier_eq_ok {missing : PortalError} {value : Option String}
    {field : String} : requiredIdentifier missing value = .ok field ↔
      value = some field ∧ isIdentifier field = true := by
  unfold requiredIdentifier
  cases hvalue : truthy value with
  | none =>
    simp only [reduceCtorEq, false_iff, not_and]
    rintro rfl hidentifier
    have hne : field ≠ "" := by
      rintro rfl
      cases hidentifier
    rw [truthy_eq_some.mpr ⟨rfl, hne⟩] at hvalue
    cases hvalue
  | some v =>
    obtain ⟨rfl, -⟩ := truthy_eq_some.mp hvalue
    dsimp only
    rw [validateIdentifier_ok]
    constructor
    · rintro ⟨hidentifier, rfl⟩
      exact ⟨rfl, hidentifier⟩
    · rintro ⟨hv, hidentifier⟩
      obtain rfl := Option.some.inj hv
      exact ⟨hidentifier, rfl⟩

/-- A row of an employee of a company. -/
def employed (company : String) : Mapping where
  id := ⟨0, by decide⟩
  entra_oid := none
  entra_upn := none
  entra_email := none
  d365_personnel_number := ""
  d365_company := some company
  mapping_source := ""
  verified := true
  enabled := true

variable {configuration : EntityMapping}

/-- Whoever is asked for, the fields of the filter are the identity field and the company
field. -/
theorem filterSteps_ok {missing : PortalError} :
    (∀ identity, requiredIdentifier missing configuration.personnel_number_field >>=
      (fun field => fieldSides (identityPairs field configuration identity)) = .ok ()) ↔
    (∃ field, configuration.personnel_number_field = some field ∧ isIdentifier field = true) ∧
      ∀ field, configuration.company_field = some field → field ≠ "" →
        isIdentifier field = true := by
  constructor
  · intro h
    constructor
    · obtain ⟨field, hfield, -⟩ := bind_eq_ok.mp (h (employed ""))
      exact ⟨field, requiredIdentifier_eq_ok.mp hfield⟩
    · intro field hfield hne
      obtain ⟨personnel_field, -, hsides⟩ := bind_eq_ok.mp (h (employed "USMF"))
      refine fieldSides_ok.mp hsides (field, "USMF") (List.mem_cons_of_mem _ ?_)
      exact Option.mem_toList.mpr (companyClause_eq_some.mpr ⟨⟨hfield, hne⟩, rfl, by decide⟩)
  · rintro ⟨⟨personnel_field, hpersonnel⟩, hcompany⟩ identity
    refine bind_eq_ok.mpr ⟨personnel_field, requiredIdentifier_eq_ok.mpr hpersonnel, ?_⟩
    refine fieldSides_ok.mpr fun p hp => ?_
    rcases List.mem_cons.mp hp with rfl | hp
    · exact hpersonnel.2
    · obtain ⟨⟨hfield, hne⟩, -⟩ := companyClause_eq_some.mp (Option.mem_toList.mp hp)
      exact hcompany p.1 hfield hne

theorem identityFields_selectable {raw : Dict Json} :
    (∃ fields, identityFields raw = .ok fields) ↔
      Selectable requiredIdentityFields requiredIdentityFields raw :=
  exists_required (fun _ => Iff.rfl) fun _ h => h

theorem profileFields_selectable {raw : Dict Json} :
    (∃ fields, profileFields raw = .ok fields) ↔
      Selectable profileFieldNames ["personnelNumber"] raw :=
  exists_required (fun _ => by simp) (by decide)

theorem leaveFields_selectable {raw : Dict Json} :
    (∃ fields, leaveFields raw = .ok fields) ↔
      Selectable leaveBalanceFieldNames ["leaveType"] raw :=
  exists_required (fun _ => by simp) (by decide)

theorem identitySteps_ok : identitySteps configuration = .ok () ↔
    isIdentifier configuration.entity_name = true ∧
      Selectable requiredIdentityFields requiredIdentityFields configuration.field_mapping := by
  constructor
  · intro h
    obtain ⟨name, hname, h⟩ := bind_eq_ok.mp h
    obtain ⟨fields, hfields, -⟩ := bind_eq_ok.mp h
    exact ⟨(validateIdentifier_ok.mp hname).1, identityFields_selectable.mp ⟨fields, hfields⟩⟩
  · rintro ⟨hname, hselectable⟩
    obtain ⟨fields, hfields⟩ := identityFields_selectable.mpr hselectable
    obtain ⟨field, -, hitem, hfield⟩ := item_identityFields hfields mem_entraUpn
    refine bind_eq_ok.mpr ⟨_, validateIdentifier_ok.mpr ⟨hname, rfl⟩, ?_⟩
    refine bind_eq_ok.mpr ⟨fields, hfields, bind_eq_ok.mpr ⟨field, hitem, ?_⟩⟩
    exact discard_validateIdentifier.mpr hfield

theorem profileSteps_ok : (∀ identity, profileSteps configuration identity = .ok ()) ↔
    isIdentifier configuration.entity_name = true ∧
      Selectable profileFieldNames ["personnelNumber"] configuration.field_mapping ∧
      (∃ field, configuration.personnel_number_field = some field ∧ isIdentifier field = true) ∧
      ∀ field, configuration.company_field = some field → field ≠ "" →
        isIdentifier field = true := by
  rw [← filterSteps_ok, ← profileFields_selectable]
  constructor
  · intro h
    obtain ⟨name, hname, hrest⟩ := bind_eq_ok.mp (h (employed ""))
    obtain ⟨fields, hfields, -⟩ := bind_eq_ok.mp hrest
    refine ⟨(validateIdentifier_ok.mp hname).1, ⟨fields, hfields⟩, fun identity => ?_⟩
    obtain ⟨_, -, h⟩ := bind_eq_ok.mp (h identity)
    obtain ⟨_, -, h⟩ := bind_eq_ok.mp h
    exact h
  · rintro ⟨hname, ⟨fields, hfields⟩, hfilter⟩ identity
    refine bind_eq_ok.mpr ⟨_, validateIdentifier_ok.mpr ⟨hname, rfl⟩, ?_⟩
    exact bind_eq_ok.mpr ⟨fields, hfields, hfilter identity⟩

theorem leaveSteps_ok : (∀ identity, leaveSteps configuration identity = .ok ()) ↔
    isIdentifier configuration.entity_name = true ∧
      Selectable leaveBalanceFieldNames ["leaveType"] configuration.field_mapping ∧
      (∃ field, configuration.personnel_number_field = some field ∧ isIdentifier field = true) ∧
      ∀ field, configuration.company_field = some field → field ≠ "" →
        isIdentifier field = true := by
  constructor
  · intro h
    obtain ⟨name, hname, hrest⟩ := bind_eq_ok.mp (h (employed ""))
    obtain ⟨_, -, hrest⟩ := bind_eq_ok.mp hrest
    obtain ⟨fields, hfields, -⟩ := bind_eq_ok.mp hrest
    -- the first three steps do not read the identity; the filter's sides do
    have hfilter : ∀ identity, requiredIdentifier
        (leaveNotConfigured "Leave identity field is missing.")
        configuration.personnel_number_field >>=
        (fun field => fieldSides (identityPairs field configuration identity)) = .ok () := by
      intro identity
      obtain ⟨_, -, h⟩ := bind_eq_ok.mp (h identity)
      obtain ⟨_, -, h⟩ := bind_eq_ok.mp h
      obtain ⟨_, -, h⟩ := bind_eq_ok.mp h
      exact h
    exact ⟨(validateIdentifier_ok.mp hname).1, leaveFields_selectable.mp ⟨fields, hfields⟩,
      filterSteps_ok.mp hfilter⟩
  · rintro ⟨hname, hselectable, hpersonnel, hcompany⟩ identity
    obtain ⟨fields, hfields⟩ := leaveFields_selectable.mpr hselectable
    refine bind_eq_ok.mpr ⟨_, validateIdentifier_ok.mpr ⟨hname, rfl⟩, ?_⟩
    refine bind_eq_ok.mpr ⟨(), ?_, ?_⟩
    · unfold validateCompanyField
      split
      · rename_i field htruthy
        obtain ⟨hfield, hne⟩ := truthy_eq_some.mp htruthy
        exact discard_validateIdentifier.mpr (hcompany field hfield hne)
      · rfl
    · refine bind_eq_ok.mpr ⟨fields, hfields, ?_⟩
      exact filterSteps_ok.mpr ⟨hpersonnel, hcompany⟩ identity

theorem steps_raises (key : ServiceKey) (identity : Mapping) :
    Raises (isMisconfiguration · = true) (key.steps configuration identity) := by
  have hfilter : ∀ {missing : PortalError}, isMisconfiguration (.portal missing) = true →
      Raises (isMisconfiguration · = true)
        (requiredIdentifier missing configuration.personnel_number_field >>=
          fun field => fieldSides (identityPairs field configuration identity)) :=
    fun h => (requiredIdentifier_raises h _).bind fun _ _ => fieldSides_raises _
  have hleave : Raises (isMisconfiguration · = true) (leaveSteps configuration identity) := by
    refine (validateIdentifier_raises _).bind fun _ _ => ?_
    refine Raises.bind ?_ fun _ _ => (requiredFields_raises (by decide) _ _).bind fun _ _ =>
      hfilter (by decide)
    unfold validateCompanyField
    split
    · exact discard_raises (validateIdentifier_raises _)
    · exact .ok ()
  cases key with
  | identity =>
    refine (validateIdentifier_raises _).bind fun _ _ => ?_
    refine (requiredFields_raises (by decide) _ _).bind fun fields hfields => ?_
    obtain ⟨field, -, hitem, -⟩ := item_identityFields hfields mem_entraUpn
    rw [hitem, ok_bind]
    exact discard_raises (validateIdentifier_raises _)
  | profile =>
    refine (validateIdentifier_raises _).bind fun _ _ => ?_
    exact (requiredFields_raises (by decide) _ _).bind fun _ _ => hfilter (by decide)
  | leave_balance | leave_balance_active => exact hleave

/-- **What the steps need.** They pass exactly when the name of the entity is an identifier
and the columns are complete. -/
theorem passes_iff {key : ServiceKey} :
    key.Passes configuration ↔ isIdentifier configuration.entity_name = true ∧
      Complete key configuration.field_mapping configuration.personnel_number_field
        configuration.company_field := by
  -- every error of the steps is a misconfiguration, so passing is raising none
  have hpass : key.Passes configuration ↔
      ∀ identity, key.steps configuration identity = .ok () := by
    constructor
    · intro h identity
      cases hsteps : key.steps configuration identity with
      | ok u => rfl
      | error e =>
        have hfalse := h identity e hsteps
        rw [steps_raises key identity e hsteps] at hfalse
        cases hfalse
    · intro h identity e he
      rw [h identity] at he
      cases he
  rw [hpass]
  cases key with
  | identity =>
    constructor
    · intro h
      obtain ⟨hname, hselectable⟩ := identitySteps_ok.mp (h (employed ""))
      exact ⟨hname, hselectable, nofun, nofun⟩
    · rintro ⟨hname, hcomplete⟩ identity
      exact identitySteps_ok.mpr ⟨hname, hcomplete.field_mapping⟩
  | profile =>
    constructor
    · intro h
      obtain ⟨hname, hselectable, hpersonnel, hcompany⟩ := profileSteps_ok.mp h
      exact ⟨hname, hselectable, fun _ => hpersonnel, fun _ => hcompany⟩
    · rintro ⟨hname, hselectable, hpersonnel, hcompany⟩
      exact profileSteps_ok.mpr ⟨hname, hselectable, hpersonnel rfl, hcompany rfl⟩
  | leave_balance | leave_balance_active =>
    constructor
    · intro h
      obtain ⟨hname, hselectable, hpersonnel, hcompany⟩ := leaveSteps_ok.mp h
      exact ⟨hname, hselectable, fun _ => hpersonnel, fun _ => hcompany⟩
    · rintro ⟨hname, hselectable, hpersonnel, hcompany⟩
      exact leaveSteps_ok.mpr ⟨hname, hselectable, hpersonnel rfl, hcompany rfl⟩

/-! ## The services take these steps first -/

/-- The next thing is a request to D365 for the entity. -/
def Asks {α : Type} (entity : String) (p : Coroutine α) : Prop :=
  ∃ params k, p = .op (.getEntity entity params) k

omit [UnicodeData] in
theorem Asks.bind {α β : Type} {entity : String} {p : Coroutine α} {f : α → Coroutine β}
    (h : Asks entity p) : Asks entity (p >>= f) := by
  obtain ⟨params, k, rfl⟩ := h
  exact ⟨params, _, rfl⟩

omit [UnicodeData] in
theorem Asks.tryCatch {α : Type} {entity : String} {p : Coroutine α} (handler : Exc → Coroutine α)
    (h : Asks entity p) : Asks entity (tryCatchThe Exc p handler) := by
  obtain ⟨params, k, rfl⟩ := h
  exact ⟨params, _, rfl⟩

/-- A query for identifiers, a filter and a page. -/
theorem getEntity_asks {entity : String} {query : ODataQuery}
    (hentity : isIdentifier entity = true) (hselect : ∀ n ∈ query.select, isIdentifier n = true)
    (hexpand : query.expand = []) (horderby : query.orderby = []) (hskip : query.skip = none)
    {n : ℤ} (htop : query.top = some n) (hn : 1 ≤ n ∧ n ≤ 1000) :
    Asks entity (getEntity entity query) := by
  obtain ⟨params, hparams⟩ := toParams_ok hselect hexpand horderby (fun m hm => by
    rw [htop] at hm
    exact Option.some.inj hm ▸ hn) hskip
  unfold getEntity
  rw [validateIdentifier_ok.mpr ⟨hentity, rfl⟩, hparams]
  exact ⟨params, _, rfl⟩

omit [UnicodeData] in
theorem isIdentifier_of_selected {fields : Dict String}
    (h : ∀ p ∈ fields, isIdentifier p.2 = true) :
    ∀ n ∈ (fields.map Prod.snd).eraseDups, isIdentifier n = true := by
  intro n hn
  obtain ⟨p, hp, rfl⟩ := List.mem_map.mp (List.mem_eraseDups.mp hn)
  exact h p hp

/-- The row's own values can stand in a filter. -/
structure Plain (identity : Mapping) : Prop where
  personnel_number : hasControl identity.d365_personnel_number = false
  company : ∀ company, identity.d365_company = some company → hasControl company = false

omit [UnicodeData] in
theorem Plain.pairs {identity : Mapping} (h : Plain identity) (personnel_field : String) :
    ∀ p ∈ identityPairs personnel_field configuration identity, hasControl p.2 = false := by
  intro p hp
  rcases List.mem_cons.mp hp with rfl | hp
  · exact h.personnel_number
  · obtain ⟨-, hcompany, -⟩ := companyClause_eq_some.mp (Option.mem_toList.mp hp)
    exact h.company p.2 hcompany

theorem equals_error {pairs : List (String × String)} {e : Exc}
    (hplain : ∀ p ∈ pairs, hasControl p.2 = false) (h : fieldSides pairs = .error e) :
    pairs.mapM (fun p => equals p.1 p.2) = .error e := by
  induction pairs with
  | nil => cases h
  | cons p pairs ih =>
    obtain ⟨hp, hpairs⟩ := List.forall_mem_cons.mp hplain
    have hcons : fieldSides (p :: pairs) =
        discard (validateIdentifier p.1) >>= fun _ => fieldSides pairs := rfl
    rw [hcons] at h
    rw [List.mapM_cons]
    cases hfield : validateIdentifier p.1 with
    | error e' =>
      rw [hfield] at h
      obtain rfl : e' = e := Except.error.inj h
      rw [equals, hfield, error_bind, error_bind]
    | ok field =>
      rw [hfield] at h
      have hequals := equals_ok (validateIdentifier_ok.mp hfield).1 hp
      rw [hequals, ok_bind, ih hpairs h, error_bind]

theorem equals_guarded {α : Type} {field value : String} {P : Coroutine α → Prop}
    {f : String → Coroutine α} (hplain : hasControl value = false)
    (h : isIdentifier field = true → ∀ filter, P (f filter)) :
    Prog.Guarded (discard (validateIdentifier field)) P
      (Prog.ofExcept (equals field value) >>= f) := by
  cases hfield : validateIdentifier field with
  | error e =>
    rw [equals, hfield]
    constructor
    · intro e' he
      obtain rfl : e = e' := Except.error.inj he
      rfl
    · intro b hb
      cases hb
  | ok name =>
    obtain ⟨hidentifier, rfl⟩ := validateIdentifier_ok.mp hfield
    have hequals := equals_ok (p := (name, value)) hidentifier hplain
    dsimp only at hequals
    rw [hequals]
    exact .ok (h hidentifier _)

/-- The left-hand sides decide whether a filter of plain values can be built. -/
theorem filterOf_guarded {α : Type} {pairs : List (String × String)} {P : Coroutine α → Prop}
    {f : String → Coroutine α} (hpairs : pairs ≠ [])
    (hplain : ∀ p ∈ pairs, hasControl p.2 = false)
    (h : (∀ p ∈ pairs, isIdentifier p.1 = true) → ∀ filter, P (f filter)) :
    Prog.Guarded (fieldSides pairs) P (Prog.ofExcept (filterOf pairs) >>= f) := by
  constructor
  · intro e he
    rw [filterOf, equals_error hplain he, error_bind]
    rfl
  · rintro ⟨⟩ hsides
    have hfields := fieldSides_ok.mp hsides
    obtain ⟨filter, hfilter, -⟩ := filterOf_ok hpairs hfields hplain
    rw [hfilter]
    exact h hfields filter

/-- `D365ProfileService`. -/
theorem getProfile_guarded {identity : Mapping} (hplain : Plain identity) :
    ∃ k, getProfile identity = .op (.configuration "profile") k ∧ ∀ configuration,
      Prog.Guarded (profileSteps configuration identity) (Asks configuration.entity_name)
        (k (.ok (some configuration))) := by
  unfold getProfile requiredConfiguration await
  simp only [Prog.liftM_eq, Prog.perform, Prog.op_bind]
  refine ⟨_, rfl, fun configuration => ?_⟩
  simp only [Prog.ofExcept_ok, Prog.ret_bind, bind_assoc, pure_bind]
  refine Prog.Guarded.bind fun name hname => ?_
  refine Prog.Guarded.bind fun fields hfields => ?_
  refine Prog.Guarded.bind fun personnel_field hfield => ?_
  refine filterOf_guarded (by simp [identityPairs]) (hplain.pairs personnel_field)
    fun hsides filter => ?_
  have hselected := selectFields_ok (selectFields_of_checked hfields).1
  exact (getEntity_asks (validateIdentifier_ok.mp hname).1 (isIdentifier_of_selected hselected)
    rfl rfl rfl rfl (by decide)).bind

/-- `IdentityProvisioningService`, for a caller with a name and an object id. -/
theorem confirm_guarded {user : AuthenticatedUser} (hnamed : callerUpn user ≠ "")
    (hplain : hasControl (callerUpn user) = false) (hoid : (Uuid.parse user.oid).isSome = true) :
    ∃ k, confirm user = .op (.configuration "identity") k ∧ ∀ configuration,
      Prog.Guarded (identitySteps configuration) (Asks configuration.entity_name)
        (k (.ok (some configuration))) := by
  obtain ⟨u, hu⟩ := Option.isSome_iff_exists.mp hoid
  unfold confirm requiredConfiguration await
  simp only [if_neg hnamed, hu, Prog.liftM_eq, Prog.perform, Prog.op_bind]
  refine ⟨_, rfl, fun configuration => ?_⟩
  simp only [Prog.ofExcept_ok, Prog.ret_bind, bind_assoc, pure_bind]
  refine Prog.Guarded.bind fun name hname => ?_
  refine Prog.Guarded.bind fun fields hfields => ?_
  have hselected := selectFields_ok (selectFields_of_checked hfields).1
  obtain ⟨field, -, hitem, hfield⟩ := item_identityFields hfields mem_entraUpn
  refine Prog.Guarded.bind_left (Prog.Guarded.tryCatch ?_ ?_ (Asks.tryCatch _)) Asks.bind
  · unfold identityQuery
    refine Prog.Guarded.bind fun upn_field hupn_field => ?_
    refine equals_guarded hplain fun _ filter => ?_
    exact getEntity_asks (validateIdentifier_ok.mp hname).1 (isIdentifier_of_selected hselected)
      rfl rfl rfl rfl (by decide)
  · -- the handler looks at the exceptions of D365 only
    intro e he
    rw [hitem, ok_bind] at he
    have hmisconfigured := discard_raises (validateIdentifier_raises field) e he
    cases e with
    | d365 kind message => cases hmisconfigured
    | _ => rfl

/-- The records of a row with a valid entity. -/
theorem leaveRecords_asks {identity : Mapping}
    (hentity : isIdentifier configuration.entity_name = true) (hplain : Plain identity) :
    Prog.Guarded (do
      let _ ← leaveFields configuration.field_mapping
      let personnel_field ← requiredIdentifier
        (leaveNotConfigured "Leave identity field is missing.")
        configuration.personnel_number_field
      fieldSides (identityPairs personnel_field configuration identity))
      (Asks configuration.entity_name) (leaveRecords configuration identity) := by
  unfold leaveRecords
  refine Prog.Guarded.bind fun fields hfields => ?_
  refine Prog.Guarded.bind fun personnel_field hfield => ?_
  refine filterOf_guarded (by simp [identityPairs]) (hplain.pairs personnel_field)
    fun hsides filter => ?_
  have hselected := selectFields_ok (selectFields_of_checked hfields).1
  refine (getEntity_asks hentity ?_ rfl rfl rfl rfl (by decide)).bind
  intro n hn
  rw [List.mem_eraseDups, List.mem_append, List.mem_cons, List.mem_map] at hn
  rcases hn with (rfl | ⟨p, hp, rfl⟩) | hn
  · exact (requiredIdentifier_eq_ok.mp hfield).2
  · exact hselected p hp
  · obtain ⟨p, hp, rfl⟩ := Option.map_eq_some_iff.mp (Option.mem_toList.mp hn)
    exact hsides p (List.mem_cons_of_mem _ (Option.mem_toList.mpr hp))

/-- `D365LeaveService`, whichever of the two keys it reads. -/
theorem leave_guarded {α : Type} {identity : Mapping} (hplain : Plain identity)
    {mapping_key : String} {required : Bool} {f : Option EntityMapping → Coroutine α}
    {g : EntityMapping → List (Dict Json) × Dict String → Coroutine α}
    (hf : ∀ configuration, f (some configuration) =
      leaveRecords configuration identity >>= g configuration) :
    ∃ k, leaveConfiguration mapping_key required >>= f = .op (.configuration mapping_key) k ∧
      ∀ configuration, configuration.mapping_key = mapping_key →
        Prog.Guarded (leaveSteps configuration identity) (Asks configuration.entity_name)
          (k (.ok (some configuration))) := by
  unfold leaveConfiguration await
  simp only [Prog.liftM_eq, Prog.perform, Prog.op_bind]
  refine ⟨_, rfl, fun configuration hkey => ?_⟩
  simp only [Prog.ofExcept_ok, Prog.ret_bind]
  rw [Option.filter_some_pos (by simpa using hkey)]
  simp only [bind_assoc]
  refine Prog.Guarded.bind fun name hname => ?_
  have hrecords := leaveRecords_asks (validateIdentifier_ok.mp hname).1 hplain
  unfold validateCompanyField
  cases truthy configuration.company_field with
  | none =>
    dsimp only
    rw [ok_bind, pure_bind, hf]
    exact hrecords.bind_left Asks.bind
  | some field =>
    dsimp only
    rw [discard_bind, bind_assoc]
    refine Prog.Guarded.bind fun _ _ => ?_
    rw [pure_bind, hf]
    exact hrecords.bind_left Asks.bind

/-- The second half of `get_balances`, after no records of the first entity. -/
def fallBack (identity : Mapping) (fields : Dict String) : Coroutine LeaveBalancesResponse := do
  match ← leaveConfiguration "leave_balance_active" false with
  | some fallback =>
      let (records, fields) ← leaveRecords fallback identity
      return ⟨← readBalances fields records⟩
  | none => return ⟨← readBalances fields []⟩

theorem getBalances_eq (identity : Mapping) : getBalances identity = (do
    let some configuration ← leaveConfiguration "leave_balance" true | throw .assertionError
    let (records, fields) ← leaveRecords configuration identity
    if records.isEmpty then fallBack identity fields
    else return ⟨← readBalances fields records⟩) := by
  unfold getBalances
  congr 1
  funext found
  cases found with
  | none => rfl
  | some configuration =>
    dsimp only
    congr 1
    funext x
    obtain ⟨records, fields⟩ := x
    cases records <;> rfl

theorem getBalances_guarded {identity : Mapping} (hplain : Plain identity) :
    ∃ k, getBalances identity = .op (.configuration "leave_balance") k ∧ ∀ configuration,
      configuration.mapping_key = "leave_balance" →
      Prog.Guarded (leaveSteps configuration identity) (Asks configuration.entity_name)
        (k (.ok (some configuration))) :=
  leave_guarded hplain fun _ => rfl

theorem fallBack_guarded {identity : Mapping} (hplain : Plain identity) (fields : Dict String) :
    ∃ k, fallBack identity fields = .op (.configuration "leave_balance_active") k ∧
      ∀ configuration, configuration.mapping_key = "leave_balance_active" →
      Prog.Guarded (leaveSteps configuration identity) (Asks configuration.entity_name)
        (k (.ok (some configuration))) :=
  leave_guarded hplain fun _ => rfl

end Steps

end EmployeePortal.Employees
