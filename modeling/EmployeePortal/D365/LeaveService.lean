import EmployeePortal.D365.IdentityFilter
import EmployeePortal.Employees.Schemas

/-!
# `D365LeaveService`
-/

namespace EmployeePortal.D365

open EmployeePortal.Python EmployeePortal.Framework EmployeePortal.Employees

def leaveBalanceFieldNames : List String :=
  ["leaveType", "taken", "total", "available", "hidden"]

def leaveConflict (message : String) : Exc := .portal ⟨"LEAVE_CONFLICT", message, 409⟩

def leaveNotConfigured (message : String) : PortalError :=
  ⟨"LEAVE_NOT_CONFIGURED", message, 503⟩

section Leave

variable [UnicodeData]

/-! ## One record -/

/-- `_is_hidden`. -/
def isHidden (value : Json) : Except Exc Bool :=
  match value with
  | .bool b => .ok b
  | .int 0 => .ok false
  | .int 1 => .ok true
  | .str s =>
      let normalized := casefold (strip s)
      if normalized ∈ ["true", "yes", "1"] then .ok true
      else if normalized ∈ ["false", "no", "0"] then .ok false
      else .error (leaveConflict "Leave balance visibility is invalid.")
  | _ => .error (leaveConflict "Leave balance visibility is invalid.")

/-- `_required_value`. -/
def requiredValue (value : Json) : Except Exc String :=
  match value with
  | .str s => if strip s = "" then .error (leaveConflict "Leave type is missing.") else .ok s
  | _ => .error (leaveConflict "Leave type is missing.")

/-- `_number`. -/
def number (value : Json) : Except Exc (Option Decimal) :=
  match value with
  | .null | .str "" => .ok none
  | .bool _ => .error (leaveConflict "Leave balance value is invalid.")
  | value =>
      match Decimal.parse value.text with
      | some d => .ok (some d)
      | none => .error (leaveConflict "Leave balance value is invalid.")

/-- One turn of the loop of `get_balances`; `none` is `continue`. -/
def readBalance (fields : Dict String) (raw : Dict Json) : Except Exc (Option LeaveBalance) := do
  let hidden ←
    match fields.get? "hidden" with
    | some field => isHidden (raw.getD field .null)
    | none => pure false
  if hidden then return none
  let leaveType ← requiredValue (raw.getD (← item fields "leaveType") .null)
  -- an unmapped number is looked up under the empty key
  let available ← number (raw.getD (fields.getD "available" "") .null)
  let taken ← number (raw.getD (fields.getD "taken" "") .null)
  let total ← number (raw.getD (fields.getD "total" "") .null)
  return some (← LeaveBalance.validated ⟨leaveType, available, taken, total⟩)

def readBalances (fields : Dict String) : List (Dict Json) → Except Exc (List LeaveBalance)
  | [] => return []
  | raw :: records => do
      match ← readBalance fields raw with
      | none => readBalances fields records
      | some balance => return balance :: (← readBalances fields records)

/-! ## The records of an answer -/

/-- `_validated_fields`. -/
def leaveFields (raw : Dict Json) : Except Exc (Dict String) := do
  let fields ← selectFields leaveBalanceFieldNames raw
  if (fields.get? "leaveType").isSome then return fields
  else throw (.portal (leaveNotConfigured "Leave mapping is incomplete."))

/-- One turn of the loop of `_records`. -/
def validateRecord (personnel_field : String) (configuration : EntityMapping)
    (identity : Mapping) : Json → Except Exc (Dict Json)
  | .obj raw =>
      if (Dict.getD raw personnel_field (.str "")).text ≠ identity.d365_personnel_number then
        .error (leaveConflict "Leave balance identity validation failed.")
      else
        match companyClause configuration identity with
        | some (field, company) =>
            if casefold (Dict.getD raw field (.str "")).text ≠ casefold company then
              .error (leaveConflict "Leave balance company validation failed.")
            else .ok raw
        | none => .ok raw
  | _ => .error (leaveConflict "Leave balance data requires review.")

def readLeaveAnswer (personnel_field : String) (configuration : EntityMapping)
    (identity : Mapping) (payload : Dict Json) : Except Exc (List (Dict Json)) :=
  match payload.get? "value" with
  | some (.arr records) => records.mapM (validateRecord personnel_field configuration identity)
  | _ => .error (.portal ⟨"LEAVE_UNAVAILABLE", "Your leave balances are unavailable.", 503⟩)

/-- `_records`. -/
def leaveRecords (configuration : EntityMapping) (identity : Mapping) :
    Coroutine (List (Dict Json) × Dict String) := do
  let fields ← leaveFields configuration.field_mapping
  let personnel_field ← requiredIdentifier (leaveNotConfigured "Leave identity field is missing.")
    configuration.personnel_number_field
  let filter ← filterOf (identityPairs personnel_field configuration identity)
  let selected := personnel_field :: fields.map Prod.snd ++
    ((companyClause configuration identity).map Prod.fst).toList
  let payload ← getEntity configuration.entity_name
    { select := selected.eraseDups, filter_expression := some filter, top := some 100,
      cross_company := some (companyClause configuration identity).isSome }
  return (← readLeaveAnswer personnel_field configuration identity payload, fields)

/-- `_configuration`. -/
def leaveConfiguration (mapping_key : String) (required : Bool) :
    Coroutine (Option EntityMapping) := do
  match (← await (.configuration mapping_key)).filter (·.mapping_key = mapping_key) with
  | none =>
      if required then
        throw (.portal (leaveNotConfigured "Leave balance integration has not been enabled."))
      else return none
  | some configuration =>
      let _ ← validateIdentifier configuration.entity_name
      match truthy configuration.company_field with
      | some field =>
          let _ ← validateIdentifier field
          return some configuration
      | none => return some configuration

def getBalances (identity : Mapping) : Coroutine LeaveBalancesResponse := do
  let some configuration ← leaveConfiguration "leave_balance" true | throw .assertionError
  let (records, fields) ← leaveRecords configuration identity
  if records.isEmpty then
    match ← leaveConfiguration "leave_balance_active" false with
    | some fallback =>
        let (records, fields) ← leaveRecords fallback identity
        return ⟨← readBalances fields records⟩
    | none => return ⟨← readBalances fields records⟩
  else return ⟨← readBalances fields records⟩

/-! ## Where a balance comes from -/

/-- The record is the row's: its personnel number, as text, and its company,
ignoring case, where the configuration names a field and the row has one. -/
structure RecordOf (configuration : EntityMapping) (identity : Mapping) (raw : Dict Json) :
    Prop where
  personnel_number : ∃ field, configuration.personnel_number_field = some field ∧
    (raw.getD field (.str "")).text = identity.d365_personnel_number
  company : ∀ field company, configuration.company_field = some field → field ≠ "" →
    identity.d365_company = some company → company ≠ "" →
    casefold (raw.getD field (.str "")).text = casefold company

/-- The record is one of the records of an answer to a request for the row, under the fields
that were configured for it. -/
def FetchedFor (identity : Mapping) (l : Session) (fields : Dict String) (raw : Dict Json) : Prop :=
  ∃ configuration ∈ l.loaded, ∃ x ∈ l.answered, AskedFor configuration identity x ∧
    leaveFields configuration.field_mapping = .ok fields ∧
    RecordOf configuration identity raw ∧
    ∃ records, x.payload.get? "value" = some (.arr records) ∧ Json.obj raw ∈ records

/-- The balances are those of records fetched for the row. -/
structure BalancesOf (identity : Mapping) (l : Session) (response : LeaveBalancesResponse) :
    Prop where
  asked : ∃ configuration ∈ l.loaded, ∃ x ∈ l.answered, AskedFor configuration identity x
  fetched : ∀ b ∈ response.balances, ∃ fields raw,
    FetchedFor identity l fields raw ∧ readBalance fields raw = .ok (some b)

theorem BalancesOf.congr {identity : Mapping} {l l' : Session}
    {response : LeaveBalancesResponse} (h : BalancesOf identity l response)
    (hloaded : l'.loaded = l.loaded) (hanswered : l'.answered = l.answered) :
    BalancesOf identity l' response := by
  obtain ⟨hasked, hfetched⟩ := h
  exact ⟨hloaded ▸ hanswered ▸ hasked, fun b hb => by
    simpa only [FetchedFor, hloaded, hanswered] using hfetched b hb⟩

theorem validateRecord_ok {personnel_field : String} {configuration : EntityMapping}
    {identity : Mapping} {record : Json} {raw : Dict Json}
    (hfield : configuration.personnel_number_field = some personnel_field)
    (h : validateRecord personnel_field configuration identity record = .ok raw) :
    record = .obj raw ∧ RecordOf configuration identity raw := by
  cases record with
  | obj raw' =>
    simp only [validateRecord] at h
    split at h
    · cases h
    · rename_i hnumber
      split at h
      · rename_i field company hclause
        split at h
        · cases h
        · rename_i hcompany
          obtain rfl := Except.ok.inj h
          refine ⟨rfl, ⟨personnel_field, hfield, not_not.mp hnumber⟩, ?_⟩
          intro f c hf hfne hc hcne
          have hpair := companyClause_eq_some.mpr ⟨⟨hf, hfne⟩, hc, hcne⟩
          obtain ⟨rfl, rfl⟩ := Prod.mk.inj (Option.some.inj (hclause.symm.trans hpair))
          exact not_not.mp hcompany
      · rename_i hclause
        obtain rfl := Except.ok.inj h
        refine ⟨rfl, ⟨personnel_field, hfield, not_not.mp hnumber⟩, ?_⟩
        intro f c hf hfne hc hcne
        have hpair := companyClause_eq_some.mpr ⟨⟨hf, hfne⟩, hc, hcne⟩
        rw [hclause] at hpair
        cases hpair
  | _ => cases h

theorem mapM_validateRecord {personnel_field : String} {configuration : EntityMapping}
    {identity : Mapping} {records : List Json} {raws : List (Dict Json)}
    (hfield : configuration.personnel_number_field = some personnel_field)
    (h : records.mapM (validateRecord personnel_field configuration identity) = .ok raws) :
    ∀ raw ∈ raws, .obj raw ∈ records ∧ RecordOf configuration identity raw := by
  intro raw hraw
  obtain ⟨record, hmem, hrecord⟩ := exists_of_mapM_ok h raw hraw
  obtain ⟨rfl, hof⟩ := validateRecord_ok hfield hrecord
  exact ⟨hmem, hof⟩

theorem readBalances_ok {fields : Dict String} {records : List (Dict Json)}
    {balances : List LeaveBalance} (h : readBalances fields records = .ok balances) :
    ∀ b ∈ balances, ∃ raw ∈ records, readBalance fields raw = .ok (some b) := by
  induction records generalizing balances with
  | nil => cases h; simp
  | cons raw records ih =>
    unfold readBalances at h
    obtain ⟨balance, hraw, h⟩ := bind_eq_ok.mp h
    cases balance with
    | none =>
      intro b hb
      obtain ⟨x, hx, hread⟩ := ih h b hb
      exact ⟨x, List.mem_cons_of_mem _ hx, hread⟩
    | some balance =>
      obtain ⟨rest, hrest, h⟩ := bind_eq_ok.mp h
      obtain rfl := Except.ok.inj h
      intro b hb
      rcases List.mem_cons.mp hb with rfl | hb
      · exact ⟨raw, List.mem_cons_self, hraw⟩
      · obtain ⟨x, hx, hread⟩ := ih hrest b hb
        exact ⟨x, List.mem_cons_of_mem _ hx, hread⟩

theorem FetchedFor.mono {identity : Mapping} {l l' : Session} {fields : Dict String}
    {raw : Dict Json} (h : FetchedFor identity l fields raw) (hidle : l.Idle l') :
    FetchedFor identity l' fields raw := by
  obtain ⟨configuration, hconfiguration, x, hx, hrest⟩ := h
  exact ⟨configuration, hidle.loaded hconfiguration, x, hidle.answered hx, hrest⟩

section Rules

variable {K : Contract Database} {sem : OpSem Op Op.Answer Exc Database Session}
  (hK : Conforms K sem) {s : Database} {l : Session}

include hK

theorem leaveRecords_safe (configuration : EntityMapping) (identity : Mapping)
    (hloaded : configuration ∈ l.loaded) :
    Safe K sem (leaveRecords configuration identity) (fun r _ l' => l.Idle l' ∧
      ∀ records fields, r = .ok (records, fields) →
        (∃ x ∈ l'.answered, AskedFor configuration identity x) ∧
        ∀ raw ∈ records, FetchedFor identity l' fields raw) s l := by
  unfold leaveRecords
  cases hfields : leaveFields configuration.field_mapping with
  | error e => exact ⟨.refl l, fun _ _ h => by cases h⟩
  | ok fields =>
  cases hfield : requiredIdentifier (leaveNotConfigured "Leave identity field is missing.")
      configuration.personnel_number_field with
  | error e =>
    simp only [Prog.liftM_eq, Prog.ofExcept_ok, Prog.ret_bind, Prog.ofExcept_error,
      Prog.raise_bind]
    exact ⟨.refl l, fun _ _ h => by cases h⟩
  | ok personnel_field =>
  simp only [Prog.liftM_eq, Prog.ofExcept_ok, Prog.ret_bind]
  cases hfilter : filterOf (identityPairs personnel_field configuration identity) with
  | error e => exact ⟨.refl l, fun _ _ h => by cases h⟩
  | ok filter =>
  simp only [Prog.ofExcept_ok, Prog.ret_bind]
  refine Safe.bind (getEntity_safe hK _ _) ?_ fun _ _ _ h => ⟨h.1, fun _ _ h => by cases h⟩
  rintro payload s₁ l₁ ⟨hidle, hanswered⟩
  obtain ⟨params, hparams, hmem⟩ := hanswered payload rfl
  have hasked : AskedFor configuration identity ⟨configuration.entity_name, params, payload⟩ :=
    askedFor hfield hfilter rfl hparams
  cases hanswer : readLeaveAnswer personnel_field configuration identity payload with
  | error e => exact ⟨hidle, fun _ _ h => by cases h⟩
  | ok raws =>
    refine ⟨hidle, fun records fields' h => ?_⟩
    obtain ⟨rfl, rfl⟩ := Prod.mk.inj (Except.ok.inj h)
    refine ⟨⟨_, hmem, hasked⟩, fun raw hraw => ?_⟩
    unfold readLeaveAnswer at hanswer
    split at hanswer
    · rename_i items hvalue
      obtain ⟨hitem, hof⟩ := mapM_validateRecord (requiredIdentifier_ok hfield) hanswer raw hraw
      exact ⟨configuration, hidle.loaded hloaded, _, hmem, hasked, hfields, hof, items, hvalue,
        hitem⟩
    · cases hanswer

theorem leaveConfiguration_safe (mapping_key : String) (required : Bool) :
    Safe K sem (leaveConfiguration mapping_key required) (fun r _ l' => l.Idle l' ∧
      ∀ configuration, r = .ok (some configuration) → configuration ∈ l'.loaded) s l := by
  unfold leaveConfiguration
  refine Safe.bind (R := fun r _ l' => l.Idle l' ∧
      ∀ c, r = .ok (some c) → c ∈ l'.loaded) ?_ ?_ fun _ _ _ h => ⟨h.1, fun _ h => by cases h⟩
  · refine hK.configuration (fun s₁ _ _ => ⟨.load l _, fun c hc => ?_⟩)
      fun s₁ _ _ _ => ⟨.refl l, fun _ h => by cases h⟩
    simp [Except.ok.inj hc]
  · rintro found s₁ l₁ ⟨hidle, hloaded⟩
    cases hkey : found.filter (·.mapping_key = mapping_key) with
    | none => cases required <;> exact ⟨hidle, fun _ h => by cases h⟩
    | some configuration =>
      have hfound : found = some configuration := (Option.filter_eq_some_iff.mp hkey).1
      have hok : ∀ x, Except.ok (ε := Exc) (some configuration) = .ok (some x) →
          x ∈ l₁.loaded := by
        intro x hx
        rw [← Option.some.inj (Except.ok.inj hx)]
        exact hloaded configuration (hfound ▸ rfl)
      dsimp only
      cases validateIdentifier configuration.entity_name with
      | error e => exact ⟨hidle, fun _ h => by cases h⟩
      | ok name =>
        simp only [Prog.liftM_eq, Prog.ofExcept_ok, Prog.ret_bind]
        split
        · rename_i field _
          cases validateIdentifier field with
          | error e => exact ⟨hidle, fun _ h => by cases h⟩
          | ok name => exact ⟨hidle, hok⟩
        · exact ⟨hidle, hok⟩

/-- The balances are the row's, whichever entity they come from. -/
theorem getBalances_safe (identity : Mapping) :
    Safe K sem (getBalances identity) (fun r _ l' => l.Idle l' ∧ ∀ response,
      r = .ok response → BalancesOf identity l' response) s l := by
  have hfail : ∀ {P : LeaveBalancesResponse → Prop} {l' e}, l.Idle l' → l.Idle l' ∧
      ∀ x, (.error e : Except Exc LeaveBalancesResponse) = .ok x → P x :=
    fun hidle => ⟨hidle, fun _ h => by cases h⟩
  -- the loop over the records of one answer
  have hread : ∀ (s' : Database) (l' : Session) (fields : Dict String)
      (records : List (Dict Json)), l.Idle l' →
      (∃ configuration ∈ l'.loaded, ∃ x ∈ l'.answered, AskedFor configuration identity x) →
      (∀ raw ∈ records, FetchedFor identity l' fields raw) →
      Safe K sem (do return LeaveBalancesResponse.mk (← readBalances fields records))
        (fun r _ l' => l.Idle l' ∧ ∀ response, r = .ok response →
          BalancesOf identity l' response) s' l' := by
    intro s' l' fields records hidle hasked hfetched
    cases hbalances : readBalances fields records with
    | error e => exact hfail hidle
    | ok balances =>
      refine ⟨hidle, fun response h => ?_⟩
      obtain rfl := Except.ok.inj h
      refine ⟨hasked, fun b hb => ?_⟩
      obtain ⟨raw, hraw, hb⟩ := readBalances_ok hbalances b hb
      exact ⟨fields, raw, hfetched raw hraw, hb⟩
  unfold getBalances
  refine Safe.bind (leaveConfiguration_safe hK _ _) ?_ fun _ _ _ h => hfail h.1
  rintro (_ | configuration) s₁ l₁ ⟨hidle₁, hloaded₁⟩
  · exact hfail hidle₁
  refine Safe.bind (leaveRecords_safe hK configuration identity (hloaded₁ _ rfl)) ?_
    fun _ _ _ h => hfail (hidle₁.trans h.1)
  rintro ⟨records, fields⟩ s₂ l₂ ⟨hidle₂, hrecords⟩
  obtain ⟨hasked, hfetched⟩ := hrecords records fields rfl
  have hidle := hidle₁.trans hidle₂
  have hasked₂ : ∃ configuration ∈ l₂.loaded, ∃ x ∈ l₂.answered,
      AskedFor configuration identity x :=
    ⟨configuration, hidle₂.loaded (hloaded₁ _ rfl), hasked⟩
  dsimp only
  split
  · refine Safe.bind (leaveConfiguration_safe hK _ _) ?_
      fun _ _ _ h => hfail (hidle.trans h.1)
    rintro (_ | fallback) s₃ l₃ ⟨hidle₃, hloaded₃⟩
    · obtain ⟨c, hc, x, hx, hcx⟩ := hasked₂
      exact hread s₃ l₃ fields records (hidle.trans hidle₃)
        ⟨c, hidle₃.loaded hc, x, hidle₃.answered hx, hcx⟩
        fun raw hraw => (hfetched raw hraw).mono hidle₃
    · refine Safe.bind (leaveRecords_safe hK fallback identity (hloaded₃ _ rfl)) ?_
        fun _ _ _ h => hfail (hidle.trans (hidle₃.trans h.1))
      rintro ⟨records', fields'⟩ s₄ l₄ ⟨hidle₄, hrecords'⟩
      obtain ⟨hasked', hfetched'⟩ := hrecords' records' fields' rfl
      exact hread s₄ l₄ fields' records' (hidle.trans (hidle₃.trans hidle₄))
        ⟨fallback, hidle₄.loaded (hloaded₃ _ rfl), hasked'⟩ hfetched'
  · exact hread s₂ l₂ fields records hidle hasked₂ hfetched

end Rules

end Leave

end EmployeePortal.D365
