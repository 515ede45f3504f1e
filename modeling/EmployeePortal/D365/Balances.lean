import EmployeePortal.D365.Columns
import EmployeePortal.D365.FilterReading
import EmployeePortal.D365.LeaveService
import EmployeePortal.Framework.Traces

/-!
# Leave balances, all or none

What `get_balances` asks for and what it makes of the answer it uses, for
configurations that pass the checks made on them. The records of an answer are
shown in order, less the hidden ones, or none of them is.
-/

namespace EmployeePortal.D365

open EmployeePortal.Python EmployeePortal.Framework EmployeePortal.Employees

/-! ## Configurations that can be used -/

/-- Its names are identifiers, it has a personnel number field, and a leave type is
mapped. -/
structure Usable (configuration : EntityMapping) : Prop where
  entity_name : isIdentifier configuration.entity_name = true
  personnel_number_field : ∃ field, configuration.personnel_number_field = some field ∧
    isIdentifier field = true
  company_field : ∀ field, configuration.company_field = some field → field ≠ "" →
    isIdentifier field = true
  distinct : (configuration.field_mapping.map Prod.fst).Nodup
  columns : ∀ key field, (key, Json.str field) ∈ configuration.field_mapping →
    key ∈ leaveBalanceFieldNames → isIdentifier field = true
  leaveType : ∃ field, column configuration "leaveType" = some field

/-- The columns as `_validated_fields` returns them. -/
def ColumnsOf (configuration : EntityMapping) (fields : Dict String) : Prop :=
  ∀ key ∈ leaveBalanceFieldNames, fields.get? key = column configuration key

/-- The amounts of a record are looked up under the empty key when they are not
mapped. -/
theorem getD_columnsOf {configuration : EntityMapping} {fields : Dict String}
    (h : ColumnsOf configuration fields) {key : String} (hkey : key ∈ leaveBalanceFieldNames) :
    fields.getD key "" = (column configuration key).getD "" := by
  rw [Dict.getD, h key hkey]

/-- `LEAVE_CONFLICT`. -/
def Conflict (e : Exc) : Prop := ∃ message, e = leaveConflict message

theorem requiredValue_ok {value : Json} {s : String} (h : requiredValue value = .ok s) :
    value = .str s := by
  unfold requiredValue at h
  split at h
  · split at h
    · cases h
    · rw [Except.ok.inj h]
  · cases h

theorem requiredValue_raises (value : Json) : Raises Conflict (requiredValue value) := by
  unfold requiredValue
  split
  · split
    · exact .error (⟨_, rfl⟩)
    · exact .ok _
  · exact .error (⟨_, rfl⟩)

/-! ## Lists of records -/

/-- The answer is a list of these items. -/
def Lists (answer : Except Exc (Dict Json)) (items : List Json) : Prop :=
  ∃ payload, answer = .ok payload ∧ payload.get? "value" = some (.arr items)

theorem Lists.unique {answer : Except Exc (Dict Json)} {items items' : List Json}
    (h : Lists answer items) (h' : Lists answer items') : items = items' := by
  obtain ⟨payload, rfl, hvalue⟩ := h
  obtain ⟨payload', hpayload, hvalue'⟩ := h'
  obtain rfl := Except.ok.inj hpayload
  rw [hvalue] at hvalue'
  exact Json.arr.inj (Option.some.inj hvalue')

section Leave

variable [UnicodeData] {configuration : EntityMapping} {identity : Mapping}

theorem leaveFields_usable (h : Usable configuration) :
    ∃ fields, leaveFields configuration.field_mapping = .ok fields ∧
      ColumnsOf configuration fields ∧ ∀ p ∈ fields, isIdentifier p.2 = true := by
  have hvalid : ∀ p ∈ configuration.field_mapping.filterMap (pickField leaveBalanceFieldNames),
      isIdentifier p.2 = true := by
    intro q hq
    obtain ⟨p, hp, hpq⟩ := List.mem_filterMap.mp hq
    obtain ⟨rfl, hkey⟩ := pickField_eq_some.mp hpq
    exact h.columns _ _ hp hkey
  have hcolumns : ColumnsOf configuration
      (configuration.field_mapping.filterMap (pickField leaveBalanceFieldNames)) :=
    fun key hkey => get?_pickField h.distinct hkey
  refine ⟨_, ?_, hcolumns, hvalid⟩
  obtain ⟨field, hfield⟩ := h.leaveType
  have hleaveType := hcolumns "leaveType" (by decide)
  rw [leaveFields, selectFields_eq_ok.mpr ⟨rfl, hvalid⟩, ok_bind, hleaveType, hfield]
  rfl

/-! ## One record -/

/-- The markers that hide a record. -/
def isTrueForm : Json → Bool
  | .bool b => b
  | .int n => n = 1
  | .str s => casefold (strip s) ∈ ["true", "yes", "1"]
  | _ => false

/-- The markers that show it. -/
def isFalseForm : Json → Bool
  | .bool b => !b
  | .int n => n = 0
  | .str s => casefold (strip s) ∈ ["false", "no", "0"]
  | _ => false

theorem isHidden_eq (value : Json) : isHidden value =
    if isTrueForm value then .ok true
    else if isFalseForm value then .ok false
    else .error (leaveConflict "Leave balance visibility is invalid.") := by
  cases value with
  | bool b => cases b <;> rfl
  | int n =>
    by_cases hone : n = 1
    · subst hone
      rfl
    by_cases hzero : n = 0
    · subst hzero
      rfl
    simp [isHidden, isTrueForm, isFalseForm, hone, hzero]
  | str s => simp only [isHidden, isTrueForm, isFalseForm, decide_eq_true_eq]
  | _ => rfl

/-- The record's visibility marker, where a column for it is mapped. -/
def marker (configuration : EntityMapping) (raw : Dict Json) : Option Json :=
  (column configuration "hidden").map fun field => raw.getD field .null

/-- The record has no marker that hides it. -/
def isShown (configuration : EntityMapping) (raw : Dict Json) : Bool :=
  !(marker configuration raw).any isTrueForm

/-- The record's marker, if it is to have one, is in a form `_is_hidden` knows. -/
def Recognised (configuration : EntityMapping) (raw : Dict Json) : Prop :=
  ∀ value, marker configuration raw = some value →
    isTrueForm value = true ∨ isFalseForm value = true

/-- The amount a value stands for. -/
inductive Amount : Json → Option Decimal → Prop
  | null : Amount .null none
  | blank : Amount (.str "") none
  | parsed {value : Json} {d : Decimal} (h : Decimal.parse value.text = some d) :
      Amount value (some d)

/-- The balance has the record's leave type and amounts. -/
structure Carries (configuration : EntityMapping) (raw : Dict Json) (b : LeaveBalance) :
    Prop where
  leaveType : ∃ field, column configuration "leaveType" = some field ∧
    raw.getD field .null = .str b.leaveType
  available : Amount (raw.getD ((column configuration "available").getD "") .null) b.available
  taken : Amount (raw.getD ((column configuration "taken").getD "") .null) b.taken
  total : Amount (raw.getD ((column configuration "total").getD "") .null) b.total

theorem number_ok {value : Json} {n : Option Decimal} (h : number value = .ok n) :
    Amount value n := by
  unfold number at h
  split at h
  · obtain rfl := Except.ok.inj h
    exact .null
  · obtain rfl := Except.ok.inj h
    exact .blank
  · cases h
  · split at h
    · rename_i d hparse
      obtain rfl := Except.ok.inj h
      exact .parsed hparse
    · cases h

theorem number_raises (value : Json) : Raises Conflict (number value) := by
  unfold number
  split
  · exact .ok _
  · exact .ok _
  · exact .error ⟨_, rfl⟩
  · split
    · exact .ok _
    · exact .error ⟨_, rfl⟩

/-- One of the record's amounts is an infinity or a NaN. -/
def NonFinite (configuration : EntityMapping) (raw : Dict Json) : Prop :=
  ∃ key d, key ∈ ["available", "taken", "total"] ∧
    Amount (raw.getD ((column configuration key).getD "") .null) (some d) ∧ d.isFinite = false

/-- What a record that is not read raises. -/
def Refusal (configuration : EntityMapping) (raw : Dict Json) (e : Exc) : Prop :=
  Conflict e ∨ e = .validationError ∧ NonFinite configuration raw

theorem validated_raises {raw : Dict Json} {b : LeaveBalance}
    (havailable : Amount (raw.getD ((column configuration "available").getD "") .null) b.available)
    (htaken : Amount (raw.getD ((column configuration "taken").getD "") .null) b.taken)
    (htotal : Amount (raw.getD ((column configuration "total").getD "") .null) b.total) :
    Raises (Refusal configuration raw) b.validated := by
  unfold LeaveBalance.validated
  split
  · exact .ok _
  · rename_i hnot
    rw [Bool.not_eq_true, List.all_eq_false] at hnot
    obtain ⟨n, hn, hinfinite⟩ := hnot
    rw [Bool.not_eq_true, Option.all_eq_false] at hinfinite
    obtain ⟨d, rfl, hd⟩ := hinfinite
    refine .error (Or.inr ⟨rfl, ?_⟩)
    rcases List.mem_cons.mp hn with h | hn
    · exact ⟨"available", d, by decide, h ▸ havailable, hd⟩
    rcases List.mem_cons.mp hn with h | hn
    · exact ⟨"taken", d, by decide, h ▸ htaken, hd⟩
    · exact ⟨"total", d, by decide, List.mem_singleton.mp hn ▸ htotal, hd⟩

/-- A turn of the loop, by the record's marker. -/
theorem readBalance_eq {fields : Dict String} (h : ColumnsOf configuration fields)
    {raw : Dict Json} {type_field : String}
    (htype : column configuration "leaveType" = some type_field) :
    readBalance fields raw =
      if isShown configuration raw then
        if (marker configuration raw).all isFalseForm then do
          let leaveType ← requiredValue (raw.getD type_field .null)
          let available ← number (raw.getD ((column configuration "available").getD "") .null)
          let taken ← number (raw.getD ((column configuration "taken").getD "") .null)
          let total ← number (raw.getD ((column configuration "total").getD "") .null)
          return some (← LeaveBalance.validated ⟨leaveType, available, taken, total⟩)
        else .error (leaveConflict "Leave balance visibility is invalid.")
      else .ok none := by
  have hitem : item fields "leaveType" = .ok type_field := by
    rw [item, h "leaveType" (by decide), htype]
  rw [readBalance, h "hidden" (by decide), hitem, getD_columnsOf h (by decide),
    getD_columnsOf h (by decide), getD_columnsOf h (by decide), isShown, marker]
  cases column configuration "hidden" with
  | none => rfl
  | some field =>
    dsimp only
    rw [isHidden_eq, Option.map_some, Option.any_some, Option.all_some]
    cases isTrueForm (raw.getD field .null) with
    | true => rfl
    | false =>
      cases isFalseForm (raw.getD field .null) with
      | true => rfl
      | false => rfl

theorem readBalance_none {fields : Dict String} (hfields : ColumnsOf configuration fields)
    (husable : Usable configuration) {raw : Dict Json} (h : readBalance fields raw = .ok none) :
    isShown configuration raw = false ∧ Recognised configuration raw := by
  obtain ⟨type_field, htype⟩ := husable.leaveType
  rw [readBalance_eq hfields htype] at h
  by_cases hshown : isShown configuration raw = true
  · rw [if_pos hshown] at h
    split at h
    · obtain ⟨_, -, h⟩ := bind_eq_ok.mp h
      obtain ⟨_, -, h⟩ := bind_eq_ok.mp h
      obtain ⟨_, -, h⟩ := bind_eq_ok.mp h
      obtain ⟨_, -, h⟩ := bind_eq_ok.mp h
      obtain ⟨_, -, h⟩ := bind_eq_ok.mp h
      cases h
    · cases h
  · rw [Bool.not_eq_true] at hshown
    refine ⟨hshown, fun value hvalue => Or.inl ?_⟩
    rw [isShown, hvalue, Option.any_some, Bool.not_eq_false'] at hshown
    exact hshown

theorem readBalance_some {fields : Dict String} (hfields : ColumnsOf configuration fields)
    (husable : Usable configuration) {raw : Dict Json} {b : LeaveBalance}
    (h : readBalance fields raw = .ok (some b)) :
    isShown configuration raw = true ∧ Recognised configuration raw ∧
      Carries configuration raw b := by
  obtain ⟨type_field, htype⟩ := husable.leaveType
  rw [readBalance_eq hfields htype] at h
  by_cases hshown : isShown configuration raw = true
  · rw [if_pos hshown] at h
    split at h
    · rename_i hfalse
      obtain ⟨leaveType, hleaveType, h⟩ := bind_eq_ok.mp h
      obtain ⟨available, havailable, h⟩ := bind_eq_ok.mp h
      obtain ⟨taken, htaken, h⟩ := bind_eq_ok.mp h
      obtain ⟨total, htotal, h⟩ := bind_eq_ok.mp h
      obtain ⟨b', hvalid, h⟩ := bind_eq_ok.mp h
      obtain rfl := Option.some.inj (Except.ok.inj h)
      unfold LeaveBalance.validated at hvalid
      split at hvalid
      · obtain rfl := Except.ok.inj hvalid
        refine ⟨hshown, fun value hvalue => Or.inr ?_, ?_⟩
        · rwa [hvalue, Option.all_some] at hfalse
        · exact ⟨⟨type_field, htype, requiredValue_ok hleaveType⟩, number_ok havailable,
            number_ok htaken, number_ok htotal⟩
      · cases hvalid
    · cases h
  · rw [if_neg hshown] at h
    cases h

theorem readBalance_raises {fields : Dict String} (hfields : ColumnsOf configuration fields)
    (husable : Usable configuration) (raw : Dict Json) :
    Raises (Refusal configuration raw) (readBalance fields raw) := by
  obtain ⟨type_field, htype⟩ := husable.leaveType
  have hconflict : ∀ {β : Type} {x : Except Exc β}, Raises Conflict x →
      Raises (Refusal configuration raw) x := fun h => h.mono fun _ => Or.inl
  rw [readBalance_eq hfields htype]
  split
  · split
    · refine .bind (hconflict (requiredValue_raises _)) fun _ _ => ?_
      refine .bind (hconflict (number_raises _)) fun available havailable => ?_
      refine .bind (hconflict (number_raises _)) fun taken htaken => ?_
      refine .bind (hconflict (number_raises _)) fun total htotal => ?_
      refine .bind (validated_raises ?_ ?_ ?_) fun _ _ => .ok _
      · exact number_ok havailable
      · exact number_ok htaken
      · exact number_ok htotal
    · exact .error (.inl ⟨_, rfl⟩)
  · exact .ok _

/-! ## The records of one answer -/

/-- The balances are the records that are not hidden, one for one and in order. -/
structure Shows (configuration : EntityMapping) (records : List (Dict Json))
    (balances : List LeaveBalance) : Prop where
  recognised : ∀ raw ∈ records, Recognised configuration raw
  carries : List.Forall₂ (Carries configuration) (records.filter (isShown configuration)) balances

theorem readBalances_shows {fields : Dict String} (hfields : ColumnsOf configuration fields)
    (husable : Usable configuration) {records : List (Dict Json)} {balances : List LeaveBalance}
    (h : readBalances fields records = .ok balances) : Shows configuration records balances := by
  induction records generalizing balances with
  | nil =>
    obtain rfl := Except.ok.inj h
    exact ⟨fun _ hraw => absurd hraw List.not_mem_nil, .nil⟩
  | cons raw records ih =>
    rw [readBalances] at h
    obtain ⟨balance, hbalance, h⟩ := bind_eq_ok.mp h
    cases balance with
    | none =>
      obtain ⟨hhidden, hknown⟩ := readBalance_none hfields husable hbalance
      obtain ⟨hrecognised, hcarries⟩ := ih h
      refine ⟨List.forall_mem_cons.mpr ⟨hknown, hrecognised⟩, ?_⟩
      rwa [List.filter_cons_of_neg (by rw [hhidden]; decide)]
    | some b =>
      obtain ⟨hshown, hknown, hcarried⟩ := readBalance_some hfields husable hbalance
      obtain ⟨rest, hrest, h⟩ := bind_eq_ok.mp h
      obtain rfl := Except.ok.inj h
      obtain ⟨hrecognised, hcarries⟩ := ih hrest
      refine ⟨List.forall_mem_cons.mpr ⟨hknown, hrecognised⟩, ?_⟩
      rw [List.filter_cons_of_pos hshown]
      exact .cons hcarried hcarries

theorem readBalances_raises {fields : Dict String} (hfields : ColumnsOf configuration fields)
    (husable : Usable configuration) (records : List (Dict Json)) :
    Raises (fun e => ∃ raw ∈ records, Refusal configuration raw e)
      (readBalances fields records) := by
  induction records with
  | nil => exact .ok _
  | cons raw records ih =>
    have hrest := ih.mono fun e he => List.exists_mem_cons_of_exists (a := raw) he
    have hfirst := (readBalance_raises hfields husable raw).mono fun e he =>
      List.exists_mem_cons_of records (p := fun raw => Refusal configuration raw e) he
    rw [readBalances]
    refine .bind hfirst fun balance _ => ?_
    cases balance with
    | none => exact hrest
    | some b => exact .bind hrest fun _ _ => .ok _

/-- The item is a record of the row. -/
def Belongs (configuration : EntityMapping) (identity : Mapping) (item : Json) : Prop :=
  ∃ raw, item = .obj raw ∧ RecordOf configuration identity raw

theorem validateRecord_raises (personnel_field : String) (item : Json) :
    Raises Conflict (validateRecord personnel_field configuration identity item) := by
  unfold validateRecord
  split
  · split
    · exact .error ⟨_, rfl⟩
    · split
      · split
        · exact .error ⟨_, rfl⟩
        · exact .ok _
      · exact .ok _
  · exact .error ⟨_, rfl⟩

/-- The records of an answer that passes the checks, in the answer's order. -/
theorem records_ok {personnel_field : String} {answer : Except Exc (Dict Json)}
    {records : List (Dict Json)}
    (hfield : configuration.personnel_number_field = some personnel_field)
    (h : answer >>= readLeaveAnswer personnel_field configuration identity = .ok records) :
    Lists answer (records.map .obj) ∧ ∀ raw ∈ records, RecordOf configuration identity raw := by
  obtain ⟨payload, rfl, hread⟩ := bind_eq_ok.mp h
  unfold readLeaveAnswer at hread
  split at hread
  · rename_i items hvalue
    have hitems := (mapM_ok_iff.mp hread).imp fun _ _ hok => validateRecord_ok hfield hok
    have hrecords : items = records.map .obj ∧
        ∀ raw ∈ records, RecordOf configuration identity raw := by
      clear hvalue h hread
      induction hitems with
      | nil => exact ⟨rfl, fun _ hraw => absurd hraw List.not_mem_nil⟩
      | cons hfirst _ ih =>
        obtain ⟨rfl, hof⟩ := hfirst
        obtain ⟨rfl, hrest⟩ := ih
        exact ⟨rfl, List.forall_mem_cons.mpr ⟨hof, hrest⟩⟩
    exact ⟨⟨payload, rfl, by rw [hvalue, hrecords.1]⟩, hrecords.2⟩
  · cases hread

theorem records_raises {personnel_field : String} {answer : Except Exc (Dict Json)}
    {items : List Json} (h : Lists answer items) :
    Raises Conflict (answer >>= readLeaveAnswer personnel_field configuration identity) := by
  obtain ⟨payload, rfl, hvalue⟩ := h
  rw [ok_bind, readLeaveAnswer, hvalue]
  intro e he
  obtain ⟨item, -, hitem⟩ := exists_of_mapM_error he
  exact validateRecord_raises personnel_field item e hitem

theorem lists_nil_iff {personnel_field : String} {answer : Except Exc (Dict Json)}
    (hfield : configuration.personnel_number_field = some personnel_field) :
    Lists answer [] ↔
      answer >>= readLeaveAnswer personnel_field configuration identity = .ok [] := by
  constructor
  · rintro ⟨payload, rfl, hvalue⟩
    rw [ok_bind, readLeaveAnswer, hvalue]
    rfl
  · intro h
    exact (records_ok hfield h).1

/-- What `get_balances` makes of the answer it uses: all of its records, or an
exception. -/
structure AllOrNothing (configuration : EntityMapping) (identity : Mapping)
    (answer : Except Exc (Dict Json)) (result : Except Exc LeaveBalancesResponse) : Prop where
  shows : ∀ response, result = .ok response → ∃ records : List (Dict Json),
    Lists answer (records.map .obj) ∧
    (∀ raw ∈ records, RecordOf configuration identity raw) ∧
    Shows configuration records response.balances
  stranger : ∀ items item, Lists answer items → item ∈ items →
    ¬ Belongs configuration identity item → ∃ e, result = .error e ∧ Conflict e
  unrecognised : ∀ (records : List (Dict Json)) raw, Lists answer (records.map .obj) →
    raw ∈ records → ¬ Recognised configuration raw → ∃ e, result = .error e ∧
      (Conflict e ∨ e = .validationError ∧ ∃ raw ∈ records, NonFinite configuration raw)

/-- The response for the records of an answer. -/
def respond (fields : Dict String) (records : List (Dict Json)) :
    Except Exc LeaveBalancesResponse := do
  return ⟨← readBalances fields records⟩

theorem respond_allOrNothing {personnel_field : String} {answer : Except Exc (Dict Json)}
    {fields : Dict String} (husable : Usable configuration)
    (hfields : ColumnsOf configuration fields)
    (hfield : configuration.personnel_number_field = some personnel_field) :
    AllOrNothing configuration identity answer
      (answer >>= readLeaveAnswer personnel_field configuration identity >>= respond fields) := by
  have hshows : ∀ response, answer >>= readLeaveAnswer personnel_field configuration identity >>=
      respond fields = .ok response → ∃ records : List (Dict Json),
        Lists answer (records.map .obj) ∧
        (∀ raw ∈ records, RecordOf configuration identity raw) ∧
        Shows configuration records response.balances := by
    intro response h
    obtain ⟨records, hrecords, h⟩ := bind_eq_ok.mp h
    obtain ⟨balances, hbalances, h⟩ := bind_eq_ok.mp h
    obtain rfl := Except.ok.inj h
    obtain ⟨hlists, hof⟩ := records_ok hfield hrecords
    exact ⟨records, hlists, hof, readBalances_shows hfields husable hbalances⟩
  refine ⟨hshows, ?_, ?_⟩
  -- a stranger's record stops the read before any balance is made
  · intro items item hitems hitem hstranger
    cases hrecords : answer >>= readLeaveAnswer personnel_field configuration identity with
    | error e => exact ⟨e, rfl, records_raises hitems e hrecords⟩
    | ok records =>
      obtain ⟨hlists, hof⟩ := records_ok hfield hrecords
      rw [hitems.unique hlists] at hitem
      obtain ⟨raw, hraw, rfl⟩ := List.mem_map.mp hitem
      exact absurd ⟨raw, rfl, hof raw hraw⟩ hstranger
  -- an unknown marker fails in the loop, unless a record before it failed already
  · intro records raw hlists hraw hunknown
    cases hrecords : answer >>= readLeaveAnswer personnel_field configuration identity with
    | error e => exact ⟨e, rfl, Or.inl (records_raises hlists e hrecords)⟩
    | ok records' =>
      have hinjective : Function.Injective Json.obj := fun _ _ => Json.obj.inj
      obtain rfl := List.map_injective_iff.mpr hinjective
        (hlists.unique (records_ok hfield hrecords).1)
      cases hbalances : readBalances fields records with
      | ok balances =>
        have hknown := (readBalances_shows hfields husable hbalances).recognised raw hraw
        exact absurd hknown hunknown
      | error e =>
        refine ⟨e, by rw [ok_bind, respond, hbalances, error_bind], ?_⟩
        obtain ⟨raw', hraw', hconflict | ⟨rfl, hnonfinite⟩⟩ :=
          readBalances_raises hfields husable records e hbalances
        · exact Or.inl hconflict
        · exact Or.inr ⟨rfl, raw', hraw', hnonfinite⟩

/-! ## What is asked for -/

/-- The requests of a trace, by entity, and their answers. -/
def requests : List (Event Op Op.Answer Exc) → List (String × Except Exc (Dict Json))
  | [] => []
  | ⟨.getEntity entity _, answer⟩ :: events => (entity, answer) :: requests events
  | _ :: events => requests events

theorem leaveConfiguration_run {mapping_key : String} {required : Bool}
    {found : Option EntityMapping} {f : Option EntityMapping → Coroutine LeaveBalancesResponse}
    {events : List (Event Op Op.Answer Exc)} {result : Except Exc LeaveBalancesResponse}
    (hrun : (leaveConfiguration mapping_key required >>= f).Run events result)
    (hanswer : ∀ r, ⟨.configuration mapping_key, r⟩ ∈ events → r = .ok found)
    (hfound : ∀ c, found = some c → c.mapping_key = mapping_key ∧ Usable c)
    (hrequired : required = true → found.isSome = true) :
    ∃ rest, events = ⟨.configuration mapping_key, .ok found⟩ :: rest ∧
      (f found).Run rest result := by
  unfold leaveConfiguration await at hrun
  rw [bind_assoc, Prog.run_perform_bind] at hrun
  rcases hrun with ⟨a, rest, rfl, hrun⟩ | ⟨e, rfl, -⟩
  · obtain rfl := Except.ok.inj (hanswer _ List.mem_cons_self)
    refine ⟨rest, rfl, ?_⟩
    cases a with
    | none =>
      cases required with
      | true => cases hrequired rfl
      | false => exact hrun
    | some c =>
      obtain ⟨hkey, husable⟩ := hfound c rfl
      rw [Option.filter_some_pos (by simpa using hkey)] at hrun
      dsimp only at hrun
      rw [validateIdentifier_ok.mpr ⟨husable.entity_name, rfl⟩] at hrun
      cases hcompany : truthy c.company_field with
      | none =>
        rw [hcompany] at hrun
        exact hrun
      | some field =>
        obtain ⟨hfield, hne⟩ := truthy_eq_some.mp hcompany
        rw [hcompany] at hrun
        dsimp only at hrun
        rw [validateIdentifier_ok.mpr ⟨husable.company_field field hfield hne, rfl⟩] at hrun
        exact hrun
  · cases hanswer _ List.mem_cons_self

/-- A usable configuration leads to one request, and a row without control characters
to one that can be sent. -/
theorem leaveRecords_run {f : List (Dict Json) × Dict String → Coroutine LeaveBalancesResponse}
    {events : List (Event Op Op.Answer Exc)} {result : Except Exc LeaveBalancesResponse}
    (husable : Usable configuration)
    (hnumber : hasControl identity.d365_personnel_number = false)
    (hcompany : ∀ company, identity.d365_company = some company → hasControl company = false)
    (hrun : (leaveRecords configuration identity >>= f).Run events result) :
    ∃ fields personnel_field params answer rest,
      ColumnsOf configuration fields ∧
      configuration.personnel_number_field = some personnel_field ∧
      events = ⟨.getEntity configuration.entity_name params, answer⟩ :: rest ∧
      (Prog.ofExcept (answer >>= readLeaveAnswer personnel_field configuration identity) >>=
        fun records => f (records, fields)).Run rest result := by
  obtain ⟨fields, hselected, hcolumns, hvalid⟩ := leaveFields_usable husable
  obtain ⟨personnel_field, hfield, hidentifier⟩ := husable.personnel_number_field
  have hrequired : requiredIdentifier (leaveNotConfigured "Leave identity field is missing.")
      configuration.personnel_number_field = .ok personnel_field := by
    have hne : personnel_field ≠ "" := by
      rintro rfl
      cases hidentifier
    rw [requiredIdentifier, truthy_eq_some.mpr ⟨hfield, hne⟩]
    exact validateIdentifier_ok.mpr ⟨hidentifier, rfl⟩
  -- every validation passes before the request, so nothing raises up to it
  have hclause : ∀ p, companyClause configuration identity = some p →
      isIdentifier p.1 = true ∧ hasControl p.2 = false := by
    rintro ⟨field, company⟩ hp
    obtain ⟨⟨hf, hfne⟩, hc, -⟩ := companyClause_eq_some.mp hp
    exact ⟨husable.company_field field hf hfne, hcompany company hc⟩
  have hpairs : identityPairs personnel_field configuration identity ≠ [] := by
    simp [identityPairs]
  obtain ⟨filter, hfilter, -⟩ := filterOf_ok hpairs
    (by
      intro p hp
      rcases List.mem_cons.mp hp with rfl | hp
      · exact hidentifier
      · exact (hclause p (Option.mem_toList.mp hp)).1)
    (by
      intro p hp
      rcases List.mem_cons.mp hp with rfl | hp
      · exact hnumber
      · exact (hclause p (Option.mem_toList.mp hp)).2)
  have hselect : ∀ n ∈ (personnel_field :: fields.map Prod.snd ++
      ((companyClause configuration identity).map Prod.fst).toList).eraseDups,
      isIdentifier n = true := by
    intro n hn
    rw [List.mem_eraseDups, List.mem_append, List.mem_cons, List.mem_map] at hn
    rcases hn with (rfl | ⟨p, hp, rfl⟩) | hn
    · exact hidentifier
    · exact hvalid p hp
    · obtain ⟨p, hp, rfl⟩ := Option.map_eq_some_iff.mp (Option.mem_toList.mp hn)
      exact (hclause p hp).1
  unfold leaveRecords getEntity at hrun
  simp only [Prog.liftM_eq, hselected, hrequired, hfilter, Prog.ofExcept_ok, Prog.ret_bind,
    validateIdentifier_ok.mpr ⟨husable.entity_name, rfl⟩, bind_assoc] at hrun
  generalize hq : ODataQuery.toParams _ = encoded at hrun
  obtain ⟨params, rfl⟩ : ∃ params, encoded = .ok params := by
    rw [← hq]
    refine toParams_ok hselect rfl rfl ?_ rfl
    intro n hn
    obtain rfl := Option.some.inj hn
    decide
  rw [Prog.ofExcept_ok, Prog.ret_bind, await, Prog.perform, Prog.op_bind, Prog.run_op] at hrun
  obtain ⟨answer, rest, rfl, hrun⟩ := hrun
  refine ⟨fields, personnel_field, params, answer, rest, hcolumns, hfield, rfl, ?_⟩
  rw [Prog.ofExcept_bind, bind_assoc]
  exact hrun

theorem respond_run (fields : Dict String) {x : Except Exc (List (Dict Json))}
    {events : List (Event Op Op.Answer Exc)} {result : Except Exc LeaveBalancesResponse}
    (h : (Prog.ofExcept x >>= fun records => do
      return LeaveBalancesResponse.mk (← Prog.ofExcept (readBalances fields records)) :
        Coroutine LeaveBalancesResponse).Run events result) :
    events = [] ∧ result = x >>= respond fields := by
  have hrespond : (Prog.ofExcept (x >>= respond fields) :
      Coroutine LeaveBalancesResponse).Run events result := by
    rw [Prog.ofExcept_bind]
    simp only [respond, Prog.ofExcept_bind]
    exact h
  exact Prog.run_ofExcept.mp hrespond

/-- The result is what `get_balances` makes of this answer. -/
def ReadFrom (configuration : EntityMapping) (identity : Mapping)
    (answer : Except Exc (Dict Json)) (result : Except Exc LeaveBalancesResponse) : Prop :=
  ∃ fields personnel_field, ColumnsOf configuration fields ∧
    configuration.personnel_number_field = some personnel_field ∧
    result = answer >>= readLeaveAnswer personnel_field configuration identity >>= respond fields

/-- The fallback entity is asked exactly when the primary one answered with an empty list
and there is a fallback; the result is read from the last answer. -/
theorem getBalances_run {rows : String → Option EntityMapping} {primary : EntityMapping}
    (hnumber : hasControl identity.d365_personnel_number = false)
    (hcompany : ∀ company, identity.d365_company = some company → hasControl company = false)
    (husable : ∀ mapping_key c, rows mapping_key = some c →
      c.mapping_key = mapping_key ∧ Usable c)
    (hprimary : rows "leave_balance" = some primary)
    {events : List (Event Op Op.Answer Exc)} {result : Except Exc LeaveBalancesResponse}
    (hrun : (getBalances identity).Run events result)
    (hrows : ∀ mapping_key r, ⟨.configuration mapping_key, r⟩ ∈ events →
      r = .ok (rows mapping_key)) :
    ∃ first,
      (∃ fallback second, Lists first [] ∧ rows "leave_balance_active" = some fallback ∧
        requests events = [(primary.entity_name, first), (fallback.entity_name, second)] ∧
        ReadFrom fallback identity second result) ∨
      (¬ (Lists first [] ∧ ∃ fallback, rows "leave_balance_active" = some fallback) ∧
        requests events = [(primary.entity_name, first)] ∧
        ReadFrom primary identity first result) := by
  unfold getBalances at hrun
  simp only [Prog.liftM_eq] at hrun
  obtain ⟨events₁, rfl, hrun₁⟩ := leaveConfiguration_run hrun (fun r => hrows _ r)
    (husable _) fun _ => by rw [hprimary]; rfl
  rw [hprimary] at hrun₁
  obtain ⟨fields, personnel_field, params, first, events₂, hfields, hfield, rfl, hrun₂⟩ :=
    leaveRecords_run (husable _ _ hprimary).2 hnumber hcompany hrun₁
  have hone : ReadFrom primary identity first
      (first >>= readLeaveAnswer personnel_field primary identity >>= respond fields) :=
    ⟨fields, personnel_field, hfields, hfield, rfl⟩
  refine ⟨first, ?_⟩
  -- the fallback is looked up only when the primary answer reads as no record
  cases hrecords : first >>= readLeaveAnswer personnel_field primary identity with
  | error e =>
    rw [hrecords] at hrun₂ hone
    obtain ⟨rfl, rfl⟩ := hrun₂
    refine Or.inr ⟨?_, rfl, hone⟩
    rintro ⟨hnil, -⟩
    rw [(lists_nil_iff hfield).mp hnil] at hrecords
    cases hrecords
  | ok records =>
    rw [hrecords] at hrun₂ hone
    rw [ok_bind] at hone
    cases records with
    | cons raw records =>
      rw [Prog.ofExcept_ok, Prog.ret_bind, List.isEmpty_cons, if_neg Bool.false_ne_true] at hrun₂
      obtain ⟨rfl, rfl⟩ := respond_run fields (x := .ok (raw :: records)) hrun₂
      refine Or.inr ⟨?_, rfl, hone⟩
      rintro ⟨hnil, -⟩
      rw [(lists_nil_iff hfield).mp hnil] at hrecords
      cases hrecords
    | nil =>
      rw [Prog.ofExcept_ok, Prog.ret_bind, List.isEmpty_nil, if_pos rfl] at hrun₂
      obtain ⟨events₃, rfl, hrun₃⟩ := leaveConfiguration_run hrun₂ (fun r hr => hrows _ r
        (List.mem_cons_of_mem _ (List.mem_cons_of_mem _ hr))) (husable _) fun h => by cases h
      have hnil := (lists_nil_iff hfield).mpr hrecords
      cases hfallback : rows "leave_balance_active" with
      | none =>
        rw [hfallback] at hrun₃
        obtain ⟨rfl, rfl⟩ := respond_run fields (x := .ok []) hrun₃
        refine Or.inr ⟨?_, rfl, hone⟩
        rintro ⟨-, fallback, hsome⟩
        cases hsome
      | some fallback =>
        rw [hfallback] at hrun₃
        obtain ⟨fields', personnel_field', params', second, events₄, hfields', hfield', rfl,
          hrun₄⟩ := leaveRecords_run (husable _ _ hfallback).2 hnumber hcompany hrun₃
        obtain ⟨rfl, rfl⟩ := respond_run fields' hrun₄
        refine Or.inl ⟨fallback, second, hnil, rfl, rfl, ?_⟩
        exact ⟨fields', personnel_field', hfields', hfield', rfl⟩

/-- **Leave balances are all or none.** For a row without control characters and
configurations that can be used, in every run, whatever D365 answers: the fallback
entity is asked exactly when the primary one answered with an empty list and there is
a fallback, and the result is all of the answer used or an exception. -/
theorem balances_all_or_nothing {rows : String → Option EntityMapping} {primary : EntityMapping}
    (hnumber : hasControl identity.d365_personnel_number = false)
    (hcompany : ∀ company, identity.d365_company = some company → hasControl company = false)
    (husable : ∀ mapping_key c, rows mapping_key = some c →
      c.mapping_key = mapping_key ∧ Usable c)
    (hprimary : rows "leave_balance" = some primary)
    {events : List (Event Op Op.Answer Exc)} {result : Except Exc LeaveBalancesResponse}
    (hrun : (getBalances identity).Run events result)
    (hrows : ∀ mapping_key r, ⟨.configuration mapping_key, r⟩ ∈ events →
      r = .ok (rows mapping_key)) :
    ∃ first,
      (∃ fallback second, Lists first [] ∧ rows "leave_balance_active" = some fallback ∧
        requests events = [(primary.entity_name, first), (fallback.entity_name, second)] ∧
        AllOrNothing fallback identity second result) ∨
      (¬ (Lists first [] ∧ ∃ fallback, rows "leave_balance_active" = some fallback) ∧
        requests events = [(primary.entity_name, first)] ∧
        AllOrNothing primary identity first result) := by
  obtain ⟨first, hread⟩ := getBalances_run hnumber hcompany husable hprimary hrun hrows
  refine ⟨first, ?_⟩
  rcases hread with ⟨fallback, second, hnil, hfallback, hasked, fields, personnel_field, hfields,
    hfield, rfl⟩ | ⟨hone, hasked, fields, personnel_field, hfields, hfield, rfl⟩
  · refine Or.inl ⟨fallback, second, hnil, hfallback, hasked, ?_⟩
    exact respond_allOrNothing (husable _ _ hfallback).2 hfields hfield
  · exact Or.inr ⟨hone, hasked, respond_allOrNothing (husable _ _ hprimary).2 hfields hfield⟩

end Leave

/-! ## A run -/

section Example

open scoped Ascii

def exampleRow : Mapping where
  id := ⟨3, by decide⟩
  entra_oid := none
  entra_upn := none
  entra_email := none
  d365_personnel_number := "6666"
  d365_company := some "SSSA"
  mapping_source := "manual_approved"
  verified := true
  enabled := true

def essBalances : EntityMapping where
  mapping_key := "leave_balance"
  entity_name := "EssLeaveBalances"
  personnel_number_field := some "PersonnelNumber"
  company_field := some "dataAreaId"
  field_mapping := [("leaveType", .str "LeaveTypeId"), ("available", .str "BalanceAvailable")]
  enabled := true

def activeBalances : EntityMapping where
  mapping_key := "leave_balance_active"
  entity_name := "LeaveBalancesActive"
  personnel_number_field := some "PersonnelNumber"
  company_field := some "dataAreaId"
  field_mapping := [("leaveType", .str "BalanceType"), ("available", .str "BalanceRemaining"),
    ("hidden", .str "HideLeaveBalances")]
  enabled := true

/-- The two configurations, by key. -/
def exampleRows (mapping_key : String) : Option EntityMapping :=
  if mapping_key = "leave_balance" then some essBalances
  else if mapping_key = "leave_balance_active" then some activeBalances
  else none

def exampleReply (o : Op) (reply : List Json) : Option (Except Exc o.Answer) :=
  match o with
  | .configuration mapping_key => some (.ok (exampleRows mapping_key))
  | .getEntity _ _ => some (.ok [("value", .arr reply)])
  | _ => none

/-- A hidden record and one that is not. -/
def exampleRecords : List Json :=
  [.obj [("PersonnelNumber", .str "6666"), ("dataAreaId", .str "sssa"),
      ("BalanceType", .str "PRIVATE"), ("HideLeaveBalances", .str " Yes")],
    .obj [("PersonnelNumber", .int 6666), ("dataAreaId", .str "SSSA"),
      ("BalanceType", .str "ANNUAL"), ("BalanceRemaining", .float "12.25"),
      ("HideLeaveBalances", .int 0)]]

theorem essBalances_usable : Usable essBalances where
  entity_name := by decide
  personnel_number_field := ⟨_, rfl, by decide⟩
  company_field := by
    rintro field ⟨⟩ -
    decide
  distinct := by decide
  columns := by
    intro key field hmem _
    simp only [essBalances, List.mem_cons, Prod.mk.injEq, Json.str.injEq, List.not_mem_nil,
      or_false] at hmem
    rcases hmem with ⟨-, rfl⟩ | ⟨-, rfl⟩ <;> decide
  leaveType := ⟨_, rfl⟩

theorem activeBalances_usable : Usable activeBalances where
  entity_name := by decide
  personnel_number_field := ⟨_, rfl, by decide⟩
  company_field := by
    rintro field ⟨⟩ -
    decide
  distinct := by decide
  columns := by
    intro key field hmem _
    simp only [activeBalances, List.mem_cons, Prod.mk.injEq, Json.str.injEq, List.not_mem_nil,
      or_false] at hmem
    rcases hmem with ⟨-, rfl⟩ | ⟨-, rfl⟩ | ⟨-, rfl⟩ <;> decide
  leaveType := ⟨_, rfl⟩

theorem exampleRows_usable (mapping_key : String) (c : EntityMapping)
    (h : exampleRows mapping_key = some c) : c.mapping_key = mapping_key ∧ Usable c := by
  unfold exampleRows at h
  split at h
  · rename_i hkey
    obtain rfl := Option.some.inj h
    exact ⟨hkey.symm, essBalances_usable⟩
  · split at h
    · rename_i hkey
      obtain rfl := Option.some.inj h
      exact ⟨hkey.symm, activeBalances_usable⟩
    · cases h

/-- The result is one balance of annual leave. -/
def isAnnual (result : Except Exc LeaveBalancesResponse) : Bool :=
  match result with
  | .ok ⟨[balance]⟩ => balance.leaveType = "ANNUAL"
  | _ => false

theorem exists_of_isAnnual {result : Except Exc LeaveBalancesResponse}
    (h : isAnnual result = true) :
    ∃ balance, result = .ok ⟨[balance]⟩ ∧ balance.leaveType = "ANNUAL" := by
  unfold isAnnual at h
  split at h
  · rename_i balance
    exact ⟨balance, rfl, of_decide_eq_true h⟩
  · cases h

/-- The primary entity has nothing, and the fallback one has a record to show. -/
theorem balances_all_or_nothing_fallback :
    ∃ events balance, (getBalances exampleRow).Run events (.ok ⟨[balance]⟩) ∧
      (requests events).length = 2 ∧ balance.leaveType = "ANNUAL" ∧
      ∃ second, AllOrNothing activeBalances exampleRow second (.ok ⟨[balance]⟩) := by
  have hrun : (Prog.drive exampleReply (getBalances exampleRow)
      [[], [], [], exampleRecords]).any (fun x =>
        (requests x.1).length = 2 ∧ isAnnual x.2) = true := by
    decide +kernel
  obtain ⟨⟨events, result⟩, hdrive, hresult⟩ := (Option.any_eq_true _ _).mp hrun
  obtain ⟨htwo, hannual⟩ := of_decide_eq_true hresult
  obtain ⟨balance, rfl, htype⟩ := exists_of_isAnnual hannual
  refine ⟨events, balance, Prog.drive_run hdrive, htwo, htype, ?_⟩
  have hrows : ∀ mapping_key r, ⟨.configuration mapping_key, r⟩ ∈ events →
      r = .ok (exampleRows mapping_key) := by
    intro mapping_key r hmem
    obtain ⟨hint, hreply⟩ := Prog.drive_mem hdrive _ hmem
    exact (Option.some.inj hreply).symm
  have hnumber : hasControl exampleRow.d365_personnel_number = false := by decide
  have hcompany : ∀ company, exampleRow.d365_company = some company →
      hasControl company = false := by
    rintro company ⟨⟩
    decide
  obtain ⟨first, ⟨fallback, second, -, hfallback, -, h⟩ | ⟨-, hone, -⟩⟩ :=
    balances_all_or_nothing hnumber hcompany exampleRows_usable rfl (Prog.drive_run hdrive)
      hrows
  · obtain rfl := Option.some.inj hfallback
    exact ⟨second, h⟩
  · rw [hone] at htwo
    cases htwo

end Example

end EmployeePortal.D365
