import EmployeePortal.D365.Balances

/-!
# What bad leave data raises

`_number` takes whatever `Decimal` takes, infinities and NaN included, and the response
model refuses those. A record that is in order but for such an amount ends the request in
the model's own `ValidationError`; everything else ends in a review error.
-/

namespace EmployeePortal.D365

open EmployeePortal.Python EmployeePortal.Framework EmployeePortal.Employees

/-! ## Records that can be read -/

/-- The record's leave type is a text that is not blank. -/
def Typed (configuration : EntityMapping) (raw : Dict Json) : Prop :=
  ∃ field s, column configuration "leaveType" = some field ∧
    raw.getD field .null = .str s ∧ strip s ≠ ""

theorem typed_iff {configuration : EntityMapping} {raw : Dict Json} {type_field : String}
    (htype : column configuration "leaveType" = some type_field) :
    Typed configuration raw ↔ ∃ s, requiredValue (raw.getD type_field .null) = .ok s := by
  constructor
  · rintro ⟨field, s, hfield, hvalue, hs⟩
    obtain rfl := Option.some.inj (htype.symm.trans hfield)
    refine ⟨s, ?_⟩
    rw [hvalue, requiredValue, if_neg hs]
  · rintro ⟨s, hs⟩
    have hvalue := requiredValue_ok hs
    refine ⟨type_field, s, htype, hvalue, fun hblank => ?_⟩
    rw [hvalue, requiredValue, if_pos hblank] at hs
    cases hs

section Records

variable [UnicodeData]

/-- The record's amounts are numbers, or there are none. -/
def Numeric (configuration : EntityMapping) (raw : Dict Json) : Prop :=
  ∀ key ∈ ["available", "taken", "total"],
    ∃ n, Amount (raw.getD ((column configuration key).getD "") .null) n

/-- The record is a hidden one, or a balance with finite amounts. -/
structure Readable (configuration : EntityMapping) (raw : Dict Json) : Prop where
  recognised : Recognised configuration raw
  balance : isShown configuration raw = true →
    Typed configuration raw ∧ Numeric configuration raw ∧ ¬ NonFinite configuration raw

/-- The record would be a balance if its amounts were finite. -/
structure Overstated (configuration : EntityMapping) (raw : Dict Json) : Prop where
  recognised : Recognised configuration raw
  shown : isShown configuration raw = true
  typed : Typed configuration raw
  numeric : Numeric configuration raw
  nonFinite : NonFinite configuration raw

/-- The answer is a list of the row's records, and the first one that cannot be read is
overstated. -/
def Overstates (configuration : EntityMapping) (identity : Mapping)
    (answer : Except Exc (Dict Json)) : Prop :=
  ∃ pre raw post, Lists answer ((pre ++ raw :: post).map .obj) ∧
    (∀ r ∈ pre ++ raw :: post, RecordOf configuration identity r) ∧
    (∀ r ∈ pre, Readable configuration r) ∧ Overstated configuration raw

/-- The last request of the call is one for this configuration, with this answer. -/
def Uses (rows : String → Option EntityMapping) (events : List (Event Op Op.Answer Exc))
    (configuration : EntityMapping) (answer : Except Exc (Dict Json)) : Prop :=
  (rows "leave_balance" = some configuration ∧
    requests events = [(configuration.entity_name, answer)]) ∨
  (rows "leave_balance_active" = some configuration ∧
    ∃ first, requests events = [first, (configuration.entity_name, answer)])

/-! ## One value -/

/-- `None`, `True` and `False` are no numerals. -/
theorem parse_constant {text : String} (h : text ∈ ["None", "True", "False", ""]) :
    Decimal.parse text = none := by
  have hplain : (stripBy isSpace text.toList).filter (· ≠ '_') = text.toList ∧
      ∀ c ∈ text.toList, isAscii c = true := by
    simp only [List.mem_cons, List.not_mem_nil, or_false] at h
    rcases h with rfl | rfl | rfl | rfl <;> exact ⟨by decide, List.all_eq_true.mp (by decide)⟩
  rw [Decimal.parse, hplain.1, Uuid.mapM_asciiChar hplain.2]
  clear hplain
  revert h text
  decide

theorem number_iff {value : Json} {n : Option Decimal} : number value = .ok n ↔ Amount value n := by
  constructor
  · exact number_ok
  · intro h
    cases h with
    | null => rfl
    | blank => rfl
    | parsed h =>
      unfold number
      split
      · rw [show Json.text .null = "None" from rfl, parse_constant (by decide)] at h
        cases h
      · rw [show Json.text (.str "") = "" from rfl, parse_constant (by decide)] at h
        cases h
      · rename_i b
        have htext : Json.text (.bool b) ∈ ["None", "True", "False", ""] := by
          cases b <;> simp [Json.text, Json.repr]
        rw [parse_constant htext] at h
        cases h
      · rw [h]

theorem Amount.unique {value : Json} {n n' : Option Decimal} (h : Amount value n)
    (h' : Amount value n') : n = n' :=
  Except.ok.inj ((number_iff.mpr h).symm.trans (number_iff.mpr h'))

theorem number_error {value : Json} (h : ∀ n, ¬ Amount value n) :
    ∃ message, number value = .error (leaveConflict message) := by
  cases hnumber : number value with
  | ok n => exact absurd (number_iff.mp hnumber) (h n)
  | error e =>
    obtain ⟨message, rfl⟩ := number_raises value e hnumber
    exact ⟨message, rfl⟩

/-! ## One record -/

variable {configuration : EntityMapping} {raw : Dict Json} {fields : Dict String}

/-- An amount of the record that is no number. -/
theorem not_numeric {key : String} (hkey : key ∈ ["available", "taken", "total"])
    (h : ∀ n, ¬ Amount (raw.getD ((column configuration key).getD "") .null) n) :
    ¬ Numeric configuration raw := by
  intro hnumeric
  obtain ⟨n, hn⟩ := hnumeric key hkey
  exact h n hn

theorem nonFinite_iff {b : LeaveBalance}
    (havailable : Amount (raw.getD ((column configuration "available").getD "") .null) b.available)
    (htaken : Amount (raw.getD ((column configuration "taken").getD "") .null) b.taken)
    (htotal : Amount (raw.getD ((column configuration "total").getD "") .null) b.total) :
    NonFinite configuration raw ↔
      [b.available, b.taken, b.total].all (fun n => n.all Decimal.isFinite) = false := by
  constructor
  · rintro ⟨key, d, hkey, hamount, hd⟩
    rw [List.all_eq_false]
    refine ⟨some d, ?_, by simp [hd]⟩
    rcases List.mem_cons.mp hkey with rfl | hkey
    · rw [hamount.unique havailable]
      simp
    rcases List.mem_cons.mp hkey with rfl | hkey
    · rw [hamount.unique htaken]
      simp
    · obtain rfl := List.mem_singleton.mp hkey
      rw [hamount.unique htotal]
      simp
  · intro hall
    have herror : b.validated = .error .validationError := by
      rw [LeaveBalance.validated, hall]
      rfl
    rcases validated_raises havailable htaken htotal _ herror with ⟨message, h⟩ | ⟨-, h⟩
    · cases h
    · exact h

/-- A record to be shown whose marker is in order. -/
theorem readBalance_shown (hfields : ColumnsOf configuration fields)
    (husable : Usable configuration) (hshown : isShown configuration raw = true)
    (hrecognised : (marker configuration raw).all isFalseForm = true) :
    (Typed configuration raw ∧ Numeric configuration raw ∧ ¬ NonFinite configuration raw ∧
      ∃ balance, readBalance fields raw = .ok balance) ∨
    (Typed configuration raw ∧ Numeric configuration raw ∧ NonFinite configuration raw ∧
      readBalance fields raw = .error .validationError) ∨
    (¬ (Typed configuration raw ∧ Numeric configuration raw) ∧
      ∃ message, readBalance fields raw = .error (leaveConflict message)) := by
  obtain ⟨type_field, htype⟩ := husable.leaveType
  rw [readBalance_eq hfields htype, if_pos hshown, if_pos hrecognised, typed_iff htype]
  -- the reads in the order of the source: each failure is the same kind of conflict
  cases hleaveType : requiredValue (raw.getD type_field .null) with
  | error e =>
    obtain ⟨message, rfl⟩ := requiredValue_raises _ e hleaveType
    refine Or.inr (Or.inr ⟨fun h => ?_, message, rfl⟩)
    obtain ⟨⟨s, hs⟩, -⟩ := h
    cases hs
  | ok leaveType =>
  rw [ok_bind]
  by_cases havailable : ∃ n, Amount (raw.getD ((column configuration "available").getD "") .null) n
  swap
  · rw [not_exists] at havailable
    obtain ⟨message, hnumber⟩ := number_error havailable
    rw [hnumber, error_bind]
    exact Or.inr (Or.inr ⟨fun h => not_numeric (by decide) havailable h.2, message, rfl⟩)
  obtain ⟨available, havailable⟩ := havailable
  rw [number_iff.mpr havailable, ok_bind]
  by_cases htaken : ∃ n, Amount (raw.getD ((column configuration "taken").getD "") .null) n
  swap
  · rw [not_exists] at htaken
    obtain ⟨message, hnumber⟩ := number_error htaken
    rw [hnumber, error_bind]
    exact Or.inr (Or.inr ⟨fun h => not_numeric (by decide) htaken h.2, message, rfl⟩)
  obtain ⟨taken, htaken⟩ := htaken
  rw [number_iff.mpr htaken, ok_bind]
  by_cases htotal : ∃ n, Amount (raw.getD ((column configuration "total").getD "") .null) n
  swap
  · rw [not_exists] at htotal
    obtain ⟨message, hnumber⟩ := number_error htotal
    rw [hnumber, error_bind]
    exact Or.inr (Or.inr ⟨fun h => not_numeric (by decide) htotal h.2, message, rfl⟩)
  obtain ⟨total, htotal⟩ := htotal
  rw [number_iff.mpr htotal, ok_bind]
  have hnumeric : Numeric configuration raw := by
    intro key hkey
    rcases List.mem_cons.mp hkey with rfl | hkey
    · exact ⟨available, havailable⟩
    rcases List.mem_cons.mp hkey with rfl | hkey
    · exact ⟨taken, htaken⟩
    · obtain rfl := List.mem_singleton.mp hkey
      exact ⟨total, htotal⟩
  have hfinite := nonFinite_iff (b := ⟨leaveType, available, taken, total⟩) havailable htaken htotal
  rw [LeaveBalance.validated, hfinite]
  cases hall : [available, taken, total].all (fun n => n.all Decimal.isFinite) with
  | true => exact Or.inl ⟨⟨_, rfl⟩, hnumeric, Bool.noConfusion, _, rfl⟩
  | false => exact Or.inr (Or.inl ⟨⟨_, rfl⟩, hnumeric, rfl, rfl⟩)

/-- What a turn of the loop makes of a record. -/
theorem readBalance_cases (hfields : ColumnsOf configuration fields)
    (husable : Usable configuration) (raw : Dict Json) :
    (Readable configuration raw ∧ ∃ balance, readBalance fields raw = .ok balance) ∨
    (Overstated configuration raw ∧ readBalance fields raw = .error .validationError) ∨
    (¬ Readable configuration raw ∧ ¬ Overstated configuration raw ∧
      ∃ message, readBalance fields raw = .error (leaveConflict message)) := by
  obtain ⟨type_field, htype⟩ := husable.leaveType
  by_cases hshown : isShown configuration raw = true
  swap
  · have hnone : readBalance fields raw = .ok none := by
      rw [readBalance_eq hfields htype, if_neg hshown]
    refine Or.inl ⟨⟨?_, fun h => absurd h hshown⟩, none, hnone⟩
    exact (readBalance_none hfields husable hnone).2
  by_cases hrecognised : (marker configuration raw).all isFalseForm = true
  · have hknown : Recognised configuration raw := by
      intro value hvalue
      rw [hvalue, Option.all_some] at hrecognised
      exact Or.inr hrecognised
    rcases readBalance_shown hfields husable hshown hrecognised with
      ⟨htyped, hnumeric, hfinite, hread⟩ | ⟨htyped, hnumeric, hinfinite, hread⟩ | ⟨hnot, hread⟩
    · exact Or.inl ⟨⟨hknown, fun _ => ⟨htyped, hnumeric, hfinite⟩⟩, hread⟩
    · exact Or.inr (Or.inl ⟨⟨hknown, hshown, htyped, hnumeric, hinfinite⟩, hread⟩)
    · refine Or.inr (Or.inr ⟨fun h => hnot ?_, fun h => hnot ⟨h.typed, h.numeric⟩, hread⟩)
      obtain ⟨htyped, hnumeric, -⟩ := h.balance hshown
      exact ⟨htyped, hnumeric⟩
  · -- neither a marker that hides the record nor one that shows it
    have hunknown : ¬ Recognised configuration raw := by
      intro h
      cases hmarker : marker configuration raw with
      | none =>
        rw [hmarker] at hrecognised
        exact hrecognised rfl
      | some value =>
        rw [isShown, hmarker, Option.any_some, Bool.not_eq_true'] at hshown
        rw [hmarker, Option.all_some] at hrecognised
        rcases h value hmarker with htrue | hfalse
        · rw [hshown] at htrue
          cases htrue
        · exact hrecognised hfalse
    refine Or.inr (Or.inr ⟨fun h => hunknown h.recognised, fun h => hunknown h.recognised, ?_⟩)
    refine ⟨"Leave balance visibility is invalid.", ?_⟩
    rw [readBalance_eq hfields htype, if_pos hshown, if_neg hrecognised]

/-! ## All records -/

/-- The loop ends in the response model's error at the first record that cannot be read,
if that one is overstated. -/
theorem readBalances_eq_validationError (hfields : ColumnsOf configuration fields)
    (husable : Usable configuration) {records : List (Dict Json)} :
    readBalances fields records = .error .validationError ↔
      ∃ pre raw post, records = pre ++ raw :: post ∧
        (∀ r ∈ pre, Readable configuration r) ∧ Overstated configuration raw := by
  induction records with
  | nil =>
    constructor
    · intro h
      cases h
    · rintro ⟨pre, raw, post, hsplit, -⟩
      exact absurd hsplit.symm (List.append_ne_nil_of_right_ne_nil _ (List.cons_ne_nil _ _))
  | cons first records ih =>
    -- the first overstated record is here, or all before it are readable and it is later
    have hsplit : (∃ pre raw post, first :: records = pre ++ raw :: post ∧
        (∀ r ∈ pre, Readable configuration r) ∧ Overstated configuration raw) ↔
        Overstated configuration first ∨ Readable configuration first ∧
          readBalances fields records = .error .validationError := by
      rw [ih]
      constructor
      · rintro ⟨pre, raw, post, heq, hpre, hraw⟩
        rcases List.cons_eq_append_iff.mp heq with ⟨rfl, hsame⟩ | ⟨pre, rfl, hlater⟩
        · obtain ⟨rfl, rfl⟩ := List.cons.inj hsame
          exact Or.inl hraw
        · obtain ⟨hfirst, hpre⟩ := List.forall_mem_cons.mp hpre
          exact Or.inr ⟨hfirst, pre, raw, post, hlater, hpre, hraw⟩
      · rintro (hfirst | ⟨hfirst, pre, raw, post, rfl, hpre, hraw⟩)
        · exact ⟨[], first, records, rfl, fun _ h => absurd h List.not_mem_nil, hfirst⟩
        · exact ⟨first :: pre, raw, post, rfl, List.forall_mem_cons.mpr ⟨hfirst, hpre⟩, hraw⟩
    rw [hsplit, readBalances]
    rcases readBalance_cases hfields husable first with
      ⟨hreadable, balance, hread⟩ | ⟨hover, hread⟩ | ⟨hunreadable, hnot, message, hread⟩
    · have hover : ¬ Overstated configuration first := fun h =>
        (hreadable.balance h.shown).2.2 h.nonFinite
      rw [hread, ok_bind]
      cases balance with
      | none => simp [hover, hreadable]
      | some balance =>
        cases hrest : readBalances fields records with
        | ok balances => simp [hover]
        | error e => simp [hover, hreadable]
    · rw [hread, error_bind]
      simp [hover]
    · rw [hread, error_bind]
      simp [hnot, hunreadable, leaveConflict]

theorem validateRecord_of {identity : Mapping} {personnel_field : String}
    (hfield : configuration.personnel_number_field = some personnel_field)
    (hof : RecordOf configuration identity raw) :
    validateRecord personnel_field configuration identity (.obj raw) = .ok raw := by
  obtain ⟨⟨field, hpersonnel, hnumber⟩, hcompany⟩ := hof
  obtain rfl := Option.some.inj (hfield.symm.trans hpersonnel)
  rw [validateRecord]
  rw [if_neg (not_not.mpr hnumber)]
  cases hclause : companyClause configuration identity with
  | none => rfl
  | some clause =>
    obtain ⟨field, company⟩ := clause
    obtain ⟨⟨hf, hfne⟩, hc, hcne⟩ := companyClause_eq_some.mp hclause
    exact if_neg (not_not.mpr (hcompany field company hf hfne hc hcne))

/-- An answer that lists records of the row only is read. -/
theorem records_of {identity : Mapping} {personnel_field : String}
    {answer : Except Exc (Dict Json)} {records : List (Dict Json)}
    (hfield : configuration.personnel_number_field = some personnel_field)
    (hlists : Lists answer (records.map .obj))
    (hof : ∀ r ∈ records, RecordOf configuration identity r) :
    answer >>= readLeaveAnswer personnel_field configuration identity = .ok records := by
  obtain ⟨payload, rfl, hvalue⟩ := hlists
  rw [ok_bind, readLeaveAnswer, hvalue]
  dsimp only
  rw [List.mapM_map]
  have hread := mapM_eq_ok fun r hr => validateRecord_of hfield (hof r hr)
  rwa [List.map_id'] at hread

section Read

variable {identity : Mapping} {answer : Except Exc (Dict Json)}
  {result : Except Exc LeaveBalancesResponse}

/-- What is read from a list ends in a response or a review error, or in the response
model's error. -/
theorem ReadFrom.raises (husable : Usable configuration)
    (h : ReadFrom configuration identity answer result) (hlists : ∃ items, Lists answer items) :
    Raises (fun e => Conflict e ∨ e = .validationError) result := by
  obtain ⟨fields, personnel_field, hfields, hfield, rfl⟩ := h
  obtain ⟨items, hlists⟩ := hlists
  refine .bind ((records_raises hlists).mono fun _ => Or.inl) fun records _ => ?_
  refine .bind ((readBalances_raises hfields husable records).mono fun e he => ?_) fun _ _ => .ok _
  obtain ⟨raw, -, hconflict | ⟨rfl, -⟩⟩ := he
  · exact Or.inl hconflict
  · exact Or.inr rfl

theorem ReadFrom.validationError_iff (husable : Usable configuration)
    (h : ReadFrom configuration identity answer result) (hlists : ∃ items, Lists answer items) :
    result = .error .validationError ↔ Overstates configuration identity answer := by
  obtain ⟨fields, personnel_field, hfields, hfield, rfl⟩ := h
  constructor
  · intro hresult
    cases hrecords : answer >>= readLeaveAnswer personnel_field configuration identity with
    | error e =>
      obtain ⟨items, hlists⟩ := hlists
      rw [hrecords] at hresult
      obtain rfl := Except.error.inj hresult
      obtain ⟨message, hconflict⟩ := records_raises hlists _ hrecords
      cases hconflict
    | ok records =>
      obtain ⟨hlists, hof⟩ := records_ok hfield hrecords
      rw [hrecords, ok_bind, respond] at hresult
      cases hread : readBalances fields records with
      | ok balances =>
        rw [hread] at hresult
        cases hresult
      | error e =>
        rw [hread] at hresult
        obtain rfl := Except.error.inj hresult
        obtain ⟨pre, raw, post, rfl, hpre, hraw⟩ :=
          (readBalances_eq_validationError hfields husable).mp hread
        exact ⟨pre, raw, post, hlists, hof, hpre, hraw⟩
  · rintro ⟨pre, raw, post, hlists, hof, hpre, hraw⟩
    have hread := (readBalances_eq_validationError hfields husable).mpr
      ⟨pre, raw, post, rfl, hpre, hraw⟩
    rw [records_of hfield hlists hof, ok_bind, respond, hread]
    rfl

/-- No error but a `PortalError`, unless the answer overstates. -/
theorem ReadFrom.translated_iff (husable : Usable configuration)
    (h : ReadFrom configuration identity answer result) (hlists : ∃ items, Lists answer items) :
    (∀ e, result = .error e → ∃ error, e = .portal error) ↔
      ¬ Overstates configuration identity answer := by
  rw [← h.validationError_iff husable hlists]
  constructor
  · intro htranslated hresult
    obtain ⟨error, he⟩ := htranslated _ hresult
    cases he
  · intro hnot e he
    rcases h.raises husable hlists e he with ⟨message, rfl⟩ | rfl
    · exact ⟨_, rfl⟩
    · exact absurd he hnot

end Read

/-- **Bad leave data.** For a row without control characters and configurations that can be
used, in every run in which D365 answers with lists of records: the result is a response or
a `PortalError` exactly when the answer that is used does not overstate an amount. -/
theorem balances_translated_iff {identity : Mapping} {rows : String → Option EntityMapping}
    {primary : EntityMapping}
    (hnumber : hasControl identity.d365_personnel_number = false)
    (hcompany : ∀ company, identity.d365_company = some company → hasControl company = false)
    (husable : ∀ mapping_key c, rows mapping_key = some c →
      c.mapping_key = mapping_key ∧ Usable c)
    (hprimary : rows "leave_balance" = some primary)
    {events : List (Event Op Op.Answer Exc)} {result : Except Exc LeaveBalancesResponse}
    (hrun : (getBalances identity).Run events result)
    (hrows : ∀ mapping_key r, ⟨.configuration mapping_key, r⟩ ∈ events →
      r = .ok (rows mapping_key))
    (hlists : ∀ request ∈ requests events, ∃ items, Lists request.2 items) :
    (∀ e, result = .error e → ∃ error, e = .portal error) ↔
      ∀ configuration answer, Uses rows events configuration answer →
        ¬ Overstates configuration identity answer := by
  obtain ⟨first, hread⟩ := getBalances_run hnumber hcompany husable hprimary hrun hrows
  rcases hread with ⟨fallback, second, hnil, hfallback, hasked, hread⟩ | ⟨-, hasked, hread⟩
  · have hanswer : ∃ items, Lists second items :=
      hlists (fallback.entity_name, second) (by simp [hasked])
    rw [hread.translated_iff (husable _ _ hfallback).2 hanswer]
    constructor
    · rintro hnot c answer (⟨-, hone⟩ | ⟨hrow, request, htwo⟩)
      · rw [hasked] at hone
        exact absurd (congrArg List.length hone) (by simp)
      · obtain rfl := Option.some.inj (hfallback.symm.trans hrow)
        rw [hasked] at htwo
        obtain ⟨-, hlast⟩ := List.cons.inj htwo
        obtain rfl := congrArg Prod.snd (List.cons.inj hlast).1
        exact hnot
    · exact fun hall => hall fallback second (Or.inr ⟨hfallback, _, hasked⟩)
  · have hanswer : ∃ items, Lists first items :=
      hlists (primary.entity_name, first) (by simp [hasked])
    rw [hread.translated_iff (husable _ _ hprimary).2 hanswer]
    constructor
    · rintro hnot c answer (⟨hrow, hone⟩ | ⟨-, request, htwo⟩)
      · obtain rfl := Option.some.inj (hprimary.symm.trans hrow)
        rw [hasked] at hone
        obtain rfl := congrArg Prod.snd (List.cons.inj hone).1
        exact hnot
      · rw [hasked] at htwo
        exact absurd (congrArg List.length htwo) (by simp)
    · exact fun hall => hall primary first (Or.inl ⟨hprimary, hasked⟩)

end Records

theorem mem_of_requests {events : List (Event Op Op.Answer Exc)} {entity : String}
    {answer : Except Exc (Dict Json)} (h : (entity, answer) ∈ requests events) :
    ∃ params, ⟨.getEntity entity params, answer⟩ ∈ events := by
  induction events with
  | nil => cases h
  | cons event events ih =>
    obtain ⟨o, r⟩ := event
    cases o with
    | getEntity entity' params =>
      rcases List.mem_cons.mp h with heq | h
      · obtain ⟨rfl, rfl⟩ := Prod.mk.inj heq
        exact ⟨params, List.mem_cons_self⟩
      · obtain ⟨params', hmem⟩ := ih h
        exact ⟨params', List.mem_cons_of_mem _ hmem⟩
    | _ =>
      obtain ⟨params', hmem⟩ := ih h
      exact ⟨params', List.mem_cons_of_mem _ hmem⟩

/-! ## Two runs -/

section Example

open scoped Ascii

/-- In a run of the example every answer is a list, and the configurations are the two. -/
theorem example_answers {hs : List (List Json)} {events : List (Event Op Op.Answer Exc)}
    {result : Except Exc LeaveBalancesResponse}
    (h : Prog.drive exampleReply (getBalances exampleRow) hs = some (events, result)) :
    (∀ mapping_key r, ⟨.configuration mapping_key, r⟩ ∈ events →
      r = .ok (exampleRows mapping_key)) ∧
    ∀ request ∈ requests events, ∃ items, Lists request.2 items := by
  constructor
  · intro mapping_key r hmem
    obtain ⟨hint, hreply⟩ := Prog.drive_mem h _ hmem
    exact (Option.some.inj hreply).symm
  · rintro ⟨entity, answer⟩ hmem
    obtain ⟨params, hevent⟩ := mem_of_requests hmem
    obtain ⟨hint, hreply⟩ := Prog.drive_mem h _ hevent
    exact ⟨hint, _, (Option.some.inj hreply).symm, rfl⟩

def isValidationError (result : Except Exc LeaveBalancesResponse) : Bool :=
  match result with
  | .error .validationError => true
  | _ => false

theorem eq_of_isValidationError {result : Except Exc LeaveBalancesResponse}
    (h : isValidationError result = true) : result = .error .validationError := by
  unfold isValidationError at h
  split at h
  · rfl
  · cases h

/-- An annual balance that is not a number. -/
def nanRecord : Dict Json :=
  [("PersonnelNumber", .str "6666"), ("dataAreaId", .str "SSSA"), ("LeaveTypeId", .str "ANNUAL"),
    ("BalanceAvailable", .float "nan")]

/-- Usable configurations, one record of the row: the request ends in the response model's
own exception. -/
theorem balances_nan : ∃ events result, (getBalances exampleRow).Run events result ∧
    (∀ mapping_key c, exampleRows mapping_key = some c → c.mapping_key = mapping_key ∧ Usable c) ∧
    (∀ mapping_key r, ⟨.configuration mapping_key, r⟩ ∈ events →
      r = .ok (exampleRows mapping_key)) ∧
    (∀ request ∈ requests events, ∃ items, Lists request.2 items) ∧
    ¬ ∀ e, result = .error e → ∃ error, e = .portal error := by
  have hrun : (Prog.drive exampleReply (getBalances exampleRow) [[], [.obj nanRecord]]).any
      (fun x => isValidationError x.2) = true := by
    decide +kernel
  obtain ⟨⟨events, result⟩, hdrive, hresult⟩ := (Option.any_eq_true _ _).mp hrun
  obtain rfl := eq_of_isValidationError hresult
  obtain ⟨hrows, hlists⟩ := example_answers hdrive
  refine ⟨events, _, Prog.drive_run hdrive, exampleRows_usable, hrows, hlists,
    fun htranslated => ?_⟩
  obtain ⟨error, he⟩ := htranslated _ rfl
  cases he

/-- The run of the two configurations overstates nothing. -/
theorem balances_translated_fallback : ∃ events response,
    (getBalances exampleRow).Run events (.ok response) ∧
    ∀ configuration answer, Uses exampleRows events configuration answer →
      ¬ Overstates configuration exampleRow answer := by
  have hrun : (Prog.drive exampleReply (getBalances exampleRow)
      [[], [], [], exampleRecords]).any (fun x => isAnnual x.2) = true := by
    decide +kernel
  obtain ⟨⟨events, result⟩, hdrive, hresult⟩ := (Option.any_eq_true _ _).mp hrun
  obtain ⟨balance, rfl, -⟩ := exists_of_isAnnual hresult
  obtain ⟨hrows, hlists⟩ := example_answers hdrive
  have hnumber : hasControl exampleRow.d365_personnel_number = false := by decide
  have hcompany : ∀ company, exampleRow.d365_company = some company →
      hasControl company = false := by
    rintro company ⟨⟩
    decide
  refine ⟨events, _, Prog.drive_run hdrive, ?_⟩
  refine (balances_translated_iff hnumber hcompany exampleRows_usable rfl
    (Prog.drive_run hdrive) hrows hlists).mp fun e he => ?_
  cases he

end Example

end EmployeePortal.D365
