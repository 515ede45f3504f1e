import EmployeePortal.D365.CompleteBalances
import EmployeePortal.D365.ProfileService
import EmployeePortal.Framework.Lockstep

/-!
# Columns that were not selected

Two calls whose answers differ only in columns that were not asked for. The profile comes
out the same. The balances do as long as the three amounts are mapped: an amount that is
not is read from the column with the empty name, which no query selects.
-/

namespace EmployeePortal.D365

open EmployeePortal.Python EmployeePortal.Framework EmployeePortal.Employees

/-! ## Answers that differ elsewhere -/

/-- The records have the same values in these columns. -/
def SameOn (columns : List String) (raw raw' : Dict Json) : Prop :=
  ∀ column ∈ columns, raw.get? column = raw'.get? column

/-- Two items of an answer: records with the same values in these columns, or one item. -/
def SameItem (columns : List String) : Json → Json → Prop
  | .obj raw, .obj raw' => SameOn columns raw raw'
  | x, x' => x = x'

/-- Two answers: lists of the same items, or the same error. -/
def SameAnswer (columns : List String) :
    Except Exc (Dict Json) → Except Exc (Dict Json) → Prop
  | .ok payload, .ok payload' =>
      (∃ items items', payload.get? "value" = some (.arr items) ∧
        payload'.get? "value" = some (.arr items') ∧
        List.Forall₂ (SameItem columns) items items') ∨
      payload.get? "value" = payload'.get? "value"
  | .error e, .error e' => e = e'
  | _, _ => False

/-- Both calls find these configurations, and D365 answers each query alike in the columns
it selects. -/
def SameSelected (rows : String → Option EntityMapping) :
    (o : Op) → Except Exc o.Answer → Except Exc o.Answer → Prop
  | .configuration mapping_key, r, r' => r = .ok (rows mapping_key) ∧ r' = .ok (rows mapping_key)
  | .getEntity _ params, r, r' => SameAnswer (readNames params "$select") r r'
  | _, r, r' => r = r'

/-- In two runs whose answers are alike, position by position, the results are the same. -/
def SelectedOnly {α : Type} (rows : String → Option EntityMapping) (p : Coroutine α) : Prop :=
  ∀ events events' result result', p.Run events result → p.Run events' result' →
    Paired (SameSelected rows) events events' → result = result'

theorem SelectedOnly.of_lockstep {α : Type} {rows : String → Option EntityMapping}
    {p : Coroutine α} (h : Lockstep (SameSelected rows) Eq p p) : SelectedOnly rows p :=
  fun _ _ _ _ hrun hrun' hanswers => (h.run hrun hrun' hanswers).1.eq

theorem SameOn.getD {columns : List String} {raw raw' : Dict Json} (h : SameOn columns raw raw')
    {column : String} (hcolumn : column ∈ columns) (default : Json) :
    raw.getD column default = raw'.getD column default := by
  rw [Dict.getD, Dict.getD, h column hcolumn]

theorem mem_of_get? {fields : Dict String} {key field : String}
    (h : fields.get? key = some field) : (key, field) ∈ fields := by
  obtain ⟨before, after, hsplit, -⟩ := List.lookup_eq_some_iff.mp h
  rw [hsplit]
  simp

theorem getD_of_get? {fields : Dict String} {key field : String}
    (h : fields.get? key = some field) : fields.getD key "" = field := by
  rw [Dict.getD, h, Option.getD_some]

/-- A field that is not mapped is looked up under the empty name. -/
theorem getD_of_unmapped {fields : Dict String} {key : String} (h : fields.get? key = none) :
    fields.getD key "" = "" := by
  rw [Dict.getD, h, Option.getD_none]

theorem SameItem.refl (columns : List String) (x : Json) : SameItem columns x x := by
  cases x with
  | obj raw => exact fun _ _ => rfl
  | _ => rfl

theorem SameItem.cases {columns : List String} {x x' : Json} (h : SameItem columns x x') :
    (∃ raw raw', x = .obj raw ∧ x' = .obj raw' ∧ SameOn columns raw raw') ∨
      x = x' ∧ ∀ raw, x ≠ .obj raw := by
  unfold SameItem at h
  split at h
  · exact Or.inl ⟨_, _, rfl, rfl, h⟩
  · rename_i hne
    subst h
    refine Or.inr ⟨rfl, ?_⟩
    rintro raw rfl
    exact hne raw raw rfl rfl

section Services

variable {rows : String → Option EntityMapping} {configuration : EntityMapping}
  {identity : Mapping}

/-- The configuration is the same in both calls. -/
theorem configuration_lockstep (mapping_key : String) :
    Lockstep (SameSelected rows) (fun found found' => found = rows mapping_key ∧ found' = found)
      (await (.configuration mapping_key)) (await (.configuration mapping_key)) := by
  unfold await Prog.perform
  refine .op ?_
  rintro r r' ⟨rfl, rfl⟩
  exact .ret ⟨rfl, rfl⟩

/-- One request whose answers are read by the same checks. -/
theorem getEntity_lockstep {α α' : Type} {Q : α → α' → Prop} {entity : String}
    {params : Dict String} {f : Dict Json → Coroutine α} {f' : Dict Json → Coroutine α'}
    (hf : ∀ payload payload', SameAnswer (readNames params "$select") (.ok payload) (.ok payload') →
      Lockstep (SameSelected rows) Q (f payload) (f' payload')) :
    Lockstep (SameSelected rows) Q (await (.getEntity entity params) >>= f)
      (await (.getEntity entity params) >>= f') := by
  unfold await Prog.perform
  refine .op fun r r' h => ?_
  cases r with
  | ok payload =>
    cases r' with
    | ok payload' => exact hf payload payload' h
    | error e => exact h.elim
  | error e =>
    cases r' with
    | ok payload' => exact h.elim
    | error e' =>
      obtain rfl : e = e' := h
      exact .raise e

variable [UnicodeData]

/-! ## The profile -/

theorem readProfile_same {fields : Dict String} {columns : List String}
    (hfields : ∀ p ∈ fields, p.2 ∈ columns) {record record' : Dict Json}
    (h : SameOn columns record record') :
    readProfile fields identity record = readProfile fields identity record' := by
  have hvalues : fields.map (fun p => (p.1, optionalScalar (record.getD p.2 .null))) =
      fields.map fun p => (p.1, optionalScalar (record'.getD p.2 .null)) := by
    refine List.map_congr_left fun p hp => ?_
    rw [h.getD (hfields p hp)]
  rw [readProfile, readProfile, hvalues]

theorem readProfileAnswer_same {fields : Dict String} {columns : List String}
    (hfields : ∀ p ∈ fields, p.2 ∈ columns) {payload payload' : Dict Json}
    (h : SameAnswer columns (.ok payload) (.ok payload')) :
    readProfileAnswer fields identity payload = readProfileAnswer fields identity payload' := by
  rcases h with ⟨items, items', hvalue, hvalue', hitems⟩ | hvalue
  · rw [readProfileAnswer, readProfileAnswer, hvalue, hvalue']
    cases hitems with
    | nil => rfl
    | cons hfirst hrest =>
      cases hrest with
      | cons _ _ => rfl
      | nil =>
        rcases hfirst.cases with ⟨raw, raw', rfl, rfl, hsame⟩ | ⟨rfl, -⟩
        · exact readProfile_same hfields hsame
        · rfl
  · rw [readProfileAnswer, readProfileAnswer, hvalue]

theorem getProfile_lockstep : Lockstep (SameSelected rows) Eq (getProfile identity)
    (getProfile identity) := by
  unfold getProfile requiredConfiguration getEntity
  simp only [Prog.liftM_eq, bind_assoc]
  refine .bind (configuration_lockstep "profile") ?_
  rintro _ _ ⟨rfl, rfl⟩
  cases rows "profile" with
  | none => exact .raise _
  | some configuration =>
    simp only [bind_assoc]
    refine .check fun entity _ => ?_
    refine .check fun fields _ => ?_
    refine .check fun personnel_field _ => ?_
    refine .check fun filter _ => ?_
    refine .check fun entity' _ => ?_
    refine .check fun params hparams => ?_
    refine getEntity_lockstep fun payload payload' hanswer => ?_
    rw [readNames_select hparams] at hanswer
    have hfields : ∀ p ∈ fields, p.2 ∈ (fields.map Prod.snd).eraseDups :=
      fun p hp => List.mem_eraseDups.mpr (List.mem_map_of_mem hp)
    rw [readProfileAnswer_same hfields hanswer]
    generalize readProfileAnswer fields identity payload' = result
    cases result with
    | ok response => exact .ret rfl
    | error e => exact .raise e

/-! ## The columns of a request -/

theorem readNames_leaveRequest {request : LeaveRequest}
    (h : leaveRequest configuration identity = .ok request) :
    readNames request.params "$select" =
      (request.personnel_field :: request.fields.map Prod.snd ++
        ((companyClause configuration identity).map Prod.fst).toList).eraseDups := by
  obtain ⟨-, -, filter, -, hparams⟩ := leaveRequest_ok h
  exact readNames_select hparams

/-- The columns that are mapped, and those that are checked, are among these. -/
structure Selected (configuration : EntityMapping) (identity : Mapping) (request : LeaveRequest)
    (columns : List String) : Prop where
  personnel_field : request.personnel_field ∈ columns
  company : ∀ p, companyClause configuration identity = some p → p.1 ∈ columns
  fields : ∀ p ∈ request.fields, p.2 ∈ columns

theorem selected_leaveRequest {request : LeaveRequest}
    (h : leaveRequest configuration identity = .ok request) :
    Selected configuration identity request (readNames request.params "$select") := by
  rw [readNames_leaveRequest h]
  refine ⟨?_, fun p hp => ?_, fun p hp => ?_⟩
  · exact List.mem_eraseDups.mpr List.mem_cons_self
  · rw [hp]
    exact List.mem_eraseDups.mpr (List.mem_append_right _ (List.mem_singleton_self _))
  · refine List.mem_eraseDups.mpr (List.mem_append_left _ (List.mem_cons_of_mem _ ?_))
    exact List.mem_map_of_mem hp

theorem leaveType_leaveRequest {request : LeaveRequest}
    (h : leaveRequest configuration identity = .ok request) :
    ∃ field, request.fields.get? "leaveType" = some field :=
  Option.isSome_iff_exists.mp (selectFields_of_checked (leaveRequest_ok h).1).2

/-! ## One balance -/

def leaveAmounts : List String := ["available", "taken", "total"]

/-- The exception of an amount that is not a number. -/
def invalidAmount : Exc := leaveConflict "Leave balance value is invalid."

/-- The record passes all checks that a request makes of it before an amount that is not
mapped is looked at, and every amount that is mapped can be read. -/
structure ReachesAmounts (configuration : EntityMapping) (identity : Mapping)
    (request : LeaveRequest)
    (raw : Dict Json) : Prop where
  record : validateRecord request.personnel_field configuration identity (.obj raw) = .ok raw
  shown : ∀ field, request.fields.get? "hidden" = some field →
    isHidden (raw.getD field .null) = .ok false
  leaveType : ∀ field, request.fields.get? "leaveType" = some field →
    ∃ s, requiredValue (raw.getD field .null) = .ok s
  amounts : ∀ key ∈ leaveAmounts, ∀ field, request.fields.get? key = some field →
    ∃ n, number (raw.getD field .null) = .ok n

/-- All amounts are mapped, or no record is read as far as one that is not. -/
def AmountsSelected (configuration : EntityMapping) (identity : Mapping)
    (request : LeaveRequest) : Prop :=
  (∀ key ∈ leaveAmounts, (request.fields.get? key).isSome = true) ∨
    ∀ raw, ¬ ReachesAmounts configuration identity request raw

theorem eq_invalidAmount {value : Json} {e : Exc} (h : number value = .error e) :
    e = invalidAmount := by
  unfold number at h
  split at h
  · cases h
  · cases h
  · exact (Except.error.inj h).symm
  · split at h
    · cases h
    · exact (Except.error.inj h).symm

/-- What a loop turn does behind the visibility check. -/
def readShown (fields : Dict String) (raw : Dict Json) : Except Exc (Option LeaveBalance) := do
  let leaveType ← requiredValue (raw.getD (← item fields "leaveType") .null)
  let available ← number (raw.getD (fields.getD "available" "") .null)
  let taken ← number (raw.getD (fields.getD "taken" "") .null)
  let total ← number (raw.getD (fields.getD "total" "") .null)
  return some (← LeaveBalance.validated ⟨leaveType, available, taken, total⟩)

theorem readBalance_eq_readShown {fields : Dict String} {raw : Dict Json}
    (h : ∀ field, fields.get? "hidden" = some field → isHidden (raw.getD field .null) = .ok false) :
    readBalance fields raw = readShown fields raw := by
  rw [readBalance]
  cases hfield : fields.get? "hidden" with
  | none => rfl
  | some field =>
    dsimp only
    rw [h field hfield]
    rfl

/-- An amount that cannot be read refuses the record, whatever the others are. -/
theorem readShown_refused {fields : Dict String} {raw : Dict Json} {field leaveType : String}
    (hfield : fields.get? "leaveType" = some field)
    (htype : requiredValue (raw.getD field .null) = .ok leaveType) {key : String}
    (hkey : key ∈ leaveAmounts)
    (hamount : number (raw.getD (fields.getD key "") .null) = .error invalidAmount) :
    readShown fields raw = .error invalidAmount := by
  have hitem : item fields "leaveType" = .ok field := by rw [item, hfield]
  rw [readShown, hitem, ok_bind, htype, ok_bind]
  cases havailable : number (raw.getD (fields.getD "available" "") .null) with
  | error e => rw [eq_invalidAmount havailable]; rfl
  | ok available =>
    rw [ok_bind]
    cases htaken : number (raw.getD (fields.getD "taken" "") .null) with
    | error e => rw [eq_invalidAmount htaken]; rfl
    | ok taken =>
      rw [ok_bind]
      cases htotal : number (raw.getD (fields.getD "total" "") .null) with
      | error e => rw [eq_invalidAmount htotal]; rfl
      | ok total =>
        simp only [leaveAmounts, List.mem_cons, List.not_mem_nil, or_false] at hkey
        rcases hkey with rfl | rfl | rfl
        · rw [havailable] at hamount
          cases hamount
        · rw [htaken] at hamount
          cases hamount
        · rw [htotal] at hamount
          cases hamount

/-- A record that is shown is read from the columns of the configuration, unless it is read as
far as the amounts and one of these is not mapped. -/
theorem readShown_same {request : LeaveRequest} {raw raw' : Dict Json} {type_field : String}
    (hsame : ∀ key field, request.fields.get? key = some field →
      raw'.getD field .null = raw.getD field .null)
    (htype_field : request.fields.get? "leaveType" = some type_field)
    (hmapped : ReachesAmounts configuration identity request raw → ∀ key ∈ leaveAmounts,
      (request.fields.get? key).isSome = true)
    (hrecord : validateRecord request.personnel_field configuration identity (.obj raw) = .ok raw)
    (hshown : ∀ field, request.fields.get? "hidden" = some field →
      isHidden (raw.getD field .null) = .ok false) :
    readShown request.fields raw = readShown request.fields raw' := by
  have hitem : item request.fields "leaveType" = .ok type_field := by rw [item, htype_field]
  have htype' := hsame _ _ htype_field
  cases htype : requiredValue (raw.getD type_field .null) with
  | error e =>
    rw [readShown, readShown, hitem, ok_bind, ok_bind, htype', htype]
    rfl
  | ok leaveType =>
    by_cases hamounts : ∀ key ∈ leaveAmounts, ∀ field, request.fields.get? key = some field →
        ∃ n, number (raw.getD field .null) = .ok n
    · have hreaches : ReachesAmounts configuration identity request raw := by
        refine ⟨hrecord, hshown, fun field hfield => ⟨leaveType, ?_⟩, hamounts⟩
        obtain rfl := Option.some.inj (htype_field.symm.trans hfield)
        exact htype
      have hamount : ∀ key ∈ leaveAmounts, raw'.getD (request.fields.getD key "") .null =
          raw.getD (request.fields.getD key "") .null := by
        intro key hkey
        obtain ⟨field, hfield⟩ := Option.isSome_iff_exists.mp (hmapped hreaches key hkey)
        rw [getD_of_get? hfield]
        exact hsame _ _ hfield
      rw [readShown, readShown, hitem, ok_bind, ok_bind, htype', hamount "available" (by decide),
        hamount "taken" (by decide), hamount "total" (by decide)]
    · push Not at hamounts
      obtain ⟨key, hkey, field, hfield, hrefused⟩ := hamounts
      have hamount : number (raw.getD field .null) = .error invalidAmount := by
        cases hnumber : number (raw.getD field .null) with
        | ok n => exact absurd hnumber (hrefused n)
        | error e => rw [eq_invalidAmount hnumber]
      rw [readShown_refused htype_field htype hkey (by rw [getD_of_get? hfield, hamount]),
        readShown_refused htype_field (by rw [htype', htype]) hkey
          (by rw [getD_of_get? hfield, hsame _ _ hfield, hamount])]

theorem readBalance_same {request : LeaveRequest} {columns : List String} {raw raw' : Dict Json}
    {type_field : String} (hcolumns : Selected configuration identity request columns)
    (htype_field : request.fields.get? "leaveType" = some type_field)
    (hselected : AmountsSelected configuration identity request)
    (hrecord : validateRecord request.personnel_field configuration identity (.obj raw) = .ok raw)
    (h : SameOn columns raw raw') :
    readBalance request.fields raw = readBalance request.fields raw' := by
  have hsame : ∀ key field, request.fields.get? key = some field →
      raw'.getD field .null = raw.getD field .null :=
    fun _ _ hfield => (h.getD (hcolumns.fields _ (mem_of_get? hfield)) .null).symm
  by_cases hshown : ∀ field, request.fields.get? "hidden" = some field →
      isHidden (raw.getD field .null) = .ok false
  · rw [readBalance_eq_readShown hshown, readBalance_eq_readShown fun field hfield =>
      (congrArg isHidden (hsame _ _ hfield)).trans (hshown field hfield)]
    refine readShown_same hsame htype_field (fun hreaches => ?_) hrecord hshown
    exact hselected.resolve_right fun hnone => hnone raw hreaches
  · push Not at hshown
    obtain ⟨field, hfield, hhidden⟩ := hshown
    rw [readBalance, readBalance, hfield]
    dsimp only
    rw [hsame _ _ hfield]
    cases hmarker : isHidden (raw.getD field .null) with
    | error e => rfl
    | ok hidden =>
      cases hidden with
      | true => rfl
      | false => exact absurd hmarker hhidden

theorem readBalances_same {request : LeaveRequest} {columns : List String}
    {records records' : List (Dict Json)} {type_field : String}
    (hcolumns : Selected configuration identity request columns)
    (htype_field : request.fields.get? "leaveType" = some type_field)
    (hselected : AmountsSelected configuration identity request)
    (h : List.Forall₂ (fun raw raw' => SameOn columns raw raw' ∧
      validateRecord request.personnel_field configuration identity (.obj raw) = .ok raw)
      records records') :
    readBalances request.fields records = readBalances request.fields records' := by
  induction h with
  | nil => rfl
  | cons hfirst _ ih =>
    rw [readBalances, readBalances, ih,
      readBalance_same hcolumns htype_field hselected hfirst.2 hfirst.1]

/-! ## The records of an answer -/

/-- Records that agree in the columns of the request pass its checks together. -/
theorem validateRecord_same {request : LeaveRequest} {columns : List String}
    (hcolumns : Selected configuration identity request columns) {raw raw' : Dict Json}
    (h : SameOn columns raw raw') :
    (∃ e, validateRecord request.personnel_field configuration identity (.obj raw) = .error e ∧
      validateRecord request.personnel_field configuration identity (.obj raw') = .error e) ∨
    (validateRecord request.personnel_field configuration identity (.obj raw) = .ok raw ∧
      validateRecord request.personnel_field configuration identity (.obj raw') = .ok raw') := by
  simp only [validateRecord, ← h.getD hcolumns.personnel_field (.str "")]
  split
  · exact Or.inl ⟨_, rfl, rfl⟩
  · cases hclause : companyClause configuration identity with
    | none => exact Or.inr ⟨rfl, rfl⟩
    | some p =>
      dsimp only
      rw [← h.getD (hcolumns.company p hclause) (.str "")]
      split
      · exact Or.inl ⟨_, rfl, rfl⟩
      · exact Or.inr ⟨rfl, rfl⟩

/-- What the checks on an item make of two records that agree in the columns of the
request. -/
theorem validateRecord_alike {request : LeaveRequest} {columns : List String}
    (hcolumns : Selected configuration identity request columns) {x x' : Json}
    (h : SameItem columns x x') :
    Alike (fun raw raw' => SameOn columns raw raw' ∧
        validateRecord request.personnel_field configuration identity (.obj raw) = .ok raw)
      (validateRecord request.personnel_field configuration identity x)
      (validateRecord request.personnel_field configuration identity x') := by
  rcases h.cases with ⟨raw, raw', rfl, rfl, hsame⟩ | ⟨rfl, hne⟩
  · rcases validateRecord_same hcolumns hsame with ⟨e, hraw, hraw'⟩ | ⟨hraw, hraw'⟩
    · rw [hraw, hraw']
      exact .error e
    · rw [hraw, hraw']
      exact .ok ⟨hsame, hraw⟩
  · cases x with
    | obj raw => exact absurd rfl (hne raw)
    | _ => exact .error _

theorem readLeaveAnswer_alike {request : LeaveRequest} {columns : List String}
    (hcolumns : Selected configuration identity request columns) {payload payload' : Dict Json}
    (h : SameAnswer columns (.ok payload) (.ok payload')) :
    Alike (List.Forall₂ fun raw raw' => SameOn columns raw raw' ∧
        validateRecord request.personnel_field configuration identity (.obj raw) = .ok raw)
      (readLeaveAnswer request.personnel_field configuration identity payload)
      (readLeaveAnswer request.personnel_field configuration identity payload') := by
  have hitems : ∀ {items items'}, List.Forall₂ (SameItem columns) items items' →
      Alike (List.Forall₂ fun raw raw' => SameOn columns raw raw' ∧
          validateRecord request.personnel_field configuration identity (.obj raw) = .ok raw)
        (items.mapM (validateRecord request.personnel_field configuration identity))
        (items'.mapM (validateRecord request.personnel_field configuration identity)) :=
    Alike.mapM fun _ _ hsame => validateRecord_alike hcolumns hsame
  rcases h with ⟨items, items', hvalue, hvalue', hsame⟩ | hvalue
  · rw [readLeaveAnswer, readLeaveAnswer, hvalue, hvalue']
    exact hitems hsame
  · rw [readLeaveAnswer, readLeaveAnswer, ← hvalue]
    split
    · exact hitems (List.forall₂_same.mpr fun x _ => .refl columns x)
    · exact .error _

/-- The records of two calls for a configuration, under the columns of its request. -/
def SameRecords (configuration : EntityMapping) (identity : Mapping)
    (x x' : List (Dict Json) × Dict String) : Prop :=
  ∃ request columns, leaveRequest configuration identity = .ok request ∧
    x.2 = request.fields ∧ x'.2 = request.fields ∧
    Selected configuration identity request columns ∧
    List.Forall₂ (fun raw raw' => SameOn columns raw raw' ∧
      validateRecord request.personnel_field configuration identity (.obj raw) = .ok raw) x.1 x'.1

theorem leaveRecords_lockstep :
    Lockstep (SameSelected rows) (SameRecords configuration identity)
      (leaveRecords configuration identity) (leaveRecords configuration identity) := by
  rw [leaveRecords_eq]
  refine .check fun request hrequest => getEntity_lockstep fun payload payload' hanswer => ?_
  have hcolumns := selected_leaveRequest hrequest
  have halike := readLeaveAnswer_alike hcolumns hanswer
  refine .bind (.ofExcept halike) fun records records' hsame => .ret ?_
  exact ⟨request, _, hrequest, rfl, rfl, hcolumns, hsame⟩

/-! ## Balances -/

/-- A request for the configuration under this key can be sent. -/
def Asks (rows : String → Option EntityMapping) (identity : Mapping) (mapping_key : String)
    (required : Bool) (configuration : EntityMapping) (request : LeaveRequest) : Prop :=
  usedConfiguration mapping_key required (rows mapping_key) = .ok (some configuration) ∧
    leaveRequest configuration identity = .ok request

/-- The amounts of the first configuration are selected and, as its answer may be empty, so
are those of the second one. -/
def LeaveSelected (rows : String → Option EntityMapping) (identity : Mapping) : Prop :=
  ∀ primary request, Asks rows identity "leave_balance" true primary request →
    AmountsSelected primary identity request ∧
    ∀ fallback request', Asks rows identity "leave_balance_active" false fallback request' →
      AmountsSelected fallback identity request'

theorem leaveConfiguration_lockstep (mapping_key : String) (required : Bool) :
    Lockstep (SameSelected rows) (fun used used' => used' = used ∧
        usedConfiguration mapping_key required (rows mapping_key) = .ok used)
      (leaveConfiguration mapping_key required) (leaveConfiguration mapping_key required) := by
  rw [leaveConfiguration_eq]
  refine .bind (configuration_lockstep mapping_key) ?_
  rintro _ _ ⟨rfl, rfl⟩
  refine .ofExcept ?_
  cases usedConfiguration mapping_key required (rows mapping_key) with
  | ok used => exact .ok ⟨rfl, rfl⟩
  | error e => exact .error e

theorem getBalances_lockstep (h : LeaveSelected rows identity) :
    Lockstep (SameSelected rows) Eq (getBalances identity) (getBalances identity) := by
  -- the loop over the records of two answers, for a configuration whose amounts are selected
  have hread : ∀ {configuration : EntityMapping} {request : LeaveRequest}
      {x x' : List (Dict Json) × Dict String}, AmountsSelected configuration identity request →
      leaveRequest configuration identity = .ok request →
      SameRecords configuration identity x x' →
      Lockstep (SameSelected rows) Eq
        (do return ⟨← readBalances x.2 x.1⟩ : Coroutine LeaveBalancesResponse)
        (do return ⟨← readBalances x'.2 x'.1⟩ : Coroutine LeaveBalancesResponse) := by
    rintro configuration request ⟨records, fields⟩ ⟨records', fields'⟩ hselected hrequest
      ⟨request', columns, hrequest', rfl, rfl, hcolumns, hrecords⟩
    obtain rfl := Except.ok.inj (hrequest.symm.trans hrequest')
    obtain ⟨field, hfield⟩ := leaveType_leaveRequest hrequest
    dsimp only at hrecords ⊢
    rw [readBalances_same hcolumns hfield hselected hrecords]
    exact .check fun balances _ => .ret rfl
  unfold getBalances
  refine .bind (leaveConfiguration_lockstep "leave_balance" true) ?_
  rintro _ used ⟨rfl, hused⟩
  cases used with
  | none => exact .raise _
  | some primary =>
    refine .bind (leaveRecords_lockstep) ?_
    rintro ⟨records, fields⟩ ⟨records', fields'⟩ hsame
    obtain ⟨request, columns, hrequest, -, -, -, hrecords⟩ := id hsame
    obtain ⟨hprimary, hfallback⟩ := h primary request ⟨hused, hrequest⟩
    have hempty : records'.isEmpty = records.isEmpty := by
      cases hrecords <;> rfl
    dsimp only
    rw [hempty]
    split
    · refine .bind (leaveConfiguration_lockstep "leave_balance_active" false) ?_
      rintro _ used' ⟨rfl, hused'⟩
      cases used' with
      | none => exact hread hprimary hrequest hsame
      | some fallback =>
        refine .bind (leaveRecords_lockstep) ?_
        intro x x' hsame'
        obtain ⟨request', -, hrequest', -⟩ := id hsame'
        exact hread (hfallback fallback request' ⟨hused', hrequest'⟩) hrequest' hsame'
    · exact hread hprimary hrequest hsame

/-! ## An amount that is not mapped -/

/-- The record with this value in the column without a name. -/
def unnamed (value : Json) (raw : Dict Json) : Dict Json := ("", value) :: raw

/-- An answer of one record. -/
def single (raw : Dict Json) : Dict Json := [("value", .arr [.obj raw])]

omit [UnicodeData] in
theorem get?_unnamed {column : String} (h : isIdentifier column = true) (value : Json)
    (raw : Dict Json) : (unnamed value raw).get? column = raw.get? column := by
  have hne : (column == "") = false := by
    rw [beq_eq_false_iff_ne]
    rintro rfl
    cases h
  rw [Dict.get?, unnamed, List.lookup_cons, hne]
  rfl

/-- A record that reaches the amounts does so whatever its other columns hold. -/
theorem ReachesAmounts.congr {request : LeaveRequest} {columns : List String}
    {raw raw' : Dict Json} (hcolumns : Selected configuration identity request columns)
    (h : ReachesAmounts configuration identity request raw) (hsame : SameOn columns raw raw') :
    ReachesAmounts configuration identity request raw' := by
  have hfield : ∀ {key field}, request.fields.get? key = some field →
      raw'.getD field .null = raw.getD field .null :=
    fun hfield => (hsame.getD (hcolumns.fields _ (mem_of_get? hfield)) .null).symm
  refine ⟨?_, fun field hkey => ?_, fun field hkey => ?_, fun key hkey field hget => ?_⟩
  · rcases validateRecord_same hcolumns hsame with ⟨e, hraw, -⟩ | ⟨-, hraw'⟩
    · rw [h.record] at hraw
      cases hraw
    · exact hraw'
  · rw [hfield hkey]
    exact h.shown field hkey
  · rw [hfield hkey]
    exact h.leaveType field hkey
  · rw [hfield hget]
    exact h.amounts key hkey field hget

theorem ReachesAmounts.readLeaveAnswer {request : LeaveRequest} {raw : Dict Json}
    (h : ReachesAmounts configuration identity request raw) :
    readLeaveAnswer request.personnel_field configuration identity (single raw) = .ok [raw] := by
  have hvalue : (single raw).get? "value" = some (.arr [.obj raw]) := rfl
  rw [D365.readLeaveAnswer, hvalue]
  dsimp only
  rw [List.mapM_cons, h.record, List.mapM_nil]
  rfl

/-- With a value that is no number in the column without a name, the record is refused. -/
theorem readBalances_refused {request : LeaveRequest} {raw : Dict Json} {key field : String}
    (htype_field : request.fields.get? "leaveType" = some field)
    (h : ReachesAmounts configuration identity request raw) (hkey : key ∈ leaveAmounts)
    (hunmapped : request.fields.get? key = none) (hunnamed : raw.getD "" .null = .bool true) :
    readBalances request.fields [raw] = .error invalidAmount := by
  obtain ⟨leaveType, htype⟩ := h.leaveType field htype_field
  have hamount : number (raw.getD (request.fields.getD key "") .null) = .error invalidAmount := by
    rw [getD_of_unmapped hunmapped, hunnamed]
    rfl
  rw [readBalances, readBalance_eq_readShown h.shown,
    readShown_refused htype_field htype hkey hamount]
  rfl

/-- Without one, nothing is wrong with the amounts. -/
theorem readBalances_not_refused {request : LeaveRequest} {raw : Dict Json} {field : String}
    (htype_field : request.fields.get? "leaveType" = some field)
    (h : ReachesAmounts configuration identity request raw)
    (hunnamed : raw.getD "" .null = .null) :
    readBalances request.fields [raw] ≠ .error invalidAmount := by
  have hamount : ∀ key ∈ leaveAmounts,
      ∃ n, number (raw.getD (request.fields.getD key "") .null) = .ok n := by
    intro key hkey
    cases hget : request.fields.get? key with
    | none =>
      rw [getD_of_unmapped hget, hunnamed]
      exact ⟨none, rfl⟩
    | some field =>
      rw [getD_of_get? hget]
      exact h.amounts key hkey field hget
  have hitem : item request.fields "leaveType" = .ok field := by rw [item, htype_field]
  obtain ⟨leaveType, htype⟩ := h.leaveType field htype_field
  obtain ⟨available, havailable⟩ := hamount "available" (by decide)
  obtain ⟨taken, htaken⟩ := hamount "taken" (by decide)
  obtain ⟨total, htotal⟩ := hamount "total" (by decide)
  rw [readBalances, readBalance_eq_readShown h.shown, readShown, hitem, ok_bind, htype, ok_bind,
    havailable, ok_bind, htaken, ok_bind, htotal, ok_bind, LeaveBalance.validated]
  split
  · intro h
    cases h
  · intro h
    cases h

/-- What `get_balances` returns then differs in a column that was not selected. -/
theorem exists_unselected {request : LeaveRequest}
    (hrequest : leaveRequest configuration identity = .ok request)
    (h : ¬ AmountsSelected configuration identity request) :
    ∃ raw raw', SameOn (readNames request.params "$select") raw raw' ∧
      readLeaveAnswer request.personnel_field configuration identity (single raw) = .ok [raw] ∧
      readLeaveAnswer request.personnel_field configuration identity (single raw') = .ok [raw'] ∧
      respond request.fields [raw] ≠ respond request.fields [raw'] := by
  obtain ⟨hmissing, hreached⟩ := not_or.mp h
  push Not at hmissing hreached
  obtain ⟨key, hkey, hunmapped⟩ := hmissing
  obtain ⟨raw, hreaches⟩ := hreached
  obtain ⟨hfields, hfield, filter, hfilter, hparams⟩ := leaveRequest_ok hrequest
  obtain ⟨type_field, htype_field⟩ := leaveType_leaveRequest hrequest
  have hidentifier : ∀ c ∈ readNames request.params "$select", isIdentifier c = true :=
    fun c hc => isIdentifier_of_select hparams hc
  have hunnamed : ∀ value, SameOn (readNames request.params "$select") raw (unnamed value raw) :=
    fun value c hc => (get?_unnamed (hidentifier c hc) value raw).symm
  have hunnamed_reaches := fun value =>
    hreaches.congr (selected_leaveRequest hrequest) (hunnamed value)
  refine ⟨unnamed (.bool true) raw, unnamed .null raw, fun c hc => ?_, ?_, ?_, ?_⟩
  · rw [← hunnamed (.bool true) c hc, hunnamed .null c hc]
  · exact (hunnamed_reaches _).readLeaveAnswer
  · exact (hunnamed_reaches _).readLeaveAnswer
  · have hrefused := readBalances_refused htype_field (hunnamed_reaches (.bool true)) hkey
      (Option.not_isSome_iff_eq_none.mp hunmapped) rfl
    have hread := readBalances_not_refused htype_field (hunnamed_reaches .null) rfl
    rw [respond, respond, hrefused]
    intro hsame
    cases hbalances : readBalances request.fields [unnamed .null raw] with
    | ok balances =>
      rw [hbalances] at hsame
      cases hsame
    | error e =>
      rw [hbalances] at hsame hread
      exact hread (congrArg Except.error (Except.error.inj hsame).symm)

theorem respond_continues (fields : Dict String) (records : List (Dict Json)) :
    (do return ⟨← readBalances fields records⟩ : Coroutine LeaveBalancesResponse).Run []
      (respond fields records) := by
  rw [respond]
  cases readBalances fields records with
  | ok balances => exact ⟨rfl, rfl⟩
  | error e => exact ⟨rfl, rfl⟩

/-- What is read from the fallback entity depends on a column that its query does not
select, or what is read from the primary one does. -/
theorem leaveSelected_of_selectedOnly (h : SelectedOnly rows (getBalances identity)) :
    LeaveSelected rows identity := by
  intro primary request hasks
  have hsingle : ∀ {columns raw raw'}, SameOn columns raw raw' →
      SameAnswer columns (.ok (single raw)) (.ok (single raw')) :=
    fun hsame => Or.inl ⟨_, _, rfl, rfl, .cons hsame .nil⟩
  constructor
  · by_contra hnot
    obtain ⟨raw, raw', hsame, hread, hread', hne⟩ := exists_unselected hasks.2 hnot
    have hrun : ∀ r, readLeaveAnswer request.personnel_field primary identity (single r) =
        .ok [r] → (getBalances identity).Run
          [⟨.configuration "leave_balance", .ok (rows "leave_balance")⟩,
            ⟨.getEntity primary.entity_name request.params, .ok (single r)⟩]
          (respond request.fields [r]) := by
      intro r hr
      refine leaveConfiguration_continues hasks.1 (leaveRecords_continues hasks.2 hr ?_)
      exact respond_continues request.fields [r]
    refine hne (h _ _ _ _ (hrun raw hread) (hrun raw' hread') ?_)
    exact .cons ⟨rfl, rfl⟩ (.cons (hsingle hsame) .nil)
  · intro fallback request' hasks'
    by_contra hnot
    obtain ⟨raw, raw', hsame, hread, hread', hne⟩ := exists_unselected hasks'.2 hnot
    have hrun : ∀ r, readLeaveAnswer request'.personnel_field fallback identity (single r) =
        .ok [r] → (getBalances identity).Run
          [⟨.configuration "leave_balance", .ok (rows "leave_balance")⟩,
            ⟨.getEntity primary.entity_name request.params, .ok [("value", .arr [])]⟩,
            ⟨.configuration "leave_balance_active", .ok (rows "leave_balance_active")⟩,
            ⟨.getEntity fallback.entity_name request'.params, .ok (single r)⟩]
          (respond request'.fields [r]) := by
      intro r hr
      refine leaveConfiguration_continues hasks.1 (leaveRecords_continues hasks.2 rfl ?_)
      refine leaveConfiguration_continues hasks'.1 (leaveRecords_continues hasks'.2 hr ?_)
      exact respond_continues request'.fields [r]
    refine hne (h _ _ _ _ (hrun raw hread) (hrun raw' hread') ?_)
    have hnone : SameAnswer (readNames request.params "$select")
        (.ok [("value", .arr [])]) (.ok [("value", .arr [])]) := Or.inr rfl
    refine .cons ⟨rfl, rfl⟩ (.cons hnone ?_)
    exact .cons ⟨rfl, rfl⟩ (.cons (hsingle hsame) .nil)

/-- **Only selected columns.** Whatever the configurations and the row: two profiles whose
answers differ only in columns that were not selected are the same, and two responses with
balances are exactly when, in each configuration whose request can be sent, all amounts are
mapped or no record is read as far as one that is not. -/
theorem selected_only_iff :
    SelectedOnly rows (getProfile identity) ∧ SelectedOnly rows (getBalances identity) ↔
      LeaveSelected rows identity := by
  constructor
  · rintro ⟨-, hbalances⟩
    exact leaveSelected_of_selectedOnly hbalances
  · intro h
    exact ⟨.of_lockstep getProfile_lockstep, .of_lockstep (getBalances_lockstep h)⟩

end Services

/-! ## Two columns mapped of four -/

section Example

open scoped Ascii

/-- What is used of a request here. -/
def asksOf (request : Except Exc LeaveRequest) : Option (String × Dict String) :=
  match request with
  | .ok request => some (request.personnel_field, request.fields)
  | .error _ => none

/-- With `taken` and `total` not mapped, the column without a name decides whether there is
a balance. -/
theorem balances_unselected : ¬ (SelectedOnly exampleRows (getProfile exampleRow) ∧
    SelectedOnly exampleRows (getBalances exampleRow)) := by
  rintro ⟨-, hbalances⟩
  have hfields : asksOf (leaveRequest essBalances exampleRow) = some ("PersonnelNumber",
      [("leaveType", "LeaveTypeId"), ("available", "BalanceAvailable")]) := by
    decide +kernel
  cases hrequest : leaveRequest essBalances exampleRow with
  | error e =>
    rw [hrequest] at hfields
    cases hfields
  | ok request =>
    rw [hrequest] at hfields
    obtain ⟨personnel_field, fields, params⟩ := request
    obtain ⟨rfl, rfl⟩ := Prod.mk.inj (Option.some.inj hfields)
    have hasks : Asks exampleRows exampleRow "leave_balance" true essBalances _ :=
      ⟨rfl, hrequest⟩
    rcases (leaveSelected_of_selectedOnly hbalances _ _ hasks).1 with hmapped | hreached
    · exact Bool.false_ne_true (hmapped "taken" (by decide))
    · refine hreached annualRow ⟨rfl, ?_, ?_, ?_⟩
      · exact nofun
      · rintro field ⟨⟩
        exact ⟨"ANNUAL", rfl⟩
      · intro key hkey field hfield
        simp only [leaveAmounts, List.mem_cons, List.not_mem_nil, or_false] at hkey
        rcases hkey with rfl | rfl | rfl
        · cases hfield
          exact ⟨_, rfl⟩
        · cases hfield
        · cases hfield

end Example

end EmployeePortal.D365
