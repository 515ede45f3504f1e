import EmployeePortal.D365.IdentityFilter

/-!
# Reading a query back

What a server reads in the parameters of a request: the listed names, split at commas,
and the size of the page; and from all parameters together, the query. The filter is read by
`readFilter`.
-/

namespace EmployeePortal.D365

open EmployeePortal.Python

/-- The names in a list of names. -/
def readNames (params : Dict String) (key : String) : List String :=
  match params.get? key with
  | some text => (text.toList.splitOn ',').map String.ofList
  | none => []

/-- The number that decimal digits stand for. -/
def readDigits (digits : List Char) : Option ℕ :=
  if digits ≠ [] ∧ digits.all Char.isDigit then some (Nat.ofDigitChars 10 digits 0) else none

/-- The most rows that are asked for. -/
def readTop (params : Dict String) : Option ℕ :=
  (params.get? "$top").bind fun text => readDigits text.toList

theorem readDigits_toString (n : ℕ) : readDigits (toString (n : ℤ)).toList = some n := by
  have hdigits : (toString (n : ℤ)).toList = Nat.toDigits 10 n := Nat.toList_repr
  have hall : (Nat.toDigits 10 n).all Char.isDigit = true :=
    List.all_eq_true.mpr fun c hc => Nat.isDigit_of_mem_toDigits (by omega) (by omega) hc
  rw [hdigits, readDigits, if_pos ⟨Nat.toDigits_ne_nil, hall⟩, Nat.ofDigitChars_ten_toDigits]

/-! ## Parameters, part by part -/

/-- Every entry of the part has this key. -/
def Keyed (key : String) (part : Dict String) : Prop := ∀ p ∈ part, p.1 = key

theorem Keyed.get? {key k : String} {part : Dict String} (h : Keyed key part) (hk : k ≠ key) :
    part.get? k = none := by
  rw [Dict.get?, List.lookup_eq_none_iff]
  intro p hp
  rw [h p hp]
  exact bne_iff_ne.mpr hk

/-- Each key is looked up in its own part. -/
theorem get?_flatten {parts : List (String × Dict String)}
    (hkeyed : ∀ p ∈ parts, Keyed p.1 p.2) (hdistinct : (parts.map Prod.fst).Nodup)
    {p : String × Dict String} (hp : p ∈ parts) :
    Dict.get? (parts.map Prod.snd).flatten p.1 = p.2.get? p.1 := by
  induction parts with
  | nil => cases hp
  | cons first parts ih =>
    obtain ⟨hfirst, hrest⟩ := List.forall_mem_cons.mp hkeyed
    obtain ⟨hnew, hdistinct⟩ := List.nodup_cons.mp hdistinct
    rw [List.map_cons, List.flatten_cons, Dict.get?, List.lookup_append]
    rcases List.mem_cons.mp hp with rfl | hp
    · -- no later part has the key
      have hnone : List.lookup p.1 (parts.map Prod.snd).flatten = none := by
        rw [List.lookup_eq_none_iff]
        intro entry hentry
        obtain ⟨part, hpart, hentry⟩ := List.mem_flatten.mp hentry
        obtain ⟨r, hr, rfl⟩ := List.mem_map.mp hpart
        rw [hrest r hr entry hentry]
        refine bne_iff_ne.mpr fun hsame => hnew ?_
        rw [hsame]
        exact List.mem_map_of_mem hr
      rw [hnone, Option.or_none]
      rfl
    · have hne : p.1 ≠ first.1 := fun hsame => hnew (hsame ▸ List.mem_map_of_mem hp)
      have hnone : List.lookup p.1 first.2 = none := hfirst.get? hne
      rw [hnone, Option.none_or]
      exact ih hrest hdistinct hp

theorem keyed_optionParam {β : Type} (key : String) (show_ : β → String) (x : Option β) :
    Keyed key (optionParam key show_ x) := by
  cases x with
  | none => exact fun p hp => absurd hp List.not_mem_nil
  | some b => exact fun p hp => by rw [List.mem_singleton.mp hp]

theorem get?_optionParam {β : Type} (key : String) (show_ : β → String) (x : Option β) :
    Dict.get? (optionParam key show_ x) key = x.map show_ := by
  cases x with
  | none => rfl
  | some b => exact List.lookup_cons_self

theorem topParam_ok {top : Option ℤ} {d : Dict String} (h : topParam top = .ok d) :
    d = optionParam "$top" toString top := by
  cases top with
  | none => exact (Except.ok.inj h).symm
  | some n =>
    rw [topParam] at h
    split at h
    · exact (Except.ok.inj h).symm
    · cases h

theorem skipParam_ok {skip : Option ℤ} {d : Dict String} (h : skipParam skip = .ok d) :
    d = optionParam "$skip" toString skip := by
  cases skip with
  | none => exact (Except.ok.inj h).symm
  | some n =>
    rw [skipParam] at h
    split at h
    · cases h
    · obtain ⟨text, htext, h⟩ := bind_eq_ok.mp h
      obtain ⟨-, rfl⟩ := intString_ok_iff.mp htext
      exact (Except.ok.inj h).symm

/-- The parts of a query's parameters under their keys, where these are its three lists. -/
def parts (q : ODataQuery) (select expand orderby : Dict String) : List (String × Dict String) :=
  [("$select", select), ("$filter", optionParam "$filter" id (truthy q.filter_expression)),
    ("$expand", expand), ("$orderby", orderby), ("$top", optionParam "$top" toString q.top),
    ("$skip", optionParam "$skip" toString q.skip),
    ("$count", optionParam "$count" lowerBool q.count),
    ("cross-company", optionParam "cross-company" lowerBool q.cross_company)]

section Params

variable [UnicodeData] {q : ODataQuery} {params : Dict String}

theorem keyed_joinIdentifiers {key : String} {names : List String} {d : Dict String}
    (h : joinIdentifiers key names = .ok d) : Keyed key d := by
  unfold joinIdentifiers at h
  split at h
  · obtain rfl := Except.ok.inj h
    exact fun p hp => absurd hp List.not_mem_nil
  · obtain ⟨valid, -, h⟩ := bind_eq_ok.mp h
    obtain rfl := Except.ok.inj h
    exact fun p hp => by rw [List.mem_singleton.mp hp]

theorem toParams_parts (h : q.toParams = .ok params) : ∃ select expand orderby,
    joinIdentifiers "$select" q.select = .ok select ∧
    joinIdentifiers "$expand" q.expand = .ok expand ∧
    joinIdentifiers "$orderby" q.orderby = .ok orderby ∧
    params = ((parts q select expand orderby).map Prod.snd).flatten := by
  obtain ⟨select, hselect, h⟩ := bind_eq_ok.mp h
  obtain ⟨expand, hexpand, h⟩ := bind_eq_ok.mp h
  obtain ⟨orderby, horderby, h⟩ := bind_eq_ok.mp h
  obtain ⟨top, htop, h⟩ := bind_eq_ok.mp h
  obtain ⟨skip, hskip, h⟩ := bind_eq_ok.mp h
  obtain rfl := topParam_ok htop
  obtain rfl := skipParam_ok hskip
  obtain rfl := Except.ok.inj h
  refine ⟨select, expand, orderby, hselect, hexpand, horderby, ?_⟩
  simp [parts]

/-- The text under each key is that of its part. -/
theorem get?_toParams (h : q.toParams = .ok params) : ∃ select expand orderby,
    joinIdentifiers "$select" q.select = .ok select ∧
    joinIdentifiers "$expand" q.expand = .ok expand ∧
    joinIdentifiers "$orderby" q.orderby = .ok orderby ∧
    ∀ p ∈ parts q select expand orderby, params.get? p.1 = p.2.get? p.1 := by
  obtain ⟨select, expand, orderby, hselect, hexpand, horderby, rfl⟩ := toParams_parts h
  refine ⟨select, expand, orderby, hselect, hexpand, horderby, ?_⟩
  have hdistinct : ((parts q select expand orderby).map Prod.fst).Nodup := by
    simp only [parts, List.map_cons, List.map_nil]
    decide
  have hkeyed : ∀ p ∈ parts q select expand orderby, Keyed p.1 p.2 := by
    simp only [parts, List.forall_mem_cons]
    exact ⟨keyed_joinIdentifiers hselect, keyed_optionParam _ _ _, keyed_joinIdentifiers hexpand,
      keyed_joinIdentifiers horderby, keyed_optionParam _ _ _, keyed_optionParam _ _ _,
      keyed_optionParam _ _ _, keyed_optionParam _ _ _, fun p hp => absurd hp List.not_mem_nil⟩
  exact fun p hp => get?_flatten hkeyed hdistinct hp

/-! ## Names -/

omit [UnicodeData] in
theorem not_mem_of_isIdentifier {name : String} (h : isIdentifier name = true) :
    ',' ∉ name.toList := by
  intro hmem
  exact absurd (isIdentifier_chars h ',' hmem) (by decide)

omit [UnicodeData] in
/-- Names joined by commas come apart at the commas. -/
theorem splitOn_intercalate {names : List String} (hne : names ≠ [])
    (h : ∀ n ∈ names, isIdentifier n = true) :
    ((",".intercalate names).toList.splitOn ',').map String.ofList = names := by
  have hcomma : ∀ cs ∈ names.map String.toList, ',' ∉ cs := by
    intro cs hcs
    obtain ⟨n, hn, rfl⟩ := List.mem_map.mp hcs
    exact not_mem_of_isIdentifier (h n hn)
  have hsep : ",".toList = [','] := by decide
  rw [String.toList_intercalate, hsep, List.splitOn_intercalate ',' hcomma (by simpa using hne),
    List.map_map]
  exact List.map_id'' (fun n => String.ofList_toList) names

theorem isIdentifier_of_joinIdentifiers {key : String} {names : List String} {d : Dict String}
    (h : joinIdentifiers key names = .ok d) : ∀ n ∈ names, isIdentifier n = true := by
  intro n hn
  unfold joinIdentifiers at h
  split at h
  · rename_i hnil
    rw [hnil] at hn
    cases hn
  · obtain ⟨valid, hvalid, -⟩ := bind_eq_ok.mp h
    obtain ⟨n', -, hok⟩ := exists_mem_of_mapM_ok hvalid hn
    exact (validateIdentifier_ok.mp hok).1

theorem readNames_joinIdentifiers {key : String} {names : List String} {d : Dict String}
    (h : joinIdentifiers key names = .ok d) (hget : params.get? key = d.get? key) :
    readNames params key = names := by
  rw [readNames, hget]
  have hnames := isIdentifier_of_joinIdentifiers h
  unfold joinIdentifiers at h
  split at h
  · rename_i hnil
    obtain rfl := Except.ok.inj h
    exact hnil.symm
  · rename_i hne
    obtain ⟨valid, hvalid, h⟩ := bind_eq_ok.mp h
    obtain rfl := Except.ok.inj h
    have hsame := mapM_eq_ok (g := id) fun n hn => validateIdentifier_ok.mpr ⟨hnames n hn, rfl⟩
    rw [List.map_id] at hsame
    obtain rfl := Except.ok.inj (hvalid.symm.trans hsame)
    rw [Dict.get?, List.lookup_cons_self]
    exact splitOn_intercalate hne hnames

/-- The columns that are asked for. -/
theorem readNames_select (h : q.toParams = .ok params) : readNames params "$select" = q.select := by
  obtain ⟨select, expand, orderby, hselect, -, -, hget⟩ := get?_toParams h
  exact readNames_joinIdentifiers hselect (hget ("$select", select) List.mem_cons_self)

/-- Only identifiers are selected. -/
theorem isIdentifier_of_select (h : q.toParams = .ok params) {column : String}
    (hcolumn : column ∈ readNames params "$select") : isIdentifier column = true := by
  rw [readNames_select h] at hcolumn
  obtain ⟨select, expand, orderby, hselect, -⟩ := get?_toParams h
  exact isIdentifier_of_joinIdentifiers hselect column hcolumn

/-- The page that is asked for. -/
theorem get?_top (h : q.toParams = .ok params) : params.get? "$top" = q.top.map toString := by
  obtain ⟨select, expand, orderby, -, -, -, hget⟩ := get?_toParams h
  rw [hget ("$top", optionParam "$top" toString q.top) (by simp [parts])]
  exact get?_optionParam _ _ _

theorem readTop_toParams {n : ℕ} (h : q.toParams = .ok params) (htop : q.top = some (n : ℤ)) :
    readTop params = some n := by
  rw [readTop, get?_top h, htop]
  exact readDigits_toString n

/-! ## Queries that have parameters -/

theorem joinIdentifiers_ok_iff {key : String} {names : List String} :
    (∃ d, joinIdentifiers key names = .ok d) ↔ ∀ n ∈ names, isIdentifier n = true := by
  constructor
  · rintro ⟨d, h⟩
    exact isIdentifier_of_joinIdentifiers h
  · exact joinIdentifiers_ok key

omit [UnicodeData] in
theorem topParam_ok_iff {top : Option ℤ} :
    (∃ d, topParam top = .ok d) ↔ ∀ n, top = some n → 1 ≤ n ∧ n ≤ 1000 := by
  cases top with
  | none => simp [topParam]
  | some n =>
    by_cases hn : 1 ≤ n ∧ n ≤ 1000
    · simp [topParam, hn]
    · simp only [topParam, if_neg hn]
      simpa using hn

omit [UnicodeData] in
theorem skipParam_ok_iff {skip : Option ℤ} :
    (∃ d, skipParam skip = .ok d) ↔
      ∀ n, skip = some n → 0 ≤ n ∧ n.natAbs < 10 ^ maxStrDigits := by
  cases skip with
  | none => exact iff_of_true ⟨_, rfl⟩ fun n hn => by cases hn
  | some n =>
    simp only [skipParam, Option.some.injEq, forall_eq']
    split
    · rename_i hn
      exact iff_of_false (fun ⟨d, h⟩ => by cases h) fun h => not_lt.mpr h.1 hn
    · rename_i hn
      rw [and_iff_right (not_lt.mp hn)]
      constructor
      · rintro ⟨d, h⟩
        obtain ⟨text, htext, -⟩ := bind_eq_ok.mp h
        exact (intString_ok_iff.mp htext).1
      · intro h
        exact ⟨_, bind_eq_ok.mpr ⟨_, intString_ok_iff.mpr ⟨h, rfl⟩, rfl⟩⟩

/-- The lists name identifiers, and the numbers of the page are in range: Python does not print
a number of more digits. -/
structure ODataQuery.Valid (q : ODataQuery) : Prop where
  select : ∀ n ∈ q.select, isIdentifier n = true
  expand : ∀ n ∈ q.expand, isIdentifier n = true
  orderby : ∀ n ∈ q.orderby, isIdentifier n = true
  top : ∀ n, q.top = some n → 1 ≤ n ∧ n ≤ 1000
  skip : ∀ n, q.skip = some n → 0 ≤ n ∧ n.natAbs < 10 ^ maxStrDigits

theorem toParams_ok_iff (q : ODataQuery) : (∃ params, q.toParams = .ok params) ↔ q.Valid := by
  constructor
  · rintro ⟨params, h⟩
    obtain ⟨select, hselect, h⟩ := bind_eq_ok.mp h
    obtain ⟨expand, hexpand, h⟩ := bind_eq_ok.mp h
    obtain ⟨orderby, horderby, h⟩ := bind_eq_ok.mp h
    obtain ⟨top, htop, h⟩ := bind_eq_ok.mp h
    obtain ⟨skip, hskip, -⟩ := bind_eq_ok.mp h
    exact ⟨joinIdentifiers_ok_iff.mp ⟨select, hselect⟩, joinIdentifiers_ok_iff.mp ⟨expand, hexpand⟩,
      joinIdentifiers_ok_iff.mp ⟨orderby, horderby⟩, topParam_ok_iff.mp ⟨top, htop⟩,
      skipParam_ok_iff.mp ⟨skip, hskip⟩⟩
  · intro h
    obtain ⟨select, hselect⟩ := joinIdentifiers_ok "$select" h.select
    obtain ⟨expand, hexpand⟩ := joinIdentifiers_ok "$expand" h.expand
    obtain ⟨orderby, horderby⟩ := joinIdentifiers_ok "$orderby" h.orderby
    obtain ⟨top, htop⟩ := topParam_ok_iff.mpr h.top
    obtain ⟨skip, hskip⟩ := skipParam_ok_iff.mpr h.skip
    unfold ODataQuery.toParams
    rw [hselect, hexpand, horderby, htop, hskip]
    exact ⟨_, rfl⟩

/-! ## The query of some parameters -/

/-- The number under a key. -/
def readNumber (params : Dict String) (key : String) : Option ℤ :=
  (params.get? key).bind fun text => (readDigits text.toList).map Nat.cast

/-- The flag under a key. -/
def readFlag (params : Dict String) (key : String) : Option Bool :=
  (params.get? key).bind fun text =>
    if text = "true" then some true else if text = "false" then some false else none

def readQuery (params : Dict String) : ODataQuery where
  select := readNames params "$select"
  filter_expression := params.get? "$filter"
  expand := readNames params "$expand"
  orderby := readNames params "$orderby"
  top := readNumber params "$top"
  skip := readNumber params "$skip"
  count := readFlag params "$count"
  cross_company := readFlag params "cross-company"

/-- The query, with an absent filter for an empty one. -/
def ODataQuery.canonical (q : ODataQuery) : ODataQuery :=
  { q with filter_expression := truthy q.filter_expression }

theorem toParams_canonical (q : ODataQuery) : q.canonical.toParams = q.toParams := by
  have htruthy : truthy (truthy q.filter_expression) = truthy q.filter_expression := by
    cases hfilter : truthy q.filter_expression with
    | none => rfl
    | some f => exact truthy_eq_some.mpr ⟨rfl, (truthy_eq_some.mp hfilter).2⟩
  unfold ODataQuery.toParams ODataQuery.canonical
  rw [htruthy]

omit [UnicodeData] in
theorem readNumber_optionParam {key : String} {x : Option ℤ}
    (hget : params.get? key = (optionParam key toString x).get? key)
    (hx : ∀ n, x = some n → 0 ≤ n) : readNumber params key = x := by
  rw [readNumber, hget, get?_optionParam]
  cases x with
  | none => rfl
  | some n =>
    obtain ⟨m, rfl⟩ := Int.eq_ofNat_of_zero_le (hx n rfl)
    rw [Option.map_some, Option.bind_some, readDigits_toString]
    rfl

omit [UnicodeData] in
theorem readFlag_optionParam {key : String} {x : Option Bool}
    (hget : params.get? key = (optionParam key lowerBool x).get? key) :
    readFlag params key = x := by
  rw [readFlag, hget, get?_optionParam]
  cases x with
  | none => rfl
  | some b => cases b <;> decide

/-- The parameters say which query they are of. -/
theorem readQuery_toParams (h : q.toParams = .ok params) : readQuery params = q.canonical := by
  have hvalid := (toParams_ok_iff q).mp ⟨params, h⟩
  obtain ⟨select, expand, orderby, hselect, hexpand, horderby, hget⟩ := get?_toParams h
  simp only [parts, List.forall_mem_cons] at hget
  obtain ⟨gselect, gfilter, gexpand, gorderby, gtop, gskip, gcount, gcross, -⟩ := hget
  rw [get?_optionParam, Option.map_id_apply] at gfilter
  have htop : ∀ n, q.top = some n → 0 ≤ n := fun n hn => by
    have hrange := hvalid.top n hn
    omega
  rw [readQuery, ODataQuery.canonical, ODataQuery.mk.injEq]
  exact ⟨readNames_joinIdentifiers hselect gselect, gfilter,
    readNames_joinIdentifiers hexpand gexpand, readNames_joinIdentifiers horderby gorderby,
    readNumber_optionParam gtop htop, readNumber_optionParam gskip fun n hn => (hvalid.skip n hn).1,
    readFlag_optionParam gcount, readFlag_optionParam gcross⟩

omit [UnicodeData] in
theorem readQuery_congr {params' : Dict String} (h : ∀ key, params.get? key = params'.get? key) :
    readQuery params = readQuery params' := by
  simp only [readQuery, readNames, readNumber, readFlag, h]

/-- **Parameters determine the query.** A query has parameters if and only if its lists name
identifiers and its page is in range; the parameters read back give the query, an empty filter
counting as none; and two queries have the same text under every key if and only if they
differ in that only. -/
theorem params_determine :
    (∀ q : ODataQuery, (∃ params, q.toParams = .ok params) ↔ q.Valid) ∧
    (∀ (q : ODataQuery) (params : Dict String), q.toParams = .ok params →
      readQuery params = q.canonical) ∧
    ∀ (q q' : ODataQuery) (params params' : Dict String), q.toParams = .ok params →
      q'.toParams = .ok params' →
      ((∀ key, params.get? key = params'.get? key) ↔ q.canonical = q'.canonical) := by
  refine ⟨toParams_ok_iff, fun q params h => readQuery_toParams h, ?_⟩
  intro q q' params params' h h'
  constructor
  · intro hget
    calc q.canonical = readQuery params := (readQuery_toParams h).symm
      _ = readQuery params' := readQuery_congr hget
      _ = q'.canonical := readQuery_toParams h'
  · intro hsame
    have hparams : q.toParams = q'.toParams := by
      rw [← toParams_canonical q, hsame, toParams_canonical]
    rw [h, h'] at hparams
    exact fun key => by rw [Except.ok.inj hparams]

end Params

section Instances

open Ascii

/-- That the page is not negative does not do: a skip of 4301 digits is refused. -/
theorem not_toParams_of_nonneg : ¬ ∀ q : ODataQuery, (∃ params, q.toParams = .ok params) ↔
    (∀ n ∈ q.select, isIdentifier n = true) ∧ (∀ n ∈ q.expand, isIdentifier n = true) ∧
    (∀ n ∈ q.orderby, isIdentifier n = true) ∧
    (∀ n, q.top = some n → 1 ≤ n ∧ n ≤ 1000) ∧ ∀ n, q.skip = some n → 0 ≤ n := by
  intro hall
  have hparams := (hall { skip := some ((10 ^ maxStrDigits : ℕ) : ℤ) }).mpr
    ⟨by simp, by simp, by simp, by simp, fun n hn => Option.some.inj hn ▸ Int.natCast_nonneg _⟩
  have hskip := ((toParams_ok_iff _).mp hparams).skip _ rfl
  rw [Int.natAbs_natCast] at hskip
  exact lt_irrefl _ hskip.2

end Instances

end EmployeePortal.D365
