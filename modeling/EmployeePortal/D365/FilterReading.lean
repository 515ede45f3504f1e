import EmployeePortal.D365.Query

/-!
# Reading a filter back

A reader for filters of the form `(f1 eq 'v1') and (f2 eq 'v2') and ..`, from left
to right, with OData's rule for literals: inside quotes two apostrophes stand
for one and a lone apostrophe closes the literal. It knows nothing of how the
portal builds its filters; what the portal builds, it reads back clause by
clause (`readFilter_clauses`).
-/

namespace EmployeePortal.D365

open EmployeePortal.Python

/-! ## The reader -/

/-- `cs` without the prefix `p`. -/
def expect (p cs : List Char) : Option (List Char) :=
  if p.isPrefixOf cs then some (cs.drop p.length) else none

/-- The value of a literal and what follows it, from behind the opening quote. -/
def readLiteral : List Char → Option (List Char × List Char)
  | [] => none
  | [c] => if c = '\'' then some ([], []) else none
  | c :: d :: cs =>
      if c = '\'' then
        if d = '\'' then (readLiteral cs).map (fun r => ('\'' :: r.1, r.2))
        else some ([], d :: cs)
      else (readLiteral (d :: cs)).map (fun r => (c :: r.1, r.2))

/-- One clause `(field eq 'value')` and what follows it. -/
def readClause (cs : List Char) : Option ((String × String) × List Char) := do
  let cs ← expect ['('] cs
  let field := cs.takeWhile isIdentifierChar
  let cs ← expect " eq '".toList (cs.dropWhile isIdentifierChar)
  let (value, cs) ← readLiteral cs
  let cs ← expect [')'] cs
  return ((String.ofList field, String.ofList value), cs)

theorem expect_length {p cs rest : List Char} (h : expect p cs = some rest) :
    rest.length ≤ cs.length := by
  simp only [expect, Option.ite_none_right_eq_some, Option.some.injEq] at h
  obtain ⟨-, rfl⟩ := h
  rw [List.length_drop]
  omega

theorem readLiteral_length {cs v rest : List Char}
    (h : readLiteral cs = some (v, rest)) : rest.length < cs.length := by
  induction cs using readLiteral.induct generalizing v with
  | case1 => cases h
  | case2 =>
    simp only [readLiteral, if_true, Option.some.injEq, Prod.mk.injEq] at h
    obtain ⟨-, rfl⟩ := h
    simp
  | case3 c hc => simp [readLiteral, hc] at h
  | case4 cs ih =>
    simp only [readLiteral, if_true, Option.map_eq_some_iff, Prod.mk.injEq] at h
    obtain ⟨⟨v', rest'⟩, hread, -, rfl⟩ := h
    have hlt : rest'.length < cs.length := ih hread
    show rest'.length < _
    simp only [List.length_cons]
    omega
  | case5 d cs hd =>
    simp only [readLiteral, if_true, if_neg hd, Option.some.injEq, Prod.mk.injEq] at h
    obtain ⟨-, rfl⟩ := h
    simp
  | case6 c d cs hc ih =>
    simp only [readLiteral, if_neg hc, Option.map_eq_some_iff, Prod.mk.injEq] at h
    obtain ⟨⟨v', rest'⟩, hread, -, rfl⟩ := h
    have hlt := ih hread
    show rest'.length < _
    simp only [List.length_cons] at hlt ⊢
    omega

theorem readClause_length {cs rest : List Char} {clause : String × String}
    (h : readClause cs = some (clause, rest)) : rest.length < cs.length := by
  simp only [readClause, Option.bind_eq_bind, Option.bind_eq_some_iff, Option.pure_def,
    Option.some.injEq, Prod.mk.injEq] at h
  obtain ⟨cs₁, h₁, cs₂, h₂, ⟨v, cs₃⟩, h₃, cs₄, h₄, -, rfl⟩ := h
  dsimp only at h₄
  have hdrop := (List.dropWhile_suffix (p := isIdentifierChar) (l := cs₁)).length_le
  have l₁ := expect_length h₁
  have l₂ := expect_length h₂
  have l₃ := readLiteral_length h₃
  have l₄ := expect_length h₄
  omega

/-- All clauses of a filter, with nothing left over. -/
def readFilter (cs : List Char) : Option (List (String × String)) :=
  match _h : readClause cs with
  | none => none
  | some (clause, []) => some [clause]
  | some (clause, c :: rest) =>
      match _h' : expect " and ".toList (c :: rest) with
      | none => none
      | some rest' => (readFilter rest').map (clause :: ·)
termination_by cs.length
decreasing_by
  have := readClause_length _h
  have := expect_length _h'
  omega

/-! ## What the portal writes -/

/-- The inside of a literal: every apostrophe doubled. -/
def escape (value : List Char) : List Char :=
  value.flatMap (fun c => if c = '\'' then ['\'', '\''] else [c])

/-- One clause as `and_all` writes it. -/
def clauseText (p : String × String) : List Char :=
  '(' :: p.1.toList ++ " eq '".toList ++ escape p.2.toList ++ ['\'', ')']

theorem replace_apostrophe (cs : List Char) : replace "'" "''" cs = escape cs := by
  have h1 : "'".toList = ['\''] := by decide
  have h2 : "''".toList = ['\'', '\''] := by decide
  rw [replace, h1, h2, replaceFrom_char]
  rfl

theorem readLiteral_escape (value : List Char) {c : Char} (hc : c ≠ '\'')
    (rest : List Char) :
    readLiteral (escape value ++ '\'' :: c :: rest) = some (value, c :: rest) := by
  induction value with
  | nil =>
    show readLiteral ('\'' :: c :: rest) = _
    simp only [readLiteral, if_true, if_neg hc]
  | cons d value ih =>
    by_cases hd : d = '\''
    · subst hd
      show readLiteral ('\'' :: '\'' :: (escape value ++ _)) = _
      simp [readLiteral, ih]
    · have hcons : escape (d :: value) = d :: escape value := by simp [escape, hd]
      obtain ⟨e, tail, htail⟩ : ∃ e tail,
          escape value ++ '\'' :: c :: rest = e :: tail := by
        cases h : escape value ++ '\'' :: c :: rest with
        | nil => simp at h
        | cons e tail => exact ⟨e, tail, rfl⟩
      rw [hcons, List.cons_append]
      rw [htail] at ih ⊢
      simp only [readLiteral, if_neg hd, ih, Option.map_some]

theorem expect_append (p cs : List Char) : expect p (p ++ cs) = some cs := by
  simp [expect, List.isPrefixOf_iff_prefix]

theorem readClause_clauseText {p : String × String} (h : isIdentifier p.1 = true)
    (rest : List Char) : readClause (clauseText p ++ rest) = some (p, rest) := by
  have hchars := isIdentifier_chars h
  have hspan : ∀ tail, (p.1.toList ++ ' ' :: tail).takeWhile isIdentifierChar = p.1.toList ∧
      (p.1.toList ++ ' ' :: tail).dropWhile isIdentifierChar = ' ' :: tail := by
    intro tail
    have hblank : isIdentifierChar ' ' = false := by decide
    constructor
    · rw [List.takeWhile_append_of_pos hchars]
      simp [hblank]
    · rw [List.dropWhile_append_of_pos hchars]
      simp [hblank]
  have heq : " eq '".toList = [' ', 'e', 'q', ' ', '\''] := by decide
  have hlit := readLiteral_escape p.2.toList (c := ')') (by decide) rest
  have htext : clauseText p ++ rest = ['('] ++ (p.1.toList ++ ' ' ::
      (['e', 'q', ' ', '\''] ++ (escape p.2.toList ++ '\'' :: ')' :: rest))) := by
    simp [clauseText, heq]
  obtain ⟨htake, hdrop⟩ := hspan (['e', 'q', ' ', '\''] ++
    (escape p.2.toList ++ '\'' :: ')' :: rest))
  rw [htext, readClause, expect_append]
  simp only [Option.bind_eq_bind, Option.bind_some, htake, hdrop]
  rw [show (' ' :: (['e', 'q', ' ', '\''] ++ (escape p.2.toList ++ '\'' :: ')' :: rest)))
    = " eq '".toList ++ (escape p.2.toList ++ '\'' :: ')' :: rest) by rw [heq]; rfl,
    expect_append]
  simp only [Option.bind_some, hlit]
  rw [show ')' :: rest = [')'] ++ rest from rfl, expect_append]
  simp

/-- **The reader reads what the portal writes**: the clauses, in order, with
nothing left over. -/
theorem readFilter_clauses {pairs : List (String × String)} (hne : pairs ≠ [])
    (h : ∀ p ∈ pairs, isIdentifier p.1 = true) :
    readFilter (List.intercalate " and ".toList (pairs.map clauseText)) = some pairs := by
  induction pairs with
  | nil => exact absurd rfl hne
  | cons p pairs ih =>
    have hp := readClause_clauseText (h p List.mem_cons_self)
    -- after a clause the text ends, or goes on with " and " and the other clauses
    cases pairs with
    | nil =>
      have hread := hp []
      rw [List.append_nil] at hread
      rw [List.map_singleton, List.intercalate_singleton, readFilter]
      split
      · rename_i heq; rw [hread] at heq; cases heq
      · rename_i heq; rw [hread] at heq; cases heq; rfl
      · rename_i heq; rw [hread] at heq; cases heq
    | cons q pairs =>
      have hrest := ih (by simp) (fun x hx => h x (List.mem_cons_of_mem _ hx))
      have hsep : " and ".toList = [' ', 'a', 'n', 'd', ' '] := by decide
      rw [List.map_cons, List.map_cons, List.intercalate_cons_cons, ← List.map_cons,
        List.append_assoc]
      have hread := hp (" and ".toList ++
        List.intercalate " and ".toList ((q :: pairs).map clauseText))
      rw [readFilter]
      split
      · rename_i heq; rw [hread] at heq; cases heq
      · rename_i heq
        rw [hread, hsep] at heq
        cases heq
      · rename_i clause c rest heq
        rw [hread] at heq
        obtain ⟨rfl, hcs⟩ := Prod.mk.inj (Option.some.inj heq)
        have hexp := expect_append " and ".toList
          (List.intercalate " and ".toList ((q :: pairs).map clauseText))
        rw [hcs] at hexp
        split
        · rename_i heq'; rw [hexp] at heq'; cases heq'
        · rename_i rest' heq'
          rw [hexp] at heq'
          cases heq'
          rw [hrest]
          rfl

/-! ## The filter of a list of pairs -/

section Filter

variable [UnicodeData]

theorem equals_ok {p : String × String} (hfield : isIdentifier p.1 = true)
    (hvalue : hasControl p.2 = false) :
    equals p.1 p.2 = .ok (p.1 ++ " eq " ++
      ("'" ++ String.ofList (escape p.2.toList) ++ "'")) := by
  have hlit : quoteOdataString p.2 =
      .ok ("'" ++ String.ofList (escape p.2.toList) ++ "'") := by
    rw [quoteOdataString, hvalue, replace_apostrophe]
    rfl
  rw [equals, validateIdentifier_ok.mpr ⟨hfield, rfl⟩, hlit]
  rfl

theorem equals_hasControl {field value : String} (h : hasControl value = true) :
    ∃ e, equals field value = .error e := by
  unfold equals validateIdentifier
  split
  · exact ⟨_, by rw [quoteOdataString, if_pos h]; rfl⟩
  · exact ⟨_, rfl⟩

theorem equals_eq_ok {field value text : String} (h : equals field value = .ok text) :
    isIdentifier field = true ∧ hasControl value = false := by
  obtain ⟨field', hfield, h⟩ := bind_eq_ok.mp h
  refine ⟨(validateIdentifier_ok.mp hfield).1, ?_⟩
  cases hcontrol : hasControl value with
  | false => rfl
  | true =>
    rw [quoteOdataString, if_pos hcontrol] at h
    cases h

/-- What `and_all` makes of accepted pairs, character by character. -/
theorem filterOf_ok {pairs : List (String × String)} (hne : pairs ≠ [])
    (hfield : ∀ p ∈ pairs, isIdentifier p.1 = true)
    (hvalue : ∀ p ∈ pairs, hasControl p.2 = false) :
    ∃ s, filterOf pairs = .ok s ∧
      s.toList = List.intercalate " and ".toList (pairs.map clauseText) := by
  let text : String × String → String := fun p =>
    p.1 ++ " eq " ++ ("'" ++ String.ofList (escape p.2.toList) ++ "'")
  have hmap : pairs.mapM (fun p => equals p.1 p.2) = .ok (pairs.map text) :=
    mapM_eq_ok fun p hp => equals_ok (hfield p hp) (hvalue p hp)
  have hnonempty : ¬ (pairs.map text = [] ∨ ∃ e ∈ pairs.map text, e = "") := by
    rintro (h | ⟨e, he, rfl⟩)
    · exact hne (List.map_eq_nil_iff.mp h)
    · obtain ⟨p, -, hp⟩ := List.mem_map.mp he
      have hlen := congrArg String.length hp
      simp [text] at hlen
  refine ⟨" and ".intercalate ((pairs.map text).map (fun e => "(" ++ e ++ ")")), ?_, ?_⟩
  · rw [filterOf, hmap]
    exact if_neg hnonempty
  · rw [String.toList_intercalate, List.map_map, List.map_map]
    congr 2
    funext p
    simp [text, clauseText]

/-- A filter can be built from identifiers and values without control characters only. -/
theorem filterOf_ok_iff {pairs : List (String × String)} :
    (∃ s, filterOf pairs = .ok s) ↔
      pairs ≠ [] ∧ ∀ p ∈ pairs, isIdentifier p.1 = true ∧ hasControl p.2 = false := by
  constructor
  · rintro ⟨s, h⟩
    obtain ⟨texts, htexts, hand⟩ := bind_eq_ok.mp h
    constructor
    · rintro rfl
      rw [List.mapM_nil] at htexts
      obtain rfl := Except.ok.inj htexts
      cases hand
    · intro p hp
      obtain ⟨text, -, htext⟩ := exists_mem_of_mapM_ok htexts hp
      exact equals_eq_ok htext
  · rintro ⟨hne, hvalid⟩
    obtain ⟨s, hs, -⟩ := filterOf_ok hne (fun p hp => (hvalid p hp).1) fun p hp => (hvalid p hp).2
    exact ⟨s, hs⟩

/-- **No value can change the filter's reading.** Accepted fields and values
without control characters give a filter, the filter reads back as exactly
these clauses, no other such list gives the same text, and a value with a
control character gives none. -/
theorem filterOf_injection_free :
    (∀ pairs : List (String × String), pairs ≠ [] →
      (∀ p ∈ pairs, validateIdentifier p.1 = .ok p.1) →
      (∀ p ∈ pairs, hasControl p.2 = false) →
      ∃ s, filterOf pairs = .ok s ∧ readFilter s.toList = some pairs ∧
        ∀ pairs' : List (String × String), pairs' ≠ [] →
          (∀ p ∈ pairs', validateIdentifier p.1 = .ok p.1) →
          (∀ p ∈ pairs', hasControl p.2 = false) →
          filterOf pairs' = .ok s → pairs' = pairs) ∧
    ∀ field value, hasControl value = true → ∃ e, equals field value = .error e := by
  have hread : ∀ pairs : List (String × String), pairs ≠ [] →
      (∀ p ∈ pairs, validateIdentifier p.1 = .ok p.1) →
      (∀ p ∈ pairs, hasControl p.2 = false) →
      ∃ s, filterOf pairs = .ok s ∧ readFilter s.toList = some pairs := by
    intro pairs hne hfield hvalue
    have hid : ∀ p ∈ pairs, isIdentifier p.1 = true :=
      fun p hp => (validateIdentifier_ok.mp (hfield p hp)).1
    obtain ⟨s, hs, htext⟩ := filterOf_ok hne hid hvalue
    exact ⟨s, hs, htext ▸ readFilter_clauses hne hid⟩
  refine ⟨fun pairs hne hfield hvalue => ?_, fun _ _ => equals_hasControl⟩
  obtain ⟨s, hs, hpairs⟩ := hread pairs hne hfield hvalue
  refine ⟨s, hs, hpairs, fun pairs' hne' hfield' hvalue' hs' => ?_⟩
  obtain ⟨s', hs'', hpairs'⟩ := hread pairs' hne' hfield' hvalue'
  obtain rfl : s' = s := Except.ok.inj (hs''.symm.trans hs')
  exact Option.some.inj (hpairs'.symm.trans hpairs)

end Filter

/-- A value that tries to close its literal and add a clause of its own. -/
theorem filterOf_injection_free_quotes :
    let _ := asciiData
    ∃ s, filterOf [("PersonnelNumber", "1') or ('x' eq 'x"), ("dataAreaId", "''")] = .ok s ∧
      readFilter s.toList =
        some [("PersonnelNumber", "1') or ('x' eq 'x"), ("dataAreaId", "''")] := by
  intro _
  obtain ⟨s, hs, hread, -⟩ := filterOf_injection_free.1
    [("PersonnelNumber", "1') or ('x' eq 'x"), ("dataAreaId", "''")]
    (by decide) (by decide) (by decide)
  exact ⟨s, hs, hread⟩

end EmployeePortal.D365
