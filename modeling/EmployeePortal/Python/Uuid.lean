import EmployeePortal.Python.Text
import Mathlib.Tactic.Ring

/-!
# `uuid.UUID`

`uuid.UUID(text)` accepts far more than the canonical form: the prefixes `urn:`
and `uuid:`, braces, hyphens anywhere, and after that whatever `int(text, 16)`
takes in 32 characters, so also blanks at the ends, a sign, a `0x`, single
underscores and decimal digits of other scripts. `str(uuid)` has one form only,
and parsing it gives the same UUID back (`parse_toText`).
-/

namespace EmployeePortal.Python

/-- A 128-bit value. -/
structure Uuid where
  int : ℕ
  lt : int < 2 ^ 128
deriving DecidableEq, Repr

namespace Uuid

/-! ## `int(text, 16)` -/

/-- The value of a hexadecimal digit. -/
def hexValue (c : Char) : Option ℕ :=
  let n := c.toNat
  if 48 ≤ n ∧ n ≤ 57 then some (n - 48)
  else if 97 ≤ n ∧ n ≤ 102 then some (n - 87)
  else if 65 ≤ n ∧ n ≤ 70 then some (n - 55)
  else none

/-- The digits of a numeral; a single underscore may stand between two digits. -/
def hexDigits : List Char → Option (List ℕ)
  | [] => none
  | [c] => (hexValue c).map ([·])
  | c :: d :: cs =>
      match hexValue c with
      | none => none
      | some v =>
          if d = '_' then (hexDigits cs).map (v :: ·)
          else (hexDigits (d :: cs)).map (v :: ·)

/-- The value of a numeral, most significant digit first. -/
def ofDigits (ds : List ℕ) : ℕ := ds.foldl (fun n d => 16 * n + d) 0

/-- `0x` or `0X`, and one underscore after it. -/
def dropPrefix : List Char → List Char
  | '0' :: x :: cs =>
      if x = 'x' ∨ x = 'X' then (if cs.head? = some '_' then cs.tail else cs)
      else '0' :: x :: cs
  | cs => cs

def dropSign (cs : List Char) : List Char :=
  if cs.head? = some '+' then cs.tail else cs

def isAsciiSpace (c : Char) : Bool := (9 ≤ c.toNat && c.toNat ≤ 13) || c.toNat == 32

section Parse

variable [UnicodeData]

/-- How `int` reads one character of its argument: blanks and decimal digits of
any script stand for the ASCII ones. -/
def asciiChar (c : Char) : Option Char :=
  if isAscii c then some c
  else if isSpace c then some ' '
  else (UnicodeData.decimal c).map (fun d => Char.ofNat (48 + d))

/-- `int(text, 16)` for a text without `-`. -/
def int16 (cs : List Char) : Option ℕ :=
  (cs.mapM asciiChar).bind fun cs =>
    (hexDigits (dropPrefix (dropSign (stripBy isAsciiSpace cs)))).map ofDigits

/-- `uuid.UUID(text)`; `none` is its `ValueError`. -/
def parse (text : String) : Option Uuid :=
  let hex := replace "uuid:" "" (replace "urn:" "" text.toList)
  let hex := replace "-" "" (stripBy (fun c => c = '{' || c = '}') hex)
  if hex.length ≠ 32 then none
  else (int16 hex).bind fun n => if h : n < 2 ^ 128 then some ⟨n, h⟩ else none

end Parse

/-! ## `str(uuid)` -/

def hexDigit (d : ℕ) : Char := if d < 10 then Char.ofNat (48 + d) else Char.ofNat (87 + d)

/-- The last `w` hexadecimal digits of `n`. -/
def lastDigits : ℕ → ℕ → List ℕ
  | 0, _ => []
  | w + 1, n => lastDigits w (n / 16) ++ [n % 16]

/-- `'%032x' % self.int`. -/
def hex (u : Uuid) : List Char := (lastDigits 32 u.int).map hexDigit

/-- `str(uuid)`. -/
def toText (u : Uuid) : String :=
  let h := u.hex
  String.ofList (h.take 8 ++ '-' :: (h.drop 8).take 4 ++ '-' :: (h.drop 12).take 4 ++
    '-' :: (h.drop 16).take 4 ++ '-' :: h.drop 20)

/-! ## The round trip -/

theorem lastDigits_lt {w n d : ℕ} (h : d ∈ lastDigits w n) : d < 16 := by
  induction w generalizing n with
  | zero => cases h
  | succ w ih =>
    rcases List.mem_append.mp h with h | h
    · exact ih h
    · obtain rfl := List.mem_singleton.mp h
      exact Nat.mod_lt _ (by decide)

theorem length_lastDigits (w n : ℕ) : (lastDigits w n).length = w := by
  induction w generalizing n with
  | zero => rfl
  | succ w ih => simp [lastDigits, ih]

theorem ofDigits_lastDigits (w n : ℕ) : ofDigits (lastDigits w n) = n % 16 ^ w := by
  induction w generalizing n with
  | zero => simp [lastDigits, ofDigits, Nat.mod_one]
  | succ w ih =>
    have hstep : ofDigits (lastDigits (w + 1) n) =
        16 * ofDigits (lastDigits w (n / 16)) + n % 16 := by
      simp [lastDigits, ofDigits, List.foldl_append]
    rw [hstep, ih, pow_succ', Nat.mod_mul, add_comm]

theorem hexValue_hexDigit : ∀ d < 16, hexValue (hexDigit d) = some d := by decide

theorem hexDigit_ascii : ∀ d < 16, isAscii (hexDigit d) = true := by decide

/-- What a hexadecimal digit is not: a blank, a sign, an `x`, a `u`, a brace, a
hyphen or an underscore. -/
theorem hexDigit_plain : ∀ d < 16, isAsciiSpace (hexDigit d) = false ∧
    hexDigit d ≠ '+' ∧ hexDigit d ≠ 'x' ∧ hexDigit d ≠ 'X' ∧ hexDigit d ≠ 'u' ∧
    hexDigit d ≠ '{' ∧ hexDigit d ≠ '}' ∧ hexDigit d ≠ '-' ∧ hexDigit d ≠ '_' := by
  decide

theorem hexDigits_map {ds : List ℕ} (hne : ds ≠ []) (h : ∀ d ∈ ds, d < 16) :
    hexDigits (ds.map hexDigit) = some ds := by
  induction ds with
  | nil => exact absurd rfl hne
  | cons d ds ih =>
    have hd := hexValue_hexDigit d (h d List.mem_cons_self)
    cases ds with
    | nil => simp [hexDigits, hd]
    | cons e es =>
      have he := (hexDigit_plain e (h e (by simp))).2.2.2.2.2.2.2.2
      have hrest := ih (by simp) (fun x hx => h x (List.mem_cons_of_mem _ hx))
      simp only [List.map_cons] at hrest ⊢
      simp [hexDigits, hd, he, hrest]

theorem dropPrefix_map {ds : List ℕ} (h : ∀ d ∈ ds, d < 16) :
    dropPrefix (ds.map hexDigit) = ds.map hexDigit := by
  match ds with
  | [] => rfl
  | [d] => simp [dropPrefix]
  | d :: e :: es =>
    have he := hexDigit_plain e (h e (by simp))
    simp only [List.map_cons]
    unfold dropPrefix
    split
    · rename_i heq
      obtain ⟨hd, hx⟩ := List.cons.inj heq
      obtain ⟨rfl, rfl⟩ := List.cons.inj hx
      simp [he.2.2.1, he.2.2.2.1, hd]
    · rfl

theorem mem_hex {u : Uuid} {c : Char} (h : c ∈ u.hex) :
    ∃ d < 16, c = hexDigit d := by
  obtain ⟨d, hd, rfl⟩ := List.mem_map.mp h
  exact ⟨d, lastDigits_lt hd, rfl⟩

theorem mem_toText {u : Uuid} {c : Char} (h : c ∈ u.toText.toList) :
    c = '-' ∨ ∃ d < 16, c = hexDigit d := by
  simp only [toText, String.toList_ofList, List.mem_append, List.mem_cons] at h
  have hhex : ∀ {x : Char}, x ∈ u.hex → x = '-' ∨ ∃ d < 16, x = hexDigit d :=
    fun hx => Or.inr (mem_hex hx)
  rcases h with (((h | h | h) | h | h) | h | h) | h | h
  · exact hhex (List.mem_of_mem_take h)
  · exact Or.inl h
  · exact hhex (List.mem_of_mem_drop (List.mem_of_mem_take h))
  · exact Or.inl h
  · exact hhex (List.mem_of_mem_drop (List.mem_of_mem_take h))
  · exact Or.inl h
  · exact hhex (List.mem_of_mem_drop (List.mem_of_mem_take h))
  · exact Or.inl h
  · exact hhex (List.mem_of_mem_drop h)

theorem filter_toText (u : Uuid) :
    u.toText.toList.filter (· ≠ '-') = u.hex := by
  have hkeep : ∀ l : List Char, (∀ c ∈ l, c ∈ u.hex) → l.filter (· ≠ '-') = l := by
    intro l hl
    apply List.filter_eq_self.mpr
    intro c hc
    obtain ⟨d, hd, rfl⟩ := mem_hex (hl c hc)
    simp [(hexDigit_plain d hd).2.2.2.2.2.2.2.1]
  simp only [toText, String.toList_ofList, List.filter_append, List.filter_cons]
  rw [hkeep _ (fun c => List.mem_of_mem_take),
    hkeep _ (fun c hc => List.mem_of_mem_drop (List.mem_of_mem_take hc)),
    hkeep _ (fun c hc => List.mem_of_mem_drop (List.mem_of_mem_take hc)),
    hkeep _ (fun c hc => List.mem_of_mem_drop (List.mem_of_mem_take hc)),
    hkeep _ (fun c hc => List.mem_of_mem_drop hc)]
  simp only [ne_eq, not_true_eq_false, decide_false, Bool.false_eq_true, if_false]
  have h20 : u.hex.drop 20 = (u.hex.drop 16).drop 4 := by rw [List.drop_drop]
  have h16 : u.hex.drop 16 = (u.hex.drop 12).drop 4 := by rw [List.drop_drop]
  have h12 : u.hex.drop 12 = (u.hex.drop 8).drop 4 := by rw [List.drop_drop]
  simp only [List.append_assoc]
  rw [h20, List.take_append_drop, h16, List.take_append_drop, h12,
    List.take_append_drop, List.take_append_drop]

theorem replace_urn_toText (old : List Char) (u : Uuid) :
    replaceFrom ('u' :: old) [] 0 u.toText.toList = u.toText.toList := by
  apply replaceFrom_eq_self
  intro h
  rcases mem_toText h with h | ⟨d, hd, h⟩
  · cases h
  · exact (hexDigit_plain d hd).2.2.2.2.1 h.symm

theorem strip_toText (u : Uuid) :
    stripBy (fun c => c = '{' || c = '}') u.toText.toList = u.toText.toList := by
  apply stripBy_eq_self
  intro c hc
  rcases mem_toText hc with rfl | ⟨d, hd, rfl⟩
  · rfl
  · obtain ⟨-, -, -, -, -, hopen, hclose, -⟩ := hexDigit_plain d hd
    simp [hopen, hclose]

theorem replace_hyphen (cs : List Char) :
    replaceFrom ['-'] [] 0 cs = cs.filter (· ≠ '-') := by
  rw [replaceFrom_char]
  induction cs with
  | nil => rfl
  | cons c cs ih =>
    by_cases hc : c = '-'
    · simp [hc, ih]
    · simp [hc, ih]

section Parse

variable [UnicodeData]

/-- An ASCII text is read as it stands. -/
theorem mapM_asciiChar {cs : List Char} (h : ∀ c ∈ cs, isAscii c = true) :
    cs.mapM asciiChar = some cs := by
  induction cs with
  | nil => rfl
  | cons c cs ih =>
    have hc : asciiChar c = some c := if_pos (h c List.mem_cons_self)
    simp [List.mapM_cons, hc, ih fun x hx => h x (List.mem_cons_of_mem _ hx)]

theorem int16_map {ds : List ℕ} (hne : ds ≠ []) (h : ∀ d ∈ ds, d < 16) :
    int16 (ds.map hexDigit) = some (ofDigits ds) := by
  have hascii : (ds.map hexDigit).mapM asciiChar = some (ds.map hexDigit) := by
    apply mapM_asciiChar
    intro c hc
    obtain ⟨d, hd, rfl⟩ := List.mem_map.mp hc
    exact hexDigit_ascii d (h d hd)
  have hstrip : stripBy isAsciiSpace (ds.map hexDigit) = ds.map hexDigit := by
    apply stripBy_eq_self
    intro c hc
    obtain ⟨d, hd, rfl⟩ := List.mem_map.mp hc
    exact (hexDigit_plain d (h d hd)).1
  have hsign : dropSign (ds.map hexDigit) = ds.map hexDigit := by
    cases ds with
    | nil => rfl
    | cons d ds =>
      simp [dropSign, (hexDigit_plain d (h d List.mem_cons_self)).2.1]
  rw [int16, hascii, Option.bind_some, hstrip, hsign, dropPrefix_map h,
    hexDigits_map hne h, Option.map_some]

/-- `uuid.UUID(str(u)) == u`. -/
theorem parse_toText (u : Uuid) : parse u.toText = some u := by
  have hint : int16 u.hex = some u.int := by
    have hne : lastDigits 32 u.int ≠ [] := by
      intro h
      have := congrArg List.length h
      simp [length_lastDigits] at this
    rw [hex, int16_map hne (fun d => lastDigits_lt), ofDigits_lastDigits]
    exact congrArg some (Nat.mod_eq_of_lt u.lt)
  have hurn := replace_urn_toText ['r', 'n', ':'] u
  have huuid := replace_urn_toText ['u', 'i', 'd', ':'] u
  have hhex : replace "-" "" (stripBy (fun c => c = '{' || c = '}')
      (replace "uuid:" "" (replace "urn:" "" u.toText.toList))) = u.hex := by
    have h1 : "urn:".toList = ['u', 'r', 'n', ':'] := by decide
    have h2 : "uuid:".toList = ['u', 'u', 'i', 'd', ':'] := by decide
    have h3 : "-".toList = ['-'] := by decide
    have h4 : "".toList = [] := by decide
    simp only [replace, h1, h2, h3, h4]
    rw [hurn, huuid, strip_toText, replace_hyphen, filter_toText]
  have hlen : u.hex.length = 32 := by simp [hex, length_lastDigits]
  simp only [parse, hhex, hlen, ne_eq, not_true_eq_false, if_false, hint, Option.bind_some]
  exact dif_pos u.lt

end Parse

end Uuid

end EmployeePortal.Python
