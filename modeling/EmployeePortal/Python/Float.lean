import EmployeePortal.Core.Exceptions
import EmployeePortal.Python.Decimal
import EmployeePortal.Python.Rounding
import Mathlib.Order.WithBot

/-!
# Floats

A float as an extended number, or NaN, which compares with nothing. `min` and `max` keep
their first argument unless the second one compares strictly smaller or greater, so the
order of the arguments matters. A sum is rounded to the nearest binary64, and so is the
numeral that `float(text)` reads.
-/

namespace EmployeePortal.Python

/-- A number or an infinity. -/
abbrev Extended : Type := WithBot (WithTop ℚ)

/-- `none` is NaN. -/
abbrev PyFloat : Type := Option Extended

/-- `q` is a finite binary64. -/
structure IsFloat (q : ℚ) : Prop where
  digits : IsBinary q
  finite : |q| < powerOfTwo 1024

theorem isFloat_of_digits {q : ℚ} (m e : ℤ) (hm : |m| ≤ 2 ^ 53) (he : -1074 ≤ e) (he₀ : e ≤ 0)
    (hq : q = m * powerOfTwo e) : IsFloat q where
  digits := ⟨m, e, hm, he, hq⟩
  finite := by
    have hm' : |(m : ℚ)| ≤ 2 ^ 53 := by exact_mod_cast hm
    have hunit : powerOfTwo e ≤ powerOfTwo 0 := powerOfTwo_le he₀
    have hone : powerOfTwo 0 = 1 := by rw [powerOfTwo_eq, zpow_zero]
    rw [hq, abs_mul, abs_of_pos (powerOfTwo_pos e)]
    calc |(m : ℚ)| * powerOfTwo e ≤ 2 ^ 53 * 1 :=
          mul_le_mul hm' (hunit.trans_eq hone) (powerOfTwo_pos e).le (by positivity)
      _ < powerOfTwo 64 := by
        rw [powerOfTwo_eq]
        norm_num
      _ ≤ powerOfTwo 1024 := powerOfTwo_le (by norm_num)

theorem isFloat_natCast {n : ℕ} (h : n ≤ 2 ^ 53) : IsFloat n :=
  isFloat_of_digits n 0 (by rw [Nat.abs_cast]; exact_mod_cast h) (by norm_num) le_rfl
    (by rw [powerOfTwo_eq, zpow_zero, mul_one, Int.cast_natCast])

theorem IsFloat.lt {q : ℚ} (h : IsFloat q) : q < powerOfTwo 1024 :=
  (le_abs_self q).trans_lt h.finite

/-- The greatest float has all its 53 digits set. -/
theorem IsFloat.le_greatest {q : ℚ} (h : IsFloat q) : q ≤ powerOfTwo 1024 - powerOfTwo 971 := by
  have hunit := powerOfTwo_pos 971
  have htop : powerOfTwo 1024 = 2 ^ 53 * powerOfTwo 971 := by
    rw [show (1024 : ℤ) = 53 + 971 by norm_num, powerOfTwo_add, powerOfTwo_eq 53]
    norm_num
  have hlt := h.lt
  obtain ⟨m, e, hm, -, rfl⟩ := h.digits
  rw [htop] at hlt ⊢
  rcases le_or_gt 971 e with hcoarse | hfine
  · obtain ⟨n, hn⟩ := exists_mul_powerOfTwo m hcoarse
    rw [hn] at hlt ⊢
    have hn' : n < 2 ^ 53 := by exact_mod_cast lt_of_mul_lt_mul_right hlt hunit.le
    have hn'' : (n : ℚ) ≤ 2 ^ 53 - 1 := by exact_mod_cast Int.le_sub_one_of_lt hn'
    linarith [mul_le_mul_of_nonneg_right hn'' hunit.le]
  · have hm' : (m : ℚ) ≤ 2 ^ 53 := by exact_mod_cast (abs_le.mp hm).2
    have hhalf : 2 * powerOfTwo e ≤ powerOfTwo 971 := by
      rw [two_mul_powerOfTwo]
      exact powerOfTwo_le hfine
    linarith [mul_le_mul_of_nonneg_right hm' (powerOfTwo_pos e).le]

namespace Extended

def ofRat (q : ℚ) : Extended := ((q : WithTop ℚ) : WithBot (WithTop ℚ))

/-- The nearest binary64, an infinity where that overflows. -/
def round (q : ℚ) : Extended :=
  if rounded q ≤ -powerOfTwo 1024 then ⊥
  else if powerOfTwo 1024 ≤ rounded q then ((⊤ : WithTop ℚ) : WithBot (WithTop ℚ))
  else ofRat (rounded q)

/-- `x + q` for a finite `q`. -/
def plus : Extended → ℚ → Extended
  | none, _ => ⊥
  | some none, _ => ((⊤ : WithTop ℚ) : WithBot (WithTop ℚ))
  | some (some x), q => round (x + q)

theorem ofRat_le {p q : ℚ} : ofRat p ≤ ofRat q ↔ p ≤ q := by
  rw [ofRat, ofRat, WithBot.coe_le_coe, WithTop.coe_le_coe]

theorem ofRat_lt {p q : ℚ} : ofRat p < ofRat q ↔ p < q := by
  rw [ofRat, ofRat, WithBot.coe_lt_coe, WithTop.coe_lt_coe]

theorem round_mono : Monotone round := by
  intro p q hpq
  have hrounded := rounded_mono hpq
  have hle : (⊤ : WithTop ℚ) ≤ ⊤ := le_rfl
  unfold round
  split
  · exact bot_le
  · rename_i hp
    rw [if_neg fun hq => hp (hrounded.trans hq)]
    split
    · rename_i hp'
      rw [if_pos (hp'.trans hrounded)]
    · split
      · exact WithBot.coe_le_coe.mpr le_top
      · exact ofRat_le.mpr hrounded

theorem round_of_isFloat {q : ℚ} (h : IsFloat q) : round q = ofRat q := by
  obtain ⟨hlow, hhigh⟩ := abs_lt.mp h.finite
  rw [round, rounded_of_isBinary h.digits, if_neg (not_le.mpr hlow), if_neg (not_le.mpr hhigh)]

@[simp] theorem plus_ofRat (p q : ℚ) : plus (ofRat p) q = round (p + q) := rfl

theorem plus_mono {x y : Extended} (hxy : x ≤ y) {p q : ℚ} (hpq : p ≤ q) :
    plus x p ≤ plus y q := by
  match x, y, hxy with
  | none, _, _ => exact bot_le
  | some none, none, hxy => exact absurd hxy (WithBot.not_coe_le_bot _)
  | some none, some none, _ => exact le_rfl
  | some none, some (some y), hxy =>
    exact absurd (WithBot.coe_le_coe.mp hxy) (WithTop.not_top_le_coe _)
  | some (some x), none, hxy => exact absurd hxy (WithBot.not_coe_le_bot _)
  | some (some x), some none, _ =>
    -- whatever the sum is, nothing is greater than infinity
    have htop : ∀ z : Extended, z ≤ ((⊤ : WithTop ℚ) : WithBot (WithTop ℚ)) := fun z => le_top
    exact htop _
  | some (some x), some (some y), hxy => exact round_mono (add_le_add (ofRat_le.mp hxy) hpq)

/-- What a finite number is below. -/
theorem lt_rounded {c q : ℚ} (hc : c < powerOfTwo 1024) (h : ofRat c < round q) :
    c < rounded q := by
  unfold round at h
  split at h
  · exact absurd h not_lt_bot
  · split at h
    · rename_i hover
      exact hc.trans_le hover
    · exact ofRat_lt.mp h

/-- The first of two sums overflows, or both are made. -/
theorem lt_rounded_plus {c q d : ℚ} (hc : c < powerOfTwo 1024)
    (h : ofRat c < (round q).plus d) :
    powerOfTwo 1024 ≤ rounded q ∨ c < rounded (rounded q + d) := by
  unfold round at h
  split at h
  · exact absurd h not_lt_bot
  · split at h
    · rename_i hover
      exact Or.inl hover
    · exact Or.inr (lt_rounded hc h)

-- what a sum rounds to is read off the lemmas, not computed
attribute [irreducible] round

end Extended

namespace PyFloat

def ofRat (q : ℚ) : PyFloat := some (Extended.ofRat q)

/-- `x < y`. -/
def lt : PyFloat → PyFloat → Bool
  | some x, some y => x < y
  | _, _ => false

/-- `x <= y`. -/
def le : PyFloat → PyFloat → Bool
  | some x, some y => x ≤ y
  | _, _ => false

/-- `min(x, y)`. -/
def min (x y : PyFloat) : PyFloat := if lt y x then y else x

/-- `max(x, y)`. -/
def max (x y : PyFloat) : PyFloat := if lt x y then y else x

/-- `x + q` for a finite `q`. -/
def plus (x : PyFloat) (q : ℚ) : PyFloat := x.map (Extended.plus · q)

/-- The float of an integer, where there is one. -/
def ofInt (n : ℤ) : Except Exc ℚ :=
  if powerOfTwo 1024 ≤ |rounded n| then .error (.other "OverflowError") else .ok (rounded n)

/-- `factor * (2**exponent)`: an integer from 2^1024 on has no float. -/
def scaled (factor : ℚ) (exponent : ℕ) : Except Exc PyFloat :=
  if exponent < 1024 then .ok (ofRat (factor * 2 ^ exponent)) else .error (.other "OverflowError")

section Compare

variable {p q : ℚ} {x y z : PyFloat}

@[simp] theorem lt_ofRat : lt (ofRat p) (ofRat q) = decide (p < q) :=
  decide_eq_decide.mpr Extended.ofRat_lt

@[simp] theorem le_ofRat : le (ofRat p) (ofRat q) = decide (p ≤ q) :=
  decide_eq_decide.mpr Extended.ofRat_le

/-- NaN compares with nothing. -/
@[simp] theorem lt_nan_left : lt none y = false := rfl

@[simp] theorem lt_nan_right : lt x none = false := by
  cases x <;> rfl

theorem min_ofRat : (ofRat p).min (ofRat q) = ofRat (Min.min p q) := by
  rw [PyFloat.min, lt_ofRat]
  by_cases h : q < p
  · rw [decide_eq_true h, if_pos rfl, min_eq_right h.le]
  · rw [decide_eq_false h, if_neg Bool.false_ne_true, min_eq_left (not_lt.mp h)]

theorem max_ofRat : (ofRat p).max (ofRat q) = ofRat (Max.max p q) := by
  rw [PyFloat.max, lt_ofRat]
  by_cases h : p < q
  · rw [decide_eq_true h, if_pos rfl, max_eq_right h.le]
  · rw [decide_eq_false h, if_neg Bool.false_ne_true, max_eq_left (not_lt.mp h)]

theorem lt_some {a b : Extended} : lt (some a) (some b) = true ↔ a < b :=
  decide_eq_true_iff

theorem plus_some {a : Extended} : plus (some a) q = some (a.plus q) := rfl

theorem lt_of_lt_of_le (hxy : lt x y = true) (hyz : le y z = true) : lt x z = true := by
  match x, y, z, hxy, hyz with
  | some x, some y, some z, hxy, hyz =>
    exact decide_eq_true ((of_decide_eq_true hxy).trans_le (of_decide_eq_true hyz))

theorem lt_of_le_of_lt (hxy : le x y = true) (hyz : lt y z = true) : lt x z = true := by
  match x, y, z, hxy, hyz with
  | some x, some y, some z, hxy, hyz =>
    exact decide_eq_true ((of_decide_eq_true hxy).trans_lt (of_decide_eq_true hyz))

theorem plus_le_plus (hxy : le x y = true) (hpq : p ≤ q) : le (x.plus p) (y.plus q) = true := by
  match x, y, hxy with
  | some x, some y, hxy =>
    exact decide_eq_true (Extended.plus_mono (of_decide_eq_true hxy) hpq)

theorem ofRat_injective (h : ofRat p = ofRat q) : p = q :=
  WithTop.coe_injective (WithBot.coe_injective (Option.some.inj h))

theorem ofInt_ok {n : ℤ} {q : ℚ} (h : ofInt n = .ok q) : q = rounded n := by
  unfold ofInt at h
  split at h
  · cases h
  · exact (Except.ok.inj h).symm

theorem ofInt_of_isFloat {n : ℤ} (h : IsFloat n) : ofInt n = .ok (n : ℚ) := by
  rw [ofInt, rounded_of_isBinary h.digits, if_neg (not_le.mpr h.finite)]

end Compare

/-! ## `float(text)` -/

open Decimal (isDigit digitsValue splitSign readExponent)

/-- An underscore stands between two digits, and counts for nothing. -/
def dropUnderscores : (afterDigit : Bool) → List Char → Option (List Char)
  | _, [] => some []
  | afterDigit, c :: cs =>
      if c = '_' then
        if afterDigit ∧ cs.head?.any isDigit then dropUnderscores false cs else none
      else (dropUnderscores (isDigit c) cs).map (c :: ·)

/-- The nearest binary64 of a `q` that is not negative; `none` where it overflows. -/
def nearest (q : ℚ) : Option ℚ :=
  if powerOfTwo 1024 ≤ rounded q then none else some (rounded q)

/-- `coefficient * 10**exponent`, without the power where it is out of all range. -/
def ofDecimal (coefficient : ℕ) (exponent : ℤ) : Option ℚ :=
  let magnitude := (Nat.toDigits 10 coefficient).length + exponent
  if coefficient = 0 ∨ magnitude < -330 then some 0
  else if 310 < magnitude then none
  else match exponent with
    | .ofNat n => nearest (coefficient * ((10 ^ n : ℕ) : ℚ))
    | .negSucc n => nearest (coefficient / ((10 ^ (n + 1) : ℕ) : ℚ))

def infinity (negative : Bool) : PyFloat :=
  if negative then some ⊥ else some ((⊤ : WithTop ℚ) : WithBot (WithTop ℚ))

def readNumeral (negative : Bool) (cs : List Char) : Option PyFloat :=
  let whole := cs.takeWhile isDigit
  let rest := cs.dropWhile isDigit
  let (frac, rest) := match rest with
    | '.' :: cs => (cs.takeWhile isDigit, cs.dropWhile isDigit)
    | cs => ([], cs)
  if whole = [] ∧ frac = [] then none
  else (readExponent rest).map fun e =>
    match ofDecimal (digitsValue (whole ++ frac)) (e - frac.length) with
    | some q => ofRat (if negative then -q else q)
    | none => infinity negative

/-- An infinity or NaN, and otherwise a numeral. -/
def readFloat (negative : Bool) (cs : List Char) : Option PyFloat :=
  let name := cs.map Char.toLower
  if name = "nan".toList then some none
  else if name = "inf".toList ∨ name = "infinity".toList then some (infinity negative)
  else readNumeral negative cs

/-- The text in ASCII, without blanks at its ends and underscores. -/
def plainText [UnicodeData] (text : String) : Option (List Char) :=
  (text.toList.mapM Uuid.asciiChar).bind fun cs =>
    dropUnderscores false (stripBy Uuid.isAsciiSpace cs)

/-- `float(text)`; `none` is its `ValueError`. -/
def parse [UnicodeData] (text : String) : Option PyFloat :=
  (plainText text).bind fun cs => readFloat (splitSign cs).1 (splitSign cs).2

end PyFloat

/-! ## Clocks -/

/-- The readings of `time.time()` or `time.monotonic()` to come, which are floats. -/
structure Clock where
  read : ℕ → ℚ
  isFloat : ∀ n, IsFloat (read n)

instance : CoeFun Clock fun _ => ℕ → ℚ := ⟨Clock.read⟩

/-- A second passes from one reading to the next. -/
def Clock.ticking : Clock where
  read := fun n => (Min.min n (2 ^ 53) : ℕ)
  isFloat := fun n => isFloat_natCast (min_le_right n _)

/-- It reads `p` before reading `n`, and `q` from then on. -/
def Clock.leap {p q : ℚ} (n : ℕ) (hp : IsFloat p) (hq : IsFloat q) : Clock where
  read := fun k => if k < n then p else q
  isFloat := fun k => by
    split
    · exact hp
    · exact hq

theorem Clock.leap_monotone {p q : ℚ} (n : ℕ) (hp : IsFloat p) (hq : IsFloat q) (h : p ≤ q) :
    Monotone (Clock.leap n hp hq) := by
  intro j k hjk
  simp only [Clock.leap]
  split
  · split
    · exact le_rfl
    · exact h
  · rename_i hj
    rw [if_neg fun hk => hj (hjk.trans_lt hk)]

theorem Clock.ticking_monotone : Monotone Clock.ticking :=
  fun _ _ h => Nat.cast_le.mpr (min_le_min_right _ h)

end EmployeePortal.Python
