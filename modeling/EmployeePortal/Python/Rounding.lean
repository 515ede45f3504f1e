import Mathlib.Algebra.Order.Field.Rat
import Mathlib.Algebra.Order.Field.Power
import Mathlib.Data.Rat.Floor
import Mathlib.Tactic.FieldSimp
import Mathlib.Tactic.Linarith
import Mathlib.Tactic.Ring

/-!
# Rounding to 53 binary digits

The rationals with 53 binary digits down to `2^-1074`, and the nearest one to a
rational, an even one halfway between two. The exponents have no upper end here: what
rounds to `2^1024` or more overflows. All that is used of the rounding is that it is to
the nearest, and so monotone, and how far it goes.
-/

namespace EmployeePortal.Python

def powerOfTwo : ℤ → ℚ
  | .ofNat n => ((2 ^ n : ℕ) : ℚ)
  | .negSucc n => 1 / ((2 ^ (n + 1) : ℕ) : ℚ)

/-- The exponent of the greatest power of two up to a positive `q`. -/
def binaryLog (q : ℚ) : ℤ :=
  let k := (Nat.log2 q.num.natAbs : ℤ) - Nat.log2 q.den
  if powerOfTwo k ≤ q then k else k - 1

/-- The nearest integer, an even one halfway between two. -/
def roundEven (q : ℚ) : ℤ :=
  let n := q.floor
  if q - n < 1 / 2 ∨ q - n = 1 / 2 ∧ n % 2 = 0 then n else n + 1

/-- The exponent of the last of the 53 digits. -/
def lastPlace (q : ℚ) : ℤ := max (binaryLog |q| - 52) (-1074)

/-- The nearest rational with 53 binary digits. -/
def rounded (q : ℚ) : ℚ :=
  let unit := powerOfTwo (lastPlace q)
  roundEven (q / unit) * unit

/-- With 53 binary digits, `2^53` itself being `2^52 * 2`. -/
def IsBinary (q : ℚ) : Prop := ∃ m e : ℤ, |m| ≤ 2 ^ 53 ∧ -1074 ≤ e ∧ q = m * powerOfTwo e

/-! ## Powers of two -/

theorem powerOfTwo_eq (k : ℤ) : powerOfTwo k = 2 ^ k := by
  cases k with
  | ofNat n => simp [powerOfTwo]
  | negSucc n => simp [powerOfTwo, zpow_negSucc]

theorem powerOfTwo_pos (k : ℤ) : 0 < powerOfTwo k := by
  rw [powerOfTwo_eq]
  exact zpow_pos two_pos k

theorem powerOfTwo_add (j k : ℤ) : powerOfTwo (j + k) = powerOfTwo j * powerOfTwo k := by
  simp only [powerOfTwo_eq]
  exact zpow_add₀ two_ne_zero j k

theorem two_mul_powerOfTwo (k : ℤ) : 2 * powerOfTwo k = powerOfTwo (k + 1) := by
  rw [powerOfTwo_add, mul_comm, powerOfTwo_eq 1, zpow_one]

theorem powerOfTwo_le {j k : ℤ} (h : j ≤ k) : powerOfTwo j ≤ powerOfTwo k := by
  simp only [powerOfTwo_eq]
  exact zpow_le_zpow_right₀ one_le_two h

/-- A coarser grid is part of a finer one. -/
theorem exists_mul_powerOfTwo (m : ℤ) {e k : ℤ} (h : k ≤ e) :
    ∃ n : ℤ, (m : ℚ) * powerOfTwo e = n * powerOfTwo k := by
  obtain ⟨d, rfl⟩ := Int.le.dest h
  refine ⟨m * 2 ^ d, ?_⟩
  rw [add_comm, powerOfTwo_add, powerOfTwo_eq d]
  push_cast
  rw [zpow_natCast]
  ring

/-- The digits of numerator and denominator give the logarithm up to one. -/
theorem log2_bounds {q : ℚ} (h : 0 < q) :
    powerOfTwo (Nat.log2 q.num.natAbs - Nat.log2 q.den - 1) ≤ q ∧
      q < powerOfTwo (Nat.log2 q.num.natAbs - Nat.log2 q.den + 1) := by
  set n := q.num.natAbs with hn
  have hnum : 0 < q.num := Rat.num_pos.mpr h
  have hn₀ : n ≠ 0 := by omega
  have hd₀ : q.den ≠ 0 := q.den_nz
  have hq : q = n / q.den := by
    have hcast : (n : ℚ) = q.num := by
      rw [hn, Nat.cast_natAbs, abs_of_pos hnum]
    rw [hcast, Rat.num_div_den]
  have hd : (0 : ℚ) < q.den := by exact_mod_cast q.den_pos
  have hnlow : (2 : ℚ) ^ Nat.log2 n ≤ n := by exact_mod_cast Nat.log2_self_le hn₀
  have hnhigh : (n : ℚ) < 2 ^ (Nat.log2 n + 1) := by exact_mod_cast Nat.lt_log2_self
  have hdlow : (2 : ℚ) ^ Nat.log2 q.den ≤ q.den := by exact_mod_cast Nat.log2_self_le hd₀
  have hdhigh : (q.den : ℚ) < 2 ^ (Nat.log2 q.den + 1) := by exact_mod_cast Nat.lt_log2_self
  have hpow : ∀ a b : ℕ, powerOfTwo ((a : ℤ) - b) = 2 ^ a / 2 ^ b := by
    intro a b
    rw [powerOfTwo_eq, zpow_sub₀ two_ne_zero, zpow_natCast, zpow_natCast]
  constructor
  · have hexp : (Nat.log2 n : ℤ) - Nat.log2 q.den - 1 = Nat.log2 n - (Nat.log2 q.den + 1 : ℕ) := by
      push_cast
      ring
    rw [hexp, hpow]
    calc (2 : ℚ) ^ Nat.log2 n / 2 ^ (Nat.log2 q.den + 1) ≤ n / q.den := by gcongr
      _ = q := hq.symm
  · have hexp : (Nat.log2 n : ℤ) - Nat.log2 q.den + 1 = (Nat.log2 n + 1 : ℕ) - Nat.log2 q.den := by
      push_cast
      ring
    rw [hexp, hpow]
    calc q = n / q.den := hq
      _ < 2 ^ (Nat.log2 n + 1) / 2 ^ Nat.log2 q.den := by gcongr

theorem binaryLog_le {q : ℚ} (h : 0 < q) : powerOfTwo (binaryLog q) ≤ q := by
  unfold binaryLog
  dsimp only
  split
  · assumption
  · exact (log2_bounds h).1

theorem lt_binaryLog {q : ℚ} (h : 0 < q) : q < powerOfTwo (binaryLog q + 1) := by
  unfold binaryLog
  dsimp only
  split
  · exact (log2_bounds h).2
  · rename_i hnot
    rw [sub_add_cancel]
    exact not_le.mp hnot

/-! ## To the nearest -/

theorem roundEven_error (q : ℚ) : |(roundEven q : ℚ) - q| ≤ 1 / 2 := by
  have hlow : (q.floor : ℚ) ≤ q := Rat.floor_le q
  have hhigh : q < q.floor + 1 := by exact_mod_cast Rat.lt_floor_add_one q
  unfold roundEven
  dsimp only
  split
  · rename_i hdown
    have hhalf : q - q.floor ≤ 1 / 2 := by
      rcases hdown with h | ⟨h, -⟩
      · exact h.le
      · exact h.le
    rw [abs_le]
    constructor <;> linarith
  · rename_i hup
    have hhalf : 1 / 2 ≤ q - q.floor := not_lt.mp fun h => hup (Or.inl h)
    push_cast
    rw [abs_le]
    constructor <;> linarith

theorem roundEven_nearest (q : ℚ) (n : ℤ) : |(roundEven q : ℚ) - q| ≤ |(n : ℚ) - q| := by
  by_cases hsame : roundEven q = n
  · rw [hsame]
  -- two different integers are at least one apart
  have hapart : (1 : ℚ) ≤ |(roundEven q : ℚ) - n| := by
    have hne : 0 < |roundEven q - n| := abs_pos.mpr (sub_ne_zero.mpr hsame)
    exact_mod_cast hne
  have htriangle := abs_sub_le (roundEven q : ℚ) q n
  have herror := roundEven_error q
  rw [abs_sub_comm q] at htriangle
  linarith

theorem rounded_sub (q : ℚ) : rounded q - q =
    ((roundEven (q / powerOfTwo (lastPlace q)) : ℚ) - q / powerOfTwo (lastPlace q)) *
      powerOfTwo (lastPlace q) := by
  have hunit := (powerOfTwo_pos (lastPlace q)).ne'
  unfold rounded
  field_simp

/-- No other point of the same grid is nearer. -/
theorem rounded_nearest_grid (q : ℚ) (n : ℤ) :
    |rounded q - q| ≤ |n * powerOfTwo (lastPlace q) - q| := by
  have hunit := powerOfTwo_pos (lastPlace q)
  have hn : n * powerOfTwo (lastPlace q) - q =
      ((n : ℚ) - q / powerOfTwo (lastPlace q)) * powerOfTwo (lastPlace q) := by
    field_simp
  rw [rounded_sub, hn, abs_mul, abs_mul]
  exact mul_le_mul_of_nonneg_right (roundEven_nearest _ n) (abs_nonneg _)

theorem rounded_zero : rounded 0 = 0 := by
  have hgrid := rounded_nearest_grid 0 0
  simp only [Int.cast_zero, zero_mul, sub_zero, abs_zero] at hgrid
  exact abs_nonpos_iff.mp hgrid

/-- The first of the 53 digits. -/
theorem leading_le {q : ℚ} (hq : q ≠ 0) (hplace : -1074 < lastPlace q) :
    2 ^ 52 * powerOfTwo (lastPlace q) ≤ |q| := by
  have hexp : 52 + lastPlace q = binaryLog |q| := by
    unfold lastPlace at hplace ⊢
    omega
  calc 2 ^ 52 * powerOfTwo (lastPlace q) = powerOfTwo (binaryLog |q|) := by
        rw [← hexp, powerOfTwo_add]
        norm_num [powerOfTwo]
    _ ≤ |q| := binaryLog_le (abs_pos.mpr hq)

/-- Nothing with 53 binary digits is nearer. -/
theorem rounded_nearest {z : ℚ} (hz : IsBinary z) (q : ℚ) : |rounded q - q| ≤ |z - q| := by
  by_cases hq : q = 0
  · rw [hq, rounded_zero, sub_zero, abs_zero]
    exact abs_nonneg _
  obtain ⟨m, e, hm, he, rfl⟩ := hz
  rcases le_or_gt (lastPlace q) e with hcoarse | hfine
  · obtain ⟨n, hn⟩ := exists_mul_powerOfTwo m hcoarse
    rw [hn]
    exact rounded_nearest_grid q n
  -- a finer number is no greater than the power of two below `q`, which is on the grid
  · set leading := 2 ^ 52 * powerOfTwo (lastPlace q) with hleading
    have hsmall : |m * powerOfTwo e| ≤ leading := by
      have hm' : |(m : ℚ)| ≤ 2 ^ 53 := by exact_mod_cast hm
      have hhalf : 2 * powerOfTwo e ≤ powerOfTwo (lastPlace q) := by
        rw [two_mul_powerOfTwo]
        exact powerOfTwo_le hfine
      rw [abs_mul, abs_of_pos (powerOfTwo_pos e)]
      calc |(m : ℚ)| * powerOfTwo e ≤ 2 ^ 53 * powerOfTwo e :=
            mul_le_mul_of_nonneg_right hm' (powerOfTwo_pos e).le
        _ ≤ leading := by linarith
    have hq' : leading ≤ |q| := leading_le hq (by omega)
    have hnear : |rounded q - q| ≤ |q| - leading := by
      have hcast : ((2 ^ 52 : ℤ) : ℚ) = 2 ^ 52 := by norm_num
      rcases lt_or_gt_of_ne hq with hneg | hpos
      · have hgrid := rounded_nearest_grid q (-2 ^ 52)
        rw [Int.cast_neg, hcast, neg_mul, ← hleading] at hgrid
        refine hgrid.trans_eq ?_
        rw [abs_of_neg hneg] at hq' ⊢
        rw [abs_of_nonneg (by linarith)]
        ring
      · have hgrid := rounded_nearest_grid q (2 ^ 52)
        rw [hcast, ← hleading] at hgrid
        refine hgrid.trans_eq ?_
        rw [abs_of_pos hpos] at hq' ⊢
        rw [abs_of_nonpos (by linarith)]
        ring
    have hfar := abs_sub_abs_le_abs_sub q (m * powerOfTwo e)
    rw [abs_sub_comm q] at hfar
    linarith

/-- Rounding gives 53 digits. -/
theorem rounded_isBinary (q : ℚ) : IsBinary (rounded q) := by
  refine ⟨_, _, ?_, le_max_right _ _, rfl⟩
  set scaled := q / powerOfTwo (lastPlace q) with hscaled
  have hbound : |scaled| ≤ 2 ^ 53 := by
    by_cases hq : q = 0
    · rw [hscaled, hq, zero_div, abs_zero]
      norm_num
    have hunit := powerOfTwo_pos (lastPlace q)
    rw [hscaled, abs_div, abs_of_pos hunit, div_le_iff₀ hunit]
    calc |q| ≤ powerOfTwo (binaryLog |q| + 1) := (lt_binaryLog (abs_pos.mpr hq)).le
      _ ≤ powerOfTwo (53 + lastPlace q) := powerOfTwo_le (by unfold lastPlace; omega)
      _ = 2 ^ 53 * powerOfTwo (lastPlace q) := by
        rw [powerOfTwo_add]
        norm_num [powerOfTwo]
  -- the bound is an integer, so what is nearest to a number within it is within it
  have hround := roundEven_error scaled
  have hlt : |(roundEven scaled : ℚ)| < 2 ^ 53 + 1 := by
    have htriangle := abs_sub_abs_le_abs_sub (roundEven scaled : ℚ) scaled
    linarith
  have hint : |roundEven scaled| < 2 ^ 53 + 1 := by exact_mod_cast hlt
  omega

theorem rounded_of_isBinary {q : ℚ} (h : IsBinary q) : rounded q = q := by
  have hnone := rounded_nearest h q
  rw [sub_self, abs_zero] at hnone
  exact sub_eq_zero.mp (abs_nonpos_iff.mp hnone)

theorem middle_le {a b p : ℚ} (hab : a < b) (h : |b - p| ≤ |a - p|) : a + b ≤ 2 * p := by
  have hsq := sq_le_sq.mpr h
  have hprod : (b - a) * (a + b - 2 * p) ≤ 0 := by linarith
  by_contra hlt
  have hpos := mul_pos (sub_pos.mpr hab) (sub_pos.mpr (not_le.mp hlt))
  linarith

/-- What is nearest for each of two numbers is in their order: were it not, both would
be at the middle between the two. -/
theorem rounded_mono : Monotone rounded := by
  intro p q hpq
  rcases hpq.eq_or_lt with rfl | hlt
  · exact le_rfl
  by_contra hnot
  have hswap : rounded q < rounded p := not_le.mp hnot
  have hp := middle_le hswap (rounded_nearest (rounded_isBinary q) p)
  have hq := middle_le (p := -q) (neg_lt_neg hswap) (by
    rw [neg_sub_neg, neg_sub_neg, abs_sub_comm, abs_sub_comm q]
    exact rounded_nearest (rounded_isBinary p) q)
  linarith

/-- Rounding goes half a unit of the last place at most. -/
theorem rounded_error (q : ℚ) : |rounded q - q| ≤ |q| / 2 ^ 53 + powerOfTwo (-1075) := by
  by_cases hq : q = 0
  · rw [hq, rounded_zero, sub_zero, abs_zero, zero_div, zero_add]
    exact (powerOfTwo_pos _).le
  have hunit := powerOfTwo_pos (lastPlace q)
  have hhalf : |rounded q - q| ≤ powerOfTwo (lastPlace q) / 2 := by
    rw [rounded_sub, abs_mul, abs_of_pos hunit]
    have herror := mul_le_mul_of_nonneg_right (roundEven_error (q / powerOfTwo (lastPlace q)))
      hunit.le
    linarith
  rcases le_or_gt (lastPlace q) (-1074) with hlast | hnormal
  · have hsmallest : powerOfTwo (lastPlace q) ≤ 2 * powerOfTwo (-1075) := by
      rw [two_mul_powerOfTwo]
      exact powerOfTwo_le hlast
    have hq₀ : 0 ≤ |q| / 2 ^ 53 := by positivity
    linarith
  · have hleading := leading_le hq hnormal
    have hq₁ : powerOfTwo (lastPlace q) / 2 ≤ |q| / 2 ^ 53 := by
      rw [div_le_div_iff₀ (by norm_num) (by norm_num)]
      linarith
    have htiny := powerOfTwo_pos (-1075)
    linarith

end EmployeePortal.Python
