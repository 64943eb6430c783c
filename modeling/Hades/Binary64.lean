import Hades.DecimalText
import Mathlib.Algebra.Order.Field.Power
import Mathlib.Data.Int.Log
import Mathlib.Tactic.FieldSimp
import Mathlib.Tactic.Linarith
import Mathlib.Tactic.Positivity
import Mathlib.Tactic.Ring

/-!
# Doubles

Rational numbers rounded to 53 binary digits, ties to even, none of them below `2 ^ (-1074)`; a
number that rounds to `2 ^ 1024` or more overflows. The doubles are the numbers that this
keeps, two infinities and a value that is not a number; the two zeros are one here.

## Main results

* `round_of_multiple`: what rounding keeps, and `round_round`.
* `round_half_round`: half of a rounded number is **rounded only once**.
* `Double.halfSum_finite`: `(a + b) * 0.5` is the rounded mean, unless the sum overflows.
* `Double.lt_total`, `Double.not_lt_trans`: away from NaN, the comparison is that of a total
  preorder.
-/

namespace Binary64

open DecimalText (roundEven roundEven_intCast)

/-! ### Rounding -/

/-- The exponent of the last digit that is kept. -/
def lastExponent (q : ℚ) : ℤ :=
  max (Int.log 2 |q| - 52) (-1074)

/-- The nearest number with that last digit; of two the one whose last digit is even. -/
def round (q : ℚ) : ℚ :=
  roundEven (q / 2 ^ lastExponent q) * 2 ^ lastExponent q

theorem le_roundEven {q : ℚ} {n : ℤ} (h : (n : ℚ) ≤ q) : n ≤ roundEven q := by
  have hfloor : n ≤ ⌊q⌋ := Int.le_floor.mpr h
  rw [roundEven]
  split_ifs <;> omega

theorem roundEven_le {q : ℚ} {n : ℤ} (h : q ≤ n) : roundEven q ≤ n := by
  have hfloor : ⌊q⌋ ≤ n := by exact_mod_cast (Int.floor_le q).trans h
  have hup : 1 / 2 ≤ q - ⌊q⌋ → ⌊q⌋ + 1 ≤ n := by
    intro hhalf
    have hlt : (⌊q⌋ : ℚ) < n := by linarith
    exact_mod_cast hlt
  rw [roundEven]
  split_ifs with hlow hhigh heven
  · exact hfloor
  · exact hup hhigh.le
  · exact hfloor
  · exact hup (not_lt.mp hlow)

theorem two_zpow_pos (k : ℤ) : (0 : ℚ) < 2 ^ k :=
  zpow_pos two_pos k

/-- A number is less than two of its first digits. -/
theorem abs_lt_lastExponent (q : ℚ) : |q| < 2 ^ (53 + lastExponent q) := by
  have hlog : |q| < ((2 : ℕ) : ℚ) ^ (Int.log 2 |q| + 1) :=
    Int.lt_zpow_succ_log_self Nat.one_lt_two |q|
  have hexponent : Int.log 2 |q| + 1 ≤ 53 + lastExponent q := by
    rw [lastExponent]
    omega
  exact hlog.trans_le (zpow_le_zpow_right₀ one_le_two hexponent)

/-- The exponent of a number that is less than a power of two. -/
theorem lastExponent_le {q : ℚ} (hq : q ≠ 0) {k : ℤ} (hk : -1074 ≤ k)
    (h : |q| < 2 ^ (53 + k)) : lastExponent q ≤ k := by
  have hlog : Int.log 2 |q| < 53 + k :=
    (Int.lt_zpow_iff_log_lt Nat.one_lt_two (abs_pos.mpr hq)).mp h
  rw [lastExponent]
  omega

theorem round_zero : round 0 = 0 := by
  rw [round, zero_div]
  exact mul_eq_zero_of_left (congrArg Int.cast (roundEven_intCast 0)) _

/-- A number whose last digit is not below the one that is kept. -/
theorem round_of_lastExponent_le {z k : ℤ} {q : ℚ} (hq : q = z * 2 ^ k)
    (hk : lastExponent q ≤ k) : round q = q := by
  obtain ⟨n, hn⟩ : ∃ n : ℕ, k = lastExponent q + n := ⟨(k - lastExponent q).toNat, by omega⟩
  have hquotient : q / 2 ^ lastExponent q = ((z * 2 ^ n : ℤ) : ℚ) := by
    have hne := (two_zpow_pos (lastExponent q)).ne'
    rw [div_eq_iff hne]
    nth_rewrite 1 [hq]
    rw [hn, zpow_add₀ two_ne_zero, zpow_natCast]
    push_cast
    ring
  rw [round, hquotient, roundEven_intCast, ← hquotient,
    div_mul_cancel₀ _ (two_zpow_pos _).ne']

/-- **What rounding keeps**: numbers with 53 digits, none of them too small. -/
theorem round_of_multiple {z k : ℤ} {q : ℚ} (hq : q = z * 2 ^ k) (hk : -1074 ≤ k)
    (hz : |z| ≤ 2 ^ 53) : round q = q := by
  rcases eq_or_ne q 0 with rfl | hne
  · exact round_zero
  have habs : |q| = |(z : ℚ)| * 2 ^ k := by
    rw [hq, abs_mul, abs_of_pos (two_zpow_pos k)]
  rcases Int.lt_or_eq_of_le hz with hlt | heq
  · refine round_of_lastExponent_le hq (lastExponent_le hne hk ?_)
    have hcast : |(z : ℚ)| < 2 ^ (53 : ℤ) := by exact_mod_cast hlt
    rw [habs, zpow_add₀ two_ne_zero]
    exact mul_lt_mul_of_pos_right hcast (two_zpow_pos k)
  · -- one digit more, of which the last one is zero
    obtain ⟨w, rfl⟩ : ∃ w, z = 2 * w := by
      rcases abs_choice z with h | h
      · exact ⟨2 ^ 52, by omega⟩
      · exact ⟨-2 ^ 52, by omega⟩
    have hw : |(w : ℚ)| < 2 ^ (53 : ℤ) := by
      have hdouble : 2 * |w| = 2 ^ 53 := by rw [← heq, abs_mul, abs_two]
      have hint : |w| < 2 ^ 53 := by omega
      exact_mod_cast hint
    refine round_of_lastExponent_le (z := w) (k := k + 1) ?_ (lastExponent_le hne (by omega) ?_)
    · rw [hq, zpow_add_one₀ two_ne_zero]
      push_cast
      ring
    · rw [hq, abs_mul, abs_of_pos (two_zpow_pos k)]
      push_cast
      rw [abs_mul, abs_of_pos (two_pos : (0 : ℚ) < 2)]
      have hpow : (2 : ℚ) ^ (53 + (k + 1)) = 2 * 2 ^ (53 : ℤ) * 2 ^ k := by
        rw [zpow_add₀ two_ne_zero, zpow_add_one₀ two_ne_zero]
        ring
      rw [hpow]
      have htwo : 2 * |(w : ℚ)| < 2 * 2 ^ (53 : ℤ) := by linarith
      exact mul_lt_mul_of_pos_right htwo (two_zpow_pos k)

theorem round_two_pow (k : ℕ) : round (2 ^ k) = 2 ^ k := by
  refine round_of_multiple (z := 1) (k := k) ?_ (by omega) (by decide)
  rw [Int.cast_one, one_mul, zpow_natCast]

/-- A rounded number: its digits and its last exponent. -/
theorem exists_round (q : ℚ) :
    ∃ z : ℤ, round q = z * 2 ^ lastExponent q ∧ |z| ≤ 2 ^ 53 := by
  refine ⟨roundEven (q / 2 ^ lastExponent q), rfl, ?_⟩
  have hpos := two_zpow_pos (lastExponent q)
  have habs : |q / 2 ^ lastExponent q| < 2 ^ (53 : ℤ) := by
    rw [abs_div, abs_of_pos hpos, div_lt_iff₀ hpos, ← zpow_add₀ two_ne_zero]
    exact abs_lt_lastExponent q
  obtain ⟨hlow, hhigh⟩ := abs_lt.mp habs
  refine abs_le.mpr ⟨le_roundEven ?_, roundEven_le ?_⟩
  · push_cast
    exact_mod_cast hlow.le
  · push_cast
    exact_mod_cast hhigh.le

/-- Rounding a rounded number. -/
theorem round_round (q : ℚ) : round (round q) = round q := by
  obtain ⟨z, hz, hle⟩ := exists_round q
  exact round_of_multiple hz (le_max_right _ _) hle

/-- Half of a number begins one digit later. -/
theorem log_half {q : ℚ} (hq : q ≠ 0) : Int.log 2 |q / 2| = Int.log 2 |q| - 1 := by
  have hpos : 0 < |q| := abs_pos.mpr hq
  have habs : |q / 2| = |q| / 2 := by rw [abs_div, abs_two]
  have hhalf : 0 < |q / 2| := by rw [habs]; linarith
  refine le_antisymm ?_ ?_
  · refine Int.le_sub_one_of_lt ((Int.lt_zpow_iff_log_lt Nat.one_lt_two hhalf).mp ?_)
    have hlt : |q| < (2 : ℚ) ^ (Int.log 2 |q| + 1) :=
      Int.lt_zpow_succ_log_self Nat.one_lt_two |q|
    rw [zpow_add_one₀ two_ne_zero] at hlt
    push_cast
    rw [habs]
    linarith
  · refine (Int.zpow_le_iff_le_log Nat.one_lt_two hhalf).mp ?_
    have hle : (2 : ℚ) ^ Int.log 2 |q| ≤ |q| := Int.zpow_log_le_self Nat.one_lt_two hpos
    push_cast
    rw [habs, zpow_sub_one₀ two_ne_zero]
    linarith

/-- **Half of a rounded number is rounded only once**: where the half has a digit less, the
number had none too many. -/
theorem round_half_round {q : ℚ} {z : ℤ} (hq : q = z * 2 ^ (-1074 : ℤ)) :
    round (round q / 2) = round (q / 2) := by
  rcases eq_or_ne q 0 with rfl | hne
  · rw [round_zero]
  by_cases hsmall : Int.log 2 |q| - 52 ≤ -1074
  · have hlast : lastExponent q ≤ -1074 := by
      rw [lastExponent]
      omega
    rw [round_of_lastExponent_le hq hlast]
  · have hlast : lastExponent (q / 2) = lastExponent q - 1 := by
      rw [lastExponent, lastExponent, log_half hne]
      omega
    have hpred : (2 : ℚ) ^ lastExponent q = 2 ^ (lastExponent q - 1) * 2 := by
      rw [← zpow_add_one₀ two_ne_zero, sub_add_cancel]
    have hquotient : q / 2 / 2 ^ (lastExponent q - 1) = q / 2 ^ lastExponent q := by
      rw [hpred, div_div, mul_comm]
    have hround : round (q / 2) = round q / 2 := by
      rw [round, hlast, hquotient, round, hpred]
      ring
    obtain ⟨w, hw, hle⟩ := exists_round q
    have hmultiple : round q / 2 = w * 2 ^ (lastExponent q - 1) := by
      rw [hw, hpred]
      ring
    have hexponent : -1074 ≤ lastExponent q - 1 := by
      rw [lastExponent]
      omega
    rw [hround, round_of_multiple hmultiple hexponent hle]

/-! ### Doubles -/

/-- A number that is a double. -/
def IsFinite (q : ℚ) : Prop :=
  round q = q ∧ |q| < 2 ^ 1024

theorem isFinite_zero : IsFinite 0 :=
  ⟨round_zero, by rw [abs_zero]; positivity⟩

/-- Doubles are multiples of the smallest one. -/
theorem IsFinite.exists_multiple {q : ℚ} (h : IsFinite q) :
    ∃ z : ℤ, q = z * 2 ^ (-1074 : ℤ) := by
  obtain ⟨w, hw, -⟩ := exists_round q
  obtain ⟨n, hn⟩ : ∃ n : ℕ, lastExponent q = -1074 + n := by
    have hle : -1074 ≤ lastExponent q := le_max_right _ _
    exact ⟨(lastExponent q + 1074).toNat, by omega⟩
  refine ⟨w * 2 ^ n, ?_⟩
  rw [← h.1, hw, hn, zpow_add₀ two_ne_zero, zpow_natCast, Int.cast_mul, Int.cast_pow,
    Int.cast_ofNat, mul_assoc, mul_comm (2 ^ n)]

/-- So are the powers of two below the largest one. -/
theorem isFinite_two_pow {k : ℕ} (hk : k < 1024) : IsFinite (2 ^ k) := by
  refine ⟨round_two_pow k, ?_⟩
  rw [abs_of_pos (by positivity)]
  exact pow_lt_pow_right₀ one_lt_two hk

inductive Double where
  | nan
  | infinity (negative : Bool)
  | finite (q : ℚ) (h : IsFinite q)
  deriving DecidableEq

namespace Double

/-- A number in doubles. -/
def ofRat (q : ℚ) : Double :=
  if h : |round q| < 2 ^ 1024 then .finite (round q) ⟨round_round q, h⟩
  else .infinity (decide (round q < 0))

theorem ofRat_congr {p q : ℚ} (h : round p = round q) : ofRat p = ofRat q := by
  simp only [ofRat, h]

instance : Zero Double where
  zero := .finite 0 isFinite_zero

/-- Nothing is less than NaN, and NaN is less than nothing. -/
def isLess : Double → Double → Bool
  | .nan, _ => false
  | _, .nan => false
  | .infinity negative, .infinity negative' => negative && !negative'
  | .infinity negative, .finite _ _ => negative
  | .finite _ _, .infinity negative => !negative
  | .finite p _, .finite q _ => decide (p < q)

instance : LT Double where
  lt a b := a.isLess b = true

instance : DecidableLT Double := fun a b => inferInstanceAs (Decidable (a.isLess b = true))

/-- The sum. -/
def add : Double → Double → Double
  | .nan, _ => .nan
  | _, .nan => .nan
  | .infinity negative, .infinity negative' =>
    if negative = negative' then .infinity negative else .nan
  | .infinity negative, .finite _ _ => .infinity negative
  | .finite _ _, .infinity negative => .infinity negative
  | .finite p _, .finite q _ => ofRat (p + q)

/-- The product with `0.5`. -/
def half : Double → Double
  | .nan => .nan
  | .infinity negative => .infinity negative
  | .finite q _ => ofRat (q / 2)

/-- `(a + b) * 0.5`. -/
def halfSum (a b : Double) : Double :=
  (a.add b).half

theorem add_finite {p q : ℚ} (hp : IsFinite p) (hq : IsFinite q) :
    add (.finite p hp) (.finite q hq) = ofRat (p + q) := rfl

theorem ofRat_of_lt {q : ℚ} (h : |round q| < 2 ^ 1024) :
    ofRat q = .finite (round q) ⟨round_round q, h⟩ :=
  dif_pos h

theorem ofRat_of_le {q : ℚ} (h : 2 ^ 1024 ≤ round q) : ofRat q = .infinity false := by
  have hpos : 0 ≤ round q := (pow_nonneg zero_le_two 1024).trans h
  have hover : ¬ |round q| < 2 ^ 1024 := by
    rw [abs_of_nonneg hpos]
    exact not_lt.mpr h
  rw [ofRat, dif_neg hover, decide_eq_false (not_lt.mpr hpos)]

/-- **Without an overflow of the sum**, `(a + b) * 0.5` is the mean, rounded once. -/
theorem halfSum_finite {p q : ℚ} (hp : IsFinite p) (hq : IsFinite q)
    (hsum : |round (p + q)| < 2 ^ 1024) :
    halfSum (.finite p hp) (.finite q hq) = ofRat ((p + q) / 2) := by
  obtain ⟨y, hy⟩ := hp.exists_multiple
  obtain ⟨z, hz⟩ := hq.exists_multiple
  have hmultiple : p + q = ((y + z : ℤ) : ℚ) * 2 ^ (-1074 : ℤ) := by
    rw [Int.cast_add, add_mul, ← hy, ← hz]
  rw [halfSum, add_finite, ofRat_of_lt hsum]
  exact ofRat_congr (round_half_round hmultiple)

/-- With an overflow it is infinite. -/
theorem halfSum_overflow {p q : ℚ} (hp : IsFinite p) (hq : IsFinite q)
    (hsum : 2 ^ 1024 ≤ round (p + q)) :
    halfSum (.finite p hp) (.finite q hq) = .infinity false := by
  rw [halfSum, add_finite, ofRat_of_le hsum]
  rfl

theorem ofRat_of_isFinite {q : ℚ} (h : IsFinite q) : ofRat q = .finite q h := by
  have hlt : |round q| < 2 ^ 1024 := by
    rw [h.1]
    exact h.2
  rw [ofRat, dif_pos hlt]
  congr 1
  exact h.1

/-- Of two numbers one is not less than the other. -/
theorem lt_total (a b : Double) : ¬ a < b ∨ ¬ b < a := by
  change ¬ a.isLess b = true ∨ ¬ b.isLess a = true
  cases a with
  | nan => exact .inl Bool.false_ne_true
  | infinity negative =>
      cases b with
      | nan => exact .inr Bool.false_ne_true
      | infinity negative' => cases negative <;> cases negative' <;> simp [isLess]
      | finite q _ => cases negative <;> simp [isLess]
  | finite p _ =>
      cases b with
      | nan => exact .inr Bool.false_ne_true
      | infinity negative => cases negative <;> simp [isLess]
      | finite q _ =>
          simp only [isLess, decide_eq_true_eq, not_lt]
          exact le_total q p

/-- Away from NaN, not being less is transitive. -/
theorem not_lt_trans {a b c : Double} (hb : b ≠ .nan) (hab : ¬ a < b) (hbc : ¬ b < c) :
    ¬ a < c := by
  change ¬ a.isLess b = true at hab
  change ¬ b.isLess c = true at hbc
  change ¬ a.isLess c = true
  cases a with
  | nan => exact Bool.false_ne_true
  | infinity negative =>
      cases b <;> cases c <;> simp_all [isLess]
  | finite p _ =>
      cases b <;> cases c <;> simp_all [isLess]
      exact le_trans hbc hab

end Double

end Binary64
