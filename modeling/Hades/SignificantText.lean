import Hades.DecimalText
import Hades.LongestRun
import Mathlib.Data.Int.Log
import Mathlib.Data.List.DropRight

/-!
# Text with Significant Digits

Rationals with a number of significant digits, and their text in the shorter of two layouts,
as C's `%g` prints it: plain decimals where the exponent is small, and otherwise one digit, a
point, the others and the exponent. Zeros at the end of the decimals are left out, and so is a
point with no decimals behind it.

## Main results

* `significand_bounds`: the digits of a positive number, and the exponent of the first one.
* `abs_roundedTo_sub_le`: **the error of the rounding**, relative to the number.
* `roundedTo_eq_iff`: **the rounding keeps** exactly the numbers with so many digits.
* `numberOfText?_generalText`: **reading the text** gives the rounded number.
-/

namespace DecimalText

/-! ### Nearest integers -/

/-- The nearest integer is within one half. -/
theorem abs_roundEven_sub_le (q : ℚ) : |(roundEven q : ℚ) - q| ≤ 1 / 2 := by
  have hfloor := Int.floor_le q
  have hlt := Int.lt_floor_add_one q
  rw [roundEven, abs_le]
  split_ifs <;> push_cast <;> constructor <;> linarith

/-- No integer is between a number and its nearest integer. -/
theorem le_roundEven {z : ℤ} {q : ℚ} (h : (z : ℚ) ≤ q) : z ≤ roundEven q := by
  have habs := abs_le.mp (abs_roundEven_sub_le q)
  have hlt : (z : ℚ) < (roundEven q + 1 : ℤ) := by
    push_cast
    linarith [habs.1]
  have hint : z < roundEven q + 1 := by exact_mod_cast hlt
  omega

theorem roundEven_le {z : ℤ} {q : ℚ} (h : q ≤ z) : roundEven q ≤ z := by
  have habs := abs_le.mp (abs_roundEven_sub_le q)
  have hlt : (roundEven q : ℚ) < (z + 1 : ℤ) := by
    push_cast
    linarith [habs.2]
  have hint : roundEven q < z + 1 := by exact_mod_cast hlt
  omega

/-! ### Significant digits -/

/-- The place of the last of `p` digits, if the first one has the exponent `x`. -/
def lastPlace (p : ℕ) (x : ℤ) : ℤ :=
  x - ((p : ℤ) - 1)

/-- The first `p` digits of a positive number, rounded, and the exponent of the first one. -/
def significand (p : ℕ) (a : ℚ) : ℕ × ℤ :=
  let x := Int.log 10 a
  let m := (roundEven (a * 10 ^ (-lastPlace p x))).natAbs
  if m = 10 ^ p then (10 ^ (p - 1), x + 1) else (m, x)

/-- The sign of a number that is not zero. -/
def signOf (q : ℚ) : ℤ :=
  if q < 0 then -1 else 1

/-- The number that is left when it is rounded to `p` significant digits. -/
def roundedTo (p : ℕ) (q : ℚ) : ℚ :=
  if q = 0 then 0
  else
    let (m, x) := significand p |q|
    signOf q * (m * 10 ^ lastPlace p x)

/-- A number with at most `p` significant digits. -/
def HasSignificant (p : ℕ) (q : ℚ) : Prop :=
  ∃ n e : ℤ, |n| < 10 ^ p ∧ q = n * 10 ^ e

theorem ten_zpow_pos (z : ℤ) : (0 : ℚ) < 10 ^ z :=
  zpow_pos (by norm_num) z

/-- The digits of a positive number before they are rounded. -/
theorem scaled_bounds {p : ℕ} (hp : 0 < p) {a : ℚ} (ha : 0 < a) :
    (10 : ℚ) ^ (p - 1) ≤ a * 10 ^ (-lastPlace p (Int.log 10 a)) ∧
      a * 10 ^ (-lastPlace p (Int.log 10 a)) < 10 ^ p := by
  have hlow := Int.zpow_log_le_self (b := 10) (by norm_num) ha
  have hhigh := Int.lt_zpow_succ_log_self (b := 10) (by norm_num) a
  have hpos := ten_zpow_pos (-lastPlace p (Int.log 10 a))
  push_cast at hlow hhigh
  have hfirst : (10 : ℚ) ^ Int.log 10 a * 10 ^ (-lastPlace p (Int.log 10 a)) = 10 ^ (p - 1) := by
    rw [← zpow_add₀ (by norm_num), ← zpow_natCast, lastPlace]
    congr 1
    omega
  have hlast : (10 : ℚ) ^ (Int.log 10 a + 1) * 10 ^ (-lastPlace p (Int.log 10 a)) = 10 ^ p := by
    rw [← zpow_add₀ (by norm_num), ← zpow_natCast, lastPlace]
    congr 1
    omega
  refine ⟨?_, ?_⟩
  · rw [← hfirst]
    exact mul_le_mul_of_nonneg_right hlow hpos.le
  · rw [← hlast]
    exact mul_lt_mul_of_pos_right hhigh hpos

/-- **The rounded digits**: either they keep their number, or they carry over to the next power
of ten. -/
theorem rounded_bounds {p : ℕ} (hp : 0 < p) {a : ℚ} (ha : 0 < a) :
    10 ^ (p - 1) ≤ (roundEven (a * 10 ^ (-lastPlace p (Int.log 10 a)))).natAbs ∧
      (roundEven (a * 10 ^ (-lastPlace p (Int.log 10 a)))).natAbs ≤ 10 ^ p ∧
      0 ≤ roundEven (a * 10 ^ (-lastPlace p (Int.log 10 a))) := by
  obtain ⟨hlow, hhigh⟩ := scaled_bounds hp ha
  have hle : ((10 ^ (p - 1) : ℕ) : ℤ) ≤ roundEven (a * 10 ^ (-lastPlace p (Int.log 10 a))) :=
    le_roundEven (by push_cast; exact hlow)
  have hge : roundEven (a * 10 ^ (-lastPlace p (Int.log 10 a))) ≤ ((10 ^ p : ℕ) : ℤ) :=
    roundEven_le (by push_cast; exact hhigh.le)
  generalize 10 ^ (p - 1) = low at hle ⊢
  generalize 10 ^ p = high at hge ⊢
  omega

/-- **The digits of a positive number**: there are `p` of them, and they are off by at most one
half of the last place before the rounding. -/
theorem significand_bounds {p : ℕ} (hp : 0 < p) {a : ℚ} (ha : 0 < a) :
    10 ^ (p - 1) ≤ (significand p a).1 ∧ (significand p a).1 < 10 ^ p ∧
      |((significand p a).1 : ℚ) * 10 ^ lastPlace p (significand p a).2 - a| ≤
        1 / 2 * 10 ^ lastPlace p (Int.log 10 a) := by
  obtain ⟨hlow, hhigh, hnonneg⟩ := rounded_bounds hp ha
  have hclose := abs_roundEven_sub_le (a * 10 ^ (-lastPlace p (Int.log 10 a)))
  have hpos := ten_zpow_pos (lastPlace p (Int.log 10 a))
  obtain ⟨m, hm⟩ : ∃ m, (roundEven (a * 10 ^ (-lastPlace p (Int.log 10 a)))).natAbs = m :=
    ⟨_, rfl⟩
  have hcast : (roundEven (a * 10 ^ (-lastPlace p (Int.log 10 a))) : ℚ) = (m : ℚ) := by
    have hint : roundEven (a * 10 ^ (-lastPlace p (Int.log 10 a))) = (m : ℤ) := by omega
    rw [hint]
    push_cast
    rfl
  have herror : |(m : ℚ) * 10 ^ lastPlace p (Int.log 10 a) - a| ≤
      1 / 2 * 10 ^ lastPlace p (Int.log 10 a) := by
    have hscale : (m : ℚ) * 10 ^ lastPlace p (Int.log 10 a) - a =
        ((m : ℚ) - a * 10 ^ (-lastPlace p (Int.log 10 a))) *
          10 ^ lastPlace p (Int.log 10 a) := by
      rw [sub_mul, mul_assoc, ← zpow_add₀ (by norm_num), neg_add_cancel, zpow_zero, mul_one]
    rw [hscale, abs_mul, abs_of_pos hpos, ← hcast]
    exact mul_le_mul_of_nonneg_right hclose hpos.le
  rw [significand]
  simp only [hm] at hlow hhigh ⊢
  split
  next hcarry =>
    -- the carry writes the same number with the next exponent
    refine ⟨le_refl _, Nat.pow_lt_pow_right (by norm_num) (by omega), ?_⟩
    have hsame : ((10 ^ (p - 1) : ℕ) : ℚ) * 10 ^ lastPlace p (Int.log 10 a + 1) =
        (m : ℚ) * 10 ^ lastPlace p (Int.log 10 a) := by
      rw [hcarry]
      push_cast
      rw [← zpow_natCast, ← zpow_natCast, ← zpow_add₀ (by norm_num), ← zpow_add₀ (by norm_num),
        lastPlace, lastPlace]
      congr 1
      omega
    rw [hsame]
    exact herror
  next hcarry => exact ⟨hlow, by omega, herror⟩

/-! ### Rounding -/

/-- The rounded number, by its digits and its sign. -/
theorem roundedTo_of_ne {p : ℕ} {q : ℚ} (hq : q ≠ 0) :
    roundedTo p q = signOf q *
      ((significand p |q|).1 * 10 ^ lastPlace p (significand p |q|).2) := by
  rw [roundedTo, if_neg hq]

@[simp] theorem abs_signOf (q : ℚ) : |signOf q| = 1 := by
  rw [signOf]
  split <;> rfl

/-- A number is its absolute value with its sign. -/
theorem signOf_mul_abs (q : ℚ) : signOf q * |q| = q := by
  rw [signOf]
  split
  next h => rw [abs_of_neg h, Int.cast_neg, Int.cast_one, neg_one_mul, neg_neg]
  next h => rw [abs_of_nonneg (not_lt.mp h), Int.cast_one, one_mul]

/-- **The error of the rounding** is at most one half of the last place, and so small relative
to the number. -/
theorem abs_roundedTo_sub_le {p : ℕ} (hp : 0 < p) (q : ℚ) :
    |roundedTo p q - q| ≤ 1 / 2 * 10 ^ (1 - (p : ℤ)) * |q| := by
  by_cases hq : q = 0
  · rw [hq, roundedTo, if_pos rfl]
    norm_num
  have ha : 0 < |q| := abs_pos.mpr hq
  obtain ⟨-, -, herror⟩ := significand_bounds hp ha
  have hdiff : roundedTo p q - q = signOf q *
      ((significand p |q|).1 * 10 ^ lastPlace p (significand p |q|).2 - abs q) := by
    rw [roundedTo_of_ne hq, mul_sub, signOf_mul_abs]
  have hsign : |(signOf q : ℚ)| = 1 := by exact_mod_cast abs_signOf q
  have hplace : (10 : ℚ) ^ lastPlace p (Int.log 10 |q|) ≤ 10 ^ (1 - (p : ℤ)) * |q| := by
    have hlow := Int.zpow_log_le_self (b := 10) (by norm_num) ha
    push_cast at hlow
    have hsplit : (10 : ℚ) ^ lastPlace p (Int.log 10 |q|) =
        10 ^ (1 - (p : ℤ)) * 10 ^ Int.log 10 |q| := by
      rw [← zpow_add₀ (by norm_num), lastPlace]
      congr 1
      omega
    rw [hsplit]
    exact mul_le_mul_of_nonneg_left hlow (ten_zpow_pos _).le
  rw [hdiff, abs_mul, hsign, one_mul, mul_assoc]
  exact herror.trans (mul_le_mul_of_nonneg_left hplace (by norm_num))

/-- A number with so many digits is a whole number of its last places. -/
theorem HasSignificant.scaled_eq {p : ℕ} {n e : ℤ} (hlt : |n| < 10 ^ p) (hn : n ≠ 0) :
    ∃ m : ℕ, |(n : ℚ) * 10 ^ e| * 10 ^ (-lastPlace p (Int.log 10 |(n : ℚ) * 10 ^ e|)) = m := by
  have hpos := ten_zpow_pos e
  have habs : |(n : ℚ) * 10 ^ e| = (n.natAbs : ℚ) * 10 ^ e := by
    rw [abs_mul, abs_of_pos hpos, Nat.cast_natAbs, Int.cast_abs]
  have ha : 0 < |(n : ℚ) * 10 ^ e| := by
    rw [abs_pos]
    exact mul_ne_zero (by exact_mod_cast hn) hpos.ne'
  obtain ⟨x, hx⟩ : ∃ x, Int.log 10 |(n : ℚ) * 10 ^ e| = x := ⟨_, rfl⟩
  have hexp : x < p + e := by
    have hlow := Int.zpow_log_le_self (b := 10) (by norm_num) ha
    push_cast at hlow
    have hbound : (n.natAbs : ℚ) < 10 ^ (p : ℤ) := by
      have hnat : n.natAbs < 10 ^ p := by zify; exact hlt
      rw [zpow_natCast]
      exact_mod_cast hnat
    have hchain : (10 : ℚ) ^ x < 10 ^ ((p : ℤ) + e) := by
      rw [zpow_add₀ (by norm_num), ← hx]
      refine hlow.trans_lt ?_
      rw [habs]
      exact mul_lt_mul_of_pos_right hbound hpos
    exact (zpow_lt_zpow_iff_right₀ (by norm_num)).mp hchain
  obtain ⟨j, hj⟩ : ∃ j : ℕ, e + -lastPlace p x = j :=
    ⟨(e + -lastPlace p x).toNat, by rw [lastPlace]; omega⟩
  refine ⟨n.natAbs * 10 ^ j, ?_⟩
  rw [hx, habs, mul_assoc, ← zpow_add₀ (by norm_num), hj, zpow_natCast]
  push_cast
  rfl

/-- **Rounding keeps** exactly the numbers with at most `p` significant digits. -/
theorem roundedTo_eq_iff {p : ℕ} (hp : 0 < p) (q : ℚ) :
    roundedTo p q = q ↔ HasSignificant p q := by
  constructor
  · intro h
    by_cases hq : q = 0
    · exact ⟨0, 0, by simp, by simp [hq]⟩
    obtain ⟨-, hlt, -⟩ := significand_bounds hp (abs_pos.mpr hq)
    refine ⟨signOf q * (significand p |q|).1, lastPlace p (significand p |q|).2, ?_, ?_⟩
    · rw [abs_mul, abs_signOf, one_mul, Nat.abs_cast]
      exact_mod_cast hlt
    · refine h.symm.trans ((roundedTo_of_ne hq).trans ?_)
      push_cast
      rw [mul_assoc]
  · rintro ⟨n, e, hlt, rfl⟩
    by_cases hn : n = 0
    · rw [hn, roundedTo, Int.cast_zero, zero_mul, if_pos rfl]
    have hq : (n : ℚ) * 10 ^ e ≠ 0 :=
      mul_ne_zero (by exact_mod_cast hn) (ten_zpow_pos e).ne'
    obtain ⟨m, hm⟩ := HasSignificant.scaled_eq (e := e) hlt hn
    have hsmall : m < 10 ^ p := by
      have hhigh := (scaled_bounds hp (abs_pos.mpr hq)).2
      rw [hm] at hhigh
      exact_mod_cast hhigh
    have hdigits : significand p |(n : ℚ) * 10 ^ e| = (m, Int.log 10 |(n : ℚ) * 10 ^ e|) := by
      have hround : (roundEven (m : ℚ)).natAbs = m := by
        have hexact := roundEven_intCast m
        rw [Int.cast_natCast] at hexact
        rw [hexact, Int.natAbs_natCast]
      rw [significand]
      simp only [hm, hround, if_neg hsmall.ne]
    rw [roundedTo_of_ne hq, hdigits]
    dsimp only
    rw [← hm, mul_assoc, ← zpow_add₀ (by norm_num), neg_add_cancel, zpow_zero, mul_one,
      signOf_mul_abs]

/-! ### The text -/

/-- The decimals of the number `n / 10 ^ k`, without the zeros at their end. -/
def trimmedDecimals (k n : ℕ) : List Char :=
  (paddedText k (n % 10 ^ k)).rdropWhile (· = '0')

/-- A point and decimals, or nothing. -/
def pointText (decimals : List Char) : List Char :=
  if decimals = [] then [] else '.' :: decimals

/-- The text of the number `n / 10 ^ k` with at most `k` decimals. -/
def trimmedText (k n : ℕ) : List Char :=
  natText (n / 10 ^ k) ++ pointText (trimmedDecimals k n)

/-- The text of an exponent, with at least two digits. -/
def exponentText (x : ℤ) : List Char :=
  'e' :: (if x < 0 then '-' else '+') :: paddedText 2 x.natAbs

/-- The text of `p` digits, the first of them with exponent `x`: the longer layout where the
exponent is below `-4`, or not below `p`. -/
def layoutText (p m : ℕ) (x : ℤ) : List Char :=
  if -4 ≤ x ∧ x < p then trimmedText (-lastPlace p x).toNat m
  else trimmedText (p - 1) m ++ exponentText x

/-- The text of a number with `p` significant digits, as `%g` prints it. -/
def generalText (p : ℕ) (q : ℚ) : List Char :=
  if q = 0 then ['0']
  else
    let (m, x) := significand p |q|
    (if q < 0 then ['-'] else []) ++ layoutText p m x

/-! ### Reading it -/

/-- The number that digits denote, with or without decimals behind a point. -/
def decimalOfText? (cs : List Char) : Option ℚ :=
  match cs.splitOn '.' with
  | [whole] => (natOfText? whole).map fun a : ℕ => (a : ℚ)
  | [whole, frac] =>
    (natOfText? whole).bind fun a =>
      (natOfText? frac).map fun b : ℕ => (a : ℚ) + (b : ℚ) / 10 ^ frac.length
  | _ => none

/-- The exponent that digits denote, possibly behind a sign. -/
def exponentOfText? : List Char → Option ℤ
  | '+' :: cs => (natOfText? cs).map fun n : ℕ => (n : ℤ)
  | cs => intOfText? cs

/-- The number that a text denotes, possibly with an exponent. -/
def unsignedOfText? (cs : List Char) : Option ℚ :=
  match cs.splitOn 'e' with
  | [mantissa] => decimalOfText? mantissa
  | [mantissa, exponent] =>
    (decimalOfText? mantissa).bind fun m =>
      (exponentOfText? exponent).map fun x => m * 10 ^ x
  | _ => none

/-- The number that a text denotes, possibly behind a minus sign. -/
def numberOfText? : List Char → Option ℚ
  | '-' :: cs => (unsignedOfText? cs).map fun q => -q
  | cs => unsignedOfText? cs

/-- The decimals before their zeros are left out. -/
theorem paddedText_eq_trimmed (k n : ℕ) : ∃ zeros,
    paddedText k (n % 10 ^ k) = trimmedDecimals k n ++ List.replicate zeros '0' := by
  have hsplit := List.rdropWhile_append_rtakeWhile
    (p := fun c : Char => decide (c = '0')) (l := paddedText k (n % 10 ^ k))
  rw [LongestRun.rtakeWhile_eq_replicate] at hsplit
  exact ⟨_, hsplit.symm⟩

/-- What is left of the decimals consists of digits. -/
theorem isDigit_of_mem_trimmedDecimals {k n : ℕ} {c : Char} (h : c ∈ trimmedDecimals k n) :
    c.isDigit = true :=
  (natOfText?_eq_some (natOfText?_paddedText k (n % 10 ^ k))).2 c
    ((List.rdropWhile_prefix _ _).subset h)

/-- A text of digits denotes their number. -/
theorem natOfText?_of_digits {cs : List Char} (hne : cs ≠ [])
    (hdigits : ∀ c ∈ cs, c.isDigit = true) :
    natOfText? cs = some (Nat.ofDigitChars 10 cs 0) := by
  rw [natOfText?, if_pos ⟨hne, List.all_eq_true.mpr hdigits⟩]

/-- What the decimals denote, by what is left of them. -/
theorem ofDigitChars_trimmedDecimals {k n zeros : ℕ}
    (h : paddedText k (n % 10 ^ k) = trimmedDecimals k n ++ List.replicate zeros '0') :
    n % 10 ^ k = 10 ^ zeros * Nat.ofDigitChars 10 (trimmedDecimals k n) 0 := by
  have hread := natOfText?_paddedText k (n % 10 ^ k)
  obtain ⟨hne, hdigits⟩ := natOfText?_eq_some hread
  rw [natOfText?_of_digits hne hdigits, h, Nat.ofDigitChars_append,
    Nat.ofDigitChars_replicate_zero] at hread
  exact (Option.some.inj hread).symm

/-- A number is its whole part and what is left of `z` more decimals. -/
theorem decimals_value {a d l z : ℕ} {n : ℚ}
    (h : (10 : ℚ) ^ (l + z) * a + (10 ^ z * d : ℕ) = n) :
    (a : ℚ) + d / 10 ^ l = n / 10 ^ (l + z) := by
  rw [← h, pow_add]
  push_cast
  field_simp

/-- **Decimals without the zeros at their end** denote the same number. -/
theorem decimalOfText?_trimmedText (k n : ℕ) :
    decimalOfText? (trimmedText k n) = some ((n : ℚ) / 10 ^ k) := by
  obtain ⟨zeros, hzeros⟩ := paddedText_eq_trimmed k n
  have hvalue := ofDigitChars_trimmedDecimals hzeros
  have hdivMod : (10 : ℚ) ^ k * ((n / 10 ^ k : ℕ) : ℚ) + ((n % 10 ^ k : ℕ) : ℚ) = n := by
    exact_mod_cast Nat.div_add_mod n (10 ^ k)
  have hwhole : (natText (n / 10 ^ k)).splitOn '.' = [natText (n / 10 ^ k)] :=
    List.splitOn_eq_singleton (point_notMem_of_natOfText? (natOfText?_natText _))
  by_cases hnil : trimmedDecimals k n = []
  · have hzero : n % 10 ^ k = 0 := by rw [hvalue, hnil, Nat.ofDigitChars_nil, Nat.mul_zero]
    rw [hzero, Nat.cast_zero, add_zero] at hdivMod
    rw [trimmedText, hnil, pointText, if_pos rfl, List.append_nil, decimalOfText?, hwhole]
    simp only [natOfText?_natText, Option.map_some]
    rw [← hdivMod]
    field_simp
  · have hdigits : ∀ c ∈ trimmedDecimals k n, c.isDigit = true := fun c hc =>
      isDigit_of_mem_trimmedDecimals hc
    have hpoint : '.' ∉ trimmedDecimals k n := fun hmem => absurd (hdigits _ hmem) (by decide)
    have hk : 0 < k := by
      by_contra hk
      obtain rfl : k = 0 := by omega
      refine hnil ?_
      rw [trimmedDecimals, pow_zero, Nat.mod_one]
      rfl
    have hlength : (trimmedDecimals k n).length + zeros = k := by
      have hpadded := length_paddedText hk (Nat.mod_lt n (by positivity : 0 < 10 ^ k))
      rwa [hzeros, List.length_append, List.length_replicate] at hpadded
    have hsplit : (trimmedText k n).splitOn '.' =
        [natText (n / 10 ^ k), trimmedDecimals k n] := by
      rw [trimmedText, pointText, if_neg hnil, List.splitOn_append_cons_self, hwhole,
        List.splitOn_eq_singleton hpoint]
      rfl
    simp only [decimalOfText?, hsplit, natOfText?_natText, natOfText?_of_digits hnil hdigits,
      Option.bind_some, Option.map_some]
    rw [hvalue, ← hlength] at hdivMod
    have hsum := decimals_value hdivMod
    rw [hlength] at hsum
    rw [hsum]

/-- The text of a number without an exponent has only digits and the point in it. -/
theorem mem_trimmedText {k n : ℕ} {c : Char} (h : c ∈ trimmedText k n) :
    c = '.' ∨ c.isDigit = true := by
  rw [trimmedText, List.mem_append, pointText] at h
  rcases h with h | h
  · exact Or.inr (isDigit_of_mem_natText h)
  · split at h
    · cases h
    · rcases List.mem_cons.mp h with rfl | h
      · exact Or.inl rfl
      · exact Or.inr (isDigit_of_mem_trimmedDecimals h)

/-- The exponent is read as it was written. -/
theorem exponentOfText?_exponentText (x : ℤ) :
    exponentOfText? ((if x < 0 then '-' else '+') :: paddedText 2 x.natAbs) = some x := by
  have hread := natOfText?_paddedText 2 x.natAbs
  split
  next hx =>
    have hsign : exponentOfText? ('-' :: paddedText 2 x.natAbs) =
        intOfText? ('-' :: paddedText 2 x.natAbs) := rfl
    rw [hsign]
    simp only [intOfText?, hread, Option.map_some]
    exact congrArg some (by omega)
  next hx =>
    simp only [exponentOfText?, hread, Option.map_some]
    exact congrArg some (by omega)

/-- **Both layouts** denote the digits at their place. -/
theorem unsignedOfText?_layoutText {p : ℕ} (hp : 0 < p) (m : ℕ) (x : ℤ) :
    unsignedOfText? (layoutText p m x) = some ((m : ℚ) * 10 ^ lastPlace p x) := by
  have hmark (k n : ℕ) : 'e' ∉ trimmedText k n := by
    intro hmem
    rcases mem_trimmedText hmem with h | h
    · exact absurd h (by decide)
    · exact absurd h (by decide)
  rw [layoutText]
  split
  next hx =>
    have hplace : (10 : ℚ) ^ lastPlace p x = (10 ^ (-lastPlace p x).toNat)⁻¹ := by
      rw [← zpow_natCast, ← zpow_neg]
      congr 1
      rw [lastPlace]
      omega
    rw [unsignedOfText?, List.splitOn_eq_singleton (hmark _ _)]
    simp only [decimalOfText?_trimmedText]
    rw [hplace, div_eq_mul_inv]
  next hx =>
    have hdigits : 'e' ∉ (if x < 0 then '-' else '+') :: paddedText 2 x.natAbs := by
      intro hmem
      rcases List.mem_cons.mp hmem with h | h
      · split at h <;> exact absurd h (by decide)
      · exact absurd ((natOfText?_eq_some (natOfText?_paddedText 2 x.natAbs)).2 _ h) (by decide)
    have hsplit : (trimmedText (p - 1) m ++ exponentText x).splitOn 'e' =
        [trimmedText (p - 1) m, (if x < 0 then '-' else '+') :: paddedText 2 x.natAbs] := by
      rw [exponentText, List.splitOn_append_cons_self, List.splitOn_eq_singleton (hmark _ _),
        List.splitOn_eq_singleton hdigits]
      rfl
    have hplace : (10 : ℚ) ^ lastPlace p x = (10 ^ (p - 1))⁻¹ * 10 ^ x := by
      rw [← zpow_natCast, ← zpow_neg, ← zpow_add₀ (by norm_num), lastPlace]
      congr 1
      omega
    simp only [unsignedOfText?, hsplit, decimalOfText?_trimmedText,
      exponentOfText?_exponentText, Option.bind_some, Option.map_some]
    rw [hplace, div_eq_mul_inv, mul_assoc]

/-- A text that does not start with a minus sign. -/
theorem head?_layoutText_ne (p m : ℕ) (x : ℤ) : (layoutText p m x).head? ≠ some '-' := by
  have htrimmed (k n : ℕ) (rest : List Char) :
      (trimmedText k n ++ rest).head? ≠ some '-' := by
    rw [trimmedText, List.append_assoc, List.head?_append_of_ne_nil _ (natText_ne_nil _)]
    exact head?_natText_ne _
  rw [layoutText]
  split
  · have hplain := htrimmed (-lastPlace p x).toNat m []
    rwa [List.append_nil] at hplain
  · exact htrimmed _ _ _

/-- **Reading the text** of a number gives the number rounded to its significant digits. -/
theorem numberOfText?_generalText {p : ℕ} (hp : 0 < p) (q : ℚ) :
    numberOfText? (generalText p q) = some (roundedTo p q) := by
  have hplain {cs : List Char} (h : cs.head? ≠ some '-') :
      numberOfText? cs = unsignedOfText? cs := by
    unfold numberOfText?
    split
    · exact absurd rfl h
    · rfl
  by_cases hq : q = 0
  · rw [generalText, roundedTo, if_pos hq, if_pos hq]
    decide +kernel
  rw [roundedTo_of_ne hq, generalText, if_neg hq, signOf]
  dsimp only
  split
  · rw [List.singleton_append, numberOfText?, unsignedOfText?_layoutText hp]
    simp
  · rw [List.nil_append, hplain (head?_layoutText_ne _ _ _), unsignedOfText?_layoutText hp]
    simp

/-- Three numbers in the two layouts. -/
example : generalText 9 (123456789012 / 1000) = "123456789".toList ∧
    generalText 9 (1 / 2) = "0.5".toList ∧
    generalText 9 (-1 / 30000) = "-3.33333333e-05".toList := by decide +kernel

end DecimalText
