import Mathlib.Algebra.Order.Field.Rat
import Mathlib.Data.Rat.Floor
import Mathlib.Tactic.FieldSimp
import Mathlib.Tactic.Positivity
import Mathlib.Tactic.Ring

/-!
# Decimal Text

Numbers and their decimal text, as lists of characters: natural numbers, integers with an
optional minus sign, fixed-point numbers with a fixed number of decimals, and rationals
rounded to a number of decimals.

## Main results

* `natOfText?_natText`, `intOfText?_intText`: **reading undoes writing** for whole numbers.
* `head?_natText_ne_zero`: a positive number has no leading zero.
* `fixedOfText?_fixedText`: the text of `n` with `k` decimals is read as `n / 10 ^ k`.
* `rounded_eq_iff`: **rounding keeps** exactly the numbers with `k` decimals.
-/

namespace DecimalText

/-! ### Natural numbers -/

/-- The decimal digits of a natural number. -/
def natText (n : ℕ) : List Char :=
  Nat.toDigits 10 n

/-- The natural number that a non-empty list of digits denotes. -/
def natOfText? (cs : List Char) : Option ℕ :=
  if cs ≠ [] ∧ cs.all Char.isDigit = true then some (Nat.ofDigitChars 10 cs 0) else none

theorem natText_ne_nil (n : ℕ) : natText n ≠ [] :=
  Nat.toDigits_ne_nil

theorem isDigit_of_mem_natText {n : ℕ} {c : Char} (h : c ∈ natText n) : c.isDigit = true :=
  Nat.isDigit_of_mem_toDigits (by decide) (by decide) h

/-- Reading undoes writing. -/
@[simp] theorem natOfText?_natText (n : ℕ) : natOfText? (natText n) = some n := by
  have hdigits : (natText n).all Char.isDigit = true :=
    List.all_eq_true.mpr fun c hc => isDigit_of_mem_natText hc
  rw [natOfText?, if_pos ⟨natText_ne_nil n, hdigits⟩]
  exact congrArg some Nat.ofDigitChars_ten_toDigits

/-- What is read as a number consists of digits. -/
theorem natOfText?_eq_some {cs : List Char} {n : ℕ} (h : natOfText? cs = some n) :
    cs ≠ [] ∧ ∀ c ∈ cs, c.isDigit = true := by
  rw [natOfText?] at h
  split at h
  · next hc => exact ⟨hc.1, List.all_eq_true.mp hc.2⟩
  · cases h

/-- **A positive number has no leading zero.** -/
theorem head?_natText_ne_zero {n : ℕ} (hn : n ≠ 0) : (natText n).head? ≠ some '0' := by
  induction n using Nat.strongRecOn with
  | ind n ih =>
      rw [natText]
      by_cases hlt : n < 10
      · rw [Nat.toDigits_of_lt_base hlt]
        exact (by decide : ∀ d < 10, d ≠ 0 → [d.digitChar].head? ≠ some '0') n hlt hn
      · have hle : 10 ≤ n := Nat.le_of_not_lt hlt
        have hne : Nat.toDigits 10 (n / 10) ≠ [] := Nat.toDigits_ne_nil
        rw [Nat.toDigits_of_base_le (by decide) hle, List.head?_append_of_ne_nil _ hne]
        exact ih (n / 10) (by omega) (by omega)

/-! ### Integers -/

/-- The decimal text of an integer. -/
def intText (z : ℤ) : List Char :=
  if z < 0 then '-' :: natText z.natAbs else natText z.natAbs

/-- The integer that a text denotes: digits, possibly behind a minus sign. -/
def intOfText? : List Char → Option ℤ
  | '-' :: cs => (natOfText? cs).map fun n : ℕ => -(n : ℤ)
  | cs => (natOfText? cs).map fun n : ℕ => (n : ℤ)

/-- A text that does not start with a minus sign is read as digits. -/
theorem intOfText?_of_ne {cs : List Char} (h : cs.head? ≠ some '-') :
    intOfText? cs = (natOfText? cs).map fun n : ℕ => (n : ℤ) := by
  unfold intOfText?
  split
  · exact absurd rfl h
  · rfl

/-- The digits of a number do not start with a minus sign. -/
theorem head?_natText_ne (n : ℕ) : (natText n).head? ≠ some '-' := fun h =>
  absurd (isDigit_of_mem_natText (List.mem_of_mem_head? h)) (by decide)

/-- Reading undoes writing. -/
@[simp] theorem intOfText?_intText (z : ℤ) : intOfText? (intText z) = some z := by
  rw [intText]
  split
  · next h =>
      simp only [intOfText?, natOfText?_natText, Option.map_some]
      exact congrArg some (by omega)
  · next h =>
      rw [intOfText?_of_ne (head?_natText_ne _), natOfText?_natText, Option.map_some]
      exact congrArg some (by omega)

/-- What is read as an integer consists of digits and the minus sign. -/
theorem mem_of_intOfText? {cs : List Char} {z : ℤ} (h : intOfText? cs = some z) {c : Char}
    (hc : c ∈ cs) : c = '-' ∨ c.isDigit = true := by
  unfold intOfText? at h
  split at h
  next cs =>
    obtain ⟨n, hn, -⟩ := Option.map_eq_some_iff.mp h
    rcases List.mem_cons.mp hc with rfl | hc
    · exact Or.inl rfl
    · exact Or.inr ((natOfText?_eq_some hn).2 c hc)
  · obtain ⟨n, hn, -⟩ := Option.map_eq_some_iff.mp h
    exact Or.inr ((natOfText?_eq_some hn).2 c hc)

/-- An integer's text consists of digits and the minus sign. -/
theorem mem_intText {z : ℤ} {c : Char} (h : c ∈ intText z) : c = '-' ∨ c.isDigit = true := by
  rw [intText] at h
  split at h
  · rcases List.mem_cons.mp h with rfl | h
    · exact Or.inl rfl
    · exact Or.inr (isDigit_of_mem_natText h)
  · exact Or.inr (isDigit_of_mem_natText h)

theorem intText_ne_nil (z : ℤ) : intText z ≠ [] := by
  rw [intText]
  split
  · exact List.cons_ne_nil _ _
  · exact natText_ne_nil _

/-! ### Fixed-point numbers -/

/-- The digits of a number, padded with zeros to a width. -/
def paddedText (width n : ℕ) : List Char :=
  List.replicate (width - (natText n).length) '0' ++ natText n

/-- The text of the number `n / 10 ^ k` with `k` decimals. -/
def fixedText (k n : ℕ) : List Char :=
  natText (n / 10 ^ k) ++ '.' :: paddedText k (n % 10 ^ k)

/-- The number that digits, a point and digits denote. -/
def fixedOfText? (cs : List Char) : Option ℚ :=
  match cs.splitOn '.' with
  | [whole, frac] =>
    (natOfText? whole).bind fun a =>
      (natOfText? frac).map fun b : ℕ => (a : ℚ) + (b : ℚ) / 10 ^ frac.length
  | _ => none

/-- Padding keeps the number. -/
theorem natOfText?_paddedText (width n : ℕ) : natOfText? (paddedText width n) = some n := by
  have hdigits : (paddedText width n).all Char.isDigit = true := by
    rw [List.all_eq_true]
    intro c hc
    rcases List.mem_append.mp hc with hc | hc
    · rw [List.eq_of_mem_replicate hc]
      rfl
    · exact isDigit_of_mem_natText hc
  have hne : paddedText width n ≠ [] := by simp [paddedText, natText_ne_nil]
  rw [natOfText?, if_pos ⟨hne, hdigits⟩, paddedText, Nat.ofDigitChars_append,
    Nat.ofDigitChars_replicate_zero, Nat.mul_zero]
  exact congrArg some Nat.ofDigitChars_ten_toDigits

/-- Padding reaches the width. -/
theorem length_paddedText {width n : ℕ} (hw : 0 < width) (hn : n < 10 ^ width) :
    (paddedText width n).length = width := by
  have hlen : (natText n).length ≤ width :=
    (Nat.length_toDigits_le_iff (by decide) hw).mpr hn
  rw [paddedText, List.length_append, List.length_replicate]
  omega

/-- A list of digits has no point in it. -/
theorem point_notMem_of_natOfText? {cs : List Char} {n : ℕ} (h : natOfText? cs = some n) :
    '.' ∉ cs := fun hmem => absurd ((natOfText?_eq_some h).2 _ hmem) (by decide)

/-- **Reading undoes writing** for fixed-point numbers. -/
theorem fixedOfText?_fixedText {k : ℕ} (hk : 0 < k) (n : ℕ) :
    fixedOfText? (fixedText k n) = some ((n : ℚ) / 10 ^ k) := by
  have hsplit : (fixedText k n).splitOn '.' =
      [natText (n / 10 ^ k), paddedText k (n % 10 ^ k)] := by
    rw [fixedText, List.splitOn_append_cons_self,
      List.splitOn_eq_singleton (point_notMem_of_natOfText? (natOfText?_natText _)),
      List.splitOn_eq_singleton (point_notMem_of_natOfText? (natOfText?_paddedText _ _))]
    rfl
  have hvalue : ((n / 10 ^ k : ℕ) : ℚ) + ((n % 10 ^ k : ℕ) : ℚ) / 10 ^ k = (n : ℚ) / 10 ^ k := by
    have h := Nat.div_add_mod n (10 ^ k)
    have hq : (10 : ℚ) ^ k * ((n / 10 ^ k : ℕ) : ℚ) + ((n % 10 ^ k : ℕ) : ℚ) = n := by
      exact_mod_cast h
    field_simp
    rw [mul_comm]
    exact hq
  simp only [fixedOfText?, hsplit, natOfText?_natText, natOfText?_paddedText, Option.bind_some,
    Option.map_some]
  rw [length_paddedText hk (Nat.mod_lt _ (by positivity)), hvalue]

/-! ### Rounded numbers -/

/-- The nearest integer, the even one of two. -/
def roundEven (q : ℚ) : ℤ :=
  if q - ⌊q⌋ < 1 / 2 then ⌊q⌋
  else if 1 / 2 < q - ⌊q⌋ then ⌊q⌋ + 1
  else if ⌊q⌋ % 2 = 0 then ⌊q⌋
  else ⌊q⌋ + 1

theorem roundEven_intCast (z : ℤ) : roundEven (z : ℚ) = z := by
  rw [roundEven, Int.floor_intCast, sub_self, if_pos (by norm_num)]

/-- The digits of a number rounded to `k` decimals, without the point and the sign. -/
def roundedDigits (k : ℕ) (q : ℚ) : ℕ :=
  (roundEven (|q| * 10 ^ k)).natAbs

/-- The text of a number, rounded to `k` decimals. -/
def roundedText (k : ℕ) (q : ℚ) : List Char :=
  (if q < 0 then ['-'] else []) ++ fixedText k (roundedDigits k q)

/-- The number that is left when it is rounded to `k` decimals. -/
def rounded (k : ℕ) (q : ℚ) : ℚ :=
  if q < 0 then -((roundedDigits k q : ℚ) / 10 ^ k) else (roundedDigits k q : ℚ) / 10 ^ k

/-- The number that digits, a point and digits denote, possibly behind a minus sign. -/
def signedFixedOfText? : List Char → Option ℚ
  | '-' :: cs => (fixedOfText? cs).map fun q : ℚ => -q
  | cs => fixedOfText? cs

/-- A text that does not start with a minus sign is read as a fixed-point number. -/
theorem signedFixedOfText?_of_ne {cs : List Char} (h : cs.head? ≠ some '-') :
    signedFixedOfText? cs = fixedOfText? cs := by
  unfold signedFixedOfText?
  split
  · exact absurd rfl h
  · rfl

/-- **Reading a rounded text** gives the rounded number. -/
theorem signedFixedOfText?_roundedText {k : ℕ} (hk : 0 < k) (q : ℚ) :
    signedFixedOfText? (roundedText k q) = some (rounded k q) := by
  have hhead : (fixedText k (roundedDigits k q)).head? ≠ some '-' := by
    rw [fixedText, List.head?_append_of_ne_nil _ (natText_ne_nil _)]
    exact head?_natText_ne _
  rw [roundedText, rounded]
  by_cases hq : q < 0
  · rw [if_pos hq, if_pos hq, List.singleton_append, signedFixedOfText?,
      fixedOfText?_fixedText hk, Option.map_some]
  · rw [if_neg hq, if_neg hq, List.nil_append, signedFixedOfText?_of_ne hhead,
      fixedOfText?_fixedText hk]

/-- A number with at most `k` decimals. -/
def HasDecimals (k : ℕ) (q : ℚ) : Prop :=
  ∃ n : ℤ, q = (n : ℚ) / 10 ^ k

/-- **Rounding keeps** exactly the numbers with at most `k` decimals. -/
theorem rounded_eq_iff (k : ℕ) (q : ℚ) : rounded k q = q ↔ HasDecimals k q := by
  constructor
  · intro h
    rw [rounded] at h
    split at h
    · refine ⟨-(roundedDigits k q : ℤ), h.symm.trans ?_⟩
      push_cast
      ring
    · exact ⟨roundedDigits k q, h.symm.trans (by push_cast; rfl)⟩
  · rintro ⟨n, rfl⟩
    have hpow : (0 : ℚ) < 10 ^ k := by positivity
    have habs : |(n : ℚ) / 10 ^ k| * 10 ^ k = ((|n| : ℤ) : ℚ) := by
      rw [abs_div, abs_of_pos hpow, div_mul_cancel₀ _ hpow.ne', Int.cast_abs]
    have hdigits : roundedDigits k ((n : ℚ) / 10 ^ k) = n.natAbs := by
      rw [roundedDigits, habs, roundEven_intCast, Int.natAbs_abs]
    rw [rounded, hdigits]
    by_cases hn : n < 0
    · have hneg : (n : ℚ) / 10 ^ k < 0 := div_neg_of_neg_of_pos (by exact_mod_cast hn) hpow
      have hcast : ((n.natAbs : ℕ) : ℚ) = -(n : ℚ) := by
        rw [Nat.cast_natAbs, abs_of_neg hn]
        push_cast
        rfl
      rw [if_pos hneg, hcast]
      ring
    · have hnonneg : 0 ≤ n := not_lt.mp hn
      have hpos : ¬ (n : ℚ) / 10 ^ k < 0 := not_lt.mpr (div_nonneg (by exact_mod_cast hnonneg) hpow.le)
      have hcast : ((n.natAbs : ℕ) : ℚ) = (n : ℚ) := by
        rw [Nat.cast_natAbs, abs_of_nonneg hnonneg]
      rw [if_neg hpos, hcast]

/-- The characters of a rounded text. -/
theorem mem_roundedText {k : ℕ} {q : ℚ} {c : Char} (h : c ∈ roundedText k q) :
    c = '-' ∨ c = '.' ∨ c.isDigit = true := by
  rw [roundedText, List.mem_append] at h
  rcases h with h | h
  · split at h
    · exact Or.inl (List.mem_singleton.mp h)
    · cases h
  · rw [fixedText, List.mem_append] at h
    rcases h with h | h
    · exact Or.inr (Or.inr (isDigit_of_mem_natText h))
    rcases List.mem_cons.mp h with rfl | h
    · exact Or.inr (Or.inl rfl)
    · exact Or.inr (Or.inr ((natOfText?_eq_some (natOfText?_paddedText _ _)).2 c h))

end DecimalText
