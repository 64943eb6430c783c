import Mathlib.Algebra.Field.Basic
import Mathlib.Algebra.CharZero.Defs
import Mathlib.Algebra.BigOperators.Group.List.Basic
import Mathlib.Algebra.Order.BigOperators.Group.List
import Mathlib.Algebra.Order.Field.Basic
import Mathlib.Data.Nat.Cast.Basic
import Mathlib.Tactic.FieldSimp
import Mathlib.Tactic.Ring

/-!
# Online Mean and Variance

The batch mean and the batch sum of squared deviations of a list, over an arbitrary field
of characteristic zero, and the two recurrences by which one more sample updates them
without a second pass over the data. A program that maintains a running count, mean and
sum of squares by these recurrences therefore computes the batch quantities of the samples
it has seen.

## Main results

* `mean_concat`: the update of the mean by one more sample.
* `sumSqDev_concat`: the update of the sum of squared deviations, which multiplies the
  deviation from the old mean with the deviation from the new one.
-/

namespace OnlineMoments

variable {K : Type*} [Field K]

/-- The arithmetic mean of a list of samples (`0` for the empty list). -/
def mean (xs : List K) : K :=
  xs.sum / xs.length

/-- The sum of the squared deviations of the samples from a centre. -/
def sumSqAbout (c : K) (xs : List K) : K :=
  (xs.map fun x => (x - c) ^ 2).sum

/-- The sum of the squared deviations of the samples from their mean. -/
def sumSqDev (xs : List K) : K :=
  sumSqAbout (mean xs) xs

@[simp] theorem mean_nil : mean ([] : List K) = 0 := by
  simp [mean]

/-- The deviations about a shifted centre, before any division. -/
theorem sumSqAbout_add (c d : K) (xs : List K) :
    sumSqAbout (c + d) xs =
      sumSqAbout c xs - 2 * d * (xs.sum - xs.length * c) + xs.length * d ^ 2 := by
  induction xs with
  | nil => simp [sumSqAbout]
  | cons x xs ih =>
      simp only [sumSqAbout, List.map_cons, List.sum_cons, List.length_cons] at ih ⊢
      rw [ih]
      push_cast
      ring

variable [CharZero K]

/-- The mean times the number of samples is their sum. -/
theorem length_mul_mean (xs : List K) : (xs.length : K) * mean xs = xs.sum := by
  cases xs with
  | nil => simp
  | cons x xs =>
      have h : ((x :: xs).length : K) ≠ 0 :=
        Nat.cast_ne_zero.mpr (List.length_pos_of_ne_nil (by simp)).ne'
      rw [mean, mul_div_cancel₀ _ h]

/-- **The mean recurrence.** -/
theorem mean_concat (xs : List K) (x : K) :
    mean (xs ++ [x]) = mean xs + (x - mean xs) / ((xs.length + 1 : ℕ) : K) := by
  have h : ((xs.length + 1 : ℕ) : K) ≠ 0 := Nat.cast_ne_zero.mpr (Nat.succ_ne_zero _)
  have hs := length_mul_mean xs
  rw [mean, List.sum_append, List.length_append, List.length_singleton, List.sum_singleton,
    ← hs]
  field_simp
  push_cast
  ring

/-- The deviations about the mean moved by `d`: the cross term vanishes. -/
theorem sumSqAbout_mean_add (xs : List K) (d : K) :
    sumSqAbout (mean xs + d) xs = sumSqDev xs + xs.length * d ^ 2 := by
  rw [sumSqAbout_add, length_mul_mean, sub_self, mul_zero, sub_zero, sumSqDev]

/-- **The sum of squares recurrence.** -/
theorem sumSqDev_concat (xs : List K) (x : K) :
    sumSqDev (xs ++ [x]) =
      sumSqDev xs + (x - mean xs) * (x - mean (xs ++ [x])) := by
  have h : ((xs.length : K) + 1) ≠ 0 := by exact_mod_cast Nat.succ_ne_zero xs.length
  have hsplit : sumSqDev (xs ++ [x]) =
      sumSqAbout (mean (xs ++ [x])) xs + (x - mean (xs ++ [x])) ^ 2 := by
    simp [sumSqDev, sumSqAbout]
  rw [hsplit, mean_concat, sumSqAbout_mean_add]
  push_cast
  field_simp
  ring

/-- The mean of positive samples is positive. -/
theorem mean_pos {K : Type*} [Field K] [LinearOrder K] [IsStrictOrderedRing K] {xs : List K}
    (hne : xs ≠ []) (hpos : ∀ x ∈ xs, 0 < x) : 0 < mean xs :=
  div_pos (List.sum_pos xs hpos hne) (Nat.cast_pos.mpr (List.length_pos_of_ne_nil hne))

/-- The mean of samples between two bounds lies between them. -/
theorem mean_mem_bounds {K : Type*} [Field K] [LinearOrder K] [IsStrictOrderedRing K] {xs : List K}
    {lo hi : K} (hne : xs ≠ []) (h : ∀ x ∈ xs, lo ≤ x ∧ x ≤ hi) :
    lo ≤ mean xs ∧ mean xs ≤ hi := by
  have hlength : (0 : K) < xs.length := Nat.cast_pos.mpr (List.length_pos_of_ne_nil hne)
  have hlow := List.card_nsmul_le_sum xs lo fun x hx => (h x hx).1
  have hhigh := List.sum_le_card_nsmul xs hi fun x hx => (h x hx).2
  rw [nsmul_eq_mul] at hlow hhigh
  rw [mean, le_div_iff₀ hlength, div_le_iff₀ hlength, mul_comm lo, mul_comm hi]
  exact ⟨hlow, hhigh⟩

end OnlineMoments
