import Hades.Binary64
import Hades.CheckedArray
import Hades.JitterWindow

/-!
# The Median of the Last Values

`internalMedian` copies the occupied slots into an array of its own and sorts it there, with
an index that goes down to `-1`. `medianChecked` is the same computation in which an access
outside the array, or to a cell without a value, has no result.

The values are doubles. NaN is neither less nor greater than anything, so that an array with a
NaN need not come out sorted; and the sum of the two middle values may overflow.

## Main results

* `medianChecked_eq`: **no such access is made**, for any values and any comparison.
* `medianChecked_foldl_push`: the median after any doubles is **that of the last of them**,
  unless one of these is NaN or the middle sum overflows.
* `median_fails`: it is not, in either case.
-/

namespace Hades.Runtime.RollingJitterWindow

open CheckedArray Binary64

section Checked

variable {α : Type*} [LT α] [DecidableLT α] [Zero α] [HalfSum α]

/-- `median` and `internalMedian`, with checked accesses to the array `sorted`. -/
def medianChecked (w : RollingJitterWindow α) : Option α :=
  if w.count = 0 then some 0
  else
    (copyCells w.window w.count).bind fun copied =>
      (sortCells copied w.count).bind fun sorted =>
        if w.count % 2 = 1 then load sorted (w.count / 2 : ℕ)
        else
          (load sorted (w.count / 2 - 1 : ℕ)).bind fun lower =>
            (load sorted (w.count / 2 : ℕ)).bind fun upper =>
              some (HalfSum.halfSum lower upper)

/-- **Every access is inside the array**, and to a cell that has a value. -/
theorem medianChecked_eq (w : RollingJitterWindow α) : w.medianChecked = some w.median := by
  have hle := w.count_le
  rw [medianChecked, median]
  by_cases hzero : w.count = 0
  · rw [if_pos hzero, dif_pos hzero]
  obtain ⟨copied, hcopied, hagrees⟩ := exists_copyCells w.window w.count_le
  obtain ⟨sorted, hsorted, hresult⟩ := exists_sortCells w.count_le le_rfl hagrees
  rw [if_neg hzero, dif_neg hzero, hcopied, Option.bind_some, hsorted, Option.bind_some,
    internalMedian]
  have hupper := load_of_agrees hresult (i := w.count / 2) (by omega) (by omega)
  by_cases hodd : w.count % 2 = 1
  · rw [if_pos hodd, dif_pos hodd, hupper]
  · have hlower := load_of_agrees hresult (i := w.count / 2 - 1) (by omega) (by omega)
    rw [if_neg hodd, dif_neg hodd, hlower, hupper]
    rfl

/-- Nine values, of which the first one is gone. -/
example : (([100, 3, 1, 2, 2, 8, 9, 7, 5] : List ℚ).foldl push empty).medianChecked = some 4 := by
  decide +kernel

end Checked

/-! ### Doubles -/

instance : HalfSum Double where
  halfSum := Double.halfSum

/-- The middle of sorted doubles: the middle one, or the mean of the two middle ones, rounded,
where these are numbers and their sum does not overflow. -/
def IsMiddle (sorted : List Double) (m : Double) : Prop :=
  if sorted = [] then m = 0
  else if sorted.length % 2 = 1 then sorted[sorted.length / 2]? = some m
  else
    ∀ (p q : ℚ) (hp : IsFinite p) (hq : IsFinite q),
      sorted[sorted.length / 2 - 1]? = some (.finite p hp) →
      sorted[sorted.length / 2]? = some (.finite q hq) →
      |Binary64.round (p + q)| < 2 ^ 1024 → m = .ofRat ((p + q) / 2)

/-- What is read off sorted doubles. -/
theorem isMiddle_middle (sorted : List Double) : IsMiddle sorted (middle sorted) := by
  rw [IsMiddle, middle]
  split
  · rfl
  next hne =>
  have hlength : 0 < sorted.length := List.length_pos_iff.mpr hne
  split
  · have hlt : sorted.length / 2 < sorted.length := by omega
    rw [List.getElem?_eq_getElem hlt, List.getD_eq_getElem _ _ hlt]
  · intro p q hp hq hlower hupper hsum
    rw [List.getD_eq_getElem?_getD, List.getD_eq_getElem?_getD, hlower, hupper]
    exact Double.halfSum_finite hp hq hsum

/-- The sorted copy is sorted, if no entry is NaN. -/
theorem pairwise_sortedEntries {w : RollingJitterWindow Double}
    (h : ∀ v ∈ w.arrival, v ≠ .nan) : w.sortedEntries.Pairwise fun a b => ¬ b < a := by
  refine InPlaceSort.pairwise_sortPrefix_of_total (p := (· ≠ Double.nan))
    (fun a b _ _ => Double.lt_total a b) (fun a b c _ hb _ => Double.not_lt_trans hb)
    w.window w.count_le fun v hv => h v ?_
  exact (List.rotate_perm w.entries w.next).mem_iff.mpr hv

/-- **After any doubles** no access is outside the array; and the median is that of the last
ones, as many as the window has slots, if none of them is NaN. -/
theorem medianChecked_foldl_push (values : List Double) :
    (values.foldl push empty).medianChecked = some (values.foldl push empty).median ∧
      ((∀ v ∈ values.rtake JITTER_WINDOW, v ≠ .nan) →
        ∃ sorted : List Double, sorted.Perm (values.rtake JITTER_WINDOW) ∧
          sorted.Pairwise (fun a b => ¬ b < a) ∧
          IsMiddle sorted (values.foldl push empty).median) := by
  refine ⟨medianChecked_eq _, fun hnumbers => ?_⟩
  have harrival : (values.foldl push empty).arrival = values.rtake JITTER_WINDOW := by
    rw [arrival_foldl_push, arrival_empty, List.nil_append]
  have hsorted := pairwise_sortedEntries (w := values.foldl push empty) (by rwa [harrival])
  have hperm := (values.foldl push empty).perm_sortedEntries
  rw [harrival] at hperm
  exact ⟨_, hperm, hsorted, by rw [median_eq_middle]; exact isMiddle_middle _⟩

/-- A power of two as a double. -/
def powerOfTwo (k : ℕ) (hk : k < 1024) : Double :=
  .finite (2 ^ k) (isFinite_two_pow hk)

/-- Four numbers, and a NaN behind the largest one. -/
def valuesWithNaN : List Double :=
  [powerOfTwo 3 (by decide), .nan, powerOfTwo 0 (by decide), powerOfTwo 1 (by decide),
    powerOfTwo 2 (by decide)]

/-- In no order of them is the smallest number in the middle: one of the two in front of it would
be greater. -/
theorem not_isMiddle_valuesWithNaN {sorted : List Double} (hperm : sorted.Perm valuesWithNaN)
    (hsorted : sorted.Pairwise fun a b => ¬ b < a) :
    ¬ IsMiddle sorted (powerOfTwo 0 (by decide)) := by
  intro hmiddle
  obtain ⟨a, b, c, d, e, rfl⟩ : ∃ a b c d e, sorted = [a, b, c, d, e] := by
    have hlength : sorted.length = 5 := hperm.length_eq
    match sorted, hlength with
    | [a, b, c, d, e], _ => exact ⟨a, b, c, d, e, rfl⟩
  obtain rfl : c = powerOfTwo 0 (by decide) := by simpa [IsMiddle] using hmiddle
  simp only [List.pairwise_cons, List.mem_cons] at hsorted
  have ha := hsorted.1 _ (.inr (.inl rfl))
  have hb := hsorted.2.1 _ (.inl rfl)
  have hfront : ∀ x ∈ valuesWithNaN, ¬ powerOfTwo 0 (by decide) < x →
      x = .nan ∨ x = powerOfTwo 0 (by decide) := by decide +kernel
  have hcounts : valuesWithNaN.count .nan = 1 ∧
      valuesWithNaN.count (powerOfTwo 0 (by decide)) = 1 := by decide +kernel
  rw [← hperm.count_eq, ← hperm.count_eq] at hcounts
  obtain ⟨hnans, hones⟩ := hcounts
  rcases hfront a (hperm.subset (by simp)) ha with rfl | rfl
  · rcases hfront b (hperm.subset (by simp)) hb with rfl | rfl
    · rw [List.count_cons_self, List.count_cons_self] at hnans
      omega
    · rw [List.count_cons_of_ne (by decide), List.count_cons_self, List.count_cons_self] at hones
      omega
  · rw [List.count_cons_self, List.count_cons, List.count_cons_self] at hones
    omega

/-- **Where the median fails**: that of `2 ^ 1023` and `2 ^ 1023` is infinite, and not their mean;
and the smallest of four numbers is not the middle of them and a NaN. -/
theorem median_fails :
    let huge := powerOfTwo 1023 (by decide)
    (([huge, huge].foldl push empty).median = .infinity false ∧
        ([huge, huge].foldl push empty).median ≠ .ofRat ((2 ^ 1023 + 2 ^ 1023) / 2)) ∧
      (valuesWithNaN.foldl push empty).median = powerOfTwo 0 (by decide) ∧
        ∀ sorted : List Double, sorted.Perm valuesWithNaN →
          sorted.Pairwise (fun a b => ¬ b < a) →
            ¬ IsMiddle sorted (powerOfTwo 0 (by decide)) := by
  intro huge
  refine ⟨?_, by decide +kernel, fun sorted => not_isMiddle_valuesWithNaN⟩
  have hsum : (2 : ℚ) ^ 1023 + 2 ^ 1023 = 2 ^ 1024 := by rw [← mul_two, ← pow_succ]
  have hsorted : ([huge, huge].foldl push empty).sortedEntries = [huge, huge] := by
    have hperm := ([huge, huge].foldl push empty).perm_sortedEntries
    rw [arrival_foldl_push] at hperm
    exact List.perm_replicate (n := 2).mp hperm
  have hmiddle : ∀ a b : Double, middle [a, b] = Double.halfSum a b := fun a b => by
    simp [middle, HalfSum.halfSum]
  have hinfinite : ([huge, huge].foldl push empty).median = .infinity false := by
    rw [median_eq_middle, hsorted, hmiddle]
    exact Double.halfSum_overflow _ _ (by rw [hsum, round_two_pow])
  refine ⟨hinfinite, ?_⟩
  rw [hinfinite, add_self_div_two, Double.ofRat_of_isFinite (isFinite_two_pow (by decide))]
  intro heq
  cases heq

end Hades.Runtime.RollingJitterWindow
