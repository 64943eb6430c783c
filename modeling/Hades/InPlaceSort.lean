import Mathlib.Algebra.Field.Defs
import Mathlib.Data.List.Sort
import Mathlib.Tactic.Common

/-!
# In-Place Insertion Sort of an Array Prefix

The textbook insertion sort of the first `m` cells of a fixed-size array, with an arbitrary
comparison: the outer loop takes the cells from left to right, the inner loop shifts larger
cells one place to the right until the key's place is found. Every array access carries the
proof that its index is in range, so an access outside the array cannot be written down.

## Main results

* `take_sortPrefix`: read from right to left, the sorted prefix is Mathlib's
  `List.insertionSort` of the prefix read from right to left.
* `perm_sortPrefix`: the sorted prefix is a permutation of the prefix.
* `pairwise_sortPrefix_of_total`: it is sorted, if the comparison is one of a total preorder
  on the values that are there; `pairwise_sortPrefix` is the case of a linear order.
* `mem_of_getElem_sortPrefix`: each sorted cell is one of the original cells.
* `Median.median_eq_ofSorted`: the median of a list may be read off any sorted permutation.
-/

namespace InPlaceSort

variable {α : Type*} {n : ℕ}

/-- The cells up to `j` are the cells before `j` and cell `j`. -/
theorem take_succ (a : Vector α n) {j : ℕ} (hj : j < n) :
    a.toList.take (j + 1) = a.toList.take j ++ [a[j]] := by
  rw [List.take_succ_eq_append_getElem (by simpa using hj), Vector.getElem_toList]

/-- Writing cell `j` does not change the cells before it. -/
theorem take_set_self (a : Vector α n) {j : ℕ} (x : α) (hj : j < n) :
    (a.set j x hj).toList.take j = a.toList.take j := by
  rw [Vector.toList_set, List.take_set_of_le (le_refl j)]

variable [LT α] [DecidableLT α]

/-- The inner loop. Cells above `key` move one place right, from the `hole` downwards;
the key is written into the place where the hole stops. -/
def shiftInsert (key : α) (a : Vector α n) : (hole : ℕ) → hole < n → Vector α n
  | 0, h => a.set 0 key h
  | j + 1, h =>
      if a[j] > key then shiftInsert key (a.set (j + 1) a[j] h) j (by omega)
      else a.set (j + 1) key h

/-- The outer loop: the first `m` cells are sorted in place, the second cell first. -/
def sortPrefix (a : Vector α n) : (m : ℕ) → m ≤ n → Vector α n
  | 0, _ => a
  | 1, _ => a
  | m + 2, h =>
      let b := sortPrefix a (m + 1) (by omega)
      shiftInsert b[m + 1] b (m + 1) (by omega)

/-- The inner loop leaves the cells to the right of the hole alone. -/
theorem getElem_shiftInsert_of_lt (key : α) (a : Vector α n) {hole i : ℕ}
    (hhole : hole < n) (hi : i < n) (hlt : hole < i) :
    (shiftInsert key a hole hhole)[i] = a[i] := by
  induction hole generalizing a with
  | zero => rw [shiftInsert, Vector.getElem_set_ne _ _ (by omega)]
  | succ j ih =>
      rw [shiftInsert]
      split
      · rw [ih _ (by omega) (by omega), Vector.getElem_set_ne _ _ (by omega)]
      · rw [Vector.getElem_set_ne _ _ (by omega)]

/-- **One pass of the inner loop**: read from right to left, the cells up to the hole are
the ordered insertion of the key into the cells before the hole. -/
theorem take_shiftInsert (key : α) (a : Vector α n) {hole : ℕ} (hhole : hole < n) :
    ((shiftInsert key a hole hhole).toList.take (hole + 1)).reverse =
      List.orderedInsert (¬ · < ·) key (a.toList.take hole).reverse := by
  induction hole generalizing a with
  | zero =>
      rw [take_succ _ hhole, shiftInsert, Vector.getElem_set_self]
      simp
  | succ j ih =>
      have hj : j < n := by omega
      rw [take_succ a hj, List.reverse_concat, List.orderedInsert_cons]
      rw [take_succ _ hhole, List.reverse_concat, shiftInsert]
      split
      · rw [ih _ hj, getElem_shiftInsert_of_lt _ _ _ _ (by omega), Vector.getElem_set_self]
        have htake : (a.set (j + 1) a[j] hhole).toList.take j = a.toList.take j := by
          rw [Vector.toList_set, List.take_set_of_le (by omega)]
        rw [htake]
      · rw [Vector.getElem_set_self, take_set_self, take_succ a hj, List.reverse_concat]

/-- The outer loop leaves the cells after the prefix alone. -/
theorem getElem_sortPrefix_of_le (a : Vector α n) {m i : ℕ} (hm : m ≤ n) (hi : i < n)
    (hle : m ≤ i) : (sortPrefix a m hm)[i] = a[i] := by
  induction m using Nat.twoStepInduction with
  | zero => rfl
  | one => rfl
  | more m _ ih =>
      rw [sortPrefix, getElem_shiftInsert_of_lt _ _ _ _ (by omega)]
      exact ih (by omega) (by omega)

/-- **The outer loop is Mathlib's insertion sort**, with both lists read from right to
left. -/
theorem take_sortPrefix (a : Vector α n) {m : ℕ} (hm : m ≤ n) :
    ((sortPrefix a m hm).toList.take m).reverse =
      List.insertionSort (¬ · < ·) (a.toList.take m).reverse := by
  induction m using Nat.twoStepInduction with
  | zero => rfl
  | one =>
      rw [sortPrefix, take_succ a (by omega)]
      simp
  | more m _ ih =>
      have hlt : m + 1 < n := by omega
      rw [sortPrefix, take_shiftInsert, ih (by omega), take_succ a hlt, List.reverse_concat,
        List.insertionSort_cons, getElem_sortPrefix_of_le a (by omega) hlt (le_refl _)]

/-- The sorted prefix is a permutation of the prefix. -/
theorem perm_sortPrefix (a : Vector α n) {m : ℕ} (hm : m ≤ n) :
    ((sortPrefix a m hm).toList.take m).Perm (a.toList.take m) := by
  refine (List.reverse_perm _).symm.trans ?_
  rw [take_sortPrefix]
  exact (List.perm_insertionSort _ _).trans (List.reverse_perm _)

/-- Each cell of the sorted prefix is one of the cells of the prefix. -/
theorem mem_of_getElem_sortPrefix (a : Vector α n) {m i : ℕ} (hm : m ≤ n) (hi : i < m) :
    (sortPrefix a m hm)[i] ∈ a.toList.take m := by
  refine (perm_sortPrefix a hm).subset ?_
  rw [← Vector.getElem_toList (by simpa using by omega)]
  exact List.mem_take_iff_getElem.mpr ⟨i, by simpa using by omega, rfl⟩

/-- **Insertion sort sorts** the values of a kind among which the comparison is one of a total
preorder. -/
theorem pairwise_insertionSort_of_total {p : α → Prop}
    (htotal : ∀ x y, p x → p y → ¬ x < y ∨ ¬ y < x)
    (htrans : ∀ x y z, p x → p y → p z → ¬ x < y → ¬ y < z → ¬ x < z)
    {xs : List α} (hp : ∀ x ∈ xs, p x) :
    (xs.insertionSort (¬ · < ·)).Pairwise (¬ · < ·) := by
  let r : {x // p x} → {x // p x} → Prop := fun x y => ¬ x.val < y.val
  have hdecidable : DecidableRel r := fun x y => inferInstanceAs (Decidable (¬ x.val < y.val))
  have hr : Std.Total r := ⟨fun x y => htotal x y x.property y.property⟩
  have ht : IsTrans {x // p x} r :=
    ⟨fun x y z => htrans x y z x.property y.property z.property⟩
  have hmap : ((xs.attachWith p hp).insertionSort r).map Subtype.val =
      xs.insertionSort (¬ · < ·) := by
    rw [List.map_insertionSort r (¬ · < ·) Subtype.val (xs.attachWith p hp)
      fun x _ y _ => Iff.rfl, List.attachWith_map_subtype_val]
  rw [← hmap, List.pairwise_map]
  exact List.pairwise_insertionSort r _

/-- **The sorted prefix is sorted**, where the comparison is one of a total preorder. -/
theorem pairwise_sortPrefix_of_total {p : α → Prop}
    (htotal : ∀ x y, p x → p y → ¬ x < y ∨ ¬ y < x)
    (htrans : ∀ x y z, p x → p y → p z → ¬ x < y → ¬ y < z → ¬ x < z)
    (a : Vector α n) {m : ℕ} (hm : m ≤ n) (hp : ∀ x ∈ a.toList.take m, p x) :
    ((sortPrefix a m hm).toList.take m).Pairwise fun x y => ¬ y < x := by
  rw [← List.pairwise_reverse, take_sortPrefix]
  exact pairwise_insertionSort_of_total htotal htrans fun x hx => hp x (List.mem_reverse.mp hx)

/-- The sorted prefix is sorted. -/
theorem pairwise_sortPrefix {α : Type*} [LinearOrder α] (a : Vector α n) {m : ℕ} (hm : m ≤ n) :
    ((sortPrefix a m hm).toList.take m).Pairwise (· ≤ ·) := by
  have hsorted := pairwise_sortPrefix_of_total (p := fun _ => True)
    (fun x y _ _ => (le_total y x).imp not_lt.mpr not_lt.mpr)
    (fun x y z _ _ _ hxy hyz => not_lt.mpr ((not_lt.mp hyz).trans (not_lt.mp hxy))) a hm
    fun _ _ => trivial
  exact hsorted.imp not_lt.mp

end InPlaceSort

/-! ### The middle of a sorted list -/

namespace Median

variable {α : Type*} [Field α] [LinearOrder α]

/-- The middle of a sorted list: its middle element, or half the sum of the two middle ones, and
zero if there is none. -/
def ofSorted (sorted : List α) : α :=
  if sorted.length % 2 = 1 then sorted.getD (sorted.length / 2) 0
  else (sorted.getD (sorted.length / 2 - 1) 0 + sorted.getD (sorted.length / 2) 0) * (1 / 2)

/-- **The median** of a list. -/
def median (xs : List α) : α :=
  ofSorted (xs.insertionSort (· ≤ ·))

/-- Any sorted permutation has the median in its middle. -/
theorem median_eq_ofSorted {xs sorted : List α} (hperm : sorted.Perm xs)
    (hsorted : sorted.Pairwise (· ≤ ·)) : median xs = ofSorted sorted := by
  rw [median]
  congr 1
  exact ((List.perm_insertionSort (· ≤ ·) xs).trans hperm.symm).eq_of_pairwise'
    (List.pairwise_insertionSort (· ≤ ·) xs) hsorted

end Median
