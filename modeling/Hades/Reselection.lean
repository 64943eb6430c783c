import Mathlib.Data.List.Basic
import Mathlib.Tactic.Common

/-!
# Selecting Again by Every Selected Item

Items are selected from a list, and then every member of another list selects from the same
items. When does the second round give the first selection back? An item may be selected by
several members, by none of them, or by one that had nothing to do with the first selection.

## Main results

* `countP_eq_ite_iff`: when a predicate selects no item but one.
* `flatMap_filter_perm_iff`: **the second round gives the first selection** exactly when
  every item of it is selected once, and no other item at all.
-/

namespace Reselection

variable {α β : Type*}

/-- **An item is the only one** that a predicate selects exactly when the predicate selects
nothing at another position. -/
theorem countP_eq_one_iff {p : α → Bool} {xs : List α} {i : ℕ} {x : α} (hx : xs[i]? = some x)
    (hp : p x = true) :
    xs.countP p = 1 ↔ ∀ j y, j ≠ i → xs[j]? = some y → p y = false := by
  induction xs generalizing i with
  | nil => cases hx
  | cons z zs ih =>
      cases i with
      | zero =>
          obtain rfl := Option.some.inj hx
          rw [List.countP_cons_of_pos hp, Nat.add_eq_right, List.countP_eq_zero]
          constructor
          · intro h j y hj hy
            cases j with
            | zero => exact absurd rfl hj
            | succ j => exact Bool.eq_false_iff.mpr (h y (List.mem_of_getElem? hy))
          · intro h y hy
            obtain ⟨j, hj⟩ := List.mem_iff_getElem?.mp hy
            exact Bool.eq_false_iff.mp (h (j + 1) y (Nat.succ_ne_zero j) hj)
      | succ i =>
          have hpos : 0 < zs.countP p :=
            List.countP_pos_iff.mpr ⟨x, List.mem_of_getElem? hx, hp⟩
          by_cases hz : p z = true
          · rw [List.countP_cons_of_pos hz]
            constructor
            · intro h
              omega
            · intro h
              exact absurd (h 0 z (Nat.succ_ne_zero i).symm rfl) (Bool.eq_false_iff.not_left.mpr hz)
          · rw [List.countP_cons_of_neg hz, ih hx]
            constructor
            · intro h j y hj hy
              cases j with
              | zero =>
                  obtain rfl := Option.some.inj hy
                  exact Bool.eq_false_iff.mpr hz
              | succ j => exact h j y (fun hji => hj (congrArg _ hji)) hy
            · intro h j y hj hy
              exact h (j + 1) y (fun hji => hj (Nat.succ.inj hji)) hy

/-- **Nothing but an item** is selected, whether or not it is selected itself. -/
theorem countP_eq_ite_iff {p : α → Bool} {xs : List α} {i : ℕ} {x : α} (hx : xs[i]? = some x) :
    xs.countP p = (if p x then 1 else 0) ↔
      ∀ (j : ℕ) (y : α), j ≠ i → xs[j]? = some y → p y = false := by
  cases hp : p x with
  | true => exact countP_eq_one_iff hx hp
  | false =>
      rw [if_neg Bool.false_ne_true, List.countP_eq_zero]
      constructor
      · exact fun h j y _ hy => Bool.eq_false_iff.mpr (h y (List.mem_of_getElem? hy))
      · intro h y hy
        obtain ⟨j, hj⟩ := List.mem_iff_getElem?.mp hy
        by_cases hji : j = i
        · rw [hji, hx] at hj
          obtain rfl := Option.some.inj hj
          exact Bool.eq_false_iff.mp hp
        · exact Bool.eq_false_iff.mp (h j y hji hj)

theorem count_filter_eq [DecidableEq α] (q : α → Bool) (xs : List α) (x : α) :
    (xs.filter q).count x = (if q x then 1 else 0) * xs.count x := by
  cases hq : q x with
  | true => rw [List.count_filter hq, if_pos rfl, Nat.one_mul]
  | false =>
      rw [if_neg Bool.false_ne_true, Nat.zero_mul, List.count_eq_zero]
      intro hmem
      have hselected := (List.mem_filter.mp hmem).2
      rw [hq] at hselected
      cases hselected

/-- How often an item comes up in the second round. -/
theorem count_flatMap_filter [DecidableEq α] (ys : List β) (p : β → α → Bool) (xs : List α)
    (x : α) :
    (ys.flatMap fun y => xs.filter (p y)).count x = ys.countP (fun y => p y x) * xs.count x := by
  induction ys with
  | nil => rw [List.flatMap_nil, List.count_nil, List.countP_nil, Nat.zero_mul]
  | cons y ys ih =>
      rw [List.flatMap_cons, List.count_append, ih, count_filter_eq, List.countP_cons,
        Nat.add_mul, Nat.add_comm]

/-- **The second round gives the first selection** exactly when every item of it is selected
once, and no other item at all. -/
theorem flatMap_filter_perm_iff [DecidableEq α] {ys : List β} {p : β → α → Bool} {q : α → Bool}
    {xs : List α} :
    (ys.flatMap fun y => xs.filter (p y)).Perm (xs.filter q) ↔
      ∀ x ∈ xs, ys.countP (fun y => p y x) = if q x then 1 else 0 := by
  rw [List.perm_iff_count]
  constructor
  · intro h x hx
    have hcount := h x
    rw [count_flatMap_filter, count_filter_eq] at hcount
    exact Nat.eq_of_mul_eq_mul_right (List.count_pos_iff.mpr hx) hcount
  · intro h x
    rw [count_flatMap_filter, count_filter_eq]
    by_cases hx : x ∈ xs
    · rw [h x hx]
    · rw [List.count_eq_zero_of_not_mem hx, Nat.mul_zero, Nat.mul_zero]

end Reselection
