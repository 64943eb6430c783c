import Mathlib.Data.List.DropRight
import Mathlib.Data.List.Rotate
import Mathlib.Data.Nat.ModEq
import Mathlib.Tactic.Common

/-!
# Ring Buffers

A vector of `n` slots in which the `j`-th value of a series goes to slot `j % n`, over the
oldest one once all slots are in use. `Holds` is the invariant: the last `n` values of the
series are in their slots.

## Main results

* `holds_set`: **writing the next value** keeps the invariant.
* `mem_rtake_of_holds`: an occupied slot has one of the last `n` values.
* `rotate_take_of_holds`: **the slots in the order of arrival** are the last `n` values.
* `rotate_set_succ`: a write over the oldest value, in that order.
-/

namespace RingBuffer

variable {α : Type*} {n : ℕ}

/-- The ring holds the last values of a series, each one in its slot. -/
def Holds (ring : Vector α n) (xs : List α) : Prop :=
  ∀ j < xs.length, xs.length ≤ j + n → ring[j % n]? = xs[j]?

/-- A ring holds the empty series. -/
theorem holds_nil (ring : Vector α n) : Holds ring [] :=
  fun _ hj => absurd hj (Nat.not_lt_zero _)

/-- Two of `n` successive positions have different slots. -/
theorem slot_ne {j k : ℕ} (hjk : j < k) (hk : k < j + n) : j % n ≠ k % n := by
  intro heq
  have hdvd : n ∣ k - j := (Nat.modEq_iff_dvd' hjk.le).mp heq
  have hle : n ≤ k - j := Nat.le_of_dvd (by omega) hdvd
  omega

/-- **Writing the next value** of the series into its slot. -/
theorem holds_set {ring : Vector α n} {xs : List α} (h : Holds ring xs) (x : α)
    (hslot : xs.length % n < n) : Holds (ring.set (xs.length % n) x hslot) (xs ++ [x]) := by
  intro j hj hlast
  rw [List.length_append, List.length_singleton] at hj hlast
  rcases Nat.lt_or_eq_of_le (Nat.lt_succ_iff.mp hj) with hlt | rfl
  · have hne : xs.length % n ≠ j % n := (slot_ne hlt (by omega)).symm
    rw [Vector.getElem?_set_ne hslot hne, List.getElem?_append_left hlt]
    exact h j hlt (by omega)
  · rw [Vector.getElem?_set_self hslot, List.getElem?_concat_length]

/-- The last position of a slot that is in use. -/
theorem exists_last_position {i m : ℕ} (hi : i < n) (him : i < m) :
    ∃ j < m, m ≤ j + n ∧ j % n = i := by
  induction m with
  | zero => omega
  | succ m ih =>
      by_cases hlast : m % n = i
      · exact ⟨m, by omega, by omega, hlast⟩
      · have hne : m ≠ i := by
          rintro rfl
          exact hlast (Nat.mod_eq_of_lt hi)
        obtain ⟨j, hj, hle, hmod⟩ := ih (by omega)
        have hnot : m ≠ j + n := by
          rintro rfl
          rw [Nat.add_mod_right] at hlast
          exact hlast hmod
        exact ⟨j, by omega, by omega, hmod⟩

/-- **An occupied slot has one of the last values** of the series. -/
theorem mem_rtake_of_holds {ring : Vector α n} {xs : List α} (h : Holds ring xs) {i : ℕ}
    (hi : i < n) (hixs : i < xs.length) : ring[i] ∈ xs.rtake n := by
  obtain ⟨j, hj, hle, rfl⟩ := exists_last_position hi hixs
  have hslot : ring[j % n]? = xs[j]? := h j hj hle
  have hget : xs[j]? = some ring[j % n] := by
    rw [← hslot, Vector.getElem?_eq_getElem hi]
  have hdrop : (xs.drop (xs.length - n))[j - (xs.length - n)]? = some ring[j % n] := by
    rw [List.getElem?_drop, ← hget]
    congr 1
    omega
  exact List.mem_of_getElem? hdrop

/-! ### The order of arrival -/

/-- The end of a list of which the beginning has been cut off before. -/
theorem rtake_append_rtake (xs ys : List α) (n : ℕ) :
    (xs.rtake n ++ ys).rtake n = (xs ++ ys).rtake n := by
  simp only [List.rtake_eq_reverse_take_reverse, List.reverse_append, List.reverse_reverse,
    List.take_append, List.take_take]
  rw [min_eq_left (Nat.sub_le _ _)]

/-- The end of the end of a list. -/
theorem rtake_rtake (xs : List α) (m n : ℕ) : (xs.rtake m).rtake n = xs.rtake (min n m) := by
  simp only [List.rtake_eq_reverse_take_reverse, List.reverse_reverse, List.take_take]

/-- The length of the end of a list. -/
theorem length_rtake (xs : List α) (n : ℕ) : (xs.rtake n).length = min n xs.length := by
  rw [List.rtake, List.length_drop]
  omega

/-- **The occupied slots in the order of arrival**, the oldest value first, are the last
values of the series. -/
theorem rotate_take_of_holds {ring : Vector α n} {xs : List α} (h : Holds ring xs) :
    (ring.toList.take xs.length).rotate xs.length = xs.rtake n := by
  have hlength : (ring.toList.take xs.length).length = min xs.length n := by
    rw [List.length_take, Vector.length_toList]
  refine List.ext_getElem (by rw [List.length_rotate, hlength, length_rtake, min_comm]) ?_
  intro i hi _
  rw [List.length_rotate, hlength] at hi
  rw [List.getElem_rotate, List.getElem_take, Vector.getElem_toList]
  simp only [List.rtake, List.getElem_drop, hlength]
  -- the value in question is the one at position `j` of the series
  obtain ⟨j, hj⟩ : ∃ j, j = xs.length - n + i := ⟨_, rfl⟩
  have hmod : (i + xs.length) % min xs.length n = j % n := by
    rcases Nat.lt_or_ge xs.length n with hlt | hge
    · rw [min_eq_left hlt.le, Nat.add_mod_right, Nat.mod_eq_of_lt (by omega),
        Nat.mod_eq_of_lt (by omega)]
      omega
    · have hsum : i + xs.length = j + n := by omega
      rw [min_eq_right hge, hsum, Nat.add_mod_right]
  have hslot := h j (by omega) (by omega)
  have hn : j % n < n := Nat.mod_lt _ (by omega)
  rw [Vector.getElem?_eq_getElem hn, List.getElem?_eq_getElem (by omega)] at hslot
  simp only [hmod, ← hj]
  exact Option.some.inj hslot

/-- **A write over the oldest value**: in the order of arrival it goes, and the new value
comes last. -/
theorem rotate_set_succ (xs : List α) {k : ℕ} (hk : k < xs.length) (x : α) :
    (xs.set k x).rotate (k + 1) = (xs.rotate k).tail ++ [x] := by
  have htake : (xs.set k x).take (k + 1) = xs.take k ++ [x] := by
    rw [List.take_succ_eq_append_getElem (by rwa [List.length_set]), List.getElem_set_self,
      List.take_set_of_le (le_refl k)]
  rw [List.rotate_eq_drop_append_take (by rw [List.length_set]; omega), htake,
    List.drop_set_of_lt (Nat.lt_succ_self k), List.rotate_eq_drop_append_take hk.le,
    List.tail_append_of_ne_nil (by simpa using hk), List.tail_drop, List.append_assoc]

end RingBuffer
