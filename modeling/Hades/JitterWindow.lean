import Mathlib.Data.List.GetD
import Hades.RingBuffer
import Hades.StatsAccumulator

/-!
# The Jitter Window in the Order of Arrival

The slots of the rolling window are written round and round, so the order of the slots is
not that in which the entries came. `arrival` reads them from the write position on: the
oldest entry first.

## Main results

* `RollingJitterWindow.arrival_push`: **a push** appends an entry and lets the oldest of a
  full window go.
* `RollingJitterWindow.arrival_foldl_push`: what a series of pushes leaves.
* `RollingJitterWindow.median_eq_middle`: **the median** is the middle of the sorted entries;
  over the rationals it is their median (`RollingJitterWindow.median_eq`).
-/

namespace Hades.Runtime.RollingJitterWindow

variable {α : Type*}

/-- **The entries in the order of arrival**, the oldest one first. -/
def arrival (w : RollingJitterWindow α) : List α :=
  w.entries.rotate w.next

@[simp] theorem arrival_empty [Zero α] : (empty : RollingJitterWindow α).arrival = [] := rfl

@[simp] theorem length_entries (w : RollingJitterWindow α) : w.entries.length = w.count := by
  rw [entries, List.length_take, Vector.length_toList, min_eq_left w.count_le]

@[simp] theorem length_arrival (w : RollingJitterWindow α) : w.arrival.length = w.count := by
  rw [arrival, List.length_rotate, length_entries]

/-- While the window fills, the slots are in the order of arrival. -/
theorem arrival_of_filling {w : RollingJitterWindow α} (h : w.count < JITTER_WINDOW) :
    w.arrival = w.entries := by
  rw [arrival, w.next_of_filling h, ← length_entries, List.rotate_length]

/-- A push into a window that is not full. -/
theorem entries_push_of_filling {w : RollingJitterWindow α} (h : w.count < JITTER_WINDOW)
    (x : α) : (w.push x).entries = w.entries ++ [x] := by
  have hnext := w.next_of_filling h
  have hcount : (w.push x).count = w.count + 1 := by
    rw [count_push, min_eq_right h]
  rw [entries, hcount, push, Vector.toList_set]
  simp only [hnext]
  rw [List.take_succ_eq_append_getElem (by rwa [List.length_set, Vector.length_toList]),
    List.getElem_set_self, List.take_set_of_le (le_refl _), entries]

/-- A push into a full window. -/
theorem arrival_push_of_full {w : RollingJitterWindow α} (h : w.count = JITTER_WINDOW) (x : α) :
    (w.push x).arrival = w.arrival.tail ++ [x] := by
  have hall : ∀ v : RollingJitterWindow α, v.count = JITTER_WINDOW → v.entries = v.window.toList :=
    fun v hv => by rw [entries, hv, List.take_of_length_le (by rw [Vector.length_toList])]
  have hcount : (w.push x).count = JITTER_WINDOW := by
    rw [count_push, h]
    rfl
  have hnext : w.next < w.window.toList.length := by
    rw [Vector.length_toList]
    exact w.next_lt
  have hlength : (w.window.toList.set w.next x).length = JITTER_WINDOW := by
    rw [List.length_set, Vector.length_toList]
  have hmod : (w.push x).next = (w.next + 1) % (w.window.toList.set w.next x).length := by
    rw [hlength]
    rfl
  rw [arrival, arrival, hall w h, hall _ hcount, hmod, push, Vector.toList_set,
    List.rotate_mod, RingBuffer.rotate_set_succ _ hnext]

/-- **A push** appends the entry; a full window loses its oldest one. -/
theorem arrival_push (w : RollingJitterWindow α) (x : α) :
    (w.push x).arrival = (w.arrival ++ [x]).rtake JITTER_WINDOW := by
  have hle := w.count_le
  rcases Nat.lt_or_eq_of_le hle with hlt | hfull
  · have hrtake : (w.arrival ++ [x]).rtake JITTER_WINDOW = w.arrival ++ [x] := by
      rw [List.rtake, List.length_append, length_arrival, List.length_singleton,
        Nat.sub_eq_zero_of_le hlt, List.drop_zero]
    rw [hrtake, arrival_of_filling hlt, ← entries_push_of_filling hlt x]
    -- the push that fills the last slot leaves the write position at the first one
    rcases Nat.lt_or_eq_of_le (Nat.succ_le_of_lt hlt) with hlt' | heq
    · refine arrival_of_filling ?_
      rw [count_push]
      omega
    · have hzero : (w.push x).next = 0 := by
        change (w.next + 1) % JITTER_WINDOW = 0
        rw [w.next_of_filling hlt, show w.count + 1 = JITTER_WINDOW from heq, Nat.mod_self]
      rw [arrival, hzero, List.rotate_zero]
  · have hne : w.arrival ≠ [] := List.ne_nil_of_length_pos (by rw [length_arrival, hfull]; decide)
    rw [arrival_push_of_full hfull, List.rtake, List.length_append, length_arrival, hfull,
      List.length_singleton, Nat.add_sub_cancel_left, List.drop_one,
      List.tail_append_of_ne_nil hne]

/-- The window never holds more than the last entries. -/
theorem rtake_arrival (w : RollingJitterWindow α) : w.arrival.rtake JITTER_WINDOW = w.arrival := by
  rw [List.rtake, length_arrival, Nat.sub_eq_zero_of_le w.count_le, List.drop_zero]

/-- **A series of pushes** leaves the last entries. -/
theorem arrival_foldl_push (w : RollingJitterWindow α) (xs : List α) :
    (xs.foldl push w).arrival = (w.arrival ++ xs).rtake JITTER_WINDOW := by
  induction xs generalizing w with
  | nil => rw [List.foldl_nil, List.append_nil, rtake_arrival]
  | cons x xs ih =>
      rw [List.foldl_cons, ih, arrival_push, RingBuffer.rtake_append_rtake, List.append_assoc]
      rfl

/-! ### The median -/

section Median

variable [LT α] [DecidableLT α]

/-- The sorted copy of the occupied slots. -/
def sortedEntries (w : RollingJitterWindow α) : List α :=
  (InPlaceSort.sortPrefix w.window w.count w.count_le).toList.take w.count

@[simp] theorem length_sortedEntries (w : RollingJitterWindow α) :
    w.sortedEntries.length = w.count := by
  rw [sortedEntries, List.length_take, Vector.length_toList, min_eq_left w.count_le]

/-- The sorted copy has the entries. -/
theorem perm_sortedEntries (w : RollingJitterWindow α) : w.sortedEntries.Perm w.arrival :=
  (InPlaceSort.perm_sortPrefix w.window w.count_le).trans (List.rotate_perm w.entries w.next).symm

variable [Zero α] [HalfSum α]

/-- The middle of a sorted list: its middle entry, or what `(a + b) * 0.5` is for the two middle
ones. -/
def middle (sorted : List α) : α :=
  if sorted = [] then 0
  else if sorted.length % 2 = 1 then sorted.getD (sorted.length / 2) 0
  else HalfSum.halfSum (sorted.getD (sorted.length / 2 - 1) 0) (sorted.getD (sorted.length / 2) 0)

/-- **The median of the window** is the middle of the sorted copy. -/
theorem median_eq_middle (w : RollingJitterWindow α) : w.median = middle w.sortedEntries := by
  have hle := w.count_le
  rw [median, middle]
  by_cases hzero : w.count = 0
  · have hnil : w.sortedEntries = [] :=
      List.eq_nil_of_length_eq_zero (by rw [length_sortedEntries, hzero])
    rw [dif_pos hzero, if_pos hnil]
  · have hne : w.sortedEntries ≠ [] :=
      List.ne_nil_of_length_pos (by rw [length_sortedEntries]; omega)
    have hget : ∀ i (hi : i < w.count) (hwindow : i < JITTER_WINDOW),
        w.sortedEntries.getD i 0 =
          (InPlaceSort.sortPrefix w.window w.count w.count_le)[i] := by
      intro i hi hwindow
      have hi' : i < w.sortedEntries.length := by rwa [length_sortedEntries]
      rw [List.getD_eq_getElem _ _ hi']
      simp only [sortedEntries, List.getElem_take, Vector.getElem_toList]
    rw [dif_neg hzero, if_neg hne, internalMedian, length_sortedEntries]
    split
    next hodd => rw [hget _ (by omega) (by omega)]
    next heven => rw [hget _ (by omega) (by omega), hget _ (by omega) (by omega)]

end Median

/-- Over the rationals it is the median of the entries. -/
theorem median_eq (w : RollingJitterWindow ℚ) : w.median = Median.median w.arrival := by
  have hmiddle : ∀ sorted : List ℚ, middle sorted = Median.ofSorted sorted := by
    intro sorted
    rw [middle, Median.ofSorted]
    split
    next hnil => simp [hnil]
    next => rfl
  rw [median_eq_middle, hmiddle,
    Median.median_eq_ofSorted w.perm_sortedEntries
      (InPlaceSort.pairwise_sortPrefix w.window w.count_le)]

end Hades.Runtime.RollingJitterWindow
