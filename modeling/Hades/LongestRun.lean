import Mathlib.Data.List.DropRight
import Mathlib.Data.List.Infix
import Mathlib.Data.Nat.Find
import Mathlib.Order.MinMax

/-!
# The Longest Run of a Value

How often a value stands in a row in a list, at most anywhere (`longestRun`) and at its
end (`endRun`). A program that counts the current run and keeps the maximum of the counts
computes the longest run, by the recurrence `longestRun_concat`.

## Main results

* `replicate_infix_iff`: a run of the value is in the list exactly up to `longestRun`.
* `endRun_concat` and `longestRun_concat`: one more element.
-/

namespace LongestRun

variable {α : Type*} [DecidableEq α]

/-- The number of times that `x` stands in a row at the end of a list. -/
def endRun (x : α) (xs : List α) : ℕ :=
  (xs.rtakeWhile (· = x)).length

/-- The largest number of times that `x` stands in a row in a list. -/
def longestRun (x : α) (xs : List α) : ℕ :=
  Nat.findGreatest (fun n => List.replicate n x <:+: xs) xs.length

@[simp] theorem endRun_nil (x : α) : endRun x [] = 0 := by
  simp [endRun]

/-- One more element goes on with the run at the end, or ends it. -/
theorem endRun_concat (x : α) (xs : List α) (y : α) :
    endRun x (xs ++ [y]) = if y = x then endRun x xs + 1 else 0 := by
  rw [endRun, List.rtakeWhile_concat]
  by_cases h : y = x
  · rw [if_pos (decide_eq_true h), if_pos h, List.length_append, List.length_singleton, endRun]
  · rw [if_neg (by simpa using h), if_neg h, List.length_nil]

/-- The run at the end is a run of the value. -/
theorem rtakeWhile_eq_replicate (x : α) (xs : List α) :
    xs.rtakeWhile (· = x) = List.replicate (endRun x xs) x :=
  List.eq_replicate_iff.mpr ⟨rfl, fun _ h => by simpa using List.mem_rtakeWhile_imp h⟩

/-- A list ends with a run of the value exactly up to `endRun`. -/
theorem replicate_suffix_iff {x : α} {xs : List α} {n : ℕ} :
    List.replicate n x <:+ xs ↔ n ≤ endRun x xs := by
  constructor
  · rintro ⟨front, rfl⟩
    induction n with
    | zero => exact Nat.zero_le _
    | succ n ih =>
        rw [List.replicate_succ', ← List.append_assoc, endRun_concat, if_pos rfl]
        exact Nat.succ_le_succ ih
  · intro h
    have hend : List.replicate (endRun x xs) x <:+ xs := by
      rw [← rtakeWhile_eq_replicate]
      exact List.rtakeWhile_suffix _ xs
    refine List.IsSuffix.trans ⟨List.replicate (endRun x xs - n) x, ?_⟩ hend
    rw [← List.replicate_add, Nat.sub_add_cancel h]

/-- **A run of the value is in the list exactly up to `longestRun`.** -/
theorem replicate_infix_iff {x : α} {xs : List α} {n : ℕ} :
    List.replicate n x <:+: xs ↔ n ≤ longestRun x xs := by
  constructor
  · intro h
    have hle : n ≤ xs.length := by simpa using h.length_le
    exact Nat.le_findGreatest hle h
  · intro h
    have hlongest : List.replicate (longestRun x xs) x <:+: xs :=
      Nat.findGreatest_spec (P := fun n => List.replicate n x <:+: xs) (Nat.zero_le _)
        (List.nil_infix)
    refine List.IsInfix.trans ⟨List.replicate (longestRun x xs - n) x, [], ?_⟩ hlongest
    rw [List.append_nil, ← List.replicate_add, Nat.sub_add_cancel h]

/-- The run at the end is one of the runs. -/
theorem endRun_le_longestRun (x : α) (xs : List α) : endRun x xs ≤ longestRun x xs :=
  replicate_infix_iff.mp (replicate_suffix_iff.mpr le_rfl).isInfix

/-- **The longest run after one more element** is the old one or the run at the end. -/
theorem longestRun_concat (x : α) (xs : List α) (y : α) :
    longestRun x (xs ++ [y]) = max (longestRun x xs) (endRun x (xs ++ [y])) := by
  refine le_antisymm ?_ (max_le ?_ (endRun_le_longestRun x _))
  · rw [le_max_iff, ← replicate_infix_iff, ← replicate_suffix_iff, or_comm]
    exact List.infix_concat_iff.mp (replicate_infix_iff.mpr le_rfl)
  · exact replicate_infix_iff.mp
      ((replicate_infix_iff.mpr le_rfl).trans (List.prefix_append xs [y]).isInfix)

end LongestRun
