import Hades.BoundedLoop
import Hades.InPlaceSort

/-!
# Arrays with Checked Accesses

An array of `n` cells that starts without values, read and written at signed positions. An
access outside the array has no result, and neither has the read of a cell that was never
written; a program that has a result has made no such access.

Copying the beginning of another array and sorting it by insertion are written with their
loops, as in a language with pointers: the inner loop goes down with a signed index and
stops at `-1`. `InPlaceSort` has the same sort with indices that carry their proofs.

## Main results

* `exists_copyCells`, `exists_sortCells`: **the loops have results**, those of the sort whose
  indices are in range.
-/

namespace CheckedArray

variable {α : Type*} {n : ℕ}

/-- The cells, some of which may have no value yet. -/
abbrev Cells (α : Type*) (n : ℕ) :=
  Vector (Option α) n

/-- Read a cell. -/
def load (a : Cells α n) (i : ℤ) : Option α :=
  if h : 0 ≤ i ∧ i.toNat < n then a[i.toNat] else none

/-- Write a cell. -/
def store (a : Cells α n) (i : ℤ) (x : α) : Option (Cells α n) :=
  if h : 0 ≤ i ∧ i.toNat < n then some (a.set i.toNat (some x)) else none

/-- The first `m` cells have the values of `b`. -/
def Agrees (a : Cells α n) (b : Vector α n) (m : ℕ) : Prop :=
  ∀ i (h : i < n), i < m → a[i] = some b[i]

/-- A read of a cell with a value. -/
theorem load_of_agrees {a : Cells α n} {b : Vector α n} {m i : ℕ} (h : Agrees a b m)
    (hi : i < n) (him : i < m) : load a i = some b[i] := by
  rw [load, dif_pos ⟨Int.natCast_nonneg i, by simpa using hi⟩]
  exact h i hi him

/-- A write inside the array. -/
theorem store_natCast (a : Cells α n) {i : ℕ} (hi : i < n) (x : α) :
    store a i x = some (a.set i (some x)) := by
  rw [store, dif_pos ⟨Int.natCast_nonneg i, by simpa using hi⟩]
  rfl

/-- The same write to both arrays. -/
theorem Agrees.set {a : Cells α n} {b : Vector α n} {m i : ℕ} (h : Agrees a b m) (hi : i < n)
    (x : α) : Agrees (a.set i (some x)) (b.set i x) m := by
  intro k hk hkm
  by_cases heq : i = k
  · subst heq
    rw [Vector.getElem_set_self, Vector.getElem_set_self]
  · rw [Vector.getElem_set_ne hi hk heq, Vector.getElem_set_ne hi hk heq]
    exact h k hk hkm

/-! ### The loops -/

/-- Copy the first `m` cells of another array. -/
def copyCells (source : Vector α n) (m : ℕ) : Option (Cells α n) :=
  (List.range m).foldlM
    (fun a (i : ℕ) => (load (source.map some) i).bind fun x => store a i x)
    (Vector.replicate n none)

/-- **Copying has a result**: the values of the cells that were copied. By induction on their
number. -/
theorem exists_copyCells (source : Vector α n) {m : ℕ} (hm : m ≤ n) :
    ∃ a, copyCells source m = some a ∧ Agrees a source m := by
  induction m with
  | zero => exact ⟨_, rfl, fun i _ hi => absurd hi (Nat.not_lt_zero i)⟩
  | succ m ih =>
      obtain ⟨a, ha, hagrees⟩ := ih (by omega)
      have hload : load (source.map some) (m : ℤ) = some source[m] := by
        refine load_of_agrees (m := n) (fun i hi _ => ?_) hm hm
        rw [Vector.getElem_map]
      refine ⟨a.set m (some source[m]), ?_, fun i hi hlt => ?_⟩
      · rw [copyCells, List.range_succ, List.foldlM_append, ← copyCells, ha]
        simp only [List.foldlM_cons, List.foldlM_nil, Option.bind_eq_bind, Option.bind_some,
          hload, store_natCast a hm]
        rfl
      · rcases Nat.lt_or_eq_of_le (Nat.lt_succ_iff.mp hlt) with hlt | rfl
        · rw [Vector.getElem_set_ne _ _ (by omega)]
          exact hagrees i hi hlt
        · rw [Vector.getElem_set_self]

variable [LT α] [DecidableLT α]

/-- One pass of the inner loop: a cell above `key` moves one place up. -/
def shiftStep (key : α) (s : Cells α n × ℤ) : (Cells α n × ℤ) ⊕ Option (Cells α n × ℤ) :=
  let (a, j) := s
  if 0 ≤ j then
    match load a j with
    | none => .inr none
    | some x =>
      if x > key then
        match store a (j + 1) x with
        | none => .inr none
        | some a => .inl (a, j - 1)
      else .inr (some (a, j))
  else .inr (some (a, j))

/-- One pass of the outer loop: the value of cell `i` is inserted below. -/
def insertCell (a : Cells α n) (i : ℕ) : Option (Cells α n) :=
  (load a i).bind fun key =>
    (BoundedLoop.run (shiftStep key) (i + 1) (a, (i : ℤ) - 1)).join.bind fun (a, j) =>
      store a (j + 1) key

/-- The outer loop, from the second cell on. -/
def sortCells (a : Cells α n) (m : ℕ) : Option (Cells α n) :=
  (List.range' 1 (m - 1)).foldlM insertCell a

/-! ### Their results -/

/-- **The inner loop and the write behind it** do what `InPlaceSort.shiftInsert` does. By
induction on the hole, which is one place above the index. -/
theorem exists_run_shiftStep (key : α) {m hole : ℕ} (hm : m ≤ n) (hhole : hole < m)
    {a : Cells α n} {b : Vector α n} (h : Agrees a b m) :
    ∃ a' j', BoundedLoop.run (shiftStep key) (hole + 1) (a, (hole : ℤ) - 1) =
        some (some (a', j')) ∧
      ∃ a'', store a' (j' + 1) key = some a'' ∧
        Agrees a'' (InPlaceSort.shiftInsert key b hole (hhole.trans_le hm)) m := by
  induction hole generalizing a b with
  | zero =>
      -- the index is `-1`: nothing is read
      have hstep : shiftStep key (a, ((0 : ℕ) : ℤ) - 1) = .inr (some (a, ((0 : ℕ) : ℤ) - 1)) := rfl
      have h0 : 0 < n := by omega
      have hstore : store a (((0 : ℕ) : ℤ) - 1 + 1) key = some (a.set 0 (some key)) :=
        store_natCast a h0 key
      exact ⟨a, _, BoundedLoop.run_of_inr hstep 0, _, hstore, h.set h0 key⟩
  | succ k ih =>
      have hk : k < n := by omega
      have hk' : k + 1 < n := by omega
      have hindex : ((k + 1 : ℕ) : ℤ) - 1 = k := by omega
      have hload : load a (k : ℤ) = some b[k] := load_of_agrees h hk (by omega)
      rw [hindex, InPlaceSort.shiftInsert]
      by_cases hgt : b[k] > key
      · have hstore : store a ((k : ℤ) + 1) b[k] = some (a.set (k + 1) (some b[k])) :=
          store_natCast a hk' b[k]
        have hstep : shiftStep key (a, (k : ℤ)) =
            .inl (a.set (k + 1) (some b[k]), (k : ℤ) - 1) := by
          simp only [shiftStep, Int.natCast_nonneg, if_true, hload, if_pos hgt, hstore]
        rw [BoundedLoop.run_of_inl hstep, if_pos hgt]
        exact ih (by omega) (h.set hk' b[k])
      · have hstep : shiftStep key (a, (k : ℤ)) = .inr (some (a, (k : ℤ))) := by
          simp only [shiftStep, Int.natCast_nonneg, if_true, hload, if_neg hgt]
        rw [if_neg hgt]
        exact ⟨a, k, BoundedLoop.run_of_inr hstep _, _, store_natCast a hk' key, h.set hk' key⟩

/-- **Sorting has a result**: that of `InPlaceSort.sortPrefix`. By induction on the cells that
are sorted. -/
theorem exists_sortCells {m k : ℕ} (hm : m ≤ n) (hk : k ≤ m) {a : Cells α n}
    {b : Vector α n} (h : Agrees a b m) :
    ∃ a', sortCells a k = some a' ∧
      Agrees a' (InPlaceSort.sortPrefix b k (hk.trans hm)) m := by
  induction k using Nat.twoStepInduction with
  | zero => exact ⟨a, rfl, h⟩
  | one => exact ⟨a, rfl, h⟩
  | more k _ ih =>
      obtain ⟨a', ha', hagrees⟩ := ih (by omega)
      obtain ⟨a₁, j, hrun, a₂, hstore, hinsert⟩ :=
        exists_run_shiftStep _ hm (show k + 1 < m by omega) hagrees
      refine ⟨a₂, ?_, hinsert⟩
      have hrange : List.range' 1 (k + 2 - 1) = List.range' 1 (k + 1 - 1) ++ [k + 1] := by
        rw [Nat.add_sub_cancel, show k + 2 - 1 = k + 1 by omega, List.range'_1_concat]
        rw [Nat.add_comm 1 k]
      rw [sortCells, hrange, List.foldlM_append, ← sortCells, ha']
      have hload := load_of_agrees hagrees (i := k + 1) (by omega) (by omega)
      simp only [List.foldlM_cons, List.foldlM_nil, Option.bind_eq_bind, Option.bind_some,
        insertCell, hload, hrun, Option.join_some, hstore]
      rfl

end CheckedArray
