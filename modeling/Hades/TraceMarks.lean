import Mathlib.Data.List.Basic

/-!
# What Stands Directly before the Marks of a Trace

A trace is a list of actions. Some of them carry a value, and some of them are marks. This
module reads off the values that stand directly before each mark (`directlyBefore`); a value
with another action between it and the mark is not among them. A trace made of blocks, each
of them some values, a mark and other actions, is read block by block.

## Main results

* `directlyBefore_flatMap`: **a trace made of blocks** has the values of each block directly
  before its mark.
* `filterMap_flatMap`: and it has no other values.
-/

namespace TraceMarks

variable {α β ι : Type*} (value : α → Option β) (marks : α → Bool)

/-- The values directly before each mark; `pending` are those read last. -/
def directlyBefore (pending : List β) : List α → List (List β)
  | [] => []
  | a :: rest =>
    match value a with
    | some v => directlyBefore (pending ++ [v]) rest
    | none => if marks a then pending :: directlyBefore [] rest else directlyBefore [] rest

/-- An action that neither carries a value nor is a mark. -/
def Quiet (a : α) : Prop :=
  value a = none ∧ marks a = false

/-- **A block** with the values `vs`: the values, a mark, and nothing else of interest. -/
structure IsBlock (vs : List β) (block : List α) : Prop where
  shape : ∃ front mark tail, block = front ++ mark :: tail ∧ front.map value = vs.map some ∧
    value mark = none ∧ marks mark = true ∧ ∀ a ∈ tail, Quiet value marks a

variable {value marks}

/-- Quiet actions are skipped. -/
theorem directlyBefore_quiet {tail : List α} (h : ∀ a ∈ tail, Quiet value marks a)
    (more : List α) :
    directlyBefore value marks [] (tail ++ more) = directlyBefore value marks [] more := by
  induction tail with
  | nil => rfl
  | cons a tail ih =>
      obtain ⟨hv, hm⟩ := h a List.mem_cons_self
      rw [List.cons_append, directlyBefore, hv]
      dsimp only
      rw [hm, if_neg Bool.false_ne_true]
      exact ih fun b hb => h b (List.mem_cons_of_mem a hb)

/-- Values are collected. -/
theorem directlyBefore_values {front : List α} {vs : List β}
    (h : front.map value = vs.map some) (pending : List β) (more : List α) :
    directlyBefore value marks pending (front ++ more) =
      directlyBefore value marks (pending ++ vs) more := by
  induction front generalizing vs pending with
  | nil =>
      obtain rfl : vs = [] := List.map_eq_nil_iff.mp h.symm
      rw [List.append_nil]
      rfl
  | cons a front ih =>
      cases vs with
      | nil => cases h
      | cons v vs =>
          obtain ⟨hv, hrest⟩ := List.cons.inj h
          rw [List.cons_append, directlyBefore, hv]
          dsimp only
          rw [ih hrest, List.append_assoc]
          rfl

/-- **One block** is read as its values. -/
theorem IsBlock.directlyBefore_append {vs : List β} {block : List α}
    (h : IsBlock value marks vs block) (more : List α) :
    directlyBefore value marks [] (block ++ more) =
      vs :: directlyBefore value marks [] more := by
  obtain ⟨front, mark, tail, rfl, hfront, hv, hm, htail⟩ := h.shape
  rw [List.append_assoc, directlyBefore_values hfront, List.nil_append, List.cons_append,
    directlyBefore, hv]
  dsimp only
  rw [if_pos hm, directlyBefore_quiet htail]

/-- **A trace made of blocks**, with a quiet end. -/
theorem directlyBefore_flatMap {xs : List ι} {f : ι → List α} {vs : ι → List β}
    (h : ∀ x ∈ xs, IsBlock value marks (vs x) (f x)) {rest : List α}
    (hrest : ∀ a ∈ rest, Quiet value marks a) :
    directlyBefore value marks [] (xs.flatMap f ++ rest) = xs.map vs := by
  induction xs with
  | nil =>
      have hquiet := directlyBefore_quiet hrest []
      rw [List.append_nil] at hquiet
      exact hquiet
  | cons x xs ih =>
      rw [List.flatMap_cons, List.append_assoc,
        (h x List.mem_cons_self).directlyBefore_append,
        ih fun y hy => h y (List.mem_cons_of_mem x hy)]
      rfl

/-- Quiet actions have no values. -/
theorem filterMap_quiet {tail : List α} (h : ∀ a ∈ tail, Quiet value marks a) :
    tail.filterMap value = [] :=
  List.filterMap_eq_nil_iff.mpr fun a ha => (h a ha).1

/-- The values of a block. -/
theorem IsBlock.filterMap_eq {vs : List β} {block : List α}
    (h : IsBlock value marks vs block) : block.filterMap value = vs := by
  obtain ⟨front, mark, tail, rfl, hfront, hv, -, htail⟩ := h.shape
  have hvalues : front.filterMap value = vs := calc
    front.filterMap value = (front.map value).filterMap id := by
      rw [List.filterMap_map, Function.id_comp]
    _ = (vs.map some).filterMap id := by rw [hfront]
    _ = vs := by rw [List.filterMap_map, Function.id_comp, List.filterMap_some]
  rw [List.filterMap_append, hvalues, List.filterMap_cons_none hv, filterMap_quiet htail,
    List.append_nil]

/-- **A trace made of blocks** has no other values. -/
theorem filterMap_flatMap {xs : List ι} {f : ι → List α} {vs : ι → List β}
    (h : ∀ x ∈ xs, IsBlock value marks (vs x) (f x)) {rest : List α}
    (hrest : ∀ a ∈ rest, Quiet value marks a) :
    (xs.flatMap f ++ rest).filterMap value = xs.flatMap vs := by
  rw [List.filterMap_append, filterMap_quiet hrest, List.append_nil, List.filterMap_flatMap]
  exact List.flatMap_congr fun x hx => (h x hx).filterMap_eq

end TraceMarks
