import Mathlib.Data.Finset.Card
import Mathlib.Data.List.Induction
import Mathlib.Logic.Function.Basic
import Mathlib.Tactic.Common

/-!
# Series of Inputs

What is true behind a series of inputs, from what is true of one input: three rules.

A **chain** runs a state over the inputs. If each input takes different states to different
states, and inputs that are related take a state to different states, then so do the series: a
difference at one place reaches the end of the chain, whatever stands behind it. A chain can be
a step of another chain.

A **capped set** is a list without repetitions that collects the values of a series up to a
limit; values beyond it are dropped. `Collects` is the invariant that such a list keeps under
whatever rule it is fed, as long as a value that is not entered is there already or finds the
list full.

A **machine that answers** changes its state with each input and answers it. It refines another
one, under a relation of their states, if related states give the same answer to an input and
stay related.

## Main results

* `Chaining.Separates.foldl`: **one difference is not lost** in a series.
* `Chaining.Separates.comap`: the same of the inputs of another type.
* `CappedSet.Collects.insert`, `CappedSet.Collects.skip`: **one more value**, entered or not.
* `CappedSet.Collects.length_eq`: the length counts the different values, up to the limit.
* `Refinement.Refines.run`: **runs from related states** give the same answers.
* `Refinement.run_append`: a run goes on where the one before it ended.
-/

namespace Chaining

variable {σ ι κ : Type*} {step : σ → ι → σ} {R : ι → ι → Prop}

/-- A step keeps different states apart, and a state keeps related inputs apart. -/
structure Separates (step : σ → ι → σ) (R : ι → ι → Prop) : Prop where
  states : ∀ i, Function.Injective fun s => step s i
  inputs : ∀ s i j, R i j → step s i ≠ step s j

/-- Two series that are related at one place and agree at all others. -/
def OneApart (R : ι → ι → Prop) (xs ys : List ι) : Prop :=
  ∃ pre x y post, xs = pre ++ x :: post ∧ ys = pre ++ y :: post ∧ R x y

/-- A series keeps different states apart. -/
theorem Separates.foldl_injective (h : Separates step R) (xs : List ι) :
    Function.Injective fun s => xs.foldl step s := by
  induction xs with
  | nil => exact fun _ _ hst => hst
  | cons x xs ih =>
      intro s t hst
      exact h.states x (ih hst)

/-- **A difference at one place** reaches the end of the chain. -/
theorem Separates.foldl (h : Separates step R) :
    Separates (fun s xs => List.foldl step s xs) (OneApart R) where
  states := h.foldl_injective
  inputs := by
    rintro s _ _ ⟨pre, x, y, post, rfl, rfl, hxy⟩ heq
    simp only [List.foldl_append, List.foldl_cons] at heq
    exact h.inputs _ x y hxy (h.foldl_injective post heq)

/-- Inputs that are read as others. -/
theorem Separates.comap (h : Separates step R) (f : κ → ι) :
    Separates (fun s k => step s (f k)) fun k l => R (f k) (f l) where
  states := fun k => h.states (f k)
  inputs := fun s k l hkl => h.inputs s (f k) (f l) hkl

/-- Series that are equal or one apart are told apart exactly. -/
theorem Separates.foldl_eq_iff (h : Separates step R) (s : σ) {xs ys : List ι}
    (hxy : xs = ys ∨ OneApart R xs ys) : xs.foldl step s = ys.foldl step s ↔ xs = ys := by
  constructor
  · intro heq
    exact hxy.resolve_right fun hapart => h.foldl.inputs s xs ys hapart heq
  · rintro rfl
    rfl

end Chaining

namespace CappedSet

variable {α : Type*}

/-- The list has collected the values of a series up to the limit. -/
structure Collects (cap : ℕ) (seen xs : List α) : Prop where
  nodup : seen.Nodup
  subset : seen ⊆ xs
  length_le : seen.length ≤ cap
  all : seen.length < cap → xs ⊆ seen

/-- No value, nothing collected. -/
theorem collects_nil (cap : ℕ) : Collects cap ([] : List α) [] where
  nodup := List.nodup_nil
  subset := List.Subset.refl _
  length_le := Nat.zero_le _
  all := fun _ => List.Subset.refl _

variable {cap : ℕ} {seen xs : List α}

/-- **A new value** is entered while there is room. -/
theorem Collects.insert (h : Collects cap seen xs) {x : α} (hx : x ∉ seen)
    (hlt : seen.length < cap) : Collects cap (seen ++ [x]) (xs ++ [x]) where
  nodup := by
    rw [← List.concat_eq_append]
    exact h.nodup.concat hx
  subset := List.append_subset.mpr
    ⟨List.Subset.trans h.subset (List.subset_append_left xs [x]), List.subset_append_right xs [x]⟩
  length_le := by
    rw [List.length_append, List.length_singleton]
    exact hlt
  all := fun _ => List.append_subset.mpr
    ⟨List.Subset.trans (h.all hlt) (List.subset_append_left seen [x]),
      List.subset_append_right seen [x]⟩

/-- **A value that is not entered**: it is there already, or the list is full. -/
theorem Collects.skip (h : Collects cap seen xs) {x : α} (hx : seen.length < cap → x ∈ seen) :
    Collects cap seen (xs ++ [x]) where
  nodup := h.nodup
  subset := List.Subset.trans h.subset (List.subset_append_left xs [x])
  length_le := h.length_le
  all := fun hlt => List.append_subset.mpr
    ⟨h.all hlt, fun y hy => by rw [List.mem_singleton.mp hy]; exact hx hlt⟩

/-- A part of a series has no more different values. -/
theorem card_toFinset_le [DecidableEq α] {xs ys : List α} (h : xs ⊆ ys) :
    xs.toFinset.card ≤ ys.toFinset.card :=
  Finset.card_le_card fun _ hx => List.mem_toFinset.mpr (h (List.mem_toFinset.mp hx))

/-- **The length counts the different values**, up to the limit. -/
theorem Collects.length_eq [DecidableEq α] (h : Collects cap seen xs) :
    seen.length = min cap xs.toFinset.card := by
  have hcard : seen.toFinset.card = seen.length := List.toFinset_card_of_nodup h.nodup
  have hle : seen.length ≤ xs.toFinset.card := by
    rw [← hcard]
    exact card_toFinset_le h.subset
  rcases Nat.lt_or_eq_of_le h.length_le with hlt | heq
  · have hge : xs.toFinset.card ≤ seen.length := by
      rw [← hcard]
      exact card_toFinset_le (h.all hlt)
    omega
  · omega

end CappedSet

namespace Refinement

variable {σ τ ι ο : Type*}

/-- Give a machine some inputs: its state behind them, and its answers. -/
def run (step : σ → ι → σ × ο) : σ → List ι → σ × List ο
  | state, [] => (state, [])
  | state, input :: inputs =>
    let answered := step state input
    let rest := run step answered.1 inputs
    (rest.1, answered.2 :: rest.2)

/-- **A machine refines another one** for the inputs `P`: it answers alike in states that are
related, and keeps them related. -/
structure Refines (R : σ → τ → Prop) (P : ι → Prop) (step : σ → ι → σ × ο)
    (spec : τ → ι → τ × ο) : Prop where
  related : ∀ {s t i}, R s t → P i → R (step s i).1 (spec t i).1
  answer : ∀ {s t i}, R s t → P i → (step s i).2 = (spec t i).2

/-- **Runs from related states** give the same answers and end in related states. -/
theorem Refines.run {R : σ → τ → Prop} {P : ι → Prop} {step : σ → ι → σ × ο}
    {spec : τ → ι → τ × ο} (h : Refines R P step spec) {inputs : List ι}
    (hinputs : ∀ i ∈ inputs, P i) {s : σ} {t : τ} (hst : R s t) :
    R (Refinement.run step s inputs).1 (Refinement.run spec t inputs).1 ∧
      (Refinement.run step s inputs).2 = (Refinement.run spec t inputs).2 := by
  induction inputs generalizing s t with
  | nil => exact ⟨hst, rfl⟩
  | cons i inputs ih =>
      have hi : P i := hinputs i List.mem_cons_self
      obtain ⟨hrelated, hanswers⟩ := ih (fun j hj => hinputs j (List.mem_cons_of_mem i hj))
        (h.related hst hi)
      refine ⟨hrelated, ?_⟩
      rw [Refinement.run, Refinement.run, h.answer hst hi, hanswers]

/-- **A run in two parts**. -/
theorem run_append (step : σ → ι → σ × ο) (state : σ) (first second : List ι) :
    run step state (first ++ second) =
      ((run step (run step state first).1 second).1,
        (run step state first).2 ++ (run step (run step state first).1 second).2) := by
  induction first generalizing state with
  | nil => rfl
  | cons input inputs ih =>
      rw [List.cons_append, run, ih]
      rfl

/-- Every input is answered. -/
theorem length_run (step : σ → ι → σ × ο) (state : σ) (inputs : List ι) :
    (run step state inputs).2.length = inputs.length := by
  induction inputs generalizing state with
  | nil => rfl
  | cons input inputs ih => exact congrArg (· + 1) (ih _)

end Refinement
