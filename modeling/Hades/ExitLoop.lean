import Mathlib.Data.List.Induction
import Mathlib.Tactic.Common

/-!
# Loops with an Exit Test

A `while (true)` loop whose body ends in `if (…) break;` is a fold that can stop early.
This module develops that shape once, over an arbitrary state type `σ` and an arbitrary
input type `ι` (one input is consumed by each pass).

`loopState body s xs` feeds the inputs `xs` to the loop started in `s`. The result is
`LoopState.running s'` while no pass has asked to stop, and `LoopState.exited s'` from
the first pass that does; an exited loop ignores all further inputs.

## Main results

* `loopState_append_of_running`, `loopState_append_of_exited`: the loop on a concatenation
  continues from the intermediate state.
* `loopState_map`: **the simulation rule**, for two bodies and a map of their states.
* `loopState_invariant`: **the invariant rule**. An invariant of the consumed inputs and
  the state that each continuing pass preserves holds of every running state, and every
  exit is one stopping pass out of a state that satisfies it.
* `exists_exit_of_measure`: **the termination rule**. A measure that every continuing
  pass decreases, and leaves positive, bounds the number of passes before the exit.
-/

namespace ExitLoop

/-- The state of a loop with an exit test: still running, or stopped for good. -/
inductive LoopState (σ : Type*) where
  | running (s : σ)
  | exited (s : σ)
  deriving DecidableEq

variable {σ ι : Type*}

namespace LoopState

/-- The program state carried by a loop state, whether it runs or has stopped. -/
def state : LoopState σ → σ
  | running s => s
  | exited s => s

/-- Whether the loop has stopped. -/
def isExited : LoopState σ → Bool
  | running _ => false
  | exited _ => true

/-- A loop that has not stopped is running. -/
theorem eq_running {l : LoopState σ} (h : l.isExited = false) : l = running l.state := by
  cases l with
  | running s => rfl
  | exited s => cases h

/-- A loop that has stopped. -/
theorem eq_exited {l : LoopState σ} (h : l.isExited = true) : l = exited l.state := by
  cases l with
  | running s => cases h
  | exited s => rfl

/-- One pass of the loop. The body returns the new state and its decision to stop. -/
def step (body : σ → ι → σ × Bool) : LoopState σ → ι → LoopState σ
  | running s, x => if (body s x).2 then exited (body s x).1 else running (body s x).1
  | exited s, _ => exited s

@[simp] theorem step_exited (body : σ → ι → σ × Bool) (s : σ) (x : ι) :
    step body (exited s) x = exited s := rfl

/-- A pass that stops. -/
theorem step_running_of_stop {body : σ → ι → σ × Bool} {s : σ} {x : ι}
    (h : (body s x).2 = true) : step body (running s) x = exited (body s x).1 := by
  simp only [step, h, if_true]

/-- A pass that continues. -/
theorem step_running_of_continue {body : σ → ι → σ × Bool} {s : σ} {x : ι}
    (h : (body s x).2 = false) : step body (running s) x = running (body s x).1 := by
  simp only [step, h, Bool.false_eq_true, if_false]

end LoopState

open LoopState

/-- The loop started in `s`, fed the inputs `xs` in order. -/
def loopState (body : σ → ι → σ × Bool) (s : σ) (xs : List ι) : LoopState σ :=
  xs.foldl (LoopState.step body) (running s)

@[simp] theorem loopState_nil (body : σ → ι → σ × Bool) (s : σ) :
    loopState body s [] = running s := rfl

/-- An exited loop ignores its remaining inputs. -/
@[simp] theorem foldl_step_exited (body : σ → ι → σ × Bool) (s : σ) (xs : List ι) :
    xs.foldl (LoopState.step body) (exited s) = exited s := by
  induction xs with
  | nil => rfl
  | cons x xs ih => rw [List.foldl_cons, step_exited, ih]

/-- One more input is one more pass. -/
theorem loopState_concat (body : σ → ι → σ × Bool) (s : σ) (xs : List ι) (x : ι) :
    loopState body s (xs ++ [x]) = LoopState.step body (loopState body s xs) x := by
  rw [loopState, List.foldl_append]
  rfl

/-- A pass out of a running loop that stops it. -/
theorem stop_of_concat {body : σ → ι → σ × Bool} {s₀ s s' : σ} {xs : List ι} {x : ι}
    (h : loopState body s₀ xs = running s) (hexit : loopState body s₀ (xs ++ [x]) = exited s') :
    (body s x).2 = true ∧ s' = (body s x).1 := by
  rw [loopState_concat, h] at hexit
  cases hgo : (body s x).2 with
  | false =>
      rw [step_running_of_continue hgo] at hexit
      cases hexit
  | true =>
      rw [step_running_of_stop hgo] at hexit
      exact ⟨rfl, (exited.inj hexit).symm⟩

/-- The loop on a concatenation, when the first part leaves it running. -/
theorem loopState_append_of_running {body : σ → ι → σ × Bool} {s s' : σ} {xs : List ι}
    (h : loopState body s xs = running s') (ys : List ι) :
    loopState body s (xs ++ ys) = loopState body s' ys := by
  rw [loopState, List.foldl_append, ← loopState, h, loopState]

/-- The loop on a concatenation, when the first part stops it. -/
theorem loopState_append_of_exited {body : σ → ι → σ × Bool} {s s' : σ} {xs : List ι}
    (h : loopState body s xs = exited s') (ys : List ι) :
    loopState body s (xs ++ ys) = exited s' := by
  rw [loopState, List.foldl_append, ← loopState, h, foldl_step_exited]

/-- A map of the carried states. -/
def LoopState.map {σ' : Type*} (f : σ → σ') : LoopState σ → LoopState σ'
  | running s => running (f s)
  | exited s => exited (f s)

/-- **The simulation rule.** A map that carries the passes of one body to those of another,
with the same decisions to stop, carries the loops. -/
theorem loopState_map {σ' : Type*} {body : σ → ι → σ × Bool} {body' : σ' → ι → σ' × Bool}
    {f : σ → σ'} (h : ∀ s x, body' (f s) x = (f (body s x).1, (body s x).2)) (s : σ)
    (xs : List ι) : loopState body' (f s) xs = (loopState body s xs).map f := by
  induction xs using List.reverseRecOn with
  | nil => rfl
  | append_singleton xs x ih =>
      rw [loopState_concat, loopState_concat, ih]
      cases loopState body s xs with
      | exited s' => rfl
      | running s' =>
          simp only [LoopState.map, LoopState.step, h]
          split <;> rfl

/-- **The invariant rule.** `Inv` speaks about the inputs consumed so far and the state.
If it holds at the start and every continuing pass preserves it, then it holds of every
running state, and an exited loop has stopped in one pass out of such a state, on a
prefix of its inputs. -/
theorem loopState_invariant (body : σ → ι → σ × Bool) (Inv : List ι → σ → Prop) {s₀ : σ}
    (h₀ : Inv [] s₀)
    (hstep : ∀ pre s x, Inv pre s → (body s x).2 = false → Inv (pre ++ [x]) (body s x).1)
    (xs : List ι) :
    (∀ s, loopState body s₀ xs = running s → Inv xs s) ∧
      (∀ s, loopState body s₀ xs = exited s →
        ∃ pre x s', pre ++ [x] <+: xs ∧ Inv pre s' ∧ loopState body s₀ pre = running s' ∧
          (body s' x).2 = true ∧ (body s' x).1 = s) := by
  induction xs using List.reverseRecOn with
  | nil =>
      refine ⟨fun s h => ?_, fun s h => ?_⟩
      · obtain rfl : s₀ = s := LoopState.running.inj h
        exact h₀
      · rw [loopState_nil] at h
        cases h
  | append_singleton xs x ih =>
      obtain ⟨ihr, ihe⟩ := ih
      rw [loopState_concat]
      cases hl : loopState body s₀ xs with
      | running s' =>
          have hinv : Inv xs s' := ihr s' hl
          cases hb : (body s' x).2 with
          | false =>
              rw [step_running_of_continue hb]
              refine ⟨fun s h => ?_, fun s h => (by cases h)⟩
              rw [← LoopState.running.inj h]
              exact hstep xs s' x hinv hb
          | true =>
              rw [step_running_of_stop hb]
              refine ⟨fun s h => (by cases h), fun s h => ?_⟩
              exact ⟨xs, x, s', List.prefix_rfl, hinv, hl, hb, LoopState.exited.inj h⟩
      | exited s' =>
          rw [step_exited]
          refine ⟨fun s h => (by cases h), fun s h => ?_⟩
          obtain ⟨pre, y, s'', hpre, hrest⟩ := ihe s' hl
          rw [← LoopState.exited.inj h]
          exact ⟨pre, y, s'', hpre.trans (List.prefix_append xs [x]), hrest⟩

/-- **The termination rule.** Under an invariant that continuing passes preserve, a
measure that every continuing pass decreases and leaves positive bounds the number of
inputs the loop can consume without stopping. -/
theorem exists_exit_of_measure (body : σ → ι → σ × Bool) (Inv : σ → Prop) (μ : σ → ℕ)
    (hinv : ∀ s x, Inv s → (body s x).2 = false → Inv (body s x).1)
    (hμ : ∀ s x, Inv s → (body s x).2 = false → 0 < μ (body s x).1 ∧ μ (body s x).1 < μ s)
    {s : σ} (hs : Inv s) {xs : List ι} (hne : xs ≠ []) (hlen : μ s ≤ xs.length) :
    ∃ s', loopState body s xs = exited s' := by
  induction xs generalizing s with
  | nil => exact absurd rfl hne
  | cons x xs ih =>
      cases hb : (body s x).2 with
      | true =>
          refine ⟨(body s x).1, ?_⟩
          rw [loopState, List.foldl_cons, step_running_of_stop hb, foldl_step_exited]
      | false =>
          obtain ⟨hpos, hlt⟩ := hμ s x hs hb
          rw [List.length_cons] at hlen
          have hlen' : μ (body s x).1 ≤ xs.length := by omega
          have hne' : xs ≠ [] := List.ne_nil_of_length_pos (by omega)
          rw [loopState, List.foldl_cons, step_running_of_continue hb]
          exact ih (hinv s x hs hb) hne' hlen'

end ExitLoop
