import Mathlib.Algebra.Order.Ring.Nat
import Mathlib.Tactic.Common

/-!
# Bounded Loops

A loop whose body returns either the next state or the loop's result, run for a bounded
number of passes. A measure that every pass decreases bounds the passes that are needed, so
that the bound is a formality: with enough fuel the loop has a result.

## Main results

* `exists_run_of_measure`: **a loop with a decreasing measure** ends.
* `run_invariant`: what an invariant says about the result.
* `lex_lt_of_left`, `lex_lt_of_right`: two counters in one, the first one more significant.
-/

namespace BoundedLoop

variable {σ ρ : Type*} {body : σ → σ ⊕ ρ}

/-- Run a loop for at most `fuel` passes. -/
def run (body : σ → σ ⊕ ρ) : ℕ → σ → Option ρ
  | 0, _ => none
  | fuel + 1, s =>
    match body s with
    | .inl s' => run body fuel s'
    | .inr r => some r

theorem run_of_inl {s s' : σ} (h : body s = .inl s') (fuel : ℕ) :
    run body (fuel + 1) s = run body fuel s' := by
  rw [run, h]

theorem run_of_inr {s : σ} {r : ρ} (h : body s = .inr r) (fuel : ℕ) :
    run body (fuel + 1) s = some r := by
  rw [run, h]

/-- **A loop with a decreasing measure** ends, within as many passes as the measure says. -/
theorem exists_run_of_measure {Inv : σ → Prop} {μ : σ → ℕ}
    (hbody : ∀ s s', Inv s → body s = .inl s' → Inv s' ∧ μ s' < μ s) {s : σ} (hs : Inv s)
    {fuel : ℕ} (hfuel : μ s < fuel) : ∃ r, run body fuel s = some r := by
  induction fuel generalizing s with
  | zero => omega
  | succ fuel ih =>
      cases h : body s with
      | inl s' =>
          obtain ⟨hs', hlt⟩ := hbody s s' hs h
          rw [run_of_inl h]
          exact ih hs' (by omega)
      | inr r => exact ⟨r, run_of_inr h fuel⟩

/-- **The invariant rule**: what every pass preserves holds where the loop ends. -/
theorem run_invariant (Inv : σ → Prop) (Post : ρ → Prop)
    (hstep : ∀ s s', Inv s → body s = .inl s' → Inv s')
    (hexit : ∀ s r, Inv s → body s = .inr r → Post r) {s : σ} (hs : Inv s) {fuel : ℕ} {r : ρ}
    (hrun : run body fuel s = some r) : Post r := by
  induction fuel generalizing s with
  | zero => cases hrun
  | succ fuel ih =>
      cases h : body s with
      | inl s' =>
          rw [run_of_inl h] at hrun
          exact ih (hstep s s' hs h) hrun
      | inr r' =>
          rw [run_of_inr h] at hrun
          obtain rfl := Option.some.inj hrun
          exact hexit s _ hs h

/-! ### Two counters in one -/

/-- The first counter decreases. -/
theorem lex_lt_of_left {n a b c d : ℕ} (h : a < b) (hc : c ≤ n) :
    a * (n + 1) + c < b * (n + 1) + d := by
  have hstep : (a + 1) * (n + 1) ≤ b * (n + 1) := Nat.mul_le_mul_right (n + 1) h
  rw [Nat.add_mul, Nat.one_mul] at hstep
  omega

/-- The first counter stays and the second one decreases. -/
theorem lex_lt_of_right {n a c d : ℕ} (h : c < d) :
    a * (n + 1) + c < a * (n + 1) + d := by
  omega

end BoundedLoop
