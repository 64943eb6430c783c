import Hades.BoundedLoop
import Mathlib.Logic.Relation

/-!
# Readers of Statements

A reader of a text that takes one statement after another from its front: a step gives the next
state and what is left of the text, or nothing if no statement stands there. Every statement
that is read shortens the text, so that reading comes to an end.

A piece of text is *read* from one state to another one if the reader gets from its front to its
end, whatever follows. Pieces that are read one after another compose, so a text that was written
piece by piece can be read piece by piece.

## Main results

* `Reads.append`, `Reads.flatMap`: **pieces one after another**.
* `readAll_eq_of_reaches`: **reading to the end** goes as far as there are statements.
* `readAll_invariant`: what every statement preserves.
-/

open Relation

namespace StatementReader

variable {σ α ι : Type*} {step : σ → List α → Option (σ × List α)} {s s₁ s₂ : σ}

/-- One state and text after another. -/
abbrev Reaches (step : σ → List α → Option (σ × List α)) : σ × List α → σ × List α → Prop :=
  ReflTransGen fun p q => step p.1 p.2 = some q

/-- A piece of text is read, whatever follows it. -/
def Reads (step : σ → List α → Option (σ × List α)) (s : σ) (piece : List α) (s' : σ) : Prop :=
  ∀ rest, Reaches step (s, piece ++ rest) (s', rest)

/-- Every statement shortens the text. -/
def Shortens (step : σ → List α → Option (σ × List α)) : Prop :=
  ∀ s text next, step s text = some next → next.2.length < text.length

/-! ### Pieces -/

/-- One statement. -/
theorem Reads.of_step {piece : List α} (h : ∀ rest, step s (piece ++ rest) = some (s₁, rest)) :
    Reads step s piece s₁ :=
  fun rest => ReflTransGen.single (h rest)

theorem Reads.nil (s : σ) : Reads step s [] s :=
  fun _ => ReflTransGen.refl

/-- **One piece after another.** -/
theorem Reads.append {piece piece' : List α} (h : Reads step s piece s₁)
    (h' : Reads step s₁ piece' s₂) : Reads step s (piece ++ piece') s₂ := by
  intro rest
  rw [List.append_assoc]
  exact (h _).trans (h' rest)

/-- **A series of pieces**, each of which does something to the state. -/
theorem Reads.flatMap {items : List ι} {piece : ι → List α} {next : σ → ι → σ}
    (h : ∀ i ∈ items, ∀ s, Reads step s (piece i) (next s i)) (s : σ) :
    Reads step s (items.flatMap piece) (items.foldl next s) := by
  induction items generalizing s with
  | nil => exact Reads.nil s
  | cons i items ih =>
      rw [List.flatMap_cons]
      exact (h i List.mem_cons_self s).append
        (ih (fun j hj => h j (List.mem_cons_of_mem i hj)) (next s i))

/-! ### Reading to the end -/

/-- One more statement, or the end. -/
def pass (step : σ → List α → Option (σ × List α)) (p : σ × List α) :
    (σ × List α) ⊕ (σ × List α) :=
  match step p.1 p.2 with
  | some next => .inl next
  | none => .inr p

/-- Read statements as long as there is one: the state then, and what is left of the text. -/
def readAll (step : σ → List α → Option (σ × List α)) (s : σ) (text : List α) :
    Option (σ × List α) :=
  BoundedLoop.run (pass step) (text.length + 1) (s, text)

theorem run_pass_of_reaches (hshort : Shortens step) {p q : σ × List α}
    (h : Reaches step p q) (hend : step q.1 q.2 = none) {fuel : ℕ} (hfuel : p.2.length < fuel) :
    BoundedLoop.run (pass step) fuel p = some q := by
  induction h using ReflTransGen.head_induction_on generalizing fuel with
  | refl =>
      obtain ⟨fuel, rfl⟩ := Nat.exists_eq_add_of_lt hfuel
      have hlast : pass step q = .inr q := by rw [pass, hend]
      exact BoundedLoop.run_of_inr hlast _
  | @head p p' hstep _ ih =>
      have hlt := hshort _ _ _ hstep
      obtain ⟨fuel, rfl⟩ : ∃ n, fuel = n + 1 := ⟨fuel - 1, by omega⟩
      have hnext : pass step p = .inl p' := by rw [pass, hstep]
      rw [BoundedLoop.run_of_inl hnext]
      exact ih (by omega)

/-- **Reading to the end** goes as far as there are statements. -/
theorem readAll_eq_of_reaches (hshort : Shortens step) {text rest : List α}
    (h : Reaches step (s, text) (s₁, rest)) (hend : step s₁ rest = none) :
    readAll step s text = some (s₁, rest) :=
  run_pass_of_reaches hshort h hend (Nat.lt_succ_self _)

/-- A text whose front is read, with no statement behind it. -/
theorem readAll_append_of_reads (hshort : Shortens step) {piece rest : List α}
    (h : Reads step s piece s₁) (hend : step s₁ rest = none) :
    readAll step s (piece ++ rest) = some (s₁, rest) :=
  readAll_eq_of_reaches hshort (h rest) hend

/-- **The invariant rule**: what every statement preserves holds at the end. -/
theorem readAll_invariant (Inv : σ → Prop)
    (hstep : ∀ s text next, Inv s → step s text = some next → Inv next.1) {text : List α}
    {q : σ × List α} (h : readAll step s text = some q) (hs : Inv s) : Inv q.1 := by
  refine BoundedLoop.run_invariant (fun p => Inv p.1) (fun q => Inv q.1) ?_ ?_ hs h
  · intro p p' hp hpass
    rw [pass] at hpass
    split at hpass
    · next hnext =>
      obtain rfl := Sum.inl.inj hpass
      exact hstep _ _ _ hp hnext
    · cases hpass
  · intro p q hp hpass
    rw [pass] at hpass
    split at hpass
    · cases hpass
    · obtain rfl := Sum.inr.inj hpass
      exact hp

end StatementReader
