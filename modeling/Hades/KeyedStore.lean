import Mathlib.Data.List.Basic
import Mathlib.Logic.Function.Basic

/-!
# A Store with One Entry for Each Key

Events arrive in any interleaving, and each changes the entry of its own key. What an entry
becomes is then decided by the events of its key alone, and events that leave the entry as
it is may be taken out as well. No event leaks into the entry of another key.

## Main results

* `run_apply`: the entry of a key after a series of events.
* `run_filter_apply`: **the events of the key that matter** suffice.
* `mem_answers_congr`: **the answers** to events are the same in every interleaving.
-/

namespace KeyedStore

variable {κ σ ε : Type*} [DecidableEq κ]

/-- One event: the entry of its key is updated. -/
def step (key : ε → κ) (update : ε → σ → σ) (store : κ → σ) (e : ε) : κ → σ :=
  Function.update store (key e) (update e (store (key e)))

/-- A series of events. -/
def run (key : ε → κ) (update : ε → σ → σ) (store : κ → σ) (events : List ε) : κ → σ :=
  events.foldl (step key update) store

variable {key : ε → κ} {update : ε → σ → σ} {store : κ → σ}

/-- An event at the entry of its own key. -/
theorem step_apply_self (e : ε) : step key update store e (key e) = update e (store (key e)) :=
  Function.update_self _ _ _

/-- An event at the entry of another key. -/
theorem step_apply_of_ne {k : κ} {e : ε} (h : key e ≠ k) :
    step key update store e k = store k :=
  Function.update_of_ne (Ne.symm h) _ _

/-- **The entry of a key** after a series of events: it is updated by those of its key. -/
theorem run_apply (store : κ → σ) (events : List ε) (k : κ) :
    run key update store events k =
      (events.filter (key · = k)).foldl (fun x e => update e x) (store k) := by
  induction events generalizing store with
  | nil => rfl
  | cons e events ih =>
      rw [run, List.foldl_cons]
      refine (ih (step key update store e)).trans ?_
      by_cases h : key e = k
      · subst h
        rw [step_apply_self, List.filter_cons_of_pos (by simp), List.foldl_cons]
      · rw [step_apply_of_ne h, List.filter_cons_of_neg (by simpa using h)]

/-- Events that leave an entry as it is do not matter to a series of updates. -/
theorem foldl_filter {p : ε → Bool} (hp : ∀ e x, p e = false → update e x = x)
    (events : List ε) (x : σ) :
    (events.filter p).foldl (fun x e => update e x) x =
      events.foldl (fun x e => update e x) x := by
  induction events generalizing x with
  | nil => rfl
  | cons e events ih =>
      cases he : p e with
      | true => rw [List.filter_cons_of_pos he, List.foldl_cons, List.foldl_cons, ih]
      | false =>
          rw [List.filter_cons_of_neg (by simp [he]), List.foldl_cons, hp e x he, ih]

/-- **No interference**: the entry of a key is what the events of the key that matter
make of it. -/
theorem run_filter_apply {p : ε → Bool} (hp : ∀ e x, p e = false → update e x = x)
    (store : κ → σ) (events : List ε) (k : κ) :
    run key update store (events.filter fun e => key e = k && p e) k =
      run key update store events k := by
  rw [run_apply, run_apply, List.filter_filter, ← foldl_filter hp (events.filter (key · = k)),
    List.filter_filter]
  refine congrArg (List.foldl _ _) (List.filter_congr fun e _ => ?_)
  cases hk : decide (key e = k) <;> simp

/-! ### Answers -/

variable {ο : Type*} {answer : ε → σ → ο}

/-- The answers to a series of events, each from the entry of its key before it. -/
def answers (key : ε → κ) (update : ε → σ → σ) (answer : ε → σ → ο) :
    (κ → σ) → List ε → List ο
  | _, [] => []
  | store, e :: events =>
    answer e (store (key e)) :: answers key update answer (step key update store e) events

/-- The answers to the events of one key depend on its entry alone. -/
theorem answers_congr {events : List ε} {k : κ} (h : ∀ e ∈ events, key e = k)
    {store store' : κ → σ} (hk : store k = store' k) :
    answers key update answer store events = answers key update answer store' events := by
  induction events generalizing store store' with
  | nil => rfl
  | cons e events ih =>
      obtain rfl : key e = k := h e List.mem_cons_self
      have hstep : step key update store e (key e) = step key update store' e (key e) := by
        rw [step_apply_self, step_apply_self, hk]
      rw [answers, answers, hk, ih (fun other hother => h other (List.mem_cons_of_mem e hother))
        hstep]

/-- **The answers** are those to the events of each key, by themselves. -/
theorem mem_answers_iff (store : κ → σ) (events : List ε) (o : ο) :
    o ∈ answers key update answer store events ↔
      ∃ k, o ∈ answers key update answer store (events.filter (key · = k)) := by
  induction events generalizing store with
  | nil => exact iff_of_false List.not_mem_nil fun ⟨_, h⟩ => List.not_mem_nil h
  | cons e events ih =>
      have hown : answers key update answer store ((e :: events).filter (key · = key e)) =
          answer e (store (key e)) ::
            answers key update answer (step key update store e) (events.filter (key · = key e)) := by
        rw [List.filter_cons_of_pos (by simp), answers]
      have hother : ∀ k, key e ≠ k →
          answers key update answer store ((e :: events).filter (key · = k)) =
            answers key update answer (step key update store e) (events.filter (key · = k)) := by
        intro k hk
        rw [List.filter_cons_of_neg (by simpa using hk)]
        refine answers_congr (k := k) (fun other hmem => ?_) (step_apply_of_ne hk).symm
        exact of_decide_eq_true (List.mem_filter.mp hmem).2
      rw [answers, List.mem_cons, ih]
      constructor
      · rintro (rfl | ⟨k, hk⟩)
        · exact ⟨key e, by rw [hown]; exact List.mem_cons_self⟩
        · by_cases heq : key e = k
          · exact ⟨key e, by rw [hown]; exact List.mem_cons_of_mem _ (heq ▸ hk)⟩
          · exact ⟨k, by rwa [hother k heq]⟩
      · rintro ⟨k, hk⟩
        by_cases heq : key e = k
        · rw [← heq, hown, List.mem_cons] at hk
          exact hk.imp id fun h => ⟨_, h⟩
        · rw [hother k heq] at hk
          exact Or.inr ⟨k, hk⟩

/-- **Interleavings** of the same events of each key get the same answers. -/
theorem mem_answers_congr {events events' : List ε}
    (h : ∀ k, events.filter (key · = k) = events'.filter (key · = k)) (store : κ → σ) (o : ο) :
    o ∈ answers key update answer store events ↔ o ∈ answers key update answer store events' := by
  rw [mem_answers_iff, mem_answers_iff store events']
  exact exists_congr fun k => by rw [h k]

/-- Interleavings leave the same store. -/
theorem run_congr {events events' : List ε}
    (h : ∀ k, events.filter (key · = k) = events'.filter (key · = k)) (store : κ → σ) :
    run key update store events = run key update store events' := by
  funext k
  rw [run_apply, run_apply, h k]

end KeyedStore
