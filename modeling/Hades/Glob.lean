import Mathlib.Data.List.Basic
import Mathlib.Tactic.Common

/-!
# Glob Patterns

A pattern is a text in which one symbol, the `star`, stands for any text, and every other
symbol for itself. Nothing keeps a star out of the text that is matched.

`Matches` is the language of a pattern. `MatchesEagerly` is the smaller one of a matcher that
compares symbols before it looks for stars: a star of the pattern that meets a star of the text
stands for that one symbol.

## Main results

* `matches_iff_exists_fill`: a text matches if it is **the pattern with its stars replaced**.
* `Matches.trans`: what matches a text that matches a pattern matches the pattern.
* `MatchesEagerly.exists_behind`: **a star need not be passed later than it can be**, which is
  why a matcher may forget all stars but the last one.
-/

namespace Glob

variable {α : Type*} {star : α}

/-- The language of a pattern. -/
inductive Matches (star : α) : List α → List α → Prop where
  | nil : Matches star [] []
  | symbol {c : α} {pattern text : List α} (hc : c ≠ star) (h : Matches star pattern text) :
      Matches star (c :: pattern) (c :: text)
  | star (word : List α) {pattern text : List α} (h : Matches star pattern text) :
      Matches star (star :: pattern) (word ++ text)

/-- The language of an eager matcher: a star that meets a star stands for it alone. -/
inductive MatchesEagerly (star : α) : List α → List α → Prop where
  | nil : MatchesEagerly star [] []
  | symbol {c : α} {pattern text : List α} (hc : c ≠ star)
      (h : MatchesEagerly star pattern text) :
      MatchesEagerly star (c :: pattern) (c :: text)
  | literal {pattern text : List α} (h : MatchesEagerly star pattern text) :
      MatchesEagerly star (star :: pattern) (star :: text)
  | star (word : List α) {pattern text : List α} (hword : (word ++ text).head? ≠ some star)
      (h : MatchesEagerly star pattern text) :
      MatchesEagerly star (star :: pattern) (word ++ text)

/-- The pattern with its stars replaced, the one at position `i` by `choice i`. -/
def fill [DecidableEq α] (star : α) (choice : ℕ → List α) : List α → List α
  | [] => []
  | c :: pattern =>
    (if c = star then choice 0 else [c]) ++ fill star (fun i => choice (i + 1)) pattern

/-! ### The language -/

/-- **A text matches if it is the pattern with its stars replaced.** -/
theorem matches_iff_exists_fill [DecidableEq α] {pattern text : List α} :
    Matches star pattern text ↔ ∃ choice, fill star choice pattern = text := by
  constructor
  · intro h
    induction h with
    | nil => exact ⟨fun _ => [], rfl⟩
    | symbol hc _ ih =>
        obtain ⟨choice, rfl⟩ := ih
        refine ⟨fun i => i.casesOn [] choice, ?_⟩
        rw [fill, if_neg hc]
        rfl
    | star word _ ih =>
        obtain ⟨choice, rfl⟩ := ih
        refine ⟨fun i => i.casesOn word choice, ?_⟩
        rw [fill, if_pos rfl]
        rfl
  · rintro ⟨choice, rfl⟩
    induction pattern generalizing choice with
    | nil => exact .nil
    | cons c pattern ih =>
        rw [fill]
        split
        · next hc =>
            subst hc
            exact .star _ (ih _)
        · next hc => exact .symbol hc (ih _)

/-- A pattern matches the text of two of its parts. -/
theorem Matches.append {p₁ p₂ t₁ t₂ : List α} (h₁ : Matches star p₁ t₁)
    (h₂ : Matches star p₂ t₂) : Matches star (p₁ ++ p₂) (t₁ ++ t₂) := by
  induction h₁ with
  | nil => exact h₂
  | symbol hc _ ih => exact .symbol hc ih
  | star word _ ih =>
      rw [List.append_assoc]
      exact .star word ih

/-- What a text in two parts matches, taken as a pattern, is a text in two parts. -/
theorem Matches.exists_append {p₁ p₂ text : List α} (h : Matches star (p₁ ++ p₂) text) :
    ∃ t₁ t₂, text = t₁ ++ t₂ ∧ Matches star p₁ t₁ ∧ Matches star p₂ t₂ := by
  induction p₁ generalizing text with
  | nil => exact ⟨[], text, rfl, .nil, h⟩
  | cons c p₁ ih =>
      cases h with
      | symbol hc h =>
          obtain ⟨t₁, t₂, rfl, h₁, h₂⟩ := ih h
          exact ⟨c :: t₁, t₂, rfl, .symbol hc h₁, h₂⟩
      | star word h =>
          obtain ⟨t₁, t₂, rfl, h₁, h₂⟩ := ih h
          exact ⟨word ++ t₁, t₂, (List.append_assoc _ _ _).symm, .star word h₁, h₂⟩

/-- **What matches a text that matches a pattern matches the pattern.** -/
theorem Matches.trans {pattern middle text : List α} (h : Matches star pattern middle)
    (h' : Matches star middle text) : Matches star pattern text := by
  induction h generalizing text with
  | nil => exact h'
  | symbol hc _ ih =>
      cases h' with
      | symbol _ h' => exact .symbol hc (ih h')
      | star => exact absurd rfl hc
  | star word _ ih =>
      obtain ⟨t₁, t₂, rfl, -, h₂⟩ := h'.exists_append
      exact .star t₁ (ih h₂)

/-- A pattern that matches the empty text has nothing but stars, and matches every text, unless
it is empty. -/
theorem Matches.of_nil {pattern : List α} (h : Matches star pattern []) (hne : pattern ≠ [])
    (text : List α) : Matches star pattern text := by
  generalize htext : ([] : List α) = empty at h
  cases h with
  | nil => exact absurd rfl hne
  | symbol => cases htext
  | star word h =>
      rw [(List.append_eq_nil_iff.mp htext.symm).2] at h
      have hall : Matches star (star :: _) (text ++ []) := .star text h
      rwa [List.append_nil] at hall

/-! ### The eager language -/

/-- The eager language is a part of the language. -/
theorem MatchesEagerly.matches {pattern text : List α} (h : MatchesEagerly star pattern text) :
    Matches star pattern text := by
  induction h with
  | nil => exact .nil
  | symbol hc _ ih => exact .symbol hc ih
  | literal _ ih => exact .star [star] ih
  | star word _ _ ih => exact .star word ih

/-- **Without a star in the text** the two languages are the same. -/
theorem Matches.eagerly {pattern text : List α} (h : Matches star pattern text)
    (hplain : star ∉ text) : MatchesEagerly star pattern text := by
  induction h with
  | nil => exact .nil
  | symbol hc _ ih => exact .symbol hc (ih fun hmem => hplain (List.mem_cons_of_mem _ hmem))
  | star word _ ih =>
      refine .star word (fun hhead => hplain (List.mem_of_mem_head? hhead)) ?_
      exact ih fun hmem => hplain (List.mem_append_right _ hmem)

/-- Only stars match the empty text. -/
theorem matchesEagerly_nil_iff [DecidableEq α] {pattern : List α} :
    MatchesEagerly star pattern [] ↔ pattern.all (· == star) = true := by
  induction pattern with
  | nil => exact ⟨fun _ => rfl, fun _ => .nil⟩
  | cons c pattern ih =>
      rw [List.all_cons, Bool.and_eq_true, beq_iff_eq, ← ih]
      constructor
      · intro h
        generalize htext : ([] : List α) = text at h
        cases h with
        | symbol => cases htext
        | literal => cases htext
        | star word hword h =>
            obtain ⟨rfl, rfl⟩ := List.append_eq_nil_iff.mp htext.symm
            exact ⟨rfl, h⟩
      · rintro ⟨rfl, h⟩
        exact .star [] (by simp) h

/-- Equal symbols in front are passed together, stars included. -/
theorem matchesEagerly_cons_cons {c : α} {pattern text : List α} :
    MatchesEagerly star (c :: pattern) (c :: text) ↔ MatchesEagerly star pattern text := by
  constructor
  · intro h
    generalize htext : c :: text = whole at h
    cases h with
    | symbol _ h =>
        obtain rfl := (List.cons.inj htext).2
        exact h
    | literal h =>
        obtain rfl := (List.cons.inj htext).2
        exact h
    | star word hword h =>
        rw [← htext] at hword
        exact absurd rfl hword
  · intro h
    by_cases hc : c = star
    · subst hc
      exact .literal h
    · exact .symbol hc h

/-- Equal texts in front are passed together. -/
theorem matchesEagerly_append_append (front : List α) {pattern text : List α} :
    MatchesEagerly star (front ++ pattern) (front ++ text) ↔
      MatchesEagerly star pattern text := by
  induction front with
  | nil => exact Iff.rfl
  | cons c front ih => exact matchesEagerly_cons_cons.trans ih

/-- Symbols in front that differ, the one of the pattern not a star. -/
theorem not_matchesEagerly_of_ne {c d : α} {pattern text : List α} (hc : c ≠ star)
    (hne : c ≠ d) : ¬ MatchesEagerly star (c :: pattern) (d :: text) := by
  intro h
  generalize htext : d :: text = whole at h
  cases h with
  | symbol => exact hne (List.cons.inj htext).1.symm
  | literal => exact hc rfl
  | star => exact hc rfl

/-- Nothing but the empty text matches the empty pattern. -/
theorem not_matchesEagerly_nil {d : α} {text : List α} :
    ¬ MatchesEagerly star [] (d :: text) := by
  intro h
  cases h

/-- **A star that meets another symbol** stands for any text. -/
theorem matchesEagerly_star_iff {pattern text : List α} (hhead : text.head? ≠ some star) :
    MatchesEagerly star (star :: pattern) text ↔
      ∃ later, later <:+ text ∧ MatchesEagerly star pattern later := by
  constructor
  · intro h
    cases h with
    | symbol hc => exact absurd rfl hc
    | literal => exact absurd rfl hhead
    | star word _ h => exact ⟨_, List.suffix_append word _, h⟩
  · rintro ⟨later, ⟨word, rfl⟩, h⟩
    exact .star word hhead h

/-- **A star need not be passed later than it can be.** If a pattern matches from some later
place on, then the rest of the pattern behind a part that occurs here matches from behind that
part, or later. -/
theorem MatchesEagerly.exists_behind {front rest behind later : List α}
    (h : MatchesEagerly star (front ++ rest) later) (hlater : later <:+ front ++ behind) :
    ∃ later', later' <:+ behind ∧ MatchesEagerly star rest later' := by
  induction front generalizing later with
  | nil => exact ⟨later, hlater, h⟩
  | cons c front ih =>
      rcases List.suffix_cons_iff.mp hlater with rfl | hbehind
      · refine ⟨behind, List.suffix_rfl, ?_⟩
        exact (matchesEagerly_append_append (c :: front)).mp h
      -- the part occurs here, so what is left of it starts no earlier there
      · cases h with
        | symbol _ h => exact ih h ((List.suffix_cons _ _).trans hbehind)
        | literal h => exact ih h ((List.suffix_cons _ _).trans hbehind)
        | star word _ h => exact ih h ((List.suffix_append word _).trans hbehind)

end Glob
