import Hades.Glob
import Hades.SystemCommands

/-!
# What the Test Filter Selects

`wildcardMatch` (`Commands.cpp`, and the same function in the generated program) against the
language of its patterns (`Glob.Matches`). The loop compares two characters before it asks
whether the pattern's one is a star, so a star of the pattern that meets a star of the text
stands for that one character: the loop decides `Glob.MatchesEagerly`.

The loop reads its texts by index. `checkedStep` is the loop with every read checked: a read
outside of a text would end it without a result.

## Main results

* `wildcardStep_cases`: all that one pass can do.
* `Promising.step` and `wildcardMatch_eq_true_iff`: **what the loop decides**; it may forget all
  stars but the last one.
* `decidesLanguage_iff`: when this is the language of the pattern; a text without stars is enough
  (`decidesLanguage_of_plain`).
* `wildcardMatch_safe`: the loop ends without a read outside of the texts, and a test that is
  run matches the filter, if there is one.
-/

namespace Hades.Runtime

open Glob

/-! ### One pass -/

/-- **All that one pass can do**, said of what is left of pattern and text. -/
theorem wildcardStep_cases (pattern text : Text) (s : WildcardState) :
    (∃ c, pattern.drop s.l_p = c :: pattern.drop (s.l_p + 1) ∧
      text.drop s.l_t = c :: text.drop (s.l_t + 1) ∧
      wildcardStep pattern text s = .inl { s with l_p := s.l_p + 1, l_t := s.l_t + 1 }) ∨
    (pattern.drop s.l_p = '*' :: pattern.drop (s.l_p + 1) ∧
      (text.drop s.l_t).head? ≠ some '*' ∧
      wildcardStep pattern text s =
        .inl { s with l_p := s.l_p + 1, l_star := some s.l_p, l_mark := s.l_t }) ∨
    (text.drop s.l_t ≠ [] ∧
      ¬ MatchesEagerly '*' (pattern.drop s.l_p) (text.drop s.l_t) ∧
      wildcardStep pattern text s = s.l_star.elim (.inr false) fun star =>
        .inl { s with l_p := star + 1, l_t := s.l_mark + 1, l_mark := s.l_mark + 1 }) ∨
    (text.drop s.l_t = [] ∧
      wildcardStep pattern text s = .inr ((pattern.drop s.l_p).all (· == '*'))) := by
  rw [wildcardStep]
  by_cases htext : s.l_t < text.length
  · rw [if_pos htext]
    have ht : text.drop s.l_t = text[s.l_t] :: text.drop (s.l_t + 1) :=
      List.drop_eq_getElem_cons htext
    by_cases hpattern : s.l_p < pattern.length
    · have hp : pattern.drop s.l_p = pattern[s.l_p] :: pattern.drop (s.l_p + 1) :=
        List.drop_eq_getElem_cons hpattern
      by_cases hsame : pattern[s.l_p] = text[s.l_t]
      · exact .inl ⟨text[s.l_t], by rw [hp, hsame], ht, by simp [hpattern, htext, hsame]⟩
      by_cases hstar : pattern[s.l_p] = '*'
      · refine .inr (.inl ⟨by rw [hp, hstar], ?_, ?_⟩)
        · rw [ht, List.head?_cons, ← hstar]
          exact fun heq => hsame (Option.some.inj heq).symm
        · have hne : '*' ≠ text[s.l_t] := hstar ▸ hsame
          simp [hpattern, htext, hstar, hne]
      · refine .inr (.inr (.inl ⟨by rw [ht]; exact List.cons_ne_nil _ _, ?_, ?_⟩))
        · rw [hp, ht]
          exact not_matchesEagerly_of_ne hstar hsame
        · cases hs : s.l_star <;> simp [hpattern, htext, hsame, hstar]
    · refine .inr (.inr (.inl ⟨by rw [ht]; exact List.cons_ne_nil _ _, ?_, ?_⟩))
      · rw [List.drop_of_length_le (not_lt.mp hpattern), ht]
        exact not_matchesEagerly_nil
      · cases hs : s.l_star <;> simp [hpattern]
  · exact .inr (.inr (.inr ⟨List.drop_of_length_le (not_lt.mp htext), by rw [if_neg htext]⟩))

/-! ### What the loop decides -/

/-- What is left to be found: a match from here, or one from the last star on. -/
def Prospect (pattern text : Text) (s : WildcardState) : Prop :=
  match s.l_star with
  | none => MatchesEagerly '*' (pattern.drop s.l_p) (text.drop s.l_t)
  | some star =>
    ∃ later, later <:+ text.drop s.l_mark ∧ MatchesEagerly '*' (pattern.drop (star + 1)) later

/-- **The loop's invariant**: the text matches if there is a match left to be found, and what
the pattern has behind its last star occurs in the text from the mark on. -/
structure Promising (pattern text : Text) (s : WildcardState) : Prop where
  prospect : MatchesEagerly '*' pattern text ↔ Prospect pattern text s
  attempt : ∀ star, s.l_star = some star → ∃ front,
    pattern.drop (star + 1) = front ++ pattern.drop s.l_p ∧
      text.drop s.l_mark = front ++ text.drop s.l_t

/-- The loop starts with the whole texts. -/
theorem promising_start (pattern text : Text) : Promising pattern text {} where
  prospect := Iff.rfl
  attempt := fun star h => by cases h

variable {pattern text : Text} {s s' : WildcardState}

/-- A match that is left to be found leads past the attempt. -/
theorem Promising.exists_behind (h : Promising pattern text s)
    (hprospect : Prospect pattern text s) :
    ∃ later, later <:+ text.drop s.l_t ∧ MatchesEagerly '*' (pattern.drop s.l_p) later := by
  rw [Prospect] at hprospect
  split at hprospect
  · exact ⟨_, List.suffix_rfl, hprospect⟩
  · next star hstar =>
      obtain ⟨front, hpattern, htext⟩ := h.attempt star hstar
      obtain ⟨later, hlater, hmatch⟩ := hprospect
      rw [hpattern] at hmatch
      rw [htext] at hlater
      exact hmatch.exists_behind hlater

/-- A match from here is a match that is left to be found. -/
theorem Promising.prospect_of_matches (h : Promising pattern text s)
    (hmatch : MatchesEagerly '*' (pattern.drop s.l_p) (text.drop s.l_t)) :
    Prospect pattern text s := by
  rw [Prospect]
  split
  · exact hmatch
  · next star hstar =>
      obtain ⟨front, hpattern, htext⟩ := h.attempt star hstar
      refine ⟨_, List.suffix_rfl, ?_⟩
      rw [hpattern, htext]
      exact (matchesEagerly_append_append front).mpr hmatch

/-- Two equal characters are passed. -/
theorem Promising.advance (h : Promising pattern text s) {c : Char}
    (hp : pattern.drop s.l_p = c :: pattern.drop (s.l_p + 1))
    (ht : text.drop s.l_t = c :: text.drop (s.l_t + 1)) :
    Promising pattern text { s with l_p := s.l_p + 1, l_t := s.l_t + 1 } where
  prospect := by
    rw [h.prospect, Prospect, Prospect]
    cases s.l_star with
    | none =>
        dsimp only
        rw [hp, ht]
        exact matchesEagerly_cons_cons
    | some star => exact Iff.rfl
  attempt := fun star hstar => by
    obtain ⟨front, hpattern, htext⟩ := h.attempt star hstar
    refine ⟨front ++ [c], ?_, ?_⟩
    · rw [hpattern, hp, List.append_assoc, List.singleton_append]
    · rw [htext, ht, List.append_assoc, List.singleton_append]

/-- A star that meets another character, or the end, is the last one from here on: the stars
before it need not take more than they have. -/
theorem Promising.newStar (h : Promising pattern text s)
    (hp : pattern.drop s.l_p = '*' :: pattern.drop (s.l_p + 1))
    (hhead : (text.drop s.l_t).head? ≠ some '*') :
    Promising pattern text
      { s with l_p := s.l_p + 1, l_star := some s.l_p, l_mark := s.l_t } where
  prospect := by
    rw [h.prospect]
    constructor
    · intro hprospect
      obtain ⟨later, hlater, hmatch⟩ := h.exists_behind hprospect
      rw [hp] at hmatch
      cases hmatch with
      | symbol hc => exact absurd rfl hc
      | literal hmatch => exact ⟨_, (List.suffix_cons _ _).trans hlater, hmatch⟩
      | star word _ hmatch => exact ⟨_, (List.suffix_append word _).trans hlater, hmatch⟩
    · intro hlater
      refine h.prospect_of_matches ?_
      rw [hp]
      exact (matchesEagerly_star_iff hhead).mpr hlater
  attempt := fun star hstar => by
    obtain rfl := Option.some.inj hstar
    exact ⟨[], rfl, rfl⟩

/-- When the attempt is stuck the last star takes one more character. -/
theorem Promising.backtrack (h : Promising pattern text s) (hne : text.drop s.l_t ≠ [])
    (hstuck : ¬ MatchesEagerly '*' (pattern.drop s.l_p) (text.drop s.l_t)) {star : ℕ}
    (hstar : s.l_star = some star) :
    Promising pattern text
      { l_p := star + 1, l_t := s.l_mark + 1, l_star := some star, l_mark := s.l_mark + 1 } where
  prospect := by
    obtain ⟨front, hpattern, htext⟩ := h.attempt star hstar
    have hlt : s.l_mark < text.length := by
      by_contra hge
      rw [List.drop_of_length_le (not_lt.mp hge)] at htext
      exact hne (List.append_eq_nil_iff.mp htext.symm).2
    rw [h.prospect, Prospect, Prospect, hstar]
    dsimp only
    rw [List.drop_eq_getElem_cons hlt]
    constructor
    · rintro ⟨later, hlater, hmatch⟩
      rcases List.suffix_cons_iff.mp hlater with rfl | hbehind
      · rw [← List.drop_eq_getElem_cons hlt, hpattern, htext] at hmatch
        exact absurd ((matchesEagerly_append_append front).mp hmatch) hstuck
      · exact ⟨later, hbehind, hmatch⟩
    · rintro ⟨later, hlater, hmatch⟩
      exact ⟨later, hlater.trans (List.suffix_cons _ _), hmatch⟩
  attempt := fun star' hstar' => by
    obtain rfl := Option.some.inj hstar'
    exact ⟨[], rfl, rfl⟩

/-- **The step lemma**: every pass keeps the invariant. -/
theorem Promising.step (h : Promising pattern text s)
    (hstep : wildcardStep pattern text s = .inl s') : Promising pattern text s' := by
  rcases wildcardStep_cases pattern text s with ⟨c, hp, ht, heq⟩ | ⟨hp, hhead, heq⟩ |
    ⟨hne, hstuck, heq⟩ | ⟨-, heq⟩
  · rw [heq] at hstep
    obtain rfl := Sum.inl.inj hstep
    exact h.advance hp ht
  · rw [heq] at hstep
    obtain rfl := Sum.inl.inj hstep
    exact h.newStar hp hhead
  · cases hstar : s.l_star with
    | none =>
        rw [heq, hstar] at hstep
        cases hstep
    | some star =>
        rw [heq, hstar] at hstep
        obtain rfl := Sum.inl.inj hstep
        exact h.backtrack hne hstuck hstar
  · rw [heq] at hstep
    cases hstep

/-- **Where the loop ends** it says whether the text matches. -/
theorem Promising.exit (h : Promising pattern text s) {r : Bool}
    (hstep : wildcardStep pattern text s = .inr r) :
    r = true ↔ MatchesEagerly '*' pattern text := by
  rw [h.prospect]
  rcases wildcardStep_cases pattern text s with ⟨c, hp, ht, heq⟩ | ⟨hp, hhead, heq⟩ |
    ⟨hne, hstuck, heq⟩ | ⟨hend, heq⟩
  · rw [heq] at hstep
    cases hstep
  · rw [heq] at hstep
    cases hstep
  · cases hstar : s.l_star with
    | none =>
        rw [heq, hstar] at hstep
        obtain rfl := Sum.inr.inj hstep
        rw [Prospect, hstar]
        exact iff_of_false Bool.false_ne_true hstuck
    | some star =>
        rw [heq, hstar] at hstep
        cases hstep
  · rw [heq] at hstep
    obtain rfl := Sum.inr.inj hstep
    rw [← matchesEagerly_nil_iff]
    constructor
    · intro hmatch
      rw [← hend] at hmatch
      exact h.prospect_of_matches hmatch
    · intro hprospect
      obtain ⟨later, hlater, hmatch⟩ := h.exists_behind hprospect
      rw [hend] at hlater
      rwa [List.suffix_nil.mp hlater] at hmatch

/-- **What the loop decides**: whether the text is in the eager language of the pattern. -/
theorem wildcardMatch_eq_true_iff (pattern text : Text) :
    wildcardMatch pattern text = true ↔ MatchesEagerly '*' pattern text := by
  obtain ⟨r, hr⟩ := exists_wildcardLoop pattern text
  rw [wildcardMatch, hr, Option.getD_some]
  exact BoundedLoop.run_invariant (Promising pattern text)
    (fun r => r = true ↔ MatchesEagerly '*' pattern text) (fun _ _ h hstep => h.step hstep)
    (fun _ _ h hstep => h.exit hstep) (promising_start pattern text) hr

/-- The matcher decides the language of the pattern for a text. -/
def DecidesLanguage (pattern text : Text) : Prop :=
  wildcardMatch pattern text = true ↔ Matches '*' pattern text

/-- **When the matcher decides the language**: unless the text matches only by way of a star of
the pattern that meets a star of the text and does not stand for it alone. -/
theorem decidesLanguage_iff (pattern text : Text) :
    DecidesLanguage pattern text ↔
      (Matches '*' pattern text → MatchesEagerly '*' pattern text) := by
  rw [DecidesLanguage, wildcardMatch_eq_true_iff]
  exact ⟨fun h => h.mpr, fun h => ⟨MatchesEagerly.matches, h⟩⟩

/-- **The star of `*a` takes the star of `*ba`**, and nothing is left for the `b`. -/
theorem not_decidesLanguage_star : ¬ DecidesLanguage "*a".toList "*ba".toList := by
  intro h
  have hmatches : Matches '*' "*a".toList "*ba".toList :=
    .star ['*', 'b'] (.symbol (by decide) .nil)
  have hfalse : wildcardMatch "*a".toList "*ba".toList = false := by decide +kernel
  rw [h.mpr hmatches] at hfalse
  cases hfalse

/-- For a text without a star the matcher decides the language. -/
theorem decidesLanguage_of_plain (pattern : Text) {text : Text} (h : '*' ∉ text) :
    DecidesLanguage pattern text := by
  rw [DecidesLanguage, wildcardMatch_eq_true_iff]
  exact ⟨MatchesEagerly.matches, fun hmatch => hmatch.eagerly h⟩

/-! ### The reads of the loop -/

/-- The two loops of the function: over the text, and over what is left of the pattern. -/
inductive WildcardLoop where
  | scanning (s : WildcardState)
  | trailing (l_p : ℕ)
  deriving DecidableEq

/-- Whether the pattern has a star at a position in it. -/
def readsStar? (pattern : Text) (p : ℕ) : Option Bool :=
  if p < pattern.length then do
    let c ← pattern[p]?
    some (c == '*')
  else some false

/-- Whether the pattern has the text's character at a position in it. -/
def readsSame? (pattern text : Text) (p t : ℕ) : Option Bool :=
  if p < pattern.length then do
    let c ← pattern[p]?
    let d ← text[t]?
    some (c == d)
  else some false

/-- One pass of either loop; `none` if it reads outside of a text. -/
def checkedStep (pattern text : Text) : WildcardLoop → Option (WildcardLoop ⊕ Bool)
  | .scanning s =>
    if s.l_t < text.length then do
      let same ← readsSame? pattern text s.l_p s.l_t
      if same then some (.inl (.scanning { s with l_p := s.l_p + 1, l_t := s.l_t + 1 }))
      else do
        let isStar ← readsStar? pattern s.l_p
        if isStar then
          some (.inl (.scanning
            { s with l_p := s.l_p + 1, l_star := some s.l_p, l_mark := s.l_t }))
        else
          match s.l_star with
          | some star => some (.inl (.scanning
              { s with l_p := star + 1, l_t := s.l_mark + 1, l_mark := s.l_mark + 1 }))
          | none => some (.inr false)
    else some (.inl (.trailing s.l_p))
  | .trailing p => do
    let isStar ← readsStar? pattern p
    if isStar then some (.inl (.trailing (p + 1))) else some (.inr (p == pattern.length))

/-- One pass as the body of a loop that a read outside of a text ends. -/
def checkedBody (pattern text : Text) (l : WildcardLoop) : WildcardLoop ⊕ Option Bool :=
  match checkedStep pattern text l with
  | none => .inr none
  | some (.inl l') => .inl l'
  | some (.inr r) => .inr (some r)

/-- The measure of both loops. -/
def checkedMeasure (pattern text : Text) : WildcardLoop → ℕ
  | .scanning s => wildcardMeasure pattern text s + pattern.length + 1
  | .trailing p => pattern.length - p

/-- The function with checked reads: `none` if it does not end, `some none` if it reads
outside of a text. -/
def wildcardMatchChecked (pattern text : Text) : Option (Option Bool) :=
  BoundedLoop.run (checkedBody pattern text)
    (checkedMeasure pattern text (.scanning {}) + 1) (.scanning {})

theorem readsStar?_eq (pattern : Text) (p : ℕ) :
    readsStar? pattern p = some (decide (pattern[p]? = some '*')) := by
  rw [readsStar?]
  split
  · next hlt => simp [hlt, beq_eq_decide]
  · next hge => simp [List.getElem?_eq_none (not_lt.mp hge)]

theorem readsSame?_eq (pattern : Text) {text : Text} (p : ℕ) {t : ℕ} (ht : t < text.length) :
    readsSame? pattern text p t =
      some (decide (p < pattern.length ∧ pattern[p]? = text[t]?)) := by
  rw [readsSame?]
  split
  · next hlt => simp [hlt, ht, beq_eq_decide]
  · next hge => simp [hge]

/-- **A pass over the text reads inside of both texts**, and does what it does unchecked. -/
theorem checkedStep_scanning (pattern text : Text) (s : WildcardState) :
    checkedStep pattern text (.scanning s) =
      if s.l_t < text.length then
        some ((wildcardStep pattern text s).map .scanning id)
      else some (.inl (.trailing s.l_p)) := by
  rw [checkedStep]
  split
  · next ht =>
      rw [readsSame?_eq pattern s.l_p ht, readsStar?_eq, wildcardStep, if_pos ht]
      by_cases hsame : s.l_p < pattern.length ∧ pattern[s.l_p]? = text[s.l_t]?
      · rw [if_pos hsame, decide_eq_true hsame]
        rfl
      by_cases hstar : pattern[s.l_p]? = some '*'
      · have hlt : s.l_p < pattern.length := (List.getElem?_eq_some_iff.mp hstar).1
        rw [if_neg hsame, if_pos ⟨hlt, hstar⟩, decide_eq_false hsame, decide_eq_true hstar]
        rfl
      · have hnot : ¬ (s.l_p < pattern.length ∧ pattern[s.l_p]? = some '*') := fun h => hstar h.2
        rw [if_neg hsame, if_neg hnot, decide_eq_false hsame, decide_eq_false hstar]
        cases s.l_star <;> rfl
  · rfl

/-- A pass over the rest of the pattern reads inside of it. -/
theorem checkedStep_trailing (pattern text : Text) (p : ℕ) :
    checkedStep pattern text (.trailing p) =
      if pattern[p]? = some '*' then some (.inl (.trailing (p + 1)))
      else some (.inr (p == pattern.length)) := by
  rw [checkedStep, readsStar?_eq]
  by_cases hstar : pattern[p]? = some '*'
  · simp [hstar]
  · simp [hstar]

/-- **The invariant of both loops.** -/
def WildcardLoop.IsSafe (pattern text : Text) : WildcardLoop → Prop
  | .scanning s => s.IsValid pattern text ∧ Promising pattern text s
  | .trailing p => p ≤ pattern.length ∧
      (MatchesEagerly '*' pattern text ↔ (pattern.drop p).all (· == '*') = true)

/-- **Every pass is safe**: it reads inside of the texts, and it goes on with a smaller measure,
or ends with the result of the matcher. -/
theorem WildcardLoop.IsSafe.step {l : WildcardLoop} (h : l.IsSafe pattern text) :
    (∃ l' : WildcardLoop, checkedStep pattern text l = some (.inl l') ∧ l'.IsSafe pattern text ∧
      checkedMeasure pattern text l' < checkedMeasure pattern text l) ∨
    checkedStep pattern text l = some (.inr (wildcardMatch pattern text)) := by
  cases l with
  | scanning s =>
      obtain ⟨hvalid, hpromising⟩ := h
      rw [checkedStep_scanning]
      by_cases ht : s.l_t < text.length
      · rw [if_pos ht]
        cases hstep : wildcardStep pattern text s with
        | inl s' =>
            obtain ⟨hvalid', hlt⟩ := wildcardStep_decreases hvalid hstep
            exact .inl ⟨.scanning s', rfl, ⟨hvalid', hpromising.step hstep⟩, by
              simp only [checkedMeasure]; omega⟩
        | inr r =>
            have hr : r = wildcardMatch pattern text := by
              rw [Bool.eq_iff_iff, wildcardMatch_eq_true_iff]
              exact hpromising.exit hstep
            rw [hr]
            exact .inr rfl
      · rw [if_neg ht]
        refine .inl ⟨_, rfl, ⟨hvalid.l_p_le, ?_⟩, by simp only [checkedMeasure]; omega⟩
        exact (hpromising.exit (if_neg ht)).symm
  | trailing p =>
      obtain ⟨hle, hmatch⟩ := h
      rw [checkedStep_trailing]
      by_cases hstar : pattern[p]? = some '*'
      · obtain ⟨hlt, hget⟩ := List.getElem?_eq_some_iff.mp hstar
        rw [if_pos hstar]
        refine .inl ⟨_, rfl, ⟨hlt, ?_⟩, by simp only [checkedMeasure]; omega⟩
        rw [hmatch, List.drop_eq_getElem_cons hlt, hget]
        simp
      · rw [if_neg hstar]
        have hr : (p == pattern.length) = wildcardMatch pattern text := by
          rw [Bool.eq_iff_iff, wildcardMatch_eq_true_iff, hmatch, beq_iff_eq]
          rcases Nat.lt_or_eq_of_le hle with hlt | rfl
          · have hne : pattern[p] ≠ '*' := fun heq =>
              hstar (List.getElem?_eq_some_iff.mpr ⟨hlt, heq⟩)
            rw [List.drop_eq_getElem_cons hlt, List.all_cons, beq_false_of_ne hne,
              Bool.false_and]
            exact iff_of_false hlt.ne Bool.false_ne_true
          · simp
        rw [hr]
        exact .inr rfl

/-- The two loops start safely. -/
theorem isSafe_start (pattern text : Text) :
    WildcardLoop.IsSafe pattern text (.scanning {}) :=
  ⟨⟨Nat.zero_le _, Nat.zero_le _, le_refl _, fun star hs => by cases hs⟩,
    promising_start pattern text⟩

/-- **The function ends, and reads inside of its texts only.** -/
theorem wildcardMatchChecked_eq (pattern text : Text) :
    wildcardMatchChecked pattern text = some (some (wildcardMatch pattern text)) := by
  have hbody : ∀ l l' : WildcardLoop, l.IsSafe pattern text →
      checkedBody pattern text l = .inl l' → l'.IsSafe pattern text ∧
        checkedMeasure pattern text l' < checkedMeasure pattern text l := by
    intro l l' hl hstep
    rw [checkedBody] at hstep
    rcases hl.step with ⟨next, heq, hnext⟩ | heq
    · rw [heq] at hstep
      obtain rfl := Sum.inl.inj hstep
      exact hnext
    · rw [heq] at hstep
      cases hstep
  have hexit : ∀ (l : WildcardLoop) (r : Option Bool), l.IsSafe pattern text →
      checkedBody pattern text l = .inr r → r = some (wildcardMatch pattern text) := by
    intro l r hl hstep
    rw [checkedBody] at hstep
    rcases hl.step with ⟨next, heq, -⟩ | heq
    · rw [heq] at hstep
      cases hstep
    · rw [heq] at hstep
      exact (Sum.inr.inj hstep).symm
  obtain ⟨r, hr⟩ := BoundedLoop.exists_run_of_measure hbody (isSafe_start pattern text)
    (Nat.lt_succ_self _)
  rw [wildcardMatchChecked, hr]
  exact congrArg some (BoundedLoop.run_invariant _ _ (fun l l' hl h => (hbody l l' hl h).1) hexit
    (isSafe_start pattern text) hr)

/-! ### The tests that are run -/

/-- A test that a pattern selects matches the pattern. -/
theorem matches_of_selects {pattern : Text} (hne : pattern ≠ []) {test : SuiteTestEntry}
    (h : selects pattern test = true) : Matches '*' pattern test.m_Config.m_Id := by
  rw [selects, Bool.or_eq_true, List.isEmpty_iff, or_iff_right hne] at h
  exact ((wildcardMatch_eq_true_iff _ _).mp h).matches

/-- **No test outside of the pattern is run** with arguments as they are written, in either
mode. In isolate mode the child's pattern is an id that matches, whose stars stand for parts of
what a star of the pattern stands for. -/
theorem matches_of_mem_executedTests {codec : DoubleCodec} {cwd : Text} {fs : FileSystem}
    {machine : Machine} {args : List Text} {test : SuiteTestEntry}
    (hne : (args.foldl RunOptions.parse {}).l_fbt ≠ [])
    (h : test ∈ (cmdRun codec cwd fs machine args).executedTests) :
    Matches '*' (args.foldl RunOptions.parse {}).l_fbt test.m_Config.m_Id := by
  unfold cmdRun at h
  dsimp only at h
  split at h
  · cases h
  next run hrun =>
  split at h
  · rw [executedTests_cmdRunIsolate hrun, List.mem_flatMap] at h
    obtain ⟨parent, hparent, htest⟩ := h
    have hselected := matches_of_selects hne (List.mem_filter.mp hparent).2
    by_cases hid : parent.m_Config.m_Id = []
    · -- the child of an empty id runs every test, and so does such a pattern
      rw [hid] at hselected
      exact hselected.of_nil hne _
    · exact hselected.trans (matches_of_selects hid (List.mem_filter.mp htest).2)
  · rw [executedTests_runNative] at h
    exact matches_of_selects hne (List.mem_filter.mp h).2

/-- What a process of the program executes under a pattern; the empty one is no filter. -/
theorem GeneratedProgram.matches_of_mem_main (program : GeneratedProgram)
    (compiled : FixtureEntry → FactoryFn) (args : List Text) :
    if (args.foldl MainArguments.parse {}).l_fbtPattern = [] then
      executedTests (program.main compiled args).actions = program.tests
    else
      ∀ test ∈ executedTests (program.main compiled args).actions,
        Matches '*' (args.foldl MainArguments.parse {}).l_fbtPattern test.m_Config.m_Id := by
  rw [program.executedTests_main compiled args]
  split
  · next hempty =>
      rw [hempty]
      exact List.filter_eq_self.mpr fun test _ => rfl
  · next hne => exact fun test htest => matches_of_selects hne (List.mem_filter.mp htest).2

end Hades.Runtime
