import Hades.BoundedLoop
import Hades.Configuration

/-!
# The Test Filter

`wildcardMatch`, the `*`-glob matcher of `run --fbt=` (`Commands.cpp`; the generated program
has the same function): a greedy loop over pattern and text that comes back to the last star
when it gets stuck.

## Main results

* `exists_wildcardLoop`: the loop ends.
* `wildcardMatch_self`: **every text matches itself** as a pattern, stars included.
-/

namespace Hades.Runtime

/-- The variables of the loop; `npos` is `none`. -/
structure WildcardState where
  l_p : ℕ := 0
  l_t : ℕ := 0
  l_star : Option ℕ := none
  l_mark : ℕ := 0
  deriving DecidableEq

/-- One pass of the loop, or what follows the loop: only stars may be left of the
pattern. -/
def wildcardStep (pattern text : Text) (s : WildcardState) : WildcardState ⊕ Bool :=
  if s.l_t < text.length then
    if s.l_p < pattern.length ∧ pattern[s.l_p]? = text[s.l_t]? then
      .inl { s with l_p := s.l_p + 1, l_t := s.l_t + 1 }
    else if s.l_p < pattern.length ∧ pattern[s.l_p]? = some '*' then
      .inl { s with l_p := s.l_p + 1, l_star := some s.l_p, l_mark := s.l_t }
    else
      match s.l_star with
      | some star => .inl { s with l_p := star + 1, l_t := s.l_mark + 1, l_mark := s.l_mark + 1 }
      | none => .inr false
  else .inr ((pattern.drop s.l_p).all (· == '*'))

/-- The pattern behind the last star that is still to be tried. -/
def WildcardState.starRank (s : WildcardState) : ℕ :=
  s.l_star.elim 0 (· + 1)

/-- The measure of the loop: a star is passed, or the mark moves, or the text position. -/
def wildcardMeasure (pattern text : Text) (s : WildcardState) : ℕ :=
  ((pattern.length - s.starRank) * (text.length + 1) + (text.length - s.l_mark)) *
    (text.length + 1) + (text.length - s.l_t)

/-- The loop. -/
def wildcardLoop (pattern text : Text) : Option Bool :=
  BoundedLoop.run (wildcardStep pattern text) (wildcardMeasure pattern text {} + 1) {}

/-- Whether a text matches a pattern. -/
def wildcardMatch (pattern text : Text) : Bool :=
  (wildcardLoop pattern text).getD false

/-! ### The loop ends -/

/-- What holds before every pass: the mark is not behind the text position, and the last
star is before the pattern position. -/
structure WildcardState.IsValid (pattern text : Text) (s : WildcardState) : Prop where
  l_p_le : s.l_p ≤ pattern.length
  l_t_le : s.l_t ≤ text.length
  l_mark_le : s.l_mark ≤ s.l_t
  star_lt : ∀ star, s.l_star = some star → star < s.l_p

/-- **Every pass** keeps the loop's invariant and decreases its measure. -/
theorem wildcardStep_decreases {pattern text : Text} {s s' : WildcardState}
    (hs : s.IsValid pattern text) (h : wildcardStep pattern text s = .inl s') :
    s'.IsValid pattern text ∧
      wildcardMeasure pattern text s' < wildcardMeasure pattern text s := by
  obtain ⟨hp, ht, hmark, hstar⟩ := hs
  rw [wildcardStep] at h
  split at h
  · next hlt =>
    split at h
    · next hmatch =>
      -- the characters match: the text position moves
      obtain rfl := Sum.inl.inj h
      refine ⟨⟨hmatch.1, hlt, by dsimp only; omega, ?_⟩, ?_⟩
      · intro star hs
        exact Nat.lt_succ_of_lt (hstar star hs)
      · exact BoundedLoop.lex_lt_of_right (by dsimp only; omega)
    split at h
    · next hnew =>
      -- a star: it becomes the last one
      obtain rfl := Sum.inl.inj h
      refine ⟨⟨hnew.1, ht, le_refl _, ?_⟩, ?_⟩
      · intro star hs
        obtain rfl := Option.some.inj hs
        exact Nat.lt_succ_self s.l_p
      · have hrank : s.starRank ≤ s.l_p := by
          rw [WildcardState.starRank]
          cases hs : s.l_star with
          | none => exact Nat.zero_le _
          | some star => exact hstar star hs
        refine BoundedLoop.lex_lt_of_left (BoundedLoop.lex_lt_of_left ?_ ?_) ?_
        · change pattern.length - (s.l_p + 1) < pattern.length - s.starRank
          omega
        · exact Nat.sub_le _ _
        · exact Nat.sub_le _ _
    split at h
    · next star hs =>
      -- stuck: the last star takes one more character
      obtain rfl := Sum.inl.inj h
      have hlast := hstar star hs
      refine ⟨⟨by dsimp only; omega, by dsimp only; omega, le_refl _, ?_⟩, ?_⟩
      · intro star' hs'
        obtain rfl := Option.some.inj (hs.symm.trans hs')
        exact Nat.lt_succ_self star
      · refine BoundedLoop.lex_lt_of_left (BoundedLoop.lex_lt_of_right ?_) (Nat.sub_le _ _)
        dsimp only
        omega
    · cases h
  · cases h

/-- **The loop ends.** -/
theorem exists_wildcardLoop (pattern text : Text) : ∃ r, wildcardLoop pattern text = some r := by
  have hstart : WildcardState.IsValid pattern text {} :=
    ⟨Nat.zero_le _, Nat.zero_le _, le_refl _, fun star hs => by cases hs⟩
  exact BoundedLoop.exists_run_of_measure (fun s s' => wildcardStep_decreases) hstart
    (Nat.lt_succ_self _)

/-! ### A text as its own pattern -/

/-- On equal positions of equal texts every pass moves both positions. -/
theorem run_wildcardStep_self (text : Text) {fuel k : ℕ} (hk : k ≤ text.length)
    (hfuel : text.length - k < fuel) :
    BoundedLoop.run (wildcardStep text text) fuel { l_p := k, l_t := k } = some true := by
  induction fuel generalizing k with
  | zero => omega
  | succ fuel ih =>
      by_cases hlt : k < text.length
      · have hstep : wildcardStep text text { l_p := k, l_t := k } =
            .inl { l_p := k + 1, l_t := k + 1 } := by
          rw [wildcardStep, if_pos hlt, if_pos ⟨hlt, rfl⟩]
        rw [BoundedLoop.run_of_inl hstep]
        exact ih hlt (by omega)
      · have hstep : wildcardStep text text { l_p := k, l_t := k } = .inr true := by
          rw [wildcardStep, if_neg hlt, List.drop_of_length_le (Nat.le_of_not_lt hlt)]
          rfl
        exact BoundedLoop.run_of_inr hstep fuel

/-- **Every text matches itself** as a pattern. -/
theorem wildcardMatch_self (text : Text) : wildcardMatch text text = true := by
  have hfuel : text.length - 0 < wildcardMeasure text text {} + 1 :=
    Nat.lt_succ_of_le (Nat.le_add_left _ _)
  rw [wildcardMatch, wildcardLoop, run_wildcardStep_self text (Nat.zero_le _) hfuel]
  rfl

end Hades.Runtime
