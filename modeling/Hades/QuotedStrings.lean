import Hades.BoundedLoop
import Hades.TomlIO

/-!
# Which Tokens Are Quoted Strings

A quoted string should be a quote, a series of items and a quote, where an item is one of
the escapes or a character that is neither a backslash nor a quote. The loop of
`parseQuotedString` looks at the quotes of the token's ends only: inside it stops at
backslashes, and lets every other character stand for itself, a quote included.

`quotedStep` is the source's loop over positions; `parseQuotedString` of the reader is its
result as a recursion over the characters between the quotes.

## Main results

* `parseQuotedLoop_eq`: **the loop ends**, with the result of the recursion.
* `decidesQuotedStrings_iff`: the tokens that are decided as they should be.
-/

namespace Hades.Runtime

/-! ### The loop of the source -/

/-- The variables of the loop. -/
structure QuotedState where
  l_i : ℕ := 1
  ro_OutValue : Text := []

/-- One pass of the loop: a character, or a backslash and the one behind it, unless that is
the closing quote. The result is the value, or `none` for a malformed token. -/
def quotedStep (ro_Token : Text) (s : QuotedState) : QuotedState ⊕ Option Text :=
  if h : s.l_i + 1 < ro_Token.length then
    let l_char := ro_Token[s.l_i]
    if l_char ≠ '\\' then
      .inl { l_i := s.l_i + 1, ro_OutValue := s.ro_OutValue ++ [l_char] }
    else if s.l_i + 2 ≥ ro_Token.length then .inr none
    else
      match tomlEscapes.decode ro_Token[s.l_i + 1] with
      | some c => .inl { l_i := s.l_i + 2, ro_OutValue := s.ro_OutValue ++ [c] }
      | none => .inr none
  else .inr (some s.ro_OutValue)

/-- The check of both ends, and the loop. The outer `none` stands for a loop that does not
end. -/
def parseQuotedLoop (ro_Token : Text) : Option (Option Text) :=
  if ro_Token.length < 2 ∨ ro_Token.head? ≠ some '"' ∨ ro_Token.getLast? ≠ some '"' then
    some none
  else BoundedLoop.run (quotedStep ro_Token) ro_Token.length {}

/-- What the loop still has to read. -/
theorem dropLast_drop_cons {token : Text} {i : ℕ} (h : i + 1 < token.length) :
    (token.drop i).dropLast = token[i] :: (token.drop (i + 1)).dropLast := by
  have hne : token.drop (i + 1) ≠ [] := by simpa using h
  rw [List.drop_eq_getElem_cons (by omega), List.dropLast_cons_of_ne_nil hne]

/-- At the closing quote nothing is left to read. -/
theorem dropLast_drop_eq_nil {token : Text} {i : ℕ} (h : token.length ≤ i + 1) :
    (token.drop i).dropLast = [] := by
  refine List.eq_nil_of_length_eq_zero ?_
  rw [List.length_dropLast, List.length_drop]
  omega

/-- A character that stands for itself. -/
theorem quotedStep_plain {token : Text} {s : QuotedState} (h : s.l_i + 1 < token.length)
    (hc : token[s.l_i] ≠ '\\') :
    quotedStep token s =
      .inl { l_i := s.l_i + 1, ro_OutValue := s.ro_OutValue ++ [token[s.l_i]] } := by
  rw [quotedStep, dif_pos h]
  exact if_pos hc

/-- A backslash in front of the closing quote. -/
theorem quotedStep_dangling {token : Text} {s : QuotedState} (h : s.l_i + 1 < token.length)
    (hc : token[s.l_i] = '\\') (hend : s.l_i + 2 ≥ token.length) :
    quotedStep token s = .inr none := by
  rw [quotedStep, dif_pos h]
  exact (if_neg (not_not.mpr hc)).trans (if_pos hend)

/-- A backslash and the character behind it. -/
theorem quotedStep_escape {token : Text} {s : QuotedState} (h : s.l_i + 2 < token.length)
    (hc : token[s.l_i] = '\\') :
    quotedStep token s =
      match tomlEscapes.decode token[s.l_i + 1] with
      | some c => .inl { l_i := s.l_i + 2, ro_OutValue := s.ro_OutValue ++ [c] }
      | none => .inr none := by
  rw [quotedStep, dif_pos (by omega)]
  exact (if_neg (not_not.mpr hc)).trans (if_neg (not_le.mpr h))

/-- **The loop from any position on** decodes what is left. By induction on the fuel. -/
theorem run_quotedStep (token : Text) {fuel : ℕ} {s : QuotedState}
    (hi : s.l_i < token.length) (hfuel : token.length - s.l_i ≤ fuel) :
    BoundedLoop.run (quotedStep token) fuel s =
      some ((tomlEscapes.unescape (token.drop s.l_i).dropLast).map (s.ro_OutValue ++ ·)) := by
  induction fuel generalizing s with
  | zero => omega
  | succ fuel ih =>
      by_cases hlt : s.l_i + 1 < token.length
      · rw [dropLast_drop_cons hlt]
        by_cases hc : token[s.l_i] = '\\'
        · by_cases hescape : s.l_i + 2 < token.length
          · have hstep := quotedStep_escape hescape hc
            have hunescape : tomlEscapes.unescape
                (token[s.l_i] :: (token.drop (s.l_i + 1)).dropLast) =
                (tomlEscapes.decode token[s.l_i + 1]).bind fun d =>
                  (tomlEscapes.unescape (token.drop (s.l_i + 2)).dropLast).map (d :: ·) := by
              rw [dropLast_drop_cons hescape, hc]
              exact tomlEscapes.unescape_mark_cons _ _
            rw [hunescape]
            cases hd : tomlEscapes.decode token[s.l_i + 1] with
            | none =>
                rw [hd] at hstep
                rw [BoundedLoop.run_of_inr hstep]
                rfl
            | some d =>
                rw [hd] at hstep
                rw [BoundedLoop.run_of_inl hstep, ih hescape (by dsimp only; omega)]
                simp [Function.comp_def]
          · rw [BoundedLoop.run_of_inr (quotedStep_dangling hlt hc (not_lt.mp hescape)),
              dropLast_drop_eq_nil (not_lt.mp hescape), hc]
            rfl
        · rw [BoundedLoop.run_of_inl (quotedStep_plain hlt hc), ih hlt (by dsimp only; omega),
            EscapedText.Codec.unescape_cons_of_ne (show token[s.l_i] ≠ tomlEscapes.mark from hc)]
          simp [Function.comp_def]
      · have hstep : quotedStep token s = .inr (some s.ro_OutValue) := by
          rw [quotedStep, dif_neg hlt]
        rw [BoundedLoop.run_of_inr hstep, dropLast_drop_eq_nil (not_lt.mp hlt)]
        simp [EscapedText.Codec.unescape]

/-- **The loop ends**, and its result is that of the recursion. -/
theorem parseQuotedLoop_eq (token : Text) :
    parseQuotedLoop token = some (parseQuotedString token) := by
  rw [parseQuotedLoop, parseQuotedString]
  split
  · rfl
  next h =>
    have hlength : 2 ≤ token.length := not_lt.mp (not_or.mp h).1
    rw [run_quotedStep token (by dsimp only; omega) (Nat.sub_le _ _)]
    simp

/-! ### The tokens that are accepted -/

/-- **A quoted string and its value**: the items between the quotes are escapes, and
characters other than backslash and quote. -/
def IsQuotedString (token value : Text) : Prop :=
  ∃ items, token = '"' :: items ++ ['"'] ∧ tomlEscapes.Items (· ≠ '"') items value

/-- The loop accepts the token exactly as a quoted string, with its value. -/
def DecidesQuotedStrings (token : Text) : Prop :=
  ∀ value, parseQuotedLoop token = some (some value) ↔ IsQuotedString token value

/-- A token between quotes. -/
theorem quoted_iff {token : Text} :
    ¬ (token.length < 2 ∨ token.head? ≠ some '"' ∨ token.getLast? ≠ some '"') ↔
      token = '"' :: token.tail.dropLast ++ ['"'] := by
  constructor
  · intro h
    simp only [not_or, not_lt, ne_eq, not_not] at h
    obtain ⟨hlength, hhead, hlast⟩ := h
    cases token with
    | nil => simp at hlength
    | cons c rest =>
        obtain rfl := Option.some.inj hhead
        have hne : rest ≠ [] := by
          rintro rfl
          simp at hlength
        rw [List.getLast?_cons, List.getLast?_eq_some_getLast hne] at hlast
        have hlast' : rest.getLast hne = '"' := by simpa using hlast
        rw [List.tail_cons, List.cons_append, ← hlast', List.dropLast_append_getLast hne]
  · intro h
    rw [h]
    simp [List.getLast?_cons]

/-- **What the reader accepts**: a series of items between quotes, with any characters among
them. -/
theorem parseQuotedString_eq_some_iff {token value : Text} :
    parseQuotedString token = some value ↔
      ∃ items, token = '"' :: items ++ ['"'] ∧ tomlEscapes.Items (fun _ => True) items value := by
  rw [parseQuotedString]
  by_cases h : token.length < 2 ∨ token.head? ≠ some '"' ∨ token.getLast? ≠ some '"'
  · rw [if_pos h]
    refine ⟨fun hnone => (by cases hnone), ?_⟩
    rintro ⟨items, rfl, -⟩
    exact absurd h (quoted_iff.mpr (by simp))
  · rw [if_neg h, EscapedText.Codec.unescape_eq_some_iff]
    refine ⟨fun hitems => ⟨_, quoted_iff.mp h, hitems⟩, ?_⟩
    rintro ⟨items, rfl, hitems⟩
    simpa using hitems

/-- **The tokens that are decided as they should be**: all but those with a quote where an
item would start, behind a series of items and in front of what can be decoded. -/
theorem decidesQuotedStrings_iff (token : Text) :
    DecidesQuotedStrings token ↔
      ¬ ∃ before behind v w, token = '"' :: (before ++ '"' :: behind) ++ ['"'] ∧
        tomlEscapes.Items (· ≠ '"') before v ∧ tomlEscapes.Items (fun _ => True) behind w := by
  simp only [DecidesQuotedStrings, parseQuotedLoop_eq, Option.some.injEq,
    parseQuotedString_eq_some_iff]
  constructor
  · rintro hdecides ⟨before, behind, v, w, rfl, hbefore, hbehind⟩
    have hquote : tomlEscapes.Items (fun _ => True) ('"' :: behind) ('"' :: w) :=
      .plain (by decide) trivial hbehind
    have hloose := (hbefore.imp (q := fun _ => True) fun _ _ => trivial).append hquote
    obtain ⟨items, heq, hitems⟩ := (hdecides _).mp ⟨_, rfl, hloose⟩
    obtain rfl := List.append_cancel_right (List.cons.inj heq).2
    exact hbefore.not_append_cons (by decide) (fun h => h rfl) hitems
  · intro hnone value
    refine ⟨?_, fun ⟨items, htoken, hitems⟩ => ⟨items, htoken, hitems.imp fun _ _ => trivial⟩⟩
    rintro ⟨items, rfl, hitems⟩
    refine ⟨items, rfl, (EscapedText.Codec.items_iff hitems).mpr ?_⟩
    rintro ⟨before, c, behind, v, w, rfl, -, hc, hbefore, hbehind⟩
    obtain rfl : c = '"' := not_not.mp hc
    exact hnone ⟨before, behind, v, w, rfl, hbefore, hbehind⟩

/-- **A quote inside a string**: `"a"b"` is accepted, as the value of `"a\"b"`. -/
theorem not_decidesQuotedStrings_of_inner :
    let token := "\"a\"b\"".toList
    ¬ DecidesQuotedStrings token ∧ parseQuotedLoop token = some (some "a\"b".toList) ∧
      ∀ value, ¬ IsQuotedString token value := by
  intro token
  have haccepted : parseQuotedLoop token = some (some "a\"b".toList) := by decide
  have hnot : ∀ value, ¬ IsQuotedString token value := by
    rintro value ⟨items, heq, hitems⟩
    have hbody : items = ['a', '"', 'b'] :=
      (List.append_cancel_right (List.cons.inj heq).2).symm
    have hbefore : tomlEscapes.Items (· ≠ '"') ['a'] ['a'] := .plain (by decide) (by decide) .nil
    rw [hbody] at hitems
    have hitems' : tomlEscapes.Items (· ≠ '"') (['a'] ++ '"' :: ['b']) value := hitems
    exact hbefore.not_append_cons (by decide) (fun h => h rfl) hitems'
  exact ⟨fun h => hnot _ ((h _).mp haccepted), haccepted, hnot⟩

end Hades.Runtime
