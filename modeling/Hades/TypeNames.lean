import Hades.BoundedLoop
import Hades.EmittedRegistration

/-!
# Which Texts Are Type Names

`isCppTypeName` cuts its text at each `::` with `find` and `substr`, over positions. A text
is accepted exactly if it consists of identifiers joined by `::`, and a name that is accepted
still is one without the namespace that the generated program brings into scope.

`typeNameStep` is the source's loop; `isCppTypeName` of the reader is its result as a test of
all segments.

## Main results

* `isCppTypeNameLoop_eq`: **the loop ends**, without leaving the text.
* `isCppTypeName_iff`: the texts that are accepted.
* `isCppTypeNameLoop_correct`: both, and what becomes of an emitted name.
-/

namespace Hades.Runtime

/-! ### The loop of the source -/

/-- The first place of `needle` in a text. -/
def findText (needle : Text) : Text → Option ℕ
  | [] => if needle = [] then some 0 else none
  | c :: cs =>
    if needle.isPrefixOf (c :: cs) then some 0 else (findText needle cs).map (· + 1)

/-- `std::string::find` from a position on; `npos` is `none`. -/
def findFrom (ro_Text needle : Text) (pos : ℕ) : Option ℕ :=
  (findText needle (ro_Text.drop pos)).map (pos + ·)

/-- One pass of the loop. The result is `none` if `substr` throws `std::out_of_range`; from
`npos` it takes the rest of the text. -/
def typeNameStep (ro_Text : Text) (l_begin : ℕ) : ℕ ⊕ Option Bool :=
  if l_begin > ro_Text.length then .inr none
  else
    let l_sep := findFrom ro_Text "::".toList l_begin
    let l_segment :=
      match l_sep with
      | some sep => (ro_Text.drop l_begin).take (sep - l_begin)
      | none => ro_Text.drop l_begin
    if !isIdentifier l_segment then .inr (some false)
    else
      match l_sep with
      | some sep => .inl (sep + 2)
      | none => .inr (some true)

/-- The check for an empty text, and the loop. The outer `none` stands for a loop that does
not end. -/
def isCppTypeNameLoop (ro_Text : Text) : Option (Option Bool) :=
  if ro_Text.isEmpty then some (some false)
  else BoundedLoop.run (typeNameStep ro_Text) (ro_Text.length + 1) 0

/-- **The segments of a text**, by its first separator. -/
theorem typeSegments_eq (text : Text) :
    match findText "::".toList text with
    | some sep => sep + 2 ≤ text.length ∧
        typeSegments text = text.take sep :: typeSegments (text.drop (sep + 2))
    | none => typeSegments text = [text] := by
  induction text using typeSegments.induct with
  | case1 => rfl
  | case2 cs ih =>
      have hfind : findText "::".toList (':' :: ':' :: cs) = some 0 := by
        rw [findText, if_pos (by simp)]
      rw [hfind]
      exact ⟨by simp, rfl⟩
  | case3 c cs hne ih =>
      have hfind : findText "::".toList (c :: cs) = (findText "::".toList cs).map (· + 1) := by
        rw [findText, if_neg]
        intro hprefix
        obtain ⟨rest, hrest⟩ := List.isPrefixOf_iff_prefix.mp hprefix
        obtain ⟨rfl, hcs⟩ := List.cons.inj hrest
        exact hne rest rfl hcs.symm
      rw [hfind, typeSegments.eq_3 c cs hne]
      cases hsep : findText "::".toList cs with
      | none =>
          rw [hsep] at ih
          simp only [Option.map_none, ih, List.modifyHead_cons]
      | some sep =>
          rw [hsep] at ih
          obtain ⟨hle, hsegments⟩ := ih
          simp only [Option.map_some, hsegments, List.modifyHead_cons, List.length_cons]
          exact ⟨by omega, rfl⟩

/-- One pass inside the text, by the first separator from the position on. -/
theorem typeNameStep_eq {text : Text} {l_begin : ℕ} (hbegin : l_begin ≤ text.length) :
    typeNameStep text l_begin =
      match findText "::".toList (text.drop l_begin) with
      | some sep =>
        if isIdentifier ((text.drop l_begin).take sep) then .inl (l_begin + sep + 2)
        else .inr (some false)
      | none => .inr (some (isIdentifier (text.drop l_begin))) := by
  rw [typeNameStep, if_neg (not_lt.mpr hbegin), findFrom]
  cases findText "::".toList (text.drop l_begin) with
  | none => cases h : isIdentifier (text.drop l_begin) <;> simp [h]
  | some sep => cases h : isIdentifier ((text.drop l_begin).take sep) <;> simp [h]

/-- **The loop from any position on** tests the segments that are left. By induction on the
fuel. -/
theorem run_typeNameStep (text : Text) {fuel l_begin : ℕ} (hbegin : l_begin ≤ text.length)
    (hfuel : text.length - l_begin < fuel) :
    BoundedLoop.run (typeNameStep text) fuel l_begin =
      some (some ((typeSegments (text.drop l_begin)).all isIdentifier)) := by
  induction fuel generalizing l_begin with
  | zero => omega
  | succ fuel ih =>
      have hsegments := typeSegments_eq (text.drop l_begin)
      have hstep := typeNameStep_eq hbegin
      cases hsep : findText "::".toList (text.drop l_begin) with
      | none =>
          rw [hsep] at hsegments hstep
          rw [BoundedLoop.run_of_inr hstep, hsegments, List.all_cons, List.all_nil,
            Bool.and_true]
      | some sep =>
          rw [hsep] at hsegments hstep
          obtain ⟨hle, hsegments⟩ := hsegments
          rw [List.length_drop] at hle
          rw [hsegments, List.all_cons]
          cases hident : isIdentifier ((text.drop l_begin).take sep) with
          | false =>
              simp only [hident, Bool.false_eq_true, if_false] at hstep
              rw [BoundedLoop.run_of_inr hstep, Bool.false_and]
          | true =>
              simp only [hident, if_true] at hstep
              rw [BoundedLoop.run_of_inl hstep, ih (by omega) (by omega), List.drop_drop,
                Bool.true_and, Nat.add_assoc]

/-- **The loop ends**, and its result is the test of the segments. -/
theorem isCppTypeNameLoop_eq (text : Text) :
    isCppTypeNameLoop text = some (some (isCppTypeName text)) := by
  rw [isCppTypeNameLoop, isCppTypeName]
  cases hempty : text.isEmpty with
  | true => rfl
  | false =>
      have hrun := run_typeNameStep text (Nat.zero_le text.length) (Nat.lt_succ_self _)
      simp only [Bool.false_eq_true, if_false, Bool.not_false, Bool.true_and]
      exact hrun

/-! ### The texts that are accepted -/

/-- An identifier: a letter or an underscore, and letters, digits and underscores. -/
def IsCppIdentifier (text : Text) : Prop :=
  ∃ c cs, text = c :: cs ∧ (c.isAlpha = true ∨ c = '_') ∧
    ∀ d ∈ cs, d.isAlpha = true ∨ d.isDigit = true ∨ d = '_'

/-- **A qualified name**: one or more identifiers joined by `::`. -/
def IsQualifiedName (text : Text) : Prop :=
  ∃ segments, segments ≠ [] ∧ (∀ segment ∈ segments, IsCppIdentifier segment) ∧
    text = List.intercalate "::".toList segments

/-- The characters of identifiers. -/
theorem isIdentChar_iff (c : Char) :
    isIdentChar c = true ↔ c.isAlpha = true ∨ c.isDigit = true ∨ c = '_' := by
  rw [isIdentChar, Char.isAlphanum, Bool.or_eq_true, Bool.or_eq_true, beq_iff_eq, or_assoc]

/-- A letter comes after the digits. -/
theorem isDigit_of_isAlpha {c : Char} (h : c.isAlpha = true) : c.isDigit = false := by
  have hcases : (c.isUpper || c.isLower) = true := h
  have hge : 65 ≤ c.val.toNat := by
    rcases Bool.or_eq_true_iff.mp hcases with hupper | hlower
    · have hle : 'A'.val ≤ c.val := (of_decide_eq_true hupper).1
      exact UInt32.le_iff_toNat_le.mp hle
    · have hle : 'a'.val ≤ c.val := of_decide_eq_true (Bool.and_eq_true_iff.mp hlower).1
      exact le_trans (by decide) (UInt32.le_iff_toNat_le.mp hle)
  rw [Bool.eq_false_iff]
  intro hdigit
  have hle : c.val ≤ '9'.val := of_decide_eq_true (Bool.and_eq_true_iff.mp hdigit).2
  have hle57 : c.val.toNat ≤ 57 := UInt32.le_iff_toNat_le.mp hle
  omega

/-- The test for an identifier. -/
theorem isIdentifier_iff (text : Text) : isIdentifier text = true ↔ IsCppIdentifier text := by
  cases text with
  | nil =>
      refine ⟨fun h => (by cases h), ?_⟩
      rintro ⟨c, cs, h, -⟩
      cases h
  | cons c cs =>
      simp only [isIdentifier, Bool.and_eq_true, Bool.not_eq_true', List.all_cons,
        List.all_eq_true, isIdentChar_iff]
      constructor
      · rintro ⟨hdigit, hc, hcs⟩
        refine ⟨c, cs, rfl, ?_, hcs⟩
        rcases hc with hc | hc | hc
        · exact Or.inl hc
        · rw [hdigit] at hc
          cases hc
        · exact Or.inr hc
      · rintro ⟨d, ds, heq, hd, hds⟩
        obtain ⟨rfl, rfl⟩ := List.cons.inj heq
        rcases hd with hd | rfl
        · exact ⟨isDigit_of_isAlpha hd, Or.inl hd, hds⟩
        · exact ⟨by decide, Or.inr (Or.inr rfl), hds⟩

/-- The segments of a text, joined again. -/
theorem intercalate_typeSegments (text : Text) :
    List.intercalate "::".toList (typeSegments text) = text := by
  induction text using typeSegments.induct with
  | case1 => rfl
  | case2 cs ih =>
      obtain ⟨segment, segments, h⟩ := List.exists_cons_of_ne_nil (typeSegments_ne_nil cs)
      rw [h] at ih
      rw [typeSegments, h, List.intercalate_cons_cons, ih]
      rfl
  | case3 c cs hne ih =>
      obtain ⟨segment, segments, h⟩ := List.exists_cons_of_ne_nil (typeSegments_ne_nil cs)
      rw [h] at ih
      rw [typeSegments.eq_3 c cs hne, h, List.modifyHead_cons, ← ih]
      cases segments with
      | nil => rfl
      | cons next segments => rfl

/-- A segment without a colon is the first one. -/
theorem typeSegments_append {segment : Text} (h : ':' ∉ segment) (rest : Text) :
    typeSegments (segment ++ "::".toList ++ rest) = segment :: typeSegments rest := by
  induction segment with
  | nil => rfl
  | cons c segment ih =>
      have hc : c ≠ ':' := fun hc => h (hc ▸ List.mem_cons_self)
      rw [List.cons_append, List.cons_append, typeSegments.eq_3 _ _ (fun _ hcolon => absurd hcolon hc),
        ih fun hmem => h (List.mem_cons_of_mem c hmem), List.modifyHead_cons]

/-- A text without a colon is one segment. -/
theorem typeSegments_of_notMem {text : Text} (h : ':' ∉ text) : typeSegments text = [text] := by
  induction text with
  | nil => rfl
  | cons c cs ih =>
      have hc : c ≠ ':' := fun hc => h (hc ▸ List.mem_cons_self)
      rw [typeSegments.eq_3 _ _ (fun _ hcolon => absurd hcolon hc),
        ih fun hmem => h (List.mem_cons_of_mem c hmem), List.modifyHead_cons]

/-- **Joined segments without colons** are found again. -/
theorem typeSegments_intercalate {segments : List Text} (hne : segments ≠ [])
    (h : ∀ segment ∈ segments, ':' ∉ segment) :
    typeSegments (List.intercalate "::".toList segments) = segments := by
  induction segments with
  | nil => exact absurd rfl hne
  | cons segment segments ih =>
      have hsegment := h segment List.mem_cons_self
      cases segments with
      | nil => rw [List.intercalate_singleton, typeSegments_of_notMem hsegment]
      | cons next segments =>
          rw [List.intercalate_cons_cons, typeSegments_append hsegment,
            ih (List.cons_ne_nil _ _) fun s hs => h s (List.mem_cons_of_mem _ hs)]

/-- **The texts that are accepted** are the qualified names. -/
theorem isCppTypeName_iff (text : Text) : isCppTypeName text = true ↔ IsQualifiedName text := by
  rw [isCppTypeName, Bool.and_eq_true, List.all_eq_true]
  constructor
  · rintro ⟨-, hall⟩
    exact ⟨typeSegments text, typeSegments_ne_nil text,
      fun segment hs => (isIdentifier_iff segment).mp (hall segment hs),
      (intercalate_typeSegments text).symm⟩
  · rintro ⟨segments, hne, hall, rfl⟩
    have hident : ∀ segment ∈ segments, isIdentifier segment = true := fun segment hs =>
      (isIdentifier_iff segment).mpr (hall segment hs)
    have hsegments := typeSegments_intercalate hne fun segment hs =>
      (isKey_of_isIdentifier (hident segment hs)).notMem (d := ':') (by decide)
    rw [hsegments]
    refine ⟨?_, hident⟩
    cases hempty : (List.intercalate "::".toList segments).isEmpty with
    | false => rfl
    | true =>
        rw [List.isEmpty_iff.mp hempty] at hsegments
        exact absurd (hident [] (hsegments ▸ List.mem_singleton.mpr rfl)) (by decide)

/-- **The loop ends for every text**, accepts exactly the qualified names, and accepts what is
emitted for a name that it accepts. -/
theorem isCppTypeNameLoop_correct (text : Text) :
    ∃ accepted, isCppTypeNameLoop text = some (some accepted) ∧
      (accepted = true ↔ IsQualifiedName text) ∧
      (accepted = true → isCppTypeNameLoop (stripRuntimeNamespace text) = some (some true)) := by
  refine ⟨isCppTypeName text, isCppTypeNameLoop_eq text, isCppTypeName_iff text, fun h => ?_⟩
  rw [isCppTypeNameLoop_eq, isCppTypeName_stripRuntimeNamespace h]

/-- Too many colons, and too few. -/
example : isCppTypeNameLoop "a:::b".toList = some (some false) ∧
    isCppTypeNameLoop "a::".toList = some (some false) ∧
    isCppTypeNameLoop "Hades::Runtime::Cpu_1".toList = some (some true) := by
  decide

end Hades.Runtime
