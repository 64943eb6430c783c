import Hades.QuotedStrings
import Hades.TomlWriting

/-!
# Comments behind Assignments

A comment behind a `key = value` line should change nothing. The scan for its sign looks at
one character before each quote: a quote behind a backslash does not end a string, also
where the backslash is an escaped one. So behind the value `"a\\"` the scan is still inside
the string (`endsInString`), and takes the comment for a part of the value, while the
decoder ends the string where it ends.

## Main results

* `stripComment_append_of_outside`, `exists_stripComment_append`: what is left of a line with
  a comment.
* `IsQuietAssignment.exists_key`: what an assignment without an error is.
* `parseValueToken_append_ne`: a string with more text behind it is not read as the string.
* `handleLine_append_comment_iff`: **the lines behind which a comment changes nothing**.
-/

namespace Hades.Runtime

/-- The number of quotes that do not stand directly behind a backslash. -/
def bareQuotes (line : Text) : ℕ :=
  EscapedText.countBare '"' '\\' none line

/-- Whether the scan for a comment is inside a string at the end of the line. -/
def endsInString (line : Text) : Bool :=
  EscapedText.insideAfter '"' '\\' false none line

/-- The scan is outside of strings behind an even number of bare quotes. -/
theorem endsInString_eq_false_iff (line : Text) :
    endsInString line = false ↔ Even (bareQuotes line) :=
  EscapedText.insideAfter_eq_iff line false none

/-- `std::from_chars` consumes no quote. -/
def DoubleCodec.RejectsQuotes (codec : DoubleCodec) : Prop :=
  ∀ token, '"' ∈ token → codec.fromChars token = none

/-! ### What is left of a line with a comment -/

/-- A line without a comment has none to be found. -/
theorem findOutsideStrings_of_stripComment {line : Text} (h : stripComment line = line) :
    findOutsideStrings '#' line = none := by
  rw [stripComment] at h
  split at h
  next before behind hfind =>
    have hlength := congrArg List.length (EscapedText.splitOutside_eq_append hfind)
    rw [h, List.length_append, List.length_cons] at hlength
    omega
  next hnone => exact hnone

/-- **Outside of strings** the comment is found. -/
theorem stripComment_append_of_outside {line ws : Text} (h : stripComment line = line)
    (hws : ∀ c ∈ ws, isSpace c = true) (hout : endsInString line = false) (text : Text) :
    stripComment (line ++ (ws ++ '#' :: text)) = line ++ ws := by
  have hquote : '"' ∉ ws := fun hmem => absurd (hws _ hmem) (by decide)
  have hsign : '#' ∉ ws := fun hmem => absurd (hws _ hmem) (by decide)
  have hfind : findOutsideStrings '#' (line ++ (ws ++ '#' :: text)) = some (line ++ ws, text) := by
    rw [findOutsideStrings, EscapedText.splitOutside_append (findOutsideStrings_of_stripComment h),
      ← endsInString, hout,
      EscapedText.splitOutside_append_of_plain hquote hsign (by decide)]
    rfl
  rw [stripComment, hfind]

/-- **Inside a string** the comment sign stays. -/
theorem exists_stripComment_append {line ws : Text} (h : stripComment line = line)
    (hws : ∀ c ∈ ws, isSpace c = true) (hin : endsInString line = true) (text : Text) :
    ∃ kept, stripComment (line ++ (ws ++ '#' :: text)) = line ++ (ws ++ '#' :: kept) := by
  have hquote : '"' ∉ ws ++ ['#'] := by
    intro hmem
    rcases List.mem_append.mp hmem with hmem | hmem
    · exact absurd (hws _ hmem) (by decide)
    · exact absurd hmem (by decide)
  have hsplit : ws ++ '#' :: text = (ws ++ ['#']) ++ text := by simp
  have hfind := EscapedText.splitOutside_append (findOutsideStrings_of_stripComment h)
    (ws ++ '#' :: text)
  rw [← endsInString, hin, hsplit,
    EscapedText.splitOutside_append (EscapedText.splitOutside_true_of_notMem hquote _)] at hfind
  rw [stripComment, hsplit, findOutsideStrings, hfind]
  cases EscapedText.splitOutside '"' '\\' '#' _ _ text with
  | none => exact ⟨text, by simp⟩
  | some r => exact ⟨r.1, by simp⟩

/-! ### Assignments without an error -/

/-- **The line is handled as an assignment without an error**, and contains no comment. -/
structure IsQuietAssignment (codec : DoubleCodec) (arrayName : Text) (p : TomlParser)
    (line : Text) (lineNo : UInt32) : Prop where
  uncommented : stripComment line = line
  assigns : trim line ≠ [] ∧ (trim line).head? ≠ some '#' ∧ matchHeader (trim line) = none
  no_error : (p.handleLine codec arrayName line lineNo).m_outErrors = p.m_outErrors

namespace TomlParser

variable {codec : DoubleCodec} {arrayName : Text}

/-- An error is one more error. -/
theorem report_ne (p : TomlParser) (lineNo : UInt32) (message : Text) :
    (p.report lineNo message).m_outErrors ≠ p.m_outErrors := by
  intro h
  have hlength := congrArg List.length h
  rw [report, List.length_append, List.length_singleton] at hlength
  omega

/-- A line with the same key has the same effect as an assignment exactly if its value is
read as the same. -/
theorem handleLine_eq_iff_of_value (p : TomlParser) {line line' before behind behind' : Text}
    {table : TomlTable} {value : TomlValue}
    (hsplit : findOutsideStrings '=' (trim (stripComment line)) = some (before, behind))
    (hsplit' : findOutsideStrings '=' (trim (stripComment line')) = some (before, behind'))
    (hkey : IsKey (trim before)) (hp : p.m_currentTable = some table)
    (hfresh : trim before ∉ table.map Prod.fst)
    (hvalue : parseValueToken codec (trim behind) = .ok value) {lineNo : UInt32} :
    p.handleLine codec arrayName line' lineNo = p.handleLine codec arrayName line lineNo ↔
      parseValueToken codec (trim behind') = .ok value := by
  rw [p.handleLine_of_value hsplit hkey hp hfresh hvalue]
  cases hvalue' : parseValueToken codec (trim behind') with
  | ok value' =>
      rw [p.handleLine_of_value hsplit' hkey hp hfresh hvalue']
      simp
  | error message =>
      rw [p.handleLine_of_key hsplit' hkey, hp]
      simp only [if_neg hfresh, hvalue', reduceCtorEq, iff_false]
      intro heq
      have herrors := congrArg TomlParser.m_outErrors heq
      exact p.report_ne lineNo message herrors

end TomlParser

/-- **What an assignment does** without an error: it has a valid key, and inside the array a
new one with a value that can be read. -/
theorem IsQuietAssignment.exists_key {codec : DoubleCodec} {arrayName : Text} {p : TomlParser}
    {line : Text} {lineNo : UInt32} (h : IsQuietAssignment codec arrayName p line lineNo) :
    ∃ before behind, findOutsideStrings '=' (trim line) = some (before, behind) ∧
      IsKey (trim before) ∧ ∀ table, p.m_currentTable = some table →
        trim before ∉ table.map Prod.fst ∧
          ∃ value, parseValueToken codec (trim behind) = .ok value := by
  obtain ⟨hstrip, ⟨hne, hcomment, hheader⟩, hquiet⟩ := h
  have hnot : ¬ (trim line = [] ∨ (trim line).head? = some '#') := not_or.mpr ⟨hne, hcomment⟩
  cases hsplit : findOutsideStrings '=' (trim line) with
  | none =>
      have hpair : splitKeyValue (trim line) = none := by
        rw [splitKeyValue, hsplit]
        rfl
      simp only [TomlParser.handleLine, hstrip, if_neg hnot, hheader, TomlParser.handleKeyValue,
        hpair] at hquiet
      exact absurd hquiet (p.report_ne _ _)
  | some r =>
      obtain ⟨before, behind⟩ := r
      have hkey : IsKey (trim before) := by
        by_contra hinvalid
        have hpair : splitKeyValue (trim line) = some (trim before, trim behind) := by
          rw [splitKeyValue, hsplit]
          rfl
        have hbad : trim before = [] ∨ ¬ (trim before).all isIdentChar = true := by
          rw [List.all_eq_true]
          exact not_and_or.mp hinvalid |>.imp_left not_not.mp
        simp only [TomlParser.handleLine, hstrip, if_neg hnot, hheader,
          TomlParser.handleKeyValue, hpair, if_pos hbad] at hquiet
        exact p.report_ne _ _ hquiet
      refine ⟨before, behind, rfl, hkey, fun table htable => ?_⟩
      rw [← hstrip] at hsplit
      rw [p.handleLine_of_key hsplit hkey, htable] at hquiet
      by_cases hdup : trim before ∈ table.map Prod.fst
      · simp only [if_pos hdup] at hquiet
        exact absurd hquiet (p.report_ne _ _)
      · refine ⟨hdup, ?_⟩
        simp only [if_neg hdup] at hquiet
        cases hvalue : parseValueToken codec (trim behind) with
        | ok value => exact ⟨value, rfl⟩
        | error message =>
            rw [hvalue] at hquiet
            exact absurd hquiet (p.report_ne _ _)

/-! ### More text behind a value -/

/-- A value with a quote in its text is a quoted string. -/
theorem parseQuotedString_of_ok {codec : DoubleCodec} (hcodec : codec.RejectsQuotes)
    {token : Text} {value : TomlValue} (hvalue : parseValueToken codec token = .ok value)
    (hquote : '"' ∈ token) :
    token.head? = some '"' ∧ ∃ s, parseQuotedString token = some s ∧ value = .string s := by
  rw [parseValueToken] at hvalue
  split at hvalue
  next hhead =>
    refine ⟨hhead, ?_⟩
    split at hvalue
    next s hs => exact ⟨s, hs, (Except.ok.inj hvalue).symm⟩
    next => cases hvalue
  next =>
    exfalso
    split at hvalue
    next hbool =>
      rcases hbool with rfl | rfl
      · exact absurd hquote (by decide)
      · exact absurd hquote (by decide)
    next =>
      have hint : parseInt64 token = none := by
        rw [parseInt64]
        cases hz : DecimalText.intOfText? token with
        | none => rfl
        | some z => exact absurd (DecimalText.mem_of_intOfText? hz hquote) (by decide)
      rw [hint] at hvalue
      simp only [hcodec token hquote] at hvalue
      cases hvalue

/-- **A string with more text behind it** is not read as the string. -/
theorem parseQuotedString_append_ne {token mid : Text} {s : Text}
    (h : parseQuotedString token = some s) (hmid : mid ≠ []) :
    parseQuotedString (token ++ mid) ≠ some s := by
  intro hmore
  obtain ⟨items, rfl, hitems⟩ := parseQuotedString_eq_some_iff.mp h
  obtain ⟨items', heq, hitems'⟩ := parseQuotedString_eq_some_iff.mp hmore
  -- between the outer quotes: the old items, a quote, and the new text without its last quote
  have hlast : mid.getLast hmid = '"' := by
    have := congrArg List.getLast? heq
    rw [List.getLast?_append_of_ne_nil _ hmid, List.getLast?_concat,
      List.getLast?_eq_some_getLast hmid] at this
    exact Option.some.inj this
  have hbody : items' = items ++ '"' :: mid.dropLast := by
    have hsplit : mid = mid.dropLast ++ ['"'] := by
      rw [← hlast, List.dropLast_append_getLast hmid]
    rw [hsplit] at heq
    have htail : items ++ ['"'] ++ (mid.dropLast ++ ['"']) = items' ++ ['"'] :=
      (List.cons.inj heq).2
    rw [← List.append_assoc] at htail
    rw [← List.append_cancel_right htail, List.append_assoc]
    rfl
  rw [hbody, ← EscapedText.Codec.unescape_eq_some_iff,
    EscapedText.Codec.unescape_append (tomlEscapes.unescape_eq_some_iff.mpr hitems),
    EscapedText.Codec.unescape_cons_of_ne (by decide), Option.map_map] at hitems'
  obtain ⟨w, -, hw⟩ := Option.map_eq_some_iff.mp hitems'
  have hlength := congrArg List.length hw
  simp at hlength

/-- A string value with more text behind it is an error, or another value. -/
theorem parseValueToken_append_ne {codec : DoubleCodec} (hcodec : codec.RejectsQuotes)
    {token mid : Text} {value : TomlValue} (hvalue : parseValueToken codec token = .ok value)
    (hquote : '"' ∈ token) (hmid : mid ≠ []) :
    parseValueToken codec (token ++ mid) ≠ .ok value := by
  obtain ⟨hhead, s, hs, rfl⟩ := parseQuotedString_of_ok hcodec hvalue hquote
  have hne : token ≠ [] := List.ne_nil_of_mem hquote
  rw [parseValueToken, if_pos (by rw [List.head?_append_of_ne_nil _ hne, hhead])]
  split
  next s' hs' =>
    intro heq
    obtain rfl : s' = s := TomlValue.string.inj (Except.ok.inj heq)
    exact parseQuotedString_append_ne hs hmid hs'
  next => exact fun heq => by cases heq

/-! ### Comments -/

/-- A text that the scan leaves inside a string has a quote. -/
theorem quote_mem_of_endsInString {line : Text} (h : endsInString line = true) :
    '"' ∈ line := by
  by_contra hquote
  rw [endsInString, EscapedText.insideAfter_of_notMem hquote] at h
  cases h

/-- The quotes of an assignment are in its value. -/
theorem quote_mem_value {line before behind : Text}
    (hsplit : findOutsideStrings '=' (trim line) = some (before, behind))
    (hkey : IsKey (trim before)) (hquote : '"' ∈ line) : '"' ∈ trim behind := by
  have hspace : isSpace '"' = false := by decide
  have hmem : '"' ∈ before ++ '=' :: behind := by
    rw [← EscapedText.splitOutside_eq_append hsplit]
    exact Trimming.mem_trim hquote hspace
  rcases List.mem_append.mp hmem with hmem | hmem
  · exact absurd (Trimming.mem_trim hmem hspace) (hkey.notMem (by decide))
  · rcases List.mem_cons.mp hmem with heq | hmem
    · exact absurd heq (by decide)
    · exact Trimming.mem_trim hmem hspace

/-- The assignment with more text behind it: the key stays, and the value gets longer. -/
theorem exists_split_append {line more before behind : Text}
    (hsplit : findOutsideStrings '=' (trim line) = some (before, behind))
    (hbehind : trim behind ≠ []) (hmore : ∃ c ∈ more, isSpace c = false) :
    ∃ behind' mid, mid ≠ [] ∧
      findOutsideStrings '=' (trim (line ++ more)) = some (before, behind') ∧
      trim behind' = trim behind ++ mid := by
  have hne : trim line ≠ [] := by
    intro hnil
    rw [hnil] at hsplit
    cases hsplit
  obtain ⟨mid, hmid, htrim⟩ : ∃ mid, (∃ c ∈ mid, isSpace c = false) ∧
      trim (line ++ more) = trim line ++ mid := Trimming.exists_trim_append hne hmore
  obtain ⟨mid', ⟨c, hc, -⟩, htrim'⟩ : ∃ mid', (∃ c ∈ mid', isSpace c = false) ∧
      trim (behind ++ mid) = trim behind ++ mid' := Trimming.exists_trim_append hbehind hmid
  refine ⟨behind ++ mid, mid', List.ne_nil_of_mem hc, ?_, htrim'⟩
  rw [htrim]
  exact EscapedText.splitOutside_append_of_some hsplit mid

/-- **A comment behind an assignment** has no effect exactly outside of the array's tables, or
if the bare quotes of the line are even in number. -/
theorem handleLine_append_comment_iff (codec : DoubleCodec) (hcodec : codec.RejectsQuotes)
    (arrayName : Text) (p : TomlParser) (line : Text) (lineNo : UInt32)
    (h : IsQuietAssignment codec arrayName p line lineNo) (ws : Text)
    (hws : ∀ c ∈ ws, isSpace c = true) (text : Text) :
    p.handleLine codec arrayName (line ++ (ws ++ '#' :: text)) lineNo =
        p.handleLine codec arrayName line lineNo ↔
      p.m_currentTable = none ∨ Even (bareQuotes line) := by
  rw [← endsInString_eq_false_iff]
  have hstrip := h.uncommented
  obtain ⟨before, behind, hsplit, hkey, hassign⟩ := h.exists_key
  cases hin : endsInString line with
  | false =>
      have hcut := stripComment_append_of_outside hstrip hws hin text
      have htrim : trim (stripComment (line ++ (ws ++ '#' :: text))) =
          trim (stripComment line) := by
        rw [hcut, hstrip]
        exact Trimming.trim_append_blank hws line
      simp only [TomlParser.handleLine, htrim, or_true]
  | true =>
      obtain ⟨kept, hkept⟩ := exists_stripComment_append hstrip hws hin text
      have hquote : '"' ∈ trim behind :=
        quote_mem_value hsplit hkey (quote_mem_of_endsInString hin)
      obtain ⟨behind', mid, hmid, hsplit', hbehind'⟩ := exists_split_append hsplit
        (List.ne_nil_of_mem hquote) (⟨'#', by simp, by decide⟩ :
          ∃ c ∈ ws ++ '#' :: kept, isSpace c = false)
      have hplain : findOutsideStrings '=' (trim (stripComment line)) = some (before, behind) := by
        rw [hstrip, hsplit]
      rw [← hkept] at hsplit'
      cases htable : p.m_currentTable with
      | none =>
          rw [p.handleLine_of_key hplain hkey, p.handleLine_of_key hsplit' hkey, htable]
          simp
      | some table =>
          obtain ⟨hfresh, value, hvalue⟩ := hassign table htable
          rw [p.handleLine_eq_iff_of_value hplain hsplit' hkey htable hfresh hvalue, hbehind']
          simpa using parseValueToken_append_ne hcodec hvalue hquote hmid

/-- The codec of a library that knows no number. -/
def noNumbers : DoubleCodec where
  toChars := fun _ => []
  fromChars := fun _ => none

/-- A comment behind a string with quotes and a backslash in it. -/
theorem handleLine_append_comment_iff_escaped :
    let p : TomlParser := { m_currentTable := some [] }
    let line := "id = \"a\\\"b\\\\c\"".toList
    noNumbers.RejectsQuotes ∧ IsQuietAssignment noNumbers "test".toList p line 2 ∧
      Even (bareQuotes line) ∧ (∀ c ∈ [' ', '\t'], isSpace c = true) ∧
      (p.handleLine noNumbers "test".toList (line ++ ([' ', '\t'] ++ '#' :: "x".toList)) 2 =
          p.handleLine noNumbers "test".toList line 2 ↔
        p.m_currentTable = none ∨ Even (bareQuotes line)) := by
  intro p line
  have hcodec : noNumbers.RejectsQuotes := fun _ _ => rfl
  have hsplit : findOutsideStrings '=' (trim (stripComment line)) =
      some ("id ".toList, " \"a\\\"b\\\\c\"".toList) := by decide
  have hvalue : parseValueToken noNumbers (trim " \"a\\\"b\\\\c\"".toList) =
      .ok (.string "a\"b\\c".toList) :=
    parseValueToken_string (by decide) noNumbers
  have hquiet : IsQuietAssignment noNumbers "test".toList p line 2 := by
    refine ⟨by decide, by decide, ?_⟩
    rw [p.handleLine_of_value hsplit (by decide) rfl List.not_mem_nil hvalue]
  exact ⟨hcodec, hquiet, by decide, by decide,
    handleLine_append_comment_iff noNumbers hcodec "test".toList p line 2 hquiet [' ', '\t']
      (by decide) "x".toList⟩

/-- **A comment behind a string that ends in an escaped backslash** makes the line an
error. -/
theorem handleLine_append_comment_ne :
    let p : TomlParser := { m_currentTable := some [] }
    let line := "id = \"a\\\\\"".toList
    IsQuietAssignment noNumbers "test".toList p line 2 ∧
      (p.handleLine noNumbers "test".toList line 2).m_currentTable =
        some [("id".toList, .string "a\\".toList)] ∧
      p.handleLine noNumbers "test".toList (line ++ ([' '] ++ '#' :: "x".toList)) 2 =
        p.report 2 "malformed quoted string".toList ∧
      p.handleLine noNumbers "test".toList (line ++ ([' '] ++ '#' :: "x".toList)) 2 ≠
        p.handleLine noNumbers "test".toList line 2 := by
  intro p line
  have hsplit : findOutsideStrings '=' (trim (stripComment line)) =
      some ("id ".toList, " \"a\\\\\"".toList) := by decide
  have hkey : trim "id ".toList = "id".toList := by decide
  have hvalue : parseValueToken noNumbers (trim " \"a\\\\\"".toList) =
      .ok (.string "a\\".toList) :=
    parseValueToken_string (by decide) noNumbers
  have hline : p.handleLine noNumbers "test".toList line 2 =
      { p with m_currentTable := some [("id".toList, .string "a\\".toList)] } := by
    rw [p.handleLine_of_value hsplit (by decide) rfl List.not_mem_nil hvalue, hkey]
    rfl
  have herror : p.handleLine noNumbers "test".toList (line ++ ([' '] ++ '#' :: "x".toList)) 2 =
      p.report 2 "malformed quoted string".toList := by decide
  refine ⟨⟨by decide, by decide, by rw [hline]⟩, by rw [hline], herror, ?_⟩
  rw [hline, herror]
  intro heq
  have herrors := congrArg TomlParser.m_outErrors heq
  exact p.report_ne 2 _ herrors

end Hades.Runtime
