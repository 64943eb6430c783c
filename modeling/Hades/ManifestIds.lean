import Hades.AppendLaw
import Hades.SuiteHistory
import Hades.TomlBlocks

/-!
# The Ids of a Manifest

The id of a test is the key under which the manifest knows it. The ids of a content are read
off its tables, whether or not the rest of the manifest is accepted, so that they are there
for every content, also for one that a person has edited.

A test that is appended behind such a content may lose its header to the last line. Its keys
then go to the table before it, or to none, and the last line may lose what it says. An append
that breaks off ends inside a line, and the beginning of a line says nothing about the id.

## Main results

* `testIds_append`: **an appended test**, or a part of one, adds its id and no other.
* `nodup_testIds_append`: distinct ids stay distinct if the new one is not there.
-/

namespace Hades.Runtime

/-- The key of the id. -/
def idKey : Text :=
  "id".toList

/-- The ids of a content, in the order of its tables. -/
def testIds (codec : DoubleCodec) (content : Text) : List Text :=
  (declaredTables codec testArray content).filterMap (findTomlString · idKey)

/-- The id that a line assigns. -/
def assignedId? (codec : DoubleCodec) (line : Text) : Option Text :=
  (assignment? codec line).bind fun pair => if pair.1 = idKey then pair.2.asString? else none

namespace TomlParser

variable {codec : DoubleCodec}

/-! ### Line by line -/

/-- The ids that a reader of tests has met. -/
def idsOf (codec : DoubleCodec) (s : Sections.State TomlTable TomlTable) : List Text :=
  ((tomlReader codec testArray).flush s).filterMap (findTomlString · idKey)

/-- The ids of a content are those that the reader meets on its lines. -/
theorem testIds_eq (codec : DoubleCodec) (content : Text) :
    testIds codec content = idsOf codec (((splitLines content).map lineText).foldl
      (tomlReader codec testArray).step { output := [], current := none }) := by
  rw [testIds, declaredTables, idsOf, Sections.Reader.flush_run]
  congr 1
  exact List.filterMap_congr fun block _ => (readBlock_tomlReader codec testArray block).symm

/-- A line gives a table its id, or leaves the id alone. -/
theorem findTomlString_add (table : TomlTable) (line : Text) :
    findTomlString ((tomlReader codec testArray).add table line) idKey =
        findTomlString table idKey ∨
      findTomlString table idKey = none ∧
        findTomlString ((tomlReader codec testArray).add table line) idKey =
          assignedId? codec line := by
  dsimp only [tomlReader]
  rw [assignedId?]
  cases assignment? codec line with
  | none => exact .inl rfl
  | some pair =>
      rw [Option.elim_some, Option.bind_some, Sections.addFirst]
      split
      · exact .inl rfl
      · rw [findTomlString, findToml, findToml, List.findSome?_append]
        cases htable : List.findSome? (fun p : Text × TomlValue =>
            if p.1 = idKey then p.2.asString? else none) table with
        | some id => exact .inl rfl
        | none =>
            refine .inr ⟨rfl, ?_⟩
            rw [Option.none_or, List.findSome?_cons]
            split
            · next h => exact h.symm
            · next h => exact h.symm

/-- The ids behind some tables and a table in progress. -/
theorem idsOf_some (output : List TomlTable) (table : TomlTable) :
    idsOf codec { output, current := some table } =
      output.filterMap (findTomlString · idKey) ++ (findTomlString table idKey).toList := by
  have hflush : (tomlReader codec testArray).flush { output, current := some table } =
      output ++ [table] := rfl
  rw [idsOf, hflush, List.filterMap_append, List.filterMap_cons]
  cases findTomlString table idKey <;> rfl

/-- **One line** adds the id that it assigns, or none. -/
theorem idsOf_step (s : Sections.State TomlTable TomlTable) (line : Text) :
    idsOf codec ((tomlReader codec testArray).step s line) = idsOf codec s ∨
      ∃ id, assignedId? codec line = some id ∧
        idsOf codec ((tomlReader codec testArray).step s line) = idsOf codec s ++ [id] := by
  rw [Sections.Reader.step]
  split
  · next header hheader =>
    left
    rw [idsOf, Sections.Reader.flush, List.filterMap_append]
    dsimp only [tomlReader]
    split
    · exact List.append_nil _
    · exact List.append_nil _
  · obtain ⟨output, current⟩ := s
    cases current with
    | none => exact .inl rfl
    | some table =>
        rw [Option.map_some, idsOf_some, idsOf_some]
        rcases findTomlString_add table line with hsame | ⟨hnone, hassigned⟩
        · rw [hsame]
          exact .inl rfl
        · rw [hassigned, hnone]
          cases hid : assignedId? codec line with
          | none => exact .inl rfl
          | some id =>
              rw [Option.toList_none, List.append_nil]
              exact .inr ⟨id, rfl, rfl⟩

/-- **A series of lines** adds some of the ids that they assign. -/
theorem idsOf_foldl (s : Sections.State TomlTable TomlTable) (lines : List Text) :
    ∃ ids, List.Sublist ids (lines.filterMap (assignedId? codec)) ∧
      idsOf codec (lines.foldl (tomlReader codec testArray).step s) = idsOf codec s ++ ids := by
  induction lines generalizing s with
  | nil => exact ⟨[], List.Sublist.refl _, (List.append_nil _).symm⟩
  | cons line lines ih =>
      obtain ⟨ids, hids, hrest⟩ := ih ((tomlReader codec testArray).step s line)
      rw [List.foldl_cons, hrest]
      rcases idsOf_step s line with hsame | ⟨id, hid, hadded⟩
      · rw [hsame]
        refine ⟨ids, hids.trans ?_, rfl⟩
        rw [← List.singleton_append, List.filterMap_append]
        exact List.sublist_append_right _ _
      · rw [hadded, List.append_assoc]
        refine ⟨[id] ++ ids, ?_, rfl⟩
        rw [List.filterMap_cons, hid]
        exact hids.cons_cons id

/-! ### The last line and the header behind it -/

/-- Only a quoted token is a string. -/
theorem asString?_of_parseQuotedString {token : Text} {value : TomlValue}
    (hquoted : parseQuotedString token = none) (h : parseValueToken codec token = .ok value) :
    value.asString? = none := by
  rw [parseValueToken, hquoted] at h
  split at h
  · cases h
  split at h
  · obtain rfl := Except.ok.inj h
    rfl
  split at h
  · obtain rfl := Except.ok.inj h
    rfl
  split at h
  · obtain rfl := Except.ok.inj h
    rfl
  · cases h

/-- A value that does not end with a quote is no string. -/
theorem asString?_of_getLast? {token : Text} {value : TomlValue} {c : Char}
    (hlast : token.getLast? = some c) (hc : c ≠ '"')
    (h : parseValueToken codec token = .ok value) : value.asString? = none := by
  refine asString?_of_parseQuotedString ?_ h
  rw [parseQuotedString, if_pos]
  exact .inr (.inr fun h => hc (Option.some.inj (hlast.symm.trans h)))

/-- A line that does not end with a quote assigns no string. -/
theorem assignedId?_of_getLast? {line : Text} {c : Char} (h : line.getLast? = some c)
    (hc : isTokenChar c = true) (heq : c ≠ '=') : assignedId? codec line = none := by
  have hspace : isSpace c = false ∧ c ≠ '"' := by
    simp only [isTokenChar, Bool.and_eq_true, Bool.not_eq_true', bne_iff_ne] at hc
    exact ⟨hc.1.1.1, hc.1.1.2⟩
  rw [assignedId?, assignment?]
  split
  · rfl
  next key valueToken hsplit =>
  split
  swap
  · rfl
  obtain ⟨⟨before, behind⟩, hfind, hpair⟩ := Option.map_eq_some_iff.mp hsplit
  obtain ⟨-, rfl⟩ := Prod.mk.inj hpair
  have hline := EscapedText.splitOutside_eq_append hfind
  obtain ⟨front, rfl⟩ : ∃ front, behind = front ++ [c] := by
    refine List.getLast?_eq_some_iff.mp ?_
    cases behind with
    | nil =>
        rw [hline, List.getLast?_concat] at h
        exact absurd (Option.some.inj h).symm heq
    | cons d ds =>
        rw [hline, List.getLast?_append, List.getLast?_cons_cons] at h
        cases hlast : (d :: ds).getLast? with
        | none => exact absurd (List.getLast?_eq_none_iff.mp hlast) (List.cons_ne_nil _ _)
        | some e =>
            rw [hlast] at h
            exact h
  have hlast : (trim (front ++ [c])).getLast? = some c :=
    Trimming.getLast?_trim_concat front hspace.1
  split
  · next value hvalue =>
    rw [Option.bind_some, asString?_of_getLast? hlast hspace.2 hvalue, ite_self]
  · rfl

/-- A plain text behind a line is part of its comment, or ends the line. -/
theorem lineText_append {more : Text} (hmore : ∀ c ∈ more, isTokenChar c = true)
    {c : Char} (hlast : more.getLast? = some c) (line : Text) :
    lineText (line ++ more) = lineText (popCarriageReturn line) ∨
      (lineText (line ++ more)).getLast? = some c := by
  have hc := hmore c (List.mem_of_getLast? hlast)
  rw [lineText, lineText]
  rcases stripComment_append hmore line with hcomment | hplain
  · rw [hcomment]
    exact .inl rfl
  · obtain ⟨front, rfl⟩ := List.getLast?_eq_some_iff.mp hlast
    right
    rw [hplain, ← List.append_assoc]
    refine Trimming.getLast?_trim_concat _ ?_
    simp only [isTokenChar, Bool.and_eq_true, Bool.not_eq_true'] at hc
    exact hc.1.1.1

/-- The characters of a header are plain, and none is an equals sign. -/
theorem isTokenChar_header : ∀ c ∈ headerLine testArray, isTokenChar c = true ∧ c ≠ '=' := by
  decide

/-- **What the beginning of a header behind a line** leaves of its id. -/
theorem idsOf_step_glued (s : Sections.State TomlTable TomlTable) {torn : Text}
    (htorn : torn <+: headerLine testArray) (line : Text) :
    List.Sublist
      (idsOf codec ((tomlReader codec testArray).step s
        (lineText (popCarriageReturn (line ++ torn)))))
      (idsOf codec ((tomlReader codec testArray).step s (lineText (popCarriageReturn line)))) := by
  have hchars : ∀ c ∈ torn, isTokenChar c = true ∧ c ≠ '=' := fun c hc =>
    isTokenChar_header c (htorn.subset hc)
  cases hlast : torn.getLast? with
  | none =>
      rw [List.getLast?_eq_none_iff.mp hlast, List.append_nil]
  | some c =>
      obtain ⟨hc, heq⟩ := hchars c (List.mem_of_getLast? hlast)
      have hpop : popCarriageReturn (line ++ torn) = line ++ torn := by
        refine popCarriageReturn_of_getLast ?_
        rw [List.getLast?_append, hlast]
        rintro hcr
        obtain rfl := Option.some.inj hcr
        cases hc
      rw [hpop]
      rcases lineText_append (fun d hd => (hchars d hd).1) hlast line with hsame | hends
      · rw [hsame]
      · have hglued : idsOf codec ((tomlReader codec testArray).step s
            (lineText (line ++ torn))) = idsOf codec s := by
          rcases idsOf_step s (lineText (line ++ torn)) with hsame | ⟨id, hid, -⟩
          · exact hsame
          · rw [assignedId?_of_getLast? hends hc heq] at hid
            cases hid
        rw [hglued]
        rcases idsOf_step s (lineText (popCarriageReturn line)) with hsame | ⟨id, -, hadded⟩
        · rw [hsame]
        · rw [hadded]
          exact List.sublist_append_left _ _

/-! ### The lines of a new test -/

/-- The line of a key assigns its value. -/
theorem assignment?_pairLine {key value : Text} (hkey : IsKey key) :
    assignment? codec (lineText (pairLine codec (key, .string value))) =
      some (key, .string value) := by
  have hvalue : parseValueToken codec (formatValue codec (.string value)) =
      .ok (.string value) :=
    parseValueToken_formatValue (lawful_false codec) trivial
  have hempty : TomlParser.m_currentTable { m_currentTable := some [] } = some [] := rfl
  have hhandle : handleLine codec testArray { m_currentTable := some [] }
      (pairLine codec (key, .string value)) 0 =
        { m_currentTable := some [(key, .string value)] } :=
    handleLine_pair hkey (isValueText_string value) hvalue hempty List.not_mem_nil 0
  have hview : (handleLine codec testArray { m_currentTable := some [] }
      (pairLine codec (key, .string value)) 0).view = (tomlReader codec testArray).step
        { output := [], current := some [] } (lineText (pairLine codec (key, .string value))) :=
    view_handleLine { m_currentTable := some [] } _ 0
  rw [hhandle, Sections.Reader.step] at hview
  split at hview
  · -- a header would have finished the table
    have houtput := congrArg Sections.State.output hview
    cases houtput
  · have hcurrent := congrArg Sections.State.current hview
    have hadded := Option.some.inj hcurrent
    dsimp only [tomlReader] at hadded
    cases hline : assignment? codec (lineText (pairLine codec (key, .string value))) with
    | none =>
        rw [hline] at hadded
        cases hadded
    | some pair =>
        rw [hline] at hadded
        exact congrArg some (List.cons.inj hadded).1.symm

/-- The beginning of a string between quotes is no string. -/
theorem parseQuotedString_of_prefix {text value : Text} (h : text <+: tomlEscapes.escape value) :
    parseQuotedString ('"' :: text) = none := by
  rw [parseQuotedString]
  split
  · rfl
  · next hquoted =>
    rw [not_or, not_or, not_lt, not_not, not_not] at hquoted
    obtain ⟨hlength, -, hlast⟩ := hquoted
    obtain ⟨inner, rfl⟩ : ∃ inner, text = inner ++ ['"'] := by
      refine List.getLast?_eq_some_iff.mp ?_
      cases text with
      | nil => simp at hlength
      | cons c cs => exact hlast
    rw [List.tail_cons, List.dropLast_concat]
    exact tomlEscapes.unescape_of_prefix (by decide) (by decide) h

/-- The token of a line that breaks off in its string is no string. -/
theorem parseQuotedString_torn {behind rest value : Text} (hrest : rest ≠ [])
    (h : behind ++ rest = ' ' :: formatValue codec (.string value)) :
    parseQuotedString (trim behind) = none := by
  match behind with
  | [] => rfl
  | [c] =>
      obtain rfl := (List.cons.inj h).1
      rfl
  | c :: d :: text =>
      obtain ⟨hc, hrest'⟩ := List.cons.inj h
      obtain ⟨hd, htext⟩ := List.cons.inj hrest'
      subst hc hd
      have hprefix : text <+: tomlEscapes.escape value := by
        have hall : text <+: tomlEscapes.escape value ++ ['"'] := ⟨rest, htext⟩
        rcases List.prefix_concat_iff.mp hall with rfl | hshort
        · exact absurd (List.append_right_eq_self.mp htext) hrest
        · exact hshort
      have hquote : isSpace '"' = false := by decide
      have htrim : trim (' ' :: '"' :: text) = trim ('"' :: text) :=
        Trimming.trim_blank_append (by decide : ∀ c ∈ [' '], isSpace c = true) _
      have hfront : trim ('"' :: text) <+: '"' :: text :=
        Trimming.trim_prefix_of_head fun c hc => Option.some.inj hc ▸ hquote
      have hmem : '"' ∈ trim ('"' :: text) := Trimming.mem_trim List.mem_cons_self hquote
      rw [htrim]
      cases htoken : trim ('"' :: text) with
      | nil =>
          rw [htoken] at hmem
          cases hmem
      | cons c token =>
          rw [htoken] at hfront
          obtain ⟨rfl, hshort⟩ := List.cons_prefix_cons.mp hfront
          exact parseQuotedString_of_prefix (hshort.trans hprefix)

/-- What is not found in a text is not found in its beginning. -/
theorem findOutsideStrings_of_append {target : Char} {text more : Text}
    (h : findOutsideStrings target (text ++ more) = none) :
    findOutsideStrings target text = none := by
  cases hfind : findOutsideStrings target text with
  | none => rfl
  | some found =>
      have hfound := h.symm.trans (EscapedText.splitOutside_append_of_some hfind more)
      cases hfound

/-- **The beginning of the line of a string** assigns no string. -/
theorem assignedId?_torn {key value torn : Text} (hkey : IsKey key)
    (htorn : torn <+: pairLine codec (key, .string value))
    (hne : torn ≠ pairLine codec (key, .string value)) :
    assignedId? codec (lineText torn) = none := by
  obtain ⟨rest, hrest⟩ := htorn
  have hrestne : rest ≠ [] := by
    rintro rfl
    exact hne ((List.append_nil torn).symm.trans hrest)
  have hstrip : stripComment torn = torn := by
    have hcomment := findOutsideStrings_comment hkey (isValueText_string value)
    rw [stripComment, findOutsideStrings_of_append ((congrArg _ hrest).trans hcomment)]
  have hhead : ∀ c ∈ torn.head?, isSpace c = false := by
    intro c hc
    obtain ⟨d, ds, rfl⟩ := List.exists_cons_of_ne_nil hkey.1
    obtain ⟨cs, rfl⟩ := List.head?_eq_some_iff.mp hc
    obtain rfl : c = d := (List.cons.inj hrest).1
    exact isSpace_of_isIdentChar (hkey.2 c List.mem_cons_self)
  obtain ⟨post, hpost⟩ : trim torn <+: torn := Trimming.trim_prefix_of_head hhead
  rw [lineText, hstrip, assignedId?, assignment?, splitKeyValue]
  cases hfind : findOutsideStrings '=' (trim torn) with
  | none => rfl
  | some found =>
      obtain ⟨before, behind⟩ := found
      have hequals := findOutsideStrings_equals hkey (formatValue codec (.string value))
      have hfound := EscapedText.splitOutside_append_of_some hfind (post ++ rest)
      rw [← List.append_assoc, hpost, hrest] at hfound
      obtain ⟨rfl, hbehind⟩ := Prod.mk.inj (Option.some.inj (hequals.symm.trans hfound))
      have hquoted := parseQuotedString_torn (List.append_ne_nil_of_right_ne_nil post hrestne)
        hbehind.symm
      rw [Option.map_some]
      dsimp only
      split
      · split
        · next value hvalue =>
          rw [Option.bind_some, asString?_of_parseQuotedString hquoted hvalue, ite_self]
        · rfl
      · rfl

/-- The lines of a new test assign its id. -/
theorem filterMap_assignedId? (fixtureName testId : Text) (kind : TestKind) :
    ((entryToTable (requestedTest fixtureName testId kind)).map fun pair =>
      lineText (pairLine codec pair)).filterMap (assignedId? codec) = [testId] := by
  have hline (key value : Text) (hkey : IsKey key) :
      assignedId? codec (lineText (pairLine codec (key, .string value))) =
        if key = idKey then some value else none := by
    rw [assignedId?, assignment?_pairLine hkey]
    rfl
  have htable : entryToTable (requestedTest fixtureName testId kind) =
      [("id".toList, .string testId), ("fixture".toList, .string fixtureName),
        ("kind".toList, .string (kindName kind))] := rfl
  rw [htable]
  simp only [List.map_cons, List.map_nil, List.filterMap_cons, List.filterMap_nil,
    hline _ _ (by decide : IsKey "id".toList), hline _ _ (by decide : IsKey "fixture".toList),
    hline _ _ (by decide : IsKey "kind".toList)]
  rfl

end TomlParser

open TomlParser

/-- The lines of a new test behind its header. -/
def newTestLines (codec : DoubleCodec) (fixtureName testId : Text) (kind : TestKind) : List Text :=
  (entryToTable (requestedTest fixtureName testId kind)).map (pairLine codec) ++ [[]]

theorem suiteText_eq_unlines (codec : DoubleCodec) (fixtureName testId : Text) (kind : TestKind) :
    suiteText codec [requestedTest fixtureName testId kind] =
      Lines.unlines '\n' (headerLine testArray :: newTestLines codec fixtureName testId kind) := by
  rw [suiteText, tomlText_eq]
  simp [tableLines, newTestLines]

/-- The lines of a new test are read as they were written. -/
theorem isWrittenLine_newTestLines {fixtureName testId : Text} {kind : TestKind} {line : Text}
    (h : line ∈ newTestLines codec fixtureName testId kind) : IsWrittenLine line := by
  have hdoubles : (requestedTest fixtureName testId kind).NoDoubles := ⟨rfl, rfl⟩
  have hmem : line ∈ [entryToTable (requestedTest fixtureName testId kind)].flatMap
      (tableLines codec testArray) := by
    rw [List.flatMap_singleton, tableLines, List.cons_append]
    exact List.mem_cons_of_mem _ h
  refine isWrittenLine_of_mem (lawful_false codec) (by decide : IsKey testArray) ?_ hmem
  intro table htable
  obtain rfl := List.mem_singleton.mp htable
  exact isWritableTable_entryToTable hdoubles.hasDoubles

/-- A line of a new test that breaks off is one line. -/
theorem newline_notMem_torn {fixtureName testId torn : Text} {kind : TestKind} {k : ℕ}
    (h : torn <+: (newTestLines codec fixtureName testId kind).getD k []) : '\n' ∉ torn := by
  intro hmem
  have hin := h.subset hmem
  rw [List.getD_eq_getElem?_getD] at hin
  cases hline : (newTestLines codec fixtureName testId kind)[k]? with
  | none =>
      rw [hline] at hin
      cases hin
  | some line =>
      rw [hline] at hin
      exact (isWrittenLine_newTestLines (List.mem_of_getElem? hline)).1 hin

/-- Without its carriage return a line is a beginning of itself. -/
theorem popCarriageReturn_isInitial (line : Text) : popCarriageReturn line <+: line := by
  rw [popCarriageReturn]
  split
  · exact List.dropLast_prefix line
  · exact List.prefix_rfl

/-- The id that a line of a file assigns. -/
def readId (codec : DoubleCodec) (line : Text) : Option Text :=
  assignedId? codec (lineText (popCarriageReturn line))

/-- **The beginning of a line of a new test** assigns what the line assigns, or nothing. -/
theorem readId_newTestLines {fixtureName testId : Text} {kind : TestKind} {line torn : Text}
    (hline : line ∈ newTestLines codec fixtureName testId kind) (htorn : torn <+: line) :
    readId codec torn = none ∨ readId codec torn = readId codec line := by
  have hwritten := (isWrittenLine_newTestLines hline).2
  have hshort := (popCarriageReturn_isInitial torn).trans htorn
  rcases List.mem_append.mp hline with hline | hline
  · obtain ⟨pair, hpair, rfl⟩ := List.mem_map.mp hline
    obtain ⟨key, value, rfl, hkey⟩ : ∃ key value, pair = (key, .string value) ∧ IsKey key := by
      have htable : pair ∈ [("id".toList, TomlValue.string testId),
        ("fixture".toList, .string fixtureName), ("kind".toList, .string (kindName kind))] := hpair
      simp only [List.mem_cons, List.not_mem_nil, or_false] at htable
      rcases htable with rfl | rfl | rfl
      · exact ⟨_, _, rfl, by decide⟩
      · exact ⟨_, _, rfl, by decide⟩
      · exact ⟨_, _, rfl, by decide⟩
    by_cases hwhole : popCarriageReturn torn = pairLine codec (key, .string value)
    · rw [readId, readId, hwhole, hwritten]
      exact .inr rfl
    · exact .inl (assignedId?_torn hkey hshort hwhole)
  · obtain rfl := List.mem_singleton.mp hline
    rw [List.prefix_nil.mp htorn]
    exact .inr rfl

/-- The lines of a new test assign its id. -/
theorem filterMap_readId (fixtureName testId : Text) (kind : TestKind) :
    (newTestLines codec fixtureName testId kind).filterMap (readId codec) = [testId] := by
  have hread : ∀ line ∈ newTestLines codec fixtureName testId kind,
      readId codec line = assignedId? codec (lineText line) := fun line hline => by
    rw [readId, (isWrittenLine_newTestLines hline).2]
  rw [List.filterMap_congr hread, newTestLines, List.filterMap_append, List.filterMap_map]
  have hlines := @filterMap_assignedId? codec fixtureName testId kind
  rw [List.filterMap_map] at hlines
  exact (congrArg (· ++ _) hlines).trans (List.append_nil _)

/-- **A test that is appended**, wholly or in part, adds its id or none, whatever it is appended
to. -/
theorem testIds_append (codec : DoubleCodec) (content fixtureName testId : Text)
    (kind : TestKind) (n : ℕ) :
    List.Sublist
      (testIds codec (content ++ (suiteText codec [requestedTest fixtureName testId kind]).take n))
      (testIds codec content ++ [testId]) := by
  obtain ⟨k, torn, htake, htorn⟩ := Lines.exists_take_unlines '\n'
    (headerLine testArray :: newTestLines codec fixtureName testId kind) n
  obtain ⟨s, hs⟩ : ∃ s, ((Lines.earlierLines '\n' content).map (lineText ∘ popCarriageReturn)).foldl
    (tomlReader codec testArray).step { output := [], current := none } = s := ⟨_, rfl⟩
  have hcontent : testIds codec content = idsOf codec ((tomlReader codec testArray).step s
      (lineText (popCarriageReturn (Lines.lastLine '\n' content)))) := by
    rw [testIds_eq, splitLines_eq, List.map_append, List.map_map, List.foldl_append, hs]
    rfl
  rw [suiteText_eq_unlines, htake, testIds_eq, hcontent, splitLines]
  have hheader : ∀ text, text <+: headerLine testArray → '\n' ∉ text := fun text htext hmem =>
    absurd (isTokenChar_header _ (htext.subset hmem)).1 (by decide)
  cases k with
  | zero =>
      have hchars : '\n' ∉ Lines.lastLine '\n' content ++ torn :=
        List.not_mem_append (Lines.sep_notMem_lastLine '\n' content) (hheader torn htorn)
      have hnil : Lines.unlines '\n' [] = [] := rfl
      rw [List.take_zero, hnil, List.nil_append, Lines.splitOn_append,
        List.splitOn_eq_singleton hchars, List.map_append, List.map_append, List.map_map,
        List.foldl_append, hs]
      exact (idsOf_step_glued s htorn _).trans (List.sublist_append_left _ _)
  | succ k =>
      have hnew : ∀ line ∈ newTestLines codec fixtureName testId kind, '\n' ∉ line :=
        fun line hline => (isWrittenLine_newTestLines hline).1
      have hlast : '\n' ∉ torn := by
        rw [List.getD_cons_succ] at htorn
        exact newline_notMem_torn htorn
      have hwhole : ∀ line ∈ (newTestLines codec fixtureName testId kind).take k, '\n' ∉ line :=
        fun line hline => hnew line (List.mem_of_mem_take hline)
      have hread := Lines.filterMap_torn_sublist (fun line hline torn => readId_newTestLines hline)
        (rfl : readId codec [] = none) htorn
      rw [filterMap_readId] at hread
      obtain ⟨ids, hids, hrun⟩ := idsOf_foldl
        ((tomlReader codec testArray).step s (lineText (popCarriageReturn
          (Lines.lastLine '\n' content ++ headerLine testArray))))
        ((((newTestLines codec fixtureName testId kind).take k ++ [torn]).map
          popCarriageReturn).map lineText)
      rw [List.map_map, List.filterMap_map] at hids
      rw [List.take_succ_cons, Lines.splitOn_append_unlines_last (hheader _ List.prefix_rfl) hwhole
        hlast, List.append_assoc, List.cons_append, List.map_append, List.map_append, List.map_map,
        List.foldl_append, hs, List.map_cons, List.map_cons, List.foldl_cons, hrun]
      exact (idsOf_step_glued s List.prefix_rfl _).append (hids.trans hread)

/-- **Distinct ids stay distinct** behind a new one. -/
theorem nodup_testIds_append {codec : DoubleCodec} {content testId : Text}
    (hnodup : (testIds codec content).Nodup) (hnew : testId ∉ testIds codec content)
    (fixtureName : Text) (kind : TestKind) (n : ℕ) :
    (testIds codec (content ++
      (suiteText codec [requestedTest fixtureName testId kind]).take n)).Nodup := by
  refine (testIds_append codec content fixtureName testId kind n).nodup ?_
  rw [List.nodup_append]
  refine ⟨hnodup, List.nodup_singleton testId, fun id hid other hother => ?_⟩
  obtain rfl := List.mem_singleton.mp hother
  exact ne_of_mem_of_not_mem hid hnew

end Hades.Runtime
