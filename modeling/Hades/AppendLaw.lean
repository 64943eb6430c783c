import Hades.RegistryRoundTrip
import Hades.SuiteRoundTrip

/-!
# Appending to a File

`writeSuiteToml` and `writeRegistryIni` append their text to whatever the file ends with.
Behind a blank last line the new blocks are read after the old ones; behind any other last
line the first header becomes part of that line, and never starts a block. The second half
is a count: in an accepted file there are as many blocks as lines that open one.

## Main results

* `TomlParser.tableCount_handleLines`: the tables of a file are the lines that open one.
* `TomlParser.opensTable_of_append`: a header glued to a line opens no table of its own.
* `RegistryParser.sectionCount_handleLines`: the same count for the registry.
* `read_append_iff`: **when an appended file is read** as the old entries followed by the
  new ones.
-/

namespace Hades.Runtime

namespace TomlParser

variable {codec : DoubleCodec} {arrayName : Text}

/-! ### Lines that open a table -/

/-- Whether a line is a header of the array. -/
def opensTable (arrayName : Text) (line : Text) : Bool :=
  matchHeader (trim (stripComment line)) = some (.arrayTable arrayName)

/-- The tables of the reader, the one in progress included. -/
def tableCount (p : TomlParser) : ℕ :=
  p.m_outTables.length + p.m_currentTable.toList.length

theorem length_finish (p : TomlParser) : p.finish.m_outTables.length = p.tableCount := by
  rw [finish, tableCount]
  cases p.m_currentTable with
  | none => rfl
  | some table => exact List.length_append

/-- A `key = value` line starts and ends no table. -/
theorem tableCount_handleKeyValue (p : TomlParser) (line : Text) (lineNo : UInt32) :
    (p.handleKeyValue codec line lineNo).tableCount = p.tableCount := by
  rw [handleKeyValue]
  split
  · rfl
  split
  · rfl
  split
  · rfl
  · next table htable =>
    split
    · rfl
    split
    · simp [tableCount, htable]
    · rfl

/-- A header ends the table in progress, and starts one if it is the array's. -/
theorem tableCount_handleHeader (p : TomlParser) (header : HeaderMatch) (lineNo : UInt32) :
    (p.handleHeader arrayName header lineNo).tableCount =
      p.tableCount + if header = .arrayTable arrayName then 1 else 0 := by
  cases header with
  | singleBracket =>
      rw [handleHeader, if_neg (by simp), ← length_finish p, tableCount]
      simp [report]
  | arrayTable name =>
      rw [handleHeader, ← length_finish p, tableCount]
      by_cases hname : name = arrayName
      · simp [hname]
      · simp [hname]

/-- **One line** opens at most one table. -/
theorem tableCount_handleLine (p : TomlParser) (line : Text) (lineNo : UInt32) :
    (p.handleLine codec arrayName line lineNo).tableCount =
      p.tableCount + if opensTable arrayName line then 1 else 0 := by
  rw [handleLine, opensTable]
  obtain ⟨stripped, hstripped⟩ : ∃ stripped, trim (stripComment line) = stripped := ⟨_, rfl⟩
  rw [hstripped]
  split
  · next hskip =>
    have hnone : matchHeader stripped = none := by
      rcases hskip with rfl | hhash
      · rfl
      · exact matchHeader_of_head hhash (by decide)
    simp [hnone]
  · cases hmatch : matchHeader stripped with
    | none =>
        rw [tableCount_handleKeyValue]
        simp
    | some header =>
        rw [tableCount_handleHeader]
        simp

/-- **A series of lines** opens as many tables as it has headers of the array. -/
theorem tableCount_handleLines (p : TomlParser) (lineNo : ℕ) (lines : List Text) :
    (p.handleLines codec arrayName lineNo lines).tableCount =
      p.tableCount + lines.countP (opensTable arrayName) := by
  induction lines generalizing p lineNo with
  | nil => rfl
  | cons line lines ih =>
      rw [handleLines, ih, tableCount_handleLine, List.countP_cons]
      omega

/-- A header opens a table. -/
theorem opensTable_headerLine (hname : IsKey arrayName) :
    opensTable arrayName (headerLine arrayName) = true := by
  have hheader : ∀ d, isTokenChar d = false → d ∉ headerLine arrayName := fun d hd =>
    notMem_of_isTokenChar (isTokenChar_headerLine hname) hd
  have hne : headerLine arrayName ≠ [] := by simp [headerLine]
  rw [opensTable, stripComment_of_plain (hheader '"' (by decide)) (hheader '#' (by decide)), trim,
    Trimming.trim_of_tight (isValueText_of_isTokenChar hne (isTokenChar_headerLine hname)).tight,
    matchHeader_headerLine hname]
  exact decide_eq_true rfl

/-- The lines of a series of tables open these tables. -/
theorem countP_tableLines {IsDouble : ℚ → Prop} (hcodec : codec.Lawful IsDouble)
    (hname : IsKey arrayName) {tables : List TomlTable}
    (h : ∀ table ∈ tables, IsWritableTable IsDouble table) :
    (tables.flatMap (tableLines codec arrayName)).countP (opensTable arrayName) =
      tables.length := by
  have hrun := finish_handleLines_tables hcodec hname h {} 0
  have hcount : (handleLines codec arrayName {} 0
      (tables.flatMap (tableLines codec arrayName))).tableCount =
      tableCount {} + (tables.flatMap (tableLines codec arrayName)).countP (opensTable arrayName) :=
    tableCount_handleLines {} 0 _
  rw [← length_finish, hrun] at hcount
  simpa [addTables, finish, tableCount] using hcount.symm

/-! ### A header behind something -/

/-- Removing a carriage return at the end of a line does not change what stands before its
comment. -/
theorem findOutsideStrings_popCarriageReturn {line before behind : Text}
    (h : findOutsideStrings '#' line = some (before, behind)) :
    ∃ rest, findOutsideStrings '#' (popCarriageReturn line) = some (before, rest) := by
  rw [popCarriageReturn]
  split
  · next hlast =>
    obtain ⟨short, rfl⟩ := List.getLast?_eq_some_iff.mp hlast
    rw [List.dropLast_concat]
    cases hfind : findOutsideStrings '#' short with
    | some found =>
        obtain ⟨before', behind'⟩ := found
        have happend := EscapedText.splitOutside_append_of_some hfind ['\r']
        rw [← findOutsideStrings, h] at happend
        obtain ⟨rfl, -⟩ := Prod.mk.inj (Option.some.inj happend)
        exact ⟨behind', rfl⟩
    | none =>
        have hnone : findOutsideStrings '#' (short ++ ['\r']) = none :=
          EscapedText.splitOutside_append_of_none hfind fun i p =>
            EscapedText.splitOutside_eq_none_of_plain (by decide) (by decide) i p
        rw [h] at hnone
        cases hnone
  · exact ⟨behind, h⟩

/-- A line that ends in a header, but starts with something else, is no header of the
array. -/
theorem matchHeader_append_headerLine (hname : IsKey arrayName) {pre : Text} (hne : pre ≠ []) :
    matchHeader (pre ++ headerLine arrayName) ≠ some (.arrayTable arrayName) := by
  intro h
  obtain ⟨x, xs, rfl⟩ := List.exists_cons_of_ne_nil hne
  have htext : x :: xs ++ headerLine arrayName =
      (x :: xs ++ ['[']) ++ '[' :: arrayName ++ [']', ']'] := by
    simp [headerLine]
  have hinner : trim (((x :: xs ++ headerLine arrayName).drop 2).take
      ((x :: xs ++ headerLine arrayName).length - 4)) = arrayName := by
    rw [matchHeader] at h
    split at h
    · exact HeaderMatch.arrayTable.inj (Option.some.inj h)
    · split at h
      · cases h
      · cases h
  have hbracket : '[' ∈ ((x :: xs ++ headerLine arrayName).drop 2).take
      ((x :: xs ++ headerLine arrayName).length - 4) := by
    have hdrop : (x :: xs ++ headerLine arrayName).drop 2 =
        ((x :: xs ++ ['[']).drop 2 ++ '[' :: arrayName) ++ [']', ']'] := by
      rw [htext, List.append_assoc, List.drop_append_of_le_length (by simp), List.append_assoc]
    have hlength : (x :: xs ++ headerLine arrayName).length - 4 =
        ((x :: xs ++ ['[']).drop 2 ++ '[' :: arrayName).length := by
      simp only [headerLine, List.length_append, List.length_cons, List.length_drop,
        String.length_toList, List.length_nil]
      have hopen : "[[".length = 2 := rfl
      have hclose : "]]".length = 2 := rfl
      omega
    rw [hdrop, hlength, List.take_left']
    · simp
    · rfl
  have hmem : '[' ∈ trim (((x :: xs ++ headerLine arrayName).drop 2).take
      ((x :: xs ++ headerLine arrayName).length - 4)) :=
    Trimming.mem_trim hbracket (by decide)
  rw [hinner] at hmem
  exact hname.notMem (by decide) hmem

/-- **A plain text behind a line** is part of its comment, or the line has none. -/
theorem stripComment_append {more : Text} (hmore : ∀ c ∈ more, isTokenChar c = true)
    (line : Text) :
    stripComment (line ++ more) = stripComment (popCarriageReturn line) ∨
      stripComment (line ++ more) = line ++ more := by
  rw [stripComment, stripComment]
  cases hfind : findOutsideStrings '#' line with
  | some found =>
      obtain ⟨before, behind⟩ := found
      obtain ⟨rest, hpop⟩ := findOutsideStrings_popCarriageReturn hfind
      have happend : findOutsideStrings '#' (line ++ more) = some (before, behind ++ more) :=
        EscapedText.splitOutside_append_of_some hfind _
      left
      rw [happend, hpop]
  | none =>
      have happend : findOutsideStrings '#' (line ++ more) = none :=
        EscapedText.splitOutside_append_of_none hfind fun i p =>
          EscapedText.splitOutside_eq_none_of_plain (notMem_of_isTokenChar hmore (by decide))
            (notMem_of_isTokenChar hmore (by decide)) i p
      right
      rw [happend]

/-- **A header glued to a line** that is not blank opens a table only if the line is a
header itself, in front of a comment. -/
theorem opensTable_of_append (hname : IsKey arrayName) {line : Text}
    (hline : ∃ c ∈ line, isSpace c = false)
    (h : opensTable arrayName (line ++ headerLine arrayName) = true) :
    opensTable arrayName (popCarriageReturn line) = true := by
  rw [opensTable, decide_eq_true_eq] at h
  rcases stripComment_append (isTokenChar_headerLine hname) line with hcomment | hplain
  · rw [opensTable, ← hcomment, decide_eq_true_eq]
    exact h
  · have hne : headerLine arrayName ≠ [] := by simp [headerLine]
    have htight := (isValueText_of_isTokenChar hne (isTokenChar_headerLine hname)).tight
    have htrim : trim (line ++ headerLine arrayName) =
        line.dropWhile isSpace ++ headerLine arrayName :=
      Trimming.trim_append hne htight.2 hline
    have hstart : line.dropWhile isSpace ≠ [] := by
      obtain ⟨c, hc, hspace⟩ := hline
      rw [Ne, List.dropWhile_eq_nil_iff]
      intro hall
      rw [hall c hc] at hspace
      cases hspace
    rw [hplain, htrim] at h
    exact absurd h (matchHeader_append_headerLine hname hstart)

/-- **Behind a line that is not blank** the first header is lost: there are fewer headers
than tables. -/
theorem countP_splitLines_append_lt {IsDouble : ℚ → Prop} (hcodec : codec.Lawful IsDouble)
    (hname : IsKey arrayName) {tables : List TomlTable} (hne : tables ≠ [])
    (h : ∀ table ∈ tables, IsWritableTable IsDouble table) {content : Text}
    (hline : ∃ c ∈ Lines.lastLine '\n' content, isSpace c = false) :
    (splitLines (content ++ tomlText codec arrayName tables)).countP (opensTable arrayName) <
      (splitLines content).countP (opensTable arrayName) + tables.length := by
  obtain ⟨table, tables, rfl⟩ := List.exists_cons_of_ne_nil hne
  have hglued := opensTable_of_append hname hline
  have hle : (if opensTable arrayName (Lines.lastLine '\n' content ++ headerLine arrayName)
      then 1 else 0) ≤ if opensTable arrayName (popCarriageReturn (Lines.lastLine '\n' content))
      then 1 else 0 := by
    by_cases hopens : opensTable arrayName
        (Lines.lastLine '\n' content ++ headerLine arrayName) = true
    · rw [if_pos hopens, if_pos (hglued hopens)]
    · rw [if_neg hopens]
      exact Nat.zero_le _
  have hwritten := countP_tableLines hcodec hname h
  have hnil : opensTable arrayName [] = false := rfl
  rw [List.flatMap_cons, tableLines, List.countP_append, List.cons_append,
    List.countP_cons_of_pos (opensTable_headerLine hname), List.countP_append] at hwritten
  rw [splitLines_append_tomlText hcodec hname h, splitLines_eq, List.cons_append]
  simp only [List.countP_append, List.countP_cons, List.countP_nil, hnil, Bool.false_eq_true,
    if_false] at hwritten ⊢
  omega

end TomlParser

/-! ### Appending entries -/

/-- A key that is not reported is there. -/
theorem present_of_reportMissingKey {present : Bool} {entryIndex : ℕ} {key : Text}
    (h : reportMissingKey present entryIndex key = []) : present = true := by
  cases present with
  | true => rfl
  | false => cases h

/-- A table without an error has an entry. -/
theorem isSome_mapTableToEntry {table : TomlTable} {entryIndex : ℕ}
    (h : (mapTableToEntry table entryIndex).2 = []) :
    (mapTableToEntry table entryIndex).1.isSome = true := by
  obtain ⟨r, hr⟩ : ∃ r, mapTableToEntry table entryIndex = r := ⟨_, rfl⟩
  rw [hr] at h ⊢
  rw [mapTableToEntry] at hr
  split at hr
  · split at hr <;> subst hr
    · cases h
    · rfl
    · rfl
  · next hmissing =>
      subst hr
      obtain ⟨hid, hfixture⟩ := List.append_eq_nil_iff.mp h
      obtain ⟨id, hid⟩ := Option.isSome_iff_exists.mp (present_of_reportMissingKey hid)
      obtain ⟨fixture, hfixture⟩ := Option.isSome_iff_exists.mp
        (present_of_reportMissingKey hfixture)
      exact (hmissing id fixture hid hfixture).elim

/-- Without an error there are as many entries as tables. -/
theorem length_mapTables {entryIndex : ℕ} {tables : List TomlTable}
    (h : (mapTables entryIndex tables).2 = []) :
    (mapTables entryIndex tables).1.length = tables.length := by
  induction tables generalizing entryIndex with
  | nil => rfl
  | cons table tables ih =>
      simp only [mapTables, List.append_eq_nil_iff] at h ⊢
      obtain ⟨entry, hentry⟩ := Option.isSome_iff_exists.mp (isSome_mapTableToEntry h.1)
      rw [hentry, List.length_append, ih h.2, List.length_cons, Option.length_toList]
      simp [Nat.add_comm]

/-- **An accepted manifest has as many entries as headers.** -/
theorem length_readSuiteToml {codec : DoubleCodec} {path content : Text}
    (h : (readSuiteToml codec path (some content)).2 = []) :
    (readSuiteToml codec path (some content)).1.length =
      (splitLines content).countP (TomlParser.opensTable testArray) := by
  simp only [readSuiteToml, readToml, List.append_eq_nil_iff] at h ⊢
  rw [length_mapTables h.2, TomlParser.length_finish, TomlParser.tableCount_handleLines]
  exact Nat.zero_add _

/-- **Entries appended to an accepted manifest** are read after the old ones exactly when
there are none, or the manifest's last line is blank. -/
theorem readSuiteToml_append_iff {codec : DoubleCodec} {path content : Text}
    (haccepted : (readSuiteToml codec path (some content)).2 = [])
    {entries : List SuiteTestEntry} (h : ∀ entry ∈ entries, entry.NoDoubles) :
    readSuiteToml codec path (some (content ++ suiteText codec entries)) =
        ((readSuiteToml codec path (some content)).1 ++ entries.map SuiteTestEntry.persisted,
          []) ↔
      entries = [] ∨ ∀ c ∈ Lines.lastLine '\n' content, isSpace c = true := by
  have hreadBack : entries.map (SuiteTestEntry.readBack codec) =
      entries.map SuiteTestEntry.persisted :=
    List.map_congr_left fun entry hentry => (h entry hentry).readBack_eq codec
  constructor
  · intro hread
    cases entries with
    | nil => exact Or.inl rfl
    | cons entry entries =>
      refine Or.inr ?_
      by_contra hblank
      push Not at hblank
      have hline : ∃ c ∈ Lines.lastLine '\n' content, isSpace c = false := by
        simpa using hblank
      have hwritable : ∀ table ∈ (entry :: entries).map entryToTable,
          TomlParser.IsWritableTable (fun _ => False) table := by
        intro table htable
        obtain ⟨e, he, rfl⟩ := List.mem_map.mp htable
        exact isWritableTable_entryToTable (h e he).hasDoubles
      -- as many headers as entries, in the old file and in the new one
      have hold := length_readSuiteToml haccepted
      have hnew : (readSuiteToml codec path
          (some (content ++ suiteText codec (entry :: entries)))).1.length =
          (splitLines (content ++ suiteText codec (entry :: entries))).countP
            (TomlParser.opensTable testArray) :=
        length_readSuiteToml (by rw [hread])
      have hlost := TomlParser.countP_splitLines_append_lt (lawful_false codec)
        (by decide : IsKey testArray) (List.map_eq_nil_iff.not.mpr (List.cons_ne_nil entry entries))
        hwritable hline
      rw [hread, List.length_append, List.length_map] at hnew
      rw [List.length_map] at hlost
      exact absurd hlost (by rw [← hold, hnew, suiteText]; exact lt_irrefl _)
  · rintro (rfl | hblank)
    · have htext : content ++ suiteText codec [] = content := List.append_nil content
      rw [htext, List.map_nil, List.append_nil]
      exact Prod.ext rfl haccepted
    · rw [readSuiteToml_append (lawful_false codec) (fun e he => (h e he).hasDoubles) hblank,
        haccepted, hreadBack]

namespace RegistryParser

/-! ### Lines that open a section -/

/-- Whether a line is a section header. -/
def opensSection (line : Text) : Bool :=
  (isSectionHeader (popCarriageReturn (trim line))).isSome

/-- The fixtures of the reader, the section in progress included. -/
def sectionCount (p : RegistryParser) : ℕ :=
  p.m_outFixtures.length + p.m_current.toList.length

/-- **Closing a section** keeps the count or reports an error. -/
theorem sectionCount_finishSection (p : RegistryParser) (lineNo : UInt32) :
    (p.finishSection lineNo).sectionCount ≤ p.sectionCount ∧
      p.sectionCount + p.m_outErrors.length ≤
        (p.finishSection lineNo).sectionCount + (p.finishSection lineNo).m_outErrors.length := by
  obtain ⟨fixtures, errors, current⟩ := p
  cases current with
  | none => exact ⟨le_refl _, le_refl _⟩
  | some fixture =>
      cases hcheck : checkSection fixture with
      | none => simp [finishSection, hcheck, sectionCount]
      | some message =>
          simp only [finishSection, hcheck, sectionCount, report, Option.toList_none,
            Option.toList_some, List.length_append, List.length_cons, List.length_nil]
          omega

theorem length_finishSection (p : RegistryParser) (lineNo : UInt32) :
    (p.finishSection lineNo).m_outFixtures.length = (p.finishSection lineNo).sectionCount := by
  rw [sectionCount, current_finishSection]
  rfl

/-- A `key = value` line keeps the count and the errors before it. -/
theorem sectionCount_handleKeyValue (p : RegistryParser) (line : Text) (lineNo : UInt32) :
    (p.handleKeyValue line lineNo).sectionCount = p.sectionCount ∧
      p.m_outErrors.length ≤ (p.handleKeyValue line lineNo).m_outErrors.length := by
  rw [handleKeyValue]
  split
  · exact ⟨rfl, by simp [report]⟩
  split
  · exact ⟨rfl, by simp [report]⟩
  · next fixture hfixture =>
    split
    · exact ⟨by simp [sectionCount, hfixture], le_refl _⟩
    · exact ⟨rfl, by simp [report]⟩

/-- **One line** opens at most one section, and a section that is lost leaves an error. -/
theorem sectionCount_handleLine (p : RegistryParser) (line : Text) (lineNo : UInt32) :
    (p.handleLine line lineNo).sectionCount ≤
        p.sectionCount + (if opensSection line then 1 else 0) ∧
      p.sectionCount + (if opensSection line then 1 else 0) + p.m_outErrors.length ≤
        (p.handleLine line lineNo).sectionCount + (p.handleLine line lineNo).m_outErrors.length := by
  rw [handleLine, opensSection]
  obtain ⟨text, htext⟩ : ∃ text, popCarriageReturn (trim line) = text := ⟨_, rfl⟩
  rw [htext]
  split
  · next hskip =>
    have hnone : isSectionHeader text = none := by
      rcases hskip with rfl | hhash | hsemicolon
      · rfl
      · exact isSectionHeader_of_head hhash (by decide)
      · exact isSectionHeader_of_head hsemicolon (by decide)
    simp [hnone]
  · cases hheader : isSectionHeader text with
    | none =>
        obtain ⟨hcount, herrors⟩ := sectionCount_handleKeyValue p text lineNo
        simp only [Option.isSome_none, Bool.false_eq_true, if_false]
        omega
    | some name =>
        obtain ⟨hle, hge⟩ := sectionCount_finishSection p lineNo
        have hcurrent := current_finishSection p lineNo
        simp only [sectionCount, hcurrent, Option.toList_none, Option.toList_some,
          List.length_cons, List.length_nil, Option.isSome_some, if_true] at hle hge ⊢
        omega

/-- **A series of lines** opens at most as many sections as it has headers, and fewer only
with an error. -/
theorem sectionCount_handleLines (p : RegistryParser) (lineNo : ℕ) (lines : List Text) :
    (p.handleLines lineNo lines).sectionCount ≤ p.sectionCount + lines.countP opensSection ∧
      p.sectionCount + lines.countP opensSection + p.m_outErrors.length ≤
        (p.handleLines lineNo lines).sectionCount +
          (p.handleLines lineNo lines).m_outErrors.length := by
  induction lines generalizing p lineNo with
  | nil => exact ⟨le_refl _, le_refl _⟩
  | cons line lines ih =>
      obtain ⟨hle, hge⟩ := sectionCount_handleLine p line (UInt32.ofNat (lineNo + 1))
      obtain ⟨hle', hge'⟩ := ih (p.handleLine line (UInt32.ofNat (lineNo + 1))) (lineNo + 1)
      rw [handleLines, List.countP_cons]
      omega

/-- **Without an error** there are as many fixtures as headers. -/
theorem length_outFixtures {lineNo : ℕ} {lines : List Text} {last : UInt32}
    (h : ((handleLines {} lineNo lines).finishSection last).m_outErrors = []) :
    ((handleLines {} lineNo lines).finishSection last).m_outFixtures.length =
      lines.countP opensSection := by
  obtain ⟨p, hp⟩ : ∃ p, handleLines {} lineNo lines = p := ⟨_, rfl⟩
  obtain ⟨hle, hge⟩ := sectionCount_handleLines {} lineNo lines
  rw [hp] at h hle hge ⊢
  obtain ⟨hle', hge'⟩ := p.sectionCount_finishSection last
  have hstart : sectionCount {} = 0 := rfl
  have hnoerror : (m_outErrors {}).length = 0 := rfl
  rw [h, List.length_nil] at hge'
  rw [p.length_finishSection]
  omega

end RegistryParser

/-- **An accepted registry has as many fixtures as headers.** -/
theorem length_readRegistryIni {path content : Text}
    (h : (readRegistryIni path (some content)).2 = []) :
    (readRegistryIni path (some content)).1.length =
      (content.splitOn '\n').countP RegistryParser.opensSection := by
  simp only [readRegistryIni, handleLines_getLines] at h ⊢
  exact RegistryParser.length_outFixtures h

namespace RegistryParser

/-! ### A section header behind something -/

/-- **A header glued to a line** that is not blank opens a section only if the line starts
with a bracket itself. -/
theorem head_of_opensSection_append {name line : Text} (hname : IsKey name)
    (hline : ∃ c ∈ line, isSpace c = false)
    (h : opensSection (line ++ sectionLine name) = true) : (trim line).head? = some '[' := by
  have hne : sectionLine name ≠ [] := by simp [sectionLine]
  have htight := (isValueText_of_isTokenChar hne (isTokenChar_sectionLine hname)).tight
  have htrim : trim (line ++ sectionLine name) = line.dropWhile isSpace ++ sectionLine name :=
    Trimming.trim_append hne htight.2 hline
  have hpop : popCarriageReturn (line.dropWhile isSpace ++ sectionLine name) =
      line.dropWhile isSpace ++ sectionLine name := by
    refine popCarriageReturn_of_getLast fun hcr => ?_
    rw [List.getLast?_append_of_ne_nil _ hne] at hcr
    exact absurd (htight.2 '\r' hcr) (by decide)
  have hkeep : trim line ≠ [] := by
    obtain ⟨c, hc, hspace⟩ := hline
    exact List.ne_nil_of_mem (Trimming.mem_trim hc hspace)
  obtain ⟨x, xs, hx⟩ := List.exists_cons_of_ne_nil hkeep
  obtain ⟨rest, hrest⟩ : trim line <+: line.dropWhile isSpace := List.rdropWhile_prefix isSpace _
  rw [opensSection, htrim, hpop, ← hrest, hx] at h
  rw [hx]
  by_contra hbracket
  rw [List.cons_append, List.cons_append, isSectionHeader_of_head rfl (by simpa using hbracket)]
    at h
  cases h

/-- No key of a section contains a bracket. -/
theorem setKey_eq_none {key : Text} (h : '[' ∈ key) (fixture : FixtureEntry) (value : Text) :
    setKey fixture key value = none := by
  have hne : ∀ known, '[' ∉ known → key ≠ known := by
    rintro known hknown rfl
    exact hknown h
  rw [setKey, if_neg (hne _ (by decide)), if_neg (hne _ (by decide)), if_neg (hne _ (by decide)),
    if_neg (hne _ (by decide)), if_neg (hne _ (by decide)), if_neg (hne _ (by decide))]

/-- **A line that starts with a bracket** and is no section header is reported. -/
theorem handleLine_bracket {p : RegistryParser} {line : Text}
    (hhead : (trim line).head? = some '[') (h : opensSection line = false) (lineNo : UInt32) :
    (p.handleLine line lineNo).m_outErrors ≠ [] := by
  have hpop : popCarriageReturn (trim line) = trim line := by
    refine popCarriageReturn_of_getLast fun hcr => ?_
    exact absurd ((Trimming.tight_trim line).2 '\r' hcr) (by decide)
  obtain ⟨rest, hrest⟩ := List.head?_eq_some_iff.mp hhead
  have hnone : isSectionHeader (trim line) = none := by
    rw [opensSection, hpop] at h
    simpa using h
  have hcomment : ¬ (trim line = [] ∨ (trim line).head? = some '#' ∨
      (trim line).head? = some ';') := by
    rw [hhead, hrest]
    simp
  simp only [handleLine, hpop, if_neg hcomment, hnone, handleKeyValue]
  cases hsplit : splitIniKeyValue (trim line) with
  | none => simp [report]
  | some pair =>
      obtain ⟨key, value⟩ := pair
      have hkey : '[' ∈ key := by
        rw [splitIniKeyValue] at hsplit
        split at hsplit
        · obtain ⟨rfl, -⟩ := Prod.mk.inj (Option.some.inj hsplit)
          refine Trimming.mem_trim ?_ (by decide)
          rw [hrest, List.takeWhile_cons_of_pos (by decide)]
          exact List.mem_cons_self
        · cases hsplit
      dsimp only
      cases p.m_current with
      | none => simp [report]
      | some fixture => simp [report, setKey_eq_none hkey]

/-- A section header opens a section. -/
theorem opensSection_sectionLine {name : Text} (hname : IsKey name) :
    opensSection (sectionLine name) = true := by
  have hne : sectionLine name ≠ [] := by simp [sectionLine]
  have htight := (isValueText_of_isTokenChar hne (isTokenChar_sectionLine hname)).tight
  have hpop : popCarriageReturn (sectionLine name) = sectionLine name :=
    popCarriageReturn_of_getLast fun hcr => absurd (htight.2 '\r' hcr) (by decide)
  rw [opensSection, trim, Trimming.trim_of_tight htight, hpop, isSectionHeader_sectionLine hname]
  rfl

/-- The lines of a series of sections open these sections. -/
theorem countP_fixtureLines {fixtures : List FixtureEntry}
    (h : ∀ fixture ∈ fixtures, fixture.IsValid ∧ fixture.IsPlain) :
    (fixtures.flatMap fixtureLines).countP opensSection = fixtures.length := by
  have hclosable : IsClosable {} := fun fixture hfixture => by cases hfixture
  have hrun := finishSection_handleLines_fixtures h hclosable 0 0
  have haccepted : ((handleLines {} 0 (fixtures.flatMap fixtureLines)).finishSection
      0).m_outErrors = [] := by
    rw [hrun]
    rfl
  rw [← length_outFixtures haccepted, hrun]
  rfl

/-- Closing a section keeps the errors before it. -/
theorem outErrors_of_finishSection {p : RegistryParser} {lineNo : UInt32}
    (h : (p.finishSection lineNo).m_outErrors = []) : p.m_outErrors = [] := by
  rwa [finishSection_of_isClosable (isClosable_of_finishSection h)] at h

end RegistryParser

/-- **The last line of an accepted registry** is a section header if it starts with a
bracket. -/
theorem opensSection_lastLine {path content : Text}
    (h : (readRegistryIni path (some content)).2 = [])
    (hhead : (trim (Lines.lastLine '\n' content)).head? = some '[') :
    RegistryParser.opensSection (Lines.lastLine '\n' content) = true := by
  simp only [readRegistryIni, handleLines_getLines] at h
  have hnone := RegistryParser.outErrors_of_finishSection h
  rw [Lines.splitOn_eq, RegistryParser.handleLines_append] at hnone
  cases hopens : RegistryParser.opensSection (Lines.lastLine '\n' content) with
  | true => rfl
  | false => exact absurd hnone (RegistryParser.handleLine_bracket hhead hopens _)

/-- **Behind a line that is not blank** the first header is lost: there are fewer headers
than fixtures. -/
theorem countP_splitOn_append_lt {path content : Text}
    (haccepted : (readRegistryIni path (some content)).2 = []) {fixtures : List FixtureEntry}
    (hne : fixtures ≠ []) (h : ∀ fixture ∈ fixtures, fixture.IsValid ∧ fixture.IsPlain)
    (hline : ∃ c ∈ Lines.lastLine '\n' content, isSpace c = false) :
    ((content ++ registryText fixtures).splitOn '\n').countP RegistryParser.opensSection <
      (content.splitOn '\n').countP RegistryParser.opensSection + fixtures.length := by
  obtain ⟨fixture, fixtures, rfl⟩ := List.exists_cons_of_ne_nil hne
  have hname := isKey_of_isIdentifier (h fixture List.mem_cons_self).1.name
  have hle : (if RegistryParser.opensSection (Lines.lastLine '\n' content ++
      RegistryParser.sectionLine fixture.m_FixtureName) then 1 else 0) ≤
      if RegistryParser.opensSection (Lines.lastLine '\n' content) then 1 else 0 := by
    by_cases hopens : RegistryParser.opensSection (Lines.lastLine '\n' content ++
        RegistryParser.sectionLine fixture.m_FixtureName) = true
    · have hhead := RegistryParser.head_of_opensSection_append hname hline hopens
      rw [if_pos hopens, if_pos (opensSection_lastLine haccepted hhead)]
    · rw [if_neg hopens]
      exact Nat.zero_le _
  have hwritten := RegistryParser.countP_fixtureLines h
  have hnil : RegistryParser.opensSection [] = false := rfl
  rw [List.flatMap_cons, RegistryParser.fixtureLines_eq, List.countP_append, List.cons_append,
    List.countP_cons_of_pos (RegistryParser.opensSection_sectionLine hname), List.countP_append]
    at hwritten
  rw [splitOn_append_registryText h, Lines.splitOn_eq, List.cons_append]
  simp only [List.countP_append, List.countP_cons, List.countP_nil, hnil, Bool.false_eq_true,
    if_false] at hwritten ⊢
  omega

/-- **Fixtures appended to an accepted registry** are read after the old ones exactly when
there are none, or the registry's last line is blank. -/
theorem readRegistryIni_append_iff {path content : Text}
    (haccepted : (readRegistryIni path (some content)).2 = []) {fixtures : List FixtureEntry}
    (h : ∀ fixture ∈ fixtures, fixture.IsValid ∧ fixture.IsPlain) :
    readRegistryIni path (some (content ++ registryText fixtures)) =
        ((readRegistryIni path (some content)).1 ++ fixtures, []) ↔
      fixtures = [] ∨ ∀ c ∈ Lines.lastLine '\n' content, isSpace c = true := by
  constructor
  · intro hread
    cases fixtures with
    | nil => exact Or.inl rfl
    | cons fixture fixtures =>
      refine Or.inr ?_
      by_contra hblank
      push Not at hblank
      have hline : ∃ c ∈ Lines.lastLine '\n' content, isSpace c = false := by
        simpa using hblank
      -- as many headers as fixtures, in the old file and in the new one
      have hold := length_readRegistryIni haccepted
      have hnew : (readRegistryIni path
          (some (content ++ registryText (fixture :: fixtures)))).1.length =
          ((content ++ registryText (fixture :: fixtures)).splitOn '\n').countP
            RegistryParser.opensSection :=
        length_readRegistryIni (by rw [hread])
      have hlost := countP_splitOn_append_lt haccepted (List.cons_ne_nil fixture fixtures) h hline
      rw [hread, List.length_append] at hnew
      exact absurd hlost (by rw [← hold, hnew]; exact lt_irrefl _)
  · rintro (rfl | hblank)
    · have htext : content ++ registryText [] = content := List.append_nil content
      rw [htext, List.append_nil]
      exact Prod.ext rfl haccepted
    · exact readRegistryIni_append h haccepted hblank

/-! ### Both files -/

/-- **An append to an accepted file** gives the old entries followed by the new ones exactly
when there are no new ones, or the file's last line is blank: for the manifest with entries
without floating-point overrides, and for the registry with valid and plain fixtures. -/
theorem read_append_iff (codec : DoubleCodec) (path content : Text) :
    ((readSuiteToml codec path (some content)).2 = [] → ∀ entries : List SuiteTestEntry,
      (∀ entry ∈ entries, entry.NoDoubles) →
      (readSuiteToml codec path (writeSuiteToml codec entries true (some content)) =
          ((readSuiteToml codec path (some content)).1 ++
            entries.map SuiteTestEntry.persisted, []) ↔
        entries = [] ∨ ∀ c ∈ Lines.lastLine '\n' content, isSpace c = true)) ∧
    ((readRegistryIni path (some content)).2 = [] → ∀ fixtures : List FixtureEntry,
      (∀ fixture ∈ fixtures, fixture.IsValid ∧ fixture.IsPlain) →
      (readRegistryIni path (writeRegistryIni fixtures true (some content)) =
          ((readRegistryIni path (some content)).1 ++ fixtures, []) ↔
        fixtures = [] ∨ ∀ c ∈ Lines.lastLine '\n' content, isSpace c = true)) :=
  ⟨fun haccepted _ h => readSuiteToml_append_iff haccepted h,
    fun haccepted _ h => readRegistryIni_append_iff haccepted h⟩

/-- Behind a comment with a newline, what is appended is read. -/
theorem read_append_commentLine :
    readSuiteToml sampleCodec "suite.toml".toList
        (writeSuiteToml sampleCodec [sampleEntry 0] true (some "# suite\n".toList)) =
      ((readSuiteToml sampleCodec "suite.toml".toList (some "# suite\n".toList)).1 ++
        [sampleEntry 0].map SuiteTestEntry.persisted, []) ∧
    readRegistryIni "registry.ini".toList
        (writeRegistryIni [sampleFixture] true (some "# registry\n".toList)) =
      ((readRegistryIni "registry.ini".toList (some "# registry\n".toList)).1 ++
        [sampleFixture], []) := by
  constructor
  · refine ((read_append_iff sampleCodec "suite.toml".toList "# suite\n".toList).1 (by decide)
      [sampleEntry 0] ?_).mpr (Or.inr (by decide))
    intro entry hentry
    obtain rfl := List.mem_singleton.mp hentry
    exact ⟨rfl, rfl⟩
  · refine ((read_append_iff sampleCodec "registry.ini".toList "# registry\n".toList).2
      (by decide) [sampleFixture] ?_).mpr (Or.inr (by decide))
    intro fixture hfixture
    obtain rfl := List.mem_singleton.mp hfixture
    exact ⟨isValid_sampleFixture, isPlain_sampleFixture⟩

/-- Behind a comment without a newline the header becomes part of the comment: the manifest
is still accepted, without the new entry, and the registry is not accepted any more. -/
theorem read_append_openComment :
    readSuiteToml sampleCodec "suite.toml".toList (some "# suite".toList) = ([], []) ∧
    readSuiteToml sampleCodec "suite.toml".toList
      (writeSuiteToml sampleCodec [sampleEntry 0] true (some "# suite".toList)) = ([], []) ∧
    (sampleEntry 0).NoDoubles ∧
    readRegistryIni "registry.ini".toList (some "# registry".toList) = ([], []) ∧
    (readRegistryIni "registry.ini".toList
      (writeRegistryIni [sampleFixture] true (some "# registry".toList))).2 ≠ [] ∧
    sampleFixture.IsValid ∧ sampleFixture.IsPlain := by
  refine ⟨by decide, by decide +kernel, ⟨rfl, rfl⟩, by decide, by decide +kernel,
    isValid_sampleFixture, isPlain_sampleFixture⟩

end Hades.Runtime
