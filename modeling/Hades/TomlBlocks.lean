import Hades.Sections
import Hades.TomlWriting

/-!
# The Manifest Block by Block

The TOML reader is a state machine over lines; what it returns can be said without one.
Every `[[array]]` header opens a block that goes up to the next header of either kind, and
a block holds, for each key, the first assignment that can be read (`declaredTables`).

## Main results

* `TomlParser.view_handleLine`: one line of the reader is a step of `tomlReader`.
* `readToml_eq_declaredTables`: **the reader returns the declared tables**, whatever the
  content is.
* `isKey_of_mem_declaredTables`, `nodup_of_mem_declaredTables`: their keys are identifiers,
  each one once.
-/

namespace Hades.Runtime

/-- A line without its comment and without white space at its ends. -/
def lineText (rawLine : Text) : Text :=
  trim (stripComment rawLine)

/-- The key and the value that a line assigns, if its key is valid and its value can be
read. -/
def assignment? (codec : DoubleCodec) (line : Text) : Option (Text × TomlValue) :=
  match splitKeyValue line with
  | none => none
  | some (key, valueToken) =>
    if IsKey key then
      match parseValueToken codec valueToken with
      | .ok value => some (key, value)
      | .error _ => none
    else none

/-- The table of a block: the first assignment to each key. -/
def blockTable (codec : DoubleCodec) (body : List Text) : TomlTable :=
  Sections.firstByKey (body.filterMap (assignment? codec))

/-- The tables of a content: one for each header of the array. -/
def declaredTables (codec : DoubleCodec) (arrayName content : Text) : List TomlTable :=
  (Sections.blocks matchHeader ((splitLines content).map lineText)).filterMap fun block =>
    if block.1 = .arrayTable arrayName then some (blockTable codec block.2) else none

/-! ### The keys of a block -/

theorem isKey_of_assignment? {codec : DoubleCodec} {line : Text} {pair : Text × TomlValue}
    (h : assignment? codec line = some pair) : IsKey pair.1 := by
  rw [assignment?] at h
  split at h
  · cases h
  · next key valueToken _ =>
    split at h
    · next hkey =>
      split at h
      · obtain rfl := Option.some.inj h
        exact hkey
      · cases h
    · cases h

theorem mem_declaredTables {codec : DoubleCodec} {arrayName content : Text} {table : TomlTable}
    (h : table ∈ declaredTables codec arrayName content) :
    ∃ body, table = blockTable codec body := by
  obtain ⟨block, -, hblock⟩ := List.mem_filterMap.mp h
  split at hblock
  · exact ⟨block.2, (Option.some.inj hblock).symm⟩
  · cases hblock

/-- The keys of a declared table are identifiers. -/
theorem isKey_of_mem_declaredTables {codec : DoubleCodec} {arrayName content : Text}
    {table : TomlTable} (h : table ∈ declaredTables codec arrayName content) :
    ∀ pair ∈ table, IsKey pair.1 := by
  obtain ⟨body, rfl⟩ := mem_declaredTables h
  intro pair hpair
  obtain ⟨line, -, hline⟩ :=
    List.mem_filterMap.mp ((Sections.firstByKey_sublist _).subset hpair)
  exact isKey_of_assignment? hline

/-- No key of a declared table is there twice. -/
theorem nodup_of_mem_declaredTables {codec : DoubleCodec} {arrayName content : Text}
    {table : TomlTable} (h : table ∈ declaredTables codec arrayName content) :
    (table.map Prod.fst).Nodup := by
  obtain ⟨body, rfl⟩ := mem_declaredTables h
  exact Sections.nodup_firstByKey _

/-! ### The reader as a reader of sections -/

/-- The reader of an array: a header of the array starts a table, every other one skips
its block. -/
def tomlReader (codec : DoubleCodec) (arrayName : Text) :
    Sections.Reader Text HeaderMatch TomlTable TomlTable where
  header := matchHeader
  start header := if header = .arrayTable arrayName then some [] else none
  add table line := (assignment? codec line).elim table (Sections.addFirst table)
  close := some

/-- What the reader makes of a block is its table. -/
theorem readBlock_tomlReader (codec : DoubleCodec) (arrayName : Text)
    (block : HeaderMatch × List Text) :
    (tomlReader codec arrayName).readBlock block =
      if block.1 = .arrayTable arrayName then some (blockTable codec block.2) else none := by
  have hbody (table : TomlTable) (body : List Text) :
      body.foldl (tomlReader codec arrayName).add table =
        (body.filterMap (assignment? codec)).foldl Sections.addFirst table := by
    induction body generalizing table with
    | nil => rfl
    | cons line body ih =>
        rw [List.foldl_cons, ih, List.filterMap_cons]
        dsimp only [tomlReader]
        cases assignment? codec line <;> rfl
  rw [Sections.Reader.readBlock]
  simp only [hbody, Sections.foldl_addFirst]
  dsimp only [tomlReader]
  split
  · simp [blockTable]
  · rfl

namespace TomlParser

variable {codec : DoubleCodec} {arrayName : Text}

/-- The part of the reader's state that is not about errors. -/
def view (p : TomlParser) : Sections.State TomlTable TomlTable where
  output := p.m_outTables
  current := p.m_currentTable

@[simp] theorem view_report (p : TomlParser) (lineNo : UInt32) (message : Text) :
    (p.report lineNo message).view = p.view := rfl

/-- The finished tables are the output with the table in progress. -/
theorem outTables_finish (codec : DoubleCodec) (arrayName : Text) (p : TomlParser) :
    p.finish.m_outTables = (tomlReader codec arrayName).flush p.view := by
  rw [finish, Sections.Reader.flush, view]
  cases p.m_currentTable with
  | none => simp
  | some table => rfl

/-- A line that starts with a comment sign assigns nothing. -/
theorem assignment?_of_head_comment {line : Text} (h : line.head? = some '#') :
    assignment? codec line = none := by
  rw [assignment?]
  split
  · rfl
  · next key valueToken hsplit =>
    rw [if_neg]
    obtain ⟨⟨before, behind⟩, hfind, hpair⟩ := Option.map_eq_some_iff.mp hsplit
    obtain ⟨hbefore, -⟩ := Prod.mk.inj hpair
    have hline := EscapedText.splitOutside_eq_append hfind
    rintro ⟨-, hident⟩
    have hmem : '#' ∈ key := by
      rw [← hbefore]
      refine Trimming.mem_trim ?_ (by decide)
      cases before with
      | nil => simp [hline] at h
      | cons c before => simp_all
    exact absurd (hident '#' hmem) (by decide)

/-- **A line that is no header** adds its assignment to the table in progress. -/
theorem view_handleKeyValue (p : TomlParser) (line : Text) (lineNo : UInt32) :
    (handleKeyValue codec p line lineNo).view =
      { p.view with
        current := p.m_currentTable.map fun table =>
          (assignment? codec line).elim table (Sections.addFirst table) } := by
  -- nothing is assigned: the line is reported, or its block is another array's
  have hsame (h : assignment? codec line = none) :
      p.view = { p.view with
        current := p.m_currentTable.map fun table =>
          (assignment? codec line).elim table (Sections.addFirst table) } := by
    simp [h, view]
  rw [handleKeyValue]
  split
  · next hsplit =>
    exact hsame (by rw [assignment?, hsplit])
  · next key valueToken hsplit =>
    split
    · next hinvalid =>
      refine hsame ?_
      simp only [assignment?, hsplit]
      refine if_neg fun hkey => ?_
      rcases hinvalid with hnil | hchars
      · exact hkey.1 hnil
      · exact hchars (List.all_eq_true.mpr hkey.2)
    · next hvalid =>
      have hkey : IsKey key := by
        rw [not_or, not_not, List.all_eq_true] at hvalid
        exact hvalid
      split
      · next hcurrent => simp [view, hcurrent]
      · next table hcurrent =>
        cases hvalue : parseValueToken codec valueToken with
        | error message =>
            have hnone : assignment? codec line = none := by
              simp only [assignment?, hsplit, if_pos hkey, hvalue]
            split
            · exact hsame hnone
            · exact hsame hnone
        | ok value =>
            have hsome : assignment? codec line = some (key, value) := by
              simp only [assignment?, hsplit, if_pos hkey, hvalue]
            rw [hsome, hcurrent, Option.map_some, Option.elim_some, Sections.addFirst]
            split
            · rw [view_report, view, hcurrent]
            · rfl

/-- **One line of the reader** is a step on its view. -/
theorem view_handleLine (p : TomlParser) (rawLine : Text) (lineNo : UInt32) :
    (p.handleLine codec arrayName rawLine lineNo).view =
      (tomlReader codec arrayName).step p.view (lineText rawLine) := by
  have hstep (line : Text) (hline : matchHeader line = none) :
      (tomlReader codec arrayName).step p.view line =
        { p.view with
          current := p.m_currentTable.map fun table =>
            (assignment? codec line).elim table (Sections.addFirst table) } := by
    rw [Sections.Reader.step]
    simp only [tomlReader, hline]
    rfl
  have hline : trim (stripComment rawLine) = lineText rawLine := rfl
  simp only [handleLine, hline]
  split
  · next hblank =>
    have hnone : assignment? codec (lineText rawLine) = none ∧
        matchHeader (lineText rawLine) = none := by
      rcases hblank with hnil | hcomment
      · rw [hnil]
        exact ⟨rfl, rfl⟩
      · exact ⟨assignment?_of_head_comment hcomment, matchHeader_of_head hcomment (by decide)⟩
    rw [hstep _ hnone.2, hnone.1]
    simp [view]
  · split
    · next header hheader =>
      have hflush := outTables_finish codec arrayName p
      have hstart : (tomlReader codec arrayName).step p.view (lineText rawLine) =
          { output := p.finish.m_outTables
            current := if header = .arrayTable arrayName then some [] else none } := by
        rw [Sections.Reader.step]
        simp only [hflush, tomlReader, hheader]
      rw [hstart]
      cases header with
      | singleBracket =>
          simp only [handleHeader, view_report]
          simp [view]
      | arrayTable name => simp [handleHeader, view]
    · next hheader =>
      rw [hstep _ hheader]
      exact view_handleKeyValue p _ lineNo

/-- **A series of lines** is a run on the views. -/
theorem view_handleLines (p : TomlParser) (lineNo : ℕ) (lines : List Text) :
    (p.handleLines codec arrayName lineNo lines).view =
      (lines.map lineText).foldl (tomlReader codec arrayName).step p.view := by
  induction lines generalizing p lineNo with
  | nil => rfl
  | cons line lines ih =>
      rw [handleLines, ih, view_handleLine, List.map_cons, List.foldl_cons]

end TomlParser

/-- The tables of the reader are the declared ones. -/
theorem fst_readToml (codec : DoubleCodec) (path arrayName content : Text) :
    (readToml codec path arrayName (some content)).1 =
      declaredTables codec arrayName content := by
  have hstart : TomlParser.view {} = { output := [], current := none } := rfl
  calc (readToml codec path arrayName (some content)).1
      = (tomlReader codec arrayName).flush
          (((splitLines content).map lineText).foldl (tomlReader codec arrayName).step
            { output := [], current := none }) := by
        rw [readToml, TomlParser.outTables_finish codec arrayName, TomlParser.view_handleLines, hstart]
    _ = (Sections.blocks matchHeader ((splitLines content).map lineText)).filterMap
          (tomlReader codec arrayName).readBlock := by
        rw [Sections.Reader.flush_run]
        rfl
    _ = declaredTables codec arrayName content := by
        rw [declaredTables]
        exact List.filterMap_congr fun block _ => readBlock_tomlReader codec arrayName block

/-- **The reader returns the declared tables**, whatever the content is, and hence tables
with identifier keys, each one once. -/
theorem readToml_eq_declaredTables (codec : DoubleCodec) (path arrayName content : Text) :
    (readToml codec path arrayName (some content)).1 =
        declaredTables codec arrayName content ∧
      ∀ table ∈ (readToml codec path arrayName (some content)).1,
        (table.map Prod.fst).Nodup ∧ ∀ pair ∈ table, IsKey pair.1 := by
  rw [fst_readToml]
  exact ⟨rfl, fun table htable =>
    ⟨nodup_of_mem_declaredTables htable, isKey_of_mem_declaredTables htable⟩⟩

end Hades.Runtime
