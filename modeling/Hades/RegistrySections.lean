import Hades.RegistryRoundTrip
import Hades.Sections
import Mathlib.Tactic.FinCases

/-!
# The Registry Section by Section

What `readRegistryIni` accepts and returns, said without its state machine. The lines are
trimmed and grouped under their `[FixtureName]` headers; a section stands for the fixture
with the last value of each key (`sectionFixture`).

## Main results

* `RegistryParser.view_handleLine`, `RegistryParser.outErrors_handleLine`: one line of the
  reader is a step of `registryReader`, and when it is not an error.
* `readRegistryIni_iff_isRegistry`: **a registry is accepted exactly when it is well
  formed**, and then it stands for one fixture per section.
-/

namespace Hades.Runtime

/-- The keys of a section. -/
def REGISTRY_KEYS : List Text :=
  ["header".toList, "adapter".toList, "chrono".toList, "hash".toList,
    "extra_link_dir".toList, "extra_link_target".toList]

/-- A line that the reader skips: empty, or a comment. -/
def IsIgnoredLine (line : Text) : Prop :=
  line = [] ∨ line.head? = some '#' ∨ line.head? = some ';'

instance (line : Text) : Decidable (IsIgnoredLine line) :=
  inferInstanceAs (Decidable (_ ∨ _))

/-- A line that assigns a value to a known key. -/
def AssignsKnownKey (line : Text) : Prop :=
  ∃ pair, splitIniKeyValue line = some pair ∧ pair.1 ∈ REGISTRY_KEYS

/-- The key and the value that a line assigns. -/
def iniAssignment? (line : Text) : Option (Text × Text) :=
  if IsIgnoredLine line then none else splitIniKeyValue line

/-- The lines of a registry, without white space at their ends. -/
def registryLines (content : Text) : List Text :=
  (getLines content).map trim

/-- The sections of a registry: names and lines. -/
def registrySections (content : Text) : List (Text × List Text) :=
  Sections.blocks isSectionHeader (registryLines content)

/-- The last value that the lines of a section assign to a key. -/
def lastValue (body : List Text) (key : Text) : Text :=
  (Sections.lastByKey (body.filterMap iniAssignment?) key).getD []

/-- The fixture that a section stands for. -/
def sectionFixture (block : Text × List Text) : FixtureEntry where
  m_FixtureName := block.1
  m_HeaderPath := lastValue block.2 "header".toList
  m_AdapterType := lastValue block.2 "adapter".toList
  m_ChronoType := lastValue block.2 "chrono".toList
  m_HashType := lastValue block.2 "hash".toList
  m_ExtraLinkDir := lastValue block.2 "extra_link_dir".toList
  m_ExtraLinkTarget := lastValue block.2 "extra_link_target".toList

/-- **A well-formed registry**: every line is a header, or assigns to a known key behind
one, unless it is ignored, and every section is valid. -/
structure IsRegistry (content : Text) : Prop where
  lines : ∀ before line after, registryLines content = before ++ line :: after →
    ¬ IsIgnoredLine line → (isSectionHeader line).isSome ∨
      AssignsKnownKey line ∧ ∃ earlier ∈ before, (isSectionHeader earlier).isSome
  sections : ∀ block ∈ registrySections content, (sectionFixture block).IsValid

/-! ### The reader as a reader of sections -/

/-- The section with the assignment of a line. -/
def assign (fixture : FixtureEntry) (pair : Text × Text) : FixtureEntry :=
  (RegistryParser.setKey fixture pair.1 pair.2).getD fixture

/-- The reader of a registry: a header starts a section, and a valid section is a
fixture. -/
def registryReader : Sections.Reader Text Text FixtureEntry FixtureEntry where
  header := isSectionHeader
  start name := some { m_FixtureName := name }
  add fixture line := (iniAssignment? line).elim fixture (assign fixture)
  close fixture := if checkSection fixture = none then some fixture else none

theorem isSome_close_iff (fixture : FixtureEntry) :
    (registryReader.close fixture).isSome ↔ fixture.IsValid := by
  rw [← checkSection_eq_none_iff]
  simp [registryReader]

/-- The lines of a section, added one after another. -/
theorem foldl_add_registryReader (fixture : FixtureEntry) (body : List Text) :
    body.foldl registryReader.add fixture = (body.filterMap iniAssignment?).foldl assign fixture := by
  induction body generalizing fixture with
  | nil => rfl
  | cons line body ih =>
      rw [List.foldl_cons, ih, List.filterMap_cons]
      dsimp only [registryReader]
      cases iniAssignment? line <;> rfl

/-- The field of a key. -/
def FixtureEntry.field (fixture : FixtureEntry) (key : Text) : Text :=
  if key = "header".toList then fixture.m_HeaderPath
  else if key = "adapter".toList then fixture.m_AdapterType
  else if key = "chrono".toList then fixture.m_ChronoType
  else if key = "hash".toList then fixture.m_HashType
  else if key = "extra_link_dir".toList then fixture.m_ExtraLinkDir
  else if key = "extra_link_target".toList then fixture.m_ExtraLinkTarget
  else []

/-- Setting a key sets its field and no other one. -/
theorem field_setKey {fixture fixture' : FixtureEntry} {k value : Text}
    (h : RegistryParser.setKey fixture k value = some fixture') (key : Text) :
    fixture'.field key = if k = key then value else fixture.field key := by
  by_cases hsame : k = key
  · subst hsame
    rw [RegistryParser.setKey] at h
    split_ifs at h with h1 h2 h3 h4 h5 h6
    all_goals
      obtain rfl := Option.some.inj h
      simp only [FixtureEntry.field, *]
      rfl
  · have hne (k' : Text) (hk : k = k') : key ≠ k' := fun heq => hsame (hk.trans heq.symm)
    rw [if_neg hsame]
    rw [RegistryParser.setKey] at h
    split_ifs at h
    all_goals
      obtain rfl := Option.some.inj h
      simp only [FixtureEntry.field, if_neg (hne _ ‹_›)]

/-- Exactly the known keys can be set. -/
theorem isSome_setKey_iff (fixture : FixtureEntry) (key value : Text) :
    (RegistryParser.setKey fixture key value).isSome ↔ key ∈ REGISTRY_KEYS := by
  rw [RegistryParser.setKey, REGISTRY_KEYS]
  split_ifs <;> simp_all

/-- Setting a key keeps the name of the section. -/
theorem name_setKey {fixture fixture' : FixtureEntry} {key value : Text}
    (h : RegistryParser.setKey fixture key value = some fixture') :
    fixture'.m_FixtureName = fixture.m_FixtureName := by
  rw [RegistryParser.setKey] at h
  split_ifs at h
  all_goals
    obtain rfl := Option.some.inj h
    rfl

/-- An assignment sets the field of its key and no other one. -/
theorem field_assign {key : Text} (hkey : key ∈ REGISTRY_KEYS) (fixture : FixtureEntry)
    (pair : Text × Text) :
    (assign fixture pair).field key = if pair.1 = key then pair.2 else fixture.field key := by
  rw [assign]
  cases hset : RegistryParser.setKey fixture pair.1 pair.2 with
  | some fixture' => exact field_setKey hset key
  | none =>
      have hne : pair.1 ≠ key := by
        rintro rfl
        rw [← isSome_setKey_iff fixture pair.1 pair.2, hset] at hkey
        cases hkey
      rw [if_neg hne, Option.getD_none]

theorem name_assign (fixture : FixtureEntry) (pair : Text × Text) :
    (assign fixture pair).m_FixtureName = fixture.m_FixtureName := by
  rw [assign]
  cases hset : RegistryParser.setKey fixture pair.1 pair.2 with
  | some fixture' => exact name_setKey hset
  | none => rfl

/-- A fixture is its name and the fields of the known keys. -/
theorem eq_of_fields {fixture fixture' : FixtureEntry}
    (hname : fixture.m_FixtureName = fixture'.m_FixtureName)
    (hfield : ∀ key ∈ REGISTRY_KEYS, fixture.field key = fixture'.field key) :
    fixture = fixture' := by
  obtain ⟨name, header, adapter, chrono, hash, dir, target⟩ := fixture
  obtain rfl : name = fixture'.m_FixtureName := hname
  obtain rfl : header = fixture'.m_HeaderPath := hfield "header".toList (by decide)
  obtain rfl : adapter = fixture'.m_AdapterType := hfield "adapter".toList (by decide)
  obtain rfl : chrono = fixture'.m_ChronoType := hfield "chrono".toList (by decide)
  obtain rfl : hash = fixture'.m_HashType := hfield "hash".toList (by decide)
  obtain rfl : dir = fixture'.m_ExtraLinkDir := hfield "extra_link_dir".toList (by decide)
  obtain rfl : target = fixture'.m_ExtraLinkTarget :=
    hfield "extra_link_target".toList (by decide)
  rfl

/-- **The lines of a section**, added one after another, leave the fixture it stands
for. -/
theorem foldl_add_eq_sectionFixture (block : Text × List Text) :
    block.2.foldl registryReader.add { m_FixtureName := block.1 } = sectionFixture block := by
  rw [foldl_add_registryReader]
  refine eq_of_fields ?_ fun key hkey => ?_
  · exact List.foldlRecOn (motive := fun f : FixtureEntry => f.m_FixtureName = block.1) _ _ rfl
      fun f hf pair _ => (name_assign f pair).trans hf
  · have hlast : (sectionFixture block).field key = lastValue block.2 key := by
      fin_cases hkey <;> rfl
    have hempty : FixtureEntry.field { m_FixtureName := block.1 } key = [] := by
      fin_cases hkey <;> rfl
    have hset := Sections.get_foldl_set (fun f : FixtureEntry => f.field key)
      (field_assign hkey) { m_FixtureName := block.1 } (block.2.filterMap iniAssignment?)
    rw [hlast, lastValue, hset, hempty]

/-- What the reader makes of a section. -/
theorem readBlock_registryReader (block : Text × List Text) :
    registryReader.readBlock block = registryReader.close (sectionFixture block) := by
  rw [← foldl_add_eq_sectionFixture]
  rfl

namespace RegistryParser

/-- The part of the reader's state that is not about errors. -/
def view (p : RegistryParser) : Sections.State FixtureEntry FixtureEntry where
  output := p.m_outFixtures
  current := p.m_current

@[simp] theorem view_report (p : RegistryParser) (lineNo : UInt32) (message : Text) :
    (p.report lineNo message).view = p.view := rfl

/-- Trimmed lines have no carriage return at their end. -/
theorem popCarriageReturn_trim (rawLine : Text) :
    popCarriageReturn (trim rawLine) = trim rawLine := by
  refine popCarriageReturn_of_getLast fun hlast => ?_
  exact absurd ((Trimming.tight_trim rawLine).2 '\r' hlast) (by decide)

/-- The finished fixtures are the output with the section in progress. -/
theorem outFixtures_finishSection (p : RegistryParser) (lineNo : UInt32) :
    (p.finishSection lineNo).m_outFixtures = registryReader.flush p.view := by
  rw [finishSection, Sections.Reader.flush, view]
  cases p.m_current with
  | none => simp
  | some fixture =>
      cases hcheck : checkSection fixture with
      | none => simp [registryReader, hcheck]
      | some message => simp [registryReader, hcheck, report]

/-- A section is finished without an error exactly when it is valid. -/
theorem outErrors_finishSection (p : RegistryParser) (lineNo : UInt32) :
    (p.finishSection lineNo).m_outErrors = [] ↔
      p.m_outErrors = [] ∧ ∀ fixture ∈ p.m_current, (registryReader.close fixture).isSome := by
  rw [finishSection]
  cases p.m_current with
  | none => simp
  | some fixture =>
      cases hcheck : checkSection fixture with
      | none => simp [registryReader, hcheck]
      | some message => simp [registryReader, hcheck, report]

/-- A line that is no header adds its assignment to the section in progress. -/
theorem view_handleKeyValue (p : RegistryParser) {line : Text} (hline : ¬ IsIgnoredLine line)
    (lineNo : UInt32) :
    (p.handleKeyValue line lineNo).view =
      { p.view with current := p.m_current.map (registryReader.add · line) } := by
  have hassign : iniAssignment? line = splitIniKeyValue line := if_neg hline
  have hadd : (registryReader.add · line) = fun fixture =>
      (splitIniKeyValue line).elim fixture (assign fixture) := by
    funext fixture
    rw [← hassign]
    rfl
  rw [handleKeyValue, hadd]
  cases splitIniKeyValue line with
  | none =>
      simp only [view_report]
      simp [view]
  | some pair =>
      cases hcurrent : p.m_current with
      | none =>
          simp only [view_report]
          simp [view, hcurrent]
      | some fixture =>
          cases hset : setKey fixture pair.1 pair.2 with
          | none =>
              simp only [hset, view_report]
              simp [view, hcurrent, hset, assign]
          | some fixture' => simp [view, hset, assign]

/-- When a line that is no header is not an error. -/
theorem outErrors_handleKeyValue (p : RegistryParser) (line : Text) (lineNo : UInt32) :
    (p.handleKeyValue line lineNo).m_outErrors = [] ↔
      p.m_outErrors = [] ∧ p.m_current.isSome ∧ AssignsKnownKey line := by
  rw [handleKeyValue, AssignsKnownKey]
  cases splitIniKeyValue line with
  | none => simp [report]
  | some pair =>
      cases hcurrent : p.m_current with
      | none => simp [report]
      | some fixture =>
          have hknown := isSome_setKey_iff fixture pair.1 pair.2
          cases hset : setKey fixture pair.1 pair.2 with
          | none =>
              have hunknown : pair.1 ∉ REGISTRY_KEYS := by
                rw [← hknown, hset]
                simp
              simp [report, hset, hunknown]
          | some fixture' =>
              have hkey : pair.1 ∈ REGISTRY_KEYS := hknown.mp (by simp [hset])
              simp [hset, hkey]

/-- A line that the reader skips is no header and assigns nothing. -/
theorem isSectionHeader_of_isIgnoredLine {line : Text} (h : IsIgnoredLine line) :
    isSectionHeader line = none := by
  rw [isSectionHeader, if_neg]
  rintro ⟨hlength, hhead, -⟩
  rcases h with rfl | hc | hc
  · cases hhead
  · rw [hhead] at hc
    exact absurd hc (by decide)
  · rw [hhead] at hc
    exact absurd hc (by decide)

/-- **One line of the reader** is a step on its view. -/
theorem view_handleLine (p : RegistryParser) (rawLine : Text) (lineNo : UInt32) :
    (p.handleLine rawLine lineNo).view = registryReader.step p.view (trim rawLine) := by
  have hstep (hheader : isSectionHeader (trim rawLine) = none) :
      registryReader.step p.view (trim rawLine) =
        { p.view with current := p.m_current.map (registryReader.add · (trim rawLine)) } := by
    have hnone : registryReader.header (trim rawLine) = none := hheader
    rw [Sections.Reader.step, hnone]
    rfl
  simp only [handleLine, popCarriageReturn_trim]
  split
  · next hignored =>
    have hadd (fixture : FixtureEntry) : registryReader.add fixture (trim rawLine) = fixture := by
      have hassign : iniAssignment? (trim rawLine) = none := if_pos hignored
      simp [registryReader, hassign]
    rw [hstep (isSectionHeader_of_isIgnoredLine hignored)]
    simp [hadd, view]
  · next hline =>
    split
    · next name hheader =>
      have hsome : registryReader.header (trim rawLine) = some name := hheader
      rw [Sections.Reader.step, hsome, ← outFixtures_finishSection p lineNo]
      rfl
    · next hheader =>
      rw [hstep hheader]
      exact view_handleKeyValue p hline lineNo

/-- **When one line is not an error.** -/
theorem outErrors_handleLine (p : RegistryParser) (rawLine : Text) (lineNo : UInt32) :
    (p.handleLine rawLine lineNo).m_outErrors = [] ↔ p.m_outErrors = [] ∧
      match isSectionHeader (trim rawLine) with
      | some _ => ∀ fixture ∈ p.m_current, (registryReader.close fixture).isSome
      | none => IsIgnoredLine (trim rawLine) ∨
          p.m_current.isSome ∧ AssignsKnownKey (trim rawLine) := by
  simp only [handleLine, popCarriageReturn_trim]
  split
  · next hignored =>
    have hline : IsIgnoredLine (trim rawLine) := hignored
    simp [isSectionHeader_of_isIgnoredLine hline, hline]
  · next hline =>
    have hnot : ¬ IsIgnoredLine (trim rawLine) := hline
    cases hheader : isSectionHeader (trim rawLine) with
    | some name => simpa using outErrors_finishSection p lineNo
    | none => simpa [hnot] using outErrors_handleKeyValue p (trim rawLine) lineNo

/-- **A series of lines** is a run on the views. -/
theorem view_handleLines (p : RegistryParser) (lineNo : ℕ) (lines : List Text) :
    (p.handleLines lineNo lines).view = (lines.map trim).foldl registryReader.step p.view := by
  induction lines generalizing p lineNo with
  | nil => rfl
  | cons line lines ih =>
      rw [handleLines, ih, view_handleLine, List.map_cons, List.foldl_cons]

/-- **When a series of lines is not an error**, with the end of the last section. -/
theorem outErrors_handleLines (p : RegistryParser) (lineNo : ℕ) (lines : List Text)
    (last : UInt32) :
    ((p.handleLines lineNo lines).finishSection last).m_outErrors = [] ↔
      p.m_outErrors = [] ∧ registryReader.Accepts IsIgnoredLine
        (fun line => IsIgnoredLine line ∨ AssignsKnownKey line) p.m_current
        (lines.map trim) := by
  induction lines generalizing p lineNo with
  | nil => exact outErrors_finishSection p last
  | cons line lines ih =>
      have hcurrent : (p.handleLine line (UInt32.ofNat (lineNo + 1))).m_current =
          (registryReader.step p.view (trim line)).current :=
        congrArg Sections.State.current (view_handleLine p line _)
      rw [handleLines, ih, outErrors_handleLine, List.map_cons, Sections.Reader.Accepts,
        hcurrent, Sections.Reader.step, and_assoc]
      have hheader : registryReader.header (trim line) = isSectionHeader (trim line) := rfl
      rw [hheader]
      cases isSectionHeader (trim line) with
      | some name => rfl
      | none =>
          have hline : (IsIgnoredLine (trim line) ∨
              p.m_current.isSome ∧ AssignsKnownKey (trim line)) ↔
              if p.m_current.isSome then
                IsIgnoredLine (trim line) ∨ AssignsKnownKey (trim line)
              else IsIgnoredLine (trim line) := by
            split <;> simp_all
          exact and_congr_right fun _ => and_congr_left' hline

end RegistryParser

/-! ### Whole registries -/

/-- Well-formedness, block by block, is what the reader of sections accepts. -/
theorem accepts_iff_isRegistry (content : Text) :
    registryReader.Accepts IsIgnoredLine (fun line => IsIgnoredLine line ∨ AssignsKnownKey line)
        none (registryLines content) ↔ IsRegistry content := by
  have hinner : ∀ line, IsIgnoredLine line → IsIgnoredLine line ∨ AssignsKnownKey line :=
    fun _ hline => Or.inl hline
  have hlines := Sections.forall_lines_iff isSectionHeader hinner False (registryLines content)
  have hsections (block : Text × List Text) :
      (registryReader.readBlock block).isSome ↔ (sectionFixture block).IsValid := by
    rw [readBlock_registryReader, isSome_close_iff]
  simp only [if_false, false_or] at hlines
  rw [Sections.Reader.accepts_iff fun _ => rfl]
  constructor
  · rintro ⟨hpreamble, -, hblocks⟩
    have hpositions := hlines.mp ⟨fun line hline => by simpa using hpreamble line hline,
      fun block hblock => (hblocks block hblock).1⟩
    refine ⟨fun before line after heq hline => ?_,
      fun block hblock => (hsections block).mp (hblocks block hblock).2⟩
    cases hheader : isSectionHeader line with
    | some name => exact Or.inl rfl
    | none =>
        rcases hpositions before line after heq hheader with h | ⟨h | h, hearlier⟩
        · exact absurd h hline
        · exact absurd h hline
        · exact Or.inr ⟨h, hearlier⟩
  · intro h
    have hpositions : ∀ before line after, registryLines content = before ++ line :: after →
        isSectionHeader line = none → IsIgnoredLine line ∨
          (IsIgnoredLine line ∨ AssignsKnownKey line) ∧
            ∃ earlier ∈ before, (isSectionHeader earlier).isSome := by
      intro before line after heq hheader
      by_cases hline : IsIgnoredLine line
      · exact Or.inl hline
      · rcases h.lines before line after heq hline with hsome | ⟨hkey, hearlier⟩
        · rw [hheader] at hsome
          cases hsome
        · exact Or.inr ⟨Or.inr hkey, hearlier⟩
    obtain ⟨hpreamble, hblocks⟩ := hlines.mpr hpositions
    refine ⟨fun line hline => by simpa using hpreamble line hline, by simp, ?_⟩
    exact fun block hblock =>
      ⟨hblocks block hblock, (hsections block).mpr (h.sections block hblock)⟩

/-- A registry is accepted exactly when it is well formed. -/
theorem errors_readRegistryIni_iff (path content : Text) :
    (readRegistryIni path (some content)).2 = [] ↔ IsRegistry content := by
  rw [← accepts_iff_isRegistry]
  have herrors := RegistryParser.outErrors_handleLines {} 0 (getLines content)
    (UInt32.ofNat (getLines content).length)
  simpa [readRegistryIni, registryLines] using herrors

/-- The fixtures of a well-formed registry. -/
theorem fst_readRegistryIni {content : Text} (h : IsRegistry content) (path : Text) :
    (readRegistryIni path (some content)).1 = (registrySections content).map sectionFixture := by
  have hview : RegistryParser.view {} = { output := [], current := none } := rfl
  calc (readRegistryIni path (some content)).1
      = registryReader.flush ((registryLines content).foldl registryReader.step
          { output := [], current := none }) := by
        rw [readRegistryIni, RegistryParser.outFixtures_finishSection,
          RegistryParser.view_handleLines, hview, registryLines]
    _ = (registrySections content).filterMap registryReader.readBlock := by
        rw [Sections.Reader.flush_run]
        rfl
    _ = (registrySections content).map sectionFixture := by
        rw [← List.filterMap_eq_map]
        refine List.filterMap_congr fun block hblock => ?_
        rw [readBlock_registryReader]
        exact if_pos ((checkSection_eq_none_iff _).mpr (h.sections block hblock))

/-- **A registry is accepted exactly when it is well formed**, and then it stands for one
fixture per section. -/
theorem readRegistryIni_iff_isRegistry (path content : Text) :
    ((readRegistryIni path (some content)).2 = [] ↔ IsRegistry content) ∧
      (IsRegistry content → (readRegistryIni path (some content)).1 =
        (registrySections content).map sectionFixture) :=
  ⟨errors_readRegistryIni_iff path content, fun h => fst_readRegistryIni h path⟩

end Hades.Runtime
