import Hades.RegistryIO
import Hades.TomlWriting

/-!
# The Registry Read Back

What `readRegistryIni` makes of the fixtures that `writeRegistryIni` wrote behind a content
whose last line is blank. The writer quotes nothing, so a field comes back only if it stays
on its line and has no white space at its ends (`FixtureEntry.IsPlain`).

## Main results

* `RegistryParser.handleLine_key`: the line of a key.
* `RegistryParser.finishSection_handleLines_fixtures`: the lines of a series of fixtures.
* `readRegistryIni_append`: **fixtures appended behind a blank line** are read after the
  old ones.
* `isClean_of_mem_readRegistryIni`: every fixture that is read is valid and plain.
* `readRegistryIni_rewrite`: what is read survives being written from scratch.
-/

namespace Hades.Runtime

/-- A value that survives the reader's line handling: no newline, no white space at its
ends. -/
def IsPlainValue (value : Text) : Prop :=
  '\n' ∉ value ∧ Trimming.Tight isSpace value

/-- The fields that the writer does not restrict otherwise are plain. -/
def FixtureEntry.IsPlain (fixture : FixtureEntry) : Prop :=
  IsPlainValue fixture.m_HeaderPath ∧ IsPlainValue fixture.m_ExtraLinkDir

/-! ### What a valid fixture looks like -/

/-- An identifier is a key. -/
theorem isKey_of_isIdentifier {text : Text} (h : isIdentifier text = true) : IsKey text := by
  cases text with
  | nil => cases h
  | cons c cs =>
      simp only [isIdentifier, Bool.and_eq_true, List.all_eq_true] at h
      exact ⟨List.cons_ne_nil c cs, h.2⟩

/-- A key has no white space and no newline. -/
theorem IsKey.isPlainValue {key : Text} (h : IsKey key) : IsPlainValue key :=
  ⟨h.notMem (by decide),
    Trimming.tight_of_forall fun c hc => isSpace_of_isIdentChar (h.2 c hc)⟩

theorem typeSegments_ne_nil (text : Text) : typeSegments text ≠ [] := by
  induction text using typeSegments.induct with
  | case1 => exact List.cons_ne_nil _ _
  | case2 cs ih => exact List.cons_ne_nil _ _
  | case3 c cs hne ih =>
      rw [typeSegments.eq_3 c cs hne]
      obtain ⟨segment, segments, h⟩ := List.exists_cons_of_ne_nil ih
      rw [h]
      exact List.cons_ne_nil _ _

/-- The characters of a text are those of its segments, and colons. -/
theorem mem_typeSegments {text : Text} {c : Char} (h : c ∈ text) :
    c = ':' ∨ ∃ segment ∈ typeSegments text, c ∈ segment := by
  induction text using typeSegments.induct with
  | case1 => cases h
  | case2 cs ih =>
      rw [typeSegments]
      rcases List.mem_cons.mp h with rfl | h
      · exact Or.inl rfl
      rcases List.mem_cons.mp h with rfl | h
      · exact Or.inl rfl
      rcases ih h with rfl | ⟨segment, hs, hc⟩
      · exact Or.inl rfl
      · exact Or.inr ⟨segment, List.mem_cons_of_mem _ hs, hc⟩
  | case3 d cs hne ih =>
      rw [typeSegments.eq_3 d cs hne]
      obtain ⟨segment, segments, hsegments⟩ : ∃ segment segments,
          typeSegments cs = segment :: segments := by
        have hnil : typeSegments cs ≠ [] := typeSegments_ne_nil cs
        exact List.exists_cons_of_ne_nil hnil
      rw [hsegments] at ih ⊢
      rcases List.mem_cons.mp h with rfl | h
      · exact Or.inr ⟨c :: segment, by simp, by simp⟩
      rcases ih h with rfl | ⟨found, hs, hc⟩
      · exact Or.inl rfl
      rcases List.mem_cons.mp hs with rfl | hs
      · exact Or.inr ⟨d :: found, by simp, List.mem_cons_of_mem d hc⟩
      · exact Or.inr ⟨found, by simp [hs], hc⟩

/-- A type name has no white space and no newline. -/
theorem isPlainValue_of_isCppTypeName {text : Text} (h : isCppTypeName text = true) :
    IsPlainValue text := by
  simp only [isCppTypeName, Bool.and_eq_true, List.all_eq_true] at h
  have hchars : ∀ c ∈ text, isSpace c = false := by
    intro c hc
    rcases mem_typeSegments hc with rfl | ⟨segment, hs, hc⟩
    · decide
    · exact isSpace_of_isIdentChar ((isKey_of_isIdentifier (h.2 segment hs)).2 c hc)
  refine ⟨fun hmem => ?_, Trimming.tight_of_forall hchars⟩
  exact absurd (hchars '\n' hmem) (by decide)

/-- What the reader checks of a finished section. -/
structure FixtureEntry.IsValid (fixture : FixtureEntry) : Prop where
  header_ne_nil : fixture.m_HeaderPath ≠ []
  adapter_ne_nil : fixture.m_AdapterType ≠ []
  chrono_ne_nil : fixture.m_ChronoType ≠ []
  hash_ne_nil : fixture.m_HashType ≠ []
  name : isIdentifier fixture.m_FixtureName = true
  adapter : isCppTypeName fixture.m_AdapterType = true
  chrono : isCppTypeName fixture.m_ChronoType = true
  hash : isCppTypeName fixture.m_HashType = true
  target : fixture.m_ExtraLinkTarget = [] ∨ isIdentifier fixture.m_ExtraLinkTarget = true

/-- A key is not missing exactly when it has a value. -/
theorem missingKey_eq_nil_iff {value key : Text} (hkey : key ≠ []) :
    (if value = [] then key else []) = [] ↔ value ≠ [] := by
  by_cases h : value = []
  · rw [if_pos h]
    exact ⟨fun hk => absurd hk hkey, fun hv => absurd h hv⟩
  · rw [if_neg h]
    exact ⟨fun _ => h, fun _ => rfl⟩

/-- No required key is missing exactly when all of them have a value. -/
theorem missingKeys_eq_nil_iff (fixture : FixtureEntry) :
    missingKeys fixture = [] ↔ ((fixture.m_HeaderPath ≠ [] ∧ fixture.m_AdapterType ≠ []) ∧
      fixture.m_ChronoType ≠ []) ∧ fixture.m_HashType ≠ [] := by
  rw [missingKeys, List.append_eq_nil_iff, List.append_eq_nil_iff, List.append_eq_nil_iff,
    missingKey_eq_nil_iff (by decide), missingKey_eq_nil_iff (by decide),
    missingKey_eq_nil_iff (by decide), missingKey_eq_nil_iff (by decide)]

/-- **The reader accepts exactly the valid sections.** -/
theorem checkSection_eq_none_iff (fixture : FixtureEntry) :
    checkSection fixture = none ↔ fixture.IsValid := by
  have hmissing := missingKeys_eq_nil_iff fixture
  rw [checkSection]
  constructor
  · intro h
    split_ifs at h with h1 h2 h3 h4 h5 h6
    obtain ⟨⟨⟨hheader, hadapter⟩, hchrono⟩, hhash⟩ := hmissing.mp (not_not.mp h1)
    simp only [Bool.not_eq_true, Bool.not_eq_false'] at h2 h3 h4 h5
    refine ⟨hheader, hadapter, hchrono, hhash, h2, h3, h4, h5, ?_⟩
    by_cases ht : fixture.m_ExtraLinkTarget = []
    · exact Or.inl ht
    · exact Or.inr (by simpa [ht] using h6)
  · intro h
    have hall := hmissing.mpr
      ⟨⟨⟨h.header_ne_nil, h.adapter_ne_nil⟩, h.chrono_ne_nil⟩, h.hash_ne_nil⟩
    have htarget : ¬ (fixture.m_ExtraLinkTarget ≠ [] ∧
        (!isIdentifier fixture.m_ExtraLinkTarget) = true) := by
      rintro ⟨hne, hbad⟩
      rcases h.target with ht | ht
      · exact hne ht
      · simp [ht] at hbad
    rw [if_neg (not_not.mpr hall), if_neg (by simp [h.name]), if_neg (by simp [h.adapter]),
      if_neg (by simp [h.chrono]), if_neg (by simp [h.hash]), if_neg htarget]

/-! ### The lines of a section -/

namespace RegistryParser

/-- A blank line does nothing. -/
theorem handleLine_blank (p : RegistryParser) {line : Text} (h : ∀ c ∈ line, isSpace c = true)
    (lineNo : UInt32) : p.handleLine line lineNo = p := by
  have hnil : popCarriageReturn (trim line) = [] := by
    rw [trim, Trimming.trim_eq_nil_iff.mpr h]
    rfl
  simp only [handleLine, hnil, true_or, if_true]

/-- The text of a section header. -/
def sectionLine (name : Text) : Text :=
  "[".toList ++ name ++ "]".toList

/-- The characters of a section header. -/
theorem isTokenChar_sectionLine {name : Text} (hname : IsKey name) :
    ∀ c ∈ sectionLine name, isTokenChar c = true := by
  intro c hc
  simp only [sectionLine, List.mem_append] at hc
  rcases hc with (hc | hc) | hc
  · exact (by decide : ∀ c ∈ "[".toList, isTokenChar c = true) c hc
  · exact isTokenChar_of_isIdentChar (hname.2 c hc)
  · exact (by decide : ∀ c ∈ "]".toList, isTokenChar c = true) c hc

/-- A section header is recognised as one. -/
theorem isSectionHeader_sectionLine {name : Text} (hname : IsKey name) :
    isSectionHeader (sectionLine name) = some name := by
  have htext : sectionLine name = '[' :: name ++ [']'] := by simp [sectionLine]
  have hlast : ('[' :: name ++ [']']).getLast? = some ']' := List.getLast?_concat
  have htrim : trim name = name := Trimming.trim_of_tight hname.isPlainValue.2
  rw [htext, isSectionHeader, hlast, if_pos (by simp), List.cons_append, List.tail_cons,
    List.dropLast_concat, htrim]

/-- **A section header**, behind blanks, starts a section. -/
theorem handleLine_section {name : Text} (hname : IsKey name) (p : RegistryParser) {pre : Text}
    (hpre : ∀ c ∈ pre, isSpace c = true) (lineNo : UInt32) :
    p.handleLine (pre ++ sectionLine name) lineNo =
      { p.finishSection lineNo with m_current := some { m_FixtureName := name } } := by
  have hne : sectionLine name ≠ [] := by simp [sectionLine]
  have htrim : trim (pre ++ sectionLine name) = sectionLine name :=
    (Trimming.trim_blank_append hpre _).trans (Trimming.trim_of_tight
      (isValueText_of_isTokenChar hne (isTokenChar_sectionLine hname)).tight)
  have hpop : popCarriageReturn (sectionLine name) = sectionLine name := by
    refine popCarriageReturn_of_getLast ?_
    rw [sectionLine, List.getLast?_append_of_ne_nil _ (by decide)]
    decide
  have hcomment : ¬ (sectionLine name = [] ∨ (sectionLine name).head? = some '#' ∨
      (sectionLine name).head? = some ';') := by
    simp [sectionLine]
  simp only [handleLine, htrim, hpop, if_neg hcomment, isSectionHeader_sectionLine hname]

/-- A line that does not start with a bracket is no section header. -/
theorem isSectionHeader_of_head {line : Text} {c : Char} (h : line.head? = some c)
    (hc : c ≠ '[') : isSectionHeader line = none := by
  rw [isSectionHeader, h, if_neg]
  rintro ⟨-, hb, -⟩
  exact hc (Option.some.inj hb)

/-- Key and value of a written line. -/
theorem splitIniKeyValue_iniLine {key value : Text} (hkey : IsKey key)
    (hvalue : IsPlainValue value) : splitIniKeyValue (iniLine key value) = some (key, value) := by
  have hline : iniLine key value = (key ++ [' ']) ++ '=' :: ' ' :: value := by simp [iniLine]
  have hplain : ∀ c ∈ key ++ [' '], (c != '=') = true := by
    intro c hc
    rw [bne_iff_ne]
    rintro rfl
    rcases List.mem_append.mp hc with hc | hc
    · exact hkey.notMem (by decide) hc
    · exact absurd hc (by decide)
  have htake : (iniLine key value).takeWhile (· != '=') = key ++ [' '] := by
    rw [hline, List.takeWhile_append_of_pos hplain]
    simp
  have hdrop : (iniLine key value).dropWhile (· != '=') = '=' :: ' ' :: value := by
    rw [hline, List.dropWhile_append_of_pos hplain]
    simp
  have hkey' : trim ([] ++ key ++ [' ']) = key :=
    Trimming.trim_padded (by simp) hkey.isPlainValue.2 (by decide)
  have hvalue' : trim ([' '] ++ value) = value :=
    (Trimming.trim_blank_append (by decide) value).trans (Trimming.trim_of_tight hvalue.2)
  rw [splitIniKeyValue, htake, hdrop, if_pos (by simp [hline])]
  exact congrArg some (Prod.ext hkey' hvalue')

/-- **The line of a key** sets the field of the section in progress. -/
theorem handleLine_key {key value : Text} (hkey : IsKey key) (hne : value ≠ [])
    (hvalue : IsPlainValue value) {p : RegistryParser} {fixture fixture' : FixtureEntry}
    (hp : p.m_current = some fixture) (hset : setKey fixture key value = some fixture')
    (lineNo : UInt32) :
    p.handleLine (iniLine key value) lineNo = { p with m_current := some fixture' } := by
  have hsplit := splitIniKeyValue_iniLine hkey hvalue
  obtain ⟨k, ks, rfl⟩ := List.exists_cons_of_ne_nil hkey.1
  have hk : isIdentChar k = true := hkey.2 k List.mem_cons_self
  have hhead : (iniLine (k :: ks) value).head? = some k := rfl
  have hlast : (iniLine (k :: ks) value).getLast? = value.getLast? := by
    rw [iniLine, List.getLast?_append_of_ne_nil _ hne]
  have htrim : trim (iniLine (k :: ks) value) = iniLine (k :: ks) value := by
    refine Trimming.trim_of_tight ⟨fun c hc => ?_, fun c hc => ?_⟩
    · rw [hhead] at hc
      obtain rfl := Option.some.inj hc
      exact isSpace_of_isIdentChar hk
    · rw [hlast] at hc
      exact hvalue.2.2 c hc
  have hpop : popCarriageReturn (iniLine (k :: ks) value) = iniLine (k :: ks) value := by
    refine popCarriageReturn_of_getLast fun hcr => ?_
    rw [hlast] at hcr
    exact absurd (hvalue.2.2 '\r' hcr) (by decide)
  have hcomment : ¬ (iniLine (k :: ks) value = [] ∨ (iniLine (k :: ks) value).head? = some '#' ∨
      (iniLine (k :: ks) value).head? = some ';') := by
    rw [hhead]
    rintro (h | h | h)
    · cases h
    · exact ne_of_isIdentChar hk (by decide) (Option.some.inj h)
    · exact ne_of_isIdentChar hk (by decide) (Option.some.inj h)
  have hnotheader : isSectionHeader (iniLine (k :: ks) value) = none :=
    isSectionHeader_of_head hhead (ne_of_isIdentChar hk (by decide))
  simp only [handleLine, htrim, hpop, if_neg hcomment, hnotheader, handleKeyValue, hsplit, hp,
    hset]

theorem handleLines_append (p : RegistryParser) (lineNo : ℕ) (xs ys : List Text) :
    p.handleLines lineNo (xs ++ ys) =
      (p.handleLines lineNo xs).handleLines (lineNo + xs.length) ys := by
  induction xs generalizing p lineNo with
  | nil => rfl
  | cons x xs ih =>
      rw [List.cons_append, handleLines, handleLines, ih, List.length_cons]
      congr 1
      omega

/-- **The lines of the keys** of a section set its fields one after another. -/
theorem handleLines_keys {pairs : List (Text × Text)}
    (h : ∀ pair ∈ pairs, IsKey pair.1 ∧ pair.2 ≠ [] ∧ IsPlainValue pair.2) {p : RegistryParser}
    {fixture fixture' : FixtureEntry} (hp : p.m_current = some fixture)
    (hset : pairs.foldlM (fun f pair => setKey f pair.1 pair.2) fixture = some fixture')
    (lineNo : ℕ) :
    p.handleLines lineNo (pairs.map fun pair => iniLine pair.1 pair.2) =
      { p with m_current := some fixture' } := by
  induction pairs generalizing p fixture lineNo with
  | nil =>
      obtain rfl : fixture = fixture' := Option.some.inj hset
      rw [← hp]
      rfl
  | cons pair pairs ih =>
      obtain ⟨hkey, hne, hvalue⟩ := h pair List.mem_cons_self
      rw [List.foldlM_cons] at hset
      obtain ⟨next, hnext, hrest⟩ := Option.bind_eq_some_iff.mp hset
      rw [List.map_cons, handleLines, handleLine_key hkey hne hvalue hp hnext,
        ih (fun q hq => h q (List.mem_cons_of_mem pair hq)) rfl hrest]

/-- The keys of a section and their values, as they are written. -/
def fixturePairs (fixture : FixtureEntry) : List (Text × Text) :=
  [("header".toList, fixture.m_HeaderPath), ("adapter".toList, fixture.m_AdapterType),
    ("chrono".toList, fixture.m_ChronoType), ("hash".toList, fixture.m_HashType)] ++
  (if fixture.m_ExtraLinkDir = [] then []
    else [("extra_link_dir".toList, fixture.m_ExtraLinkDir)]) ++
  (if fixture.m_ExtraLinkTarget = [] then []
    else [("extra_link_target".toList, fixture.m_ExtraLinkTarget)])

theorem optionalIniLine_eq (key value : Text) : optionalIniLine key value =
    (if value = [] then [] else [(key, value)]).map fun pair => iniLine pair.1 pair.2 := by
  rw [optionalIniLine]
  split <;> rfl

/-- A section is its header, its keys and a blank line. -/
theorem fixtureLines_eq (fixture : FixtureEntry) : fixtureLines fixture =
    sectionLine fixture.m_FixtureName ::
      (fixturePairs fixture).map (fun pair => iniLine pair.1 pair.2) ++ [[]] := by
  simp only [fixtureLines, fixturePairs, optionalIniLine_eq, List.map_append, sectionLine]
  rfl

/-- The values of a valid section with plain fields can be written. -/
theorem isPlainValue_fixturePairs {fixture : FixtureEntry} (hvalid : fixture.IsValid)
    (hplain : fixture.IsPlain) :
    ∀ pair ∈ fixturePairs fixture, IsKey pair.1 ∧ pair.2 ≠ [] ∧ IsPlainValue pair.2 := by
  have hkeys : IsKey "header".toList ∧ IsKey "adapter".toList ∧ IsKey "chrono".toList ∧
      IsKey "hash".toList ∧ IsKey "extra_link_dir".toList ∧ IsKey "extra_link_target".toList := by
    decide
  obtain ⟨hheader, hadapter, hchrono, hhash, hdir, htarget⟩ := hkeys
  intro pair hpair
  simp only [fixturePairs, List.mem_append, List.mem_cons, List.not_mem_nil, or_false] at hpair
  rcases hpair with ((rfl | rfl | rfl | rfl) | hpair) | hpair
  · exact ⟨hheader, hvalid.header_ne_nil, hplain.1⟩
  · exact ⟨hadapter, hvalid.adapter_ne_nil, isPlainValue_of_isCppTypeName hvalid.adapter⟩
  · exact ⟨hchrono, hvalid.chrono_ne_nil, isPlainValue_of_isCppTypeName hvalid.chrono⟩
  · exact ⟨hhash, hvalid.hash_ne_nil, isPlainValue_of_isCppTypeName hvalid.hash⟩
  · split at hpair
    · cases hpair
    · next hne =>
        obtain rfl := List.mem_singleton.mp hpair
        exact ⟨hdir, hne, hplain.2⟩
  · split at hpair
    · cases hpair
    · next hne =>
        obtain rfl := List.mem_singleton.mp hpair
        have hname := hvalid.target.resolve_left hne
        exact ⟨htarget, hne, (isKey_of_isIdentifier hname).isPlainValue⟩

/-- An optional key sets its field, which is empty before. -/
theorem foldlM_setKey_optional {key value : Text} {f f' : FixtureEntry}
    (hset : setKey f key value = some f') (hnil : value = [] → f = f') :
    (if value = [] then [] else [(key, value)]).foldlM
      (fun f pair => setKey f pair.1 pair.2) f = some f' := by
  split
  · next h => rw [hnil h]; rfl
  · simp [hset]

/-- The keys of a section set its fields. -/
theorem foldlM_setKey_fixturePairs (fixture : FixtureEntry) :
    (fixturePairs fixture).foldlM (fun f pair => setKey f pair.1 pair.2)
      { m_FixtureName := fixture.m_FixtureName } = some fixture := by
  obtain ⟨name, header, adapter, chrono, hash, dir, target⟩ := fixture
  have hheader (f : FixtureEntry) (v : Text) :
      setKey f "header".toList v = some { f with m_HeaderPath := v } := rfl
  have hadapter (f : FixtureEntry) (v : Text) :
      setKey f "adapter".toList v = some { f with m_AdapterType := v } := rfl
  have hchrono (f : FixtureEntry) (v : Text) :
      setKey f "chrono".toList v = some { f with m_ChronoType := v } := rfl
  have hhash (f : FixtureEntry) (v : Text) :
      setKey f "hash".toList v = some { f with m_HashType := v } := rfl
  have hdir (f : FixtureEntry) (v : Text) :
      setKey f "extra_link_dir".toList v = some { f with m_ExtraLinkDir := v } := rfl
  have htarget (f : FixtureEntry) (v : Text) :
      setKey f "extra_link_target".toList v = some { f with m_ExtraLinkTarget := v } := rfl
  rw [fixturePairs, List.foldlM_append, List.foldlM_append]
  simp only [List.foldlM_cons, List.foldlM_nil, hheader, hadapter, hchrono, hhash,
    Option.bind_eq_bind, Option.bind_some, Option.pure_def]
  rw [foldlM_setKey_optional (hdir _ _) (by rintro rfl; rfl), Option.bind_some,
    foldlM_setKey_optional (htarget _ _) (by rintro rfl; rfl)]

/-- **The lines of a section** behind blanks: the section in progress is finished, and this
one is in progress. -/
theorem handleLines_fixtureLines {fixture : FixtureEntry} (hvalid : fixture.IsValid)
    (hplain : fixture.IsPlain) (p : RegistryParser) (lineNo : ℕ) {pre : Text}
    (hpre : ∀ c ∈ pre, isSpace c = true) :
    p.handleLines lineNo ((pre ++ sectionLine fixture.m_FixtureName) ::
        (fixturePairs fixture).map (fun pair => iniLine pair.1 pair.2) ++ [[]]) =
      { p.finishSection (UInt32.ofNat (lineNo + 1)) with m_current := some fixture } := by
  have hkeys (q : RegistryParser)
      (hq : q.m_current = some { m_FixtureName := fixture.m_FixtureName }) :
      q.handleLines (lineNo + 1)
          ((fixturePairs fixture).map fun pair => iniLine pair.1 pair.2) =
        { q with m_current := some fixture } :=
    handleLines_keys (isPlainValue_fixturePairs hvalid hplain) hq
      (foldlM_setKey_fixturePairs fixture) (lineNo + 1)
  rw [List.cons_append, handleLines,
    handleLine_section (isKey_of_isIdentifier hvalid.name) p hpre, handleLines_append,
    hkeys _ rfl, handleLines, handleLine_blank _ (by simp)]
  rfl

/-- The reader with further fixtures in its output. -/
def addFixtures (p : RegistryParser) (fixtures : List FixtureEntry) : RegistryParser :=
  { p with m_outFixtures := p.m_outFixtures ++ fixtures }

@[simp] theorem addFixtures_nil (p : RegistryParser) : p.addFixtures [] = p := by
  simp [addFixtures]

/-- A reader whose section in progress, if there is one, is valid. -/
def IsClosable (p : RegistryParser) : Prop :=
  ∀ fixture, p.m_current = some fixture → fixture.IsValid

theorem isClosable_start {fixture : FixtureEntry} (h : fixture.IsValid)
    (p : RegistryParser) : IsClosable { p with m_current := some fixture } := by
  rintro f hf
  obtain rfl := Option.some.inj hf
  exact h

/-- A section that closes without an error was valid. -/
theorem isClosable_of_finishSection {p : RegistryParser} {lineNo : UInt32}
    (h : (p.finishSection lineNo).m_outErrors = []) : p.IsClosable := by
  intro fixture hp
  rw [finishSection, hp] at h
  rw [← checkSection_eq_none_iff]
  cases hcheck : checkSection fixture with
  | none => rfl
  | some message => simp [hcheck, report] at h

/-- A finished reader has no section in progress. -/
theorem current_finishSection (p : RegistryParser) (lineNo : UInt32) :
    (p.finishSection lineNo).m_current = none := by
  rw [finishSection]
  split
  · assumption
  · split <;> rfl

/-- What closing a valid section does, whatever line it happens on. -/
theorem finishSection_of_isClosable {p : RegistryParser} (h : p.IsClosable) (lineNo : UInt32) :
    p.finishSection lineNo = { p.addFixtures p.m_current.toList with m_current := none } := by
  obtain ⟨fixtures, errors, current⟩ := p
  cases current with
  | none => simp [finishSection, addFixtures]
  | some fixture =>
      have hcheck := (checkSection_eq_none_iff fixture).mpr (h fixture rfl)
      simp [finishSection, hcheck, addFixtures]

/-- **The lines of a series of sections**, once the last one is closed. -/
theorem finishSection_handleLines_fixtures {fixtures : List FixtureEntry}
    (h : ∀ fixture ∈ fixtures, fixture.IsValid ∧ fixture.IsPlain) {p : RegistryParser}
    (hp : p.IsClosable) (lineNo : ℕ) (last : UInt32) :
    (p.handleLines lineNo (fixtures.flatMap fixtureLines)).finishSection last =
      (p.finishSection last).addFixtures fixtures := by
  induction fixtures generalizing p lineNo with
  | nil => simp [handleLines]
  | cons fixture fixtures ih =>
      obtain ⟨hvalid, hplain⟩ := h fixture List.mem_cons_self
      have hsection : p.handleLines lineNo (fixtureLines fixture) =
          { p.finishSection (UInt32.ofNat (lineNo + 1)) with m_current := some fixture } := by
        have hlines := handleLines_fixtureLines hvalid hplain p lineNo
          (by simp : ∀ c ∈ ([] : Text), isSpace c = true)
        rwa [List.nil_append, ← fixtureLines_eq] at hlines
      have hnext := isClosable_start hvalid (p.finishSection (UInt32.ofNat (lineNo + 1)))
      rw [List.flatMap_cons, handleLines_append, hsection,
        ih (fun f hf => h f (List.mem_cons_of_mem fixture hf)) hnext,
        finishSection_of_isClosable hnext, finishSection_of_isClosable hp,
        finishSection_of_isClosable hp]
      simp only [addFixtures, Option.toList_some, List.append_assoc, List.singleton_append]

end RegistryParser

/-! ### Appending fixtures -/

/-- The text of a series of fixtures is their lines. -/
theorem registryText_eq (fixtures : List FixtureEntry) :
    registryText fixtures = Lines.unlines '\n' (fixtures.flatMap fixtureLines) := rfl

/-- The lines of a valid section with plain fields stay whole. -/
theorem newline_notMem_fixtureLines {fixture : FixtureEntry} (hvalid : fixture.IsValid)
    (hplain : fixture.IsPlain) {line : Text} (hline : line ∈ fixtureLines fixture) :
    '\n' ∉ line := by
  rw [RegistryParser.fixtureLines_eq] at hline
  simp only [List.cons_append, List.mem_cons, List.mem_append, List.mem_map, List.not_mem_nil,
    or_false] at hline
  rcases hline with rfl | ⟨pair, hpair, rfl⟩ | rfl
  · exact notMem_of_isTokenChar
      (RegistryParser.isTokenChar_sectionLine (isKey_of_isIdentifier hvalid.name)) (by decide)
  · obtain ⟨hkey, -, hvalue⟩ :=
      RegistryParser.isPlainValue_fixturePairs hvalid hplain pair hpair
    have hmid : '\n' ∉ " = ".toList := by decide
    rw [iniLine, List.mem_append, List.mem_append, not_or, not_or]
    exact ⟨⟨hkey.notMem (by decide), hmid⟩, hvalue.1⟩
  · exact List.not_mem_nil

/-- Whether the last line is read does not matter if it is empty. -/
theorem handleLines_getLines (p : RegistryParser) (lineNo : ℕ) (content : Text) :
    p.handleLines lineNo (getLines content) = p.handleLines lineNo (content.splitOn '\n') := by
  rw [getLines, Lines.splitOn_eq, List.getLast?_concat, List.dropLast_concat]
  split
  · next hlast =>
      rw [RegistryParser.handleLines_append, Option.some.inj hlast, RegistryParser.handleLines,
        RegistryParser.handleLine_blank _ (by simp), RegistryParser.handleLines]
  · rfl

/-- **The lines of a content with appended fixtures**: the first header continues the last
line of the content. -/
theorem splitOn_append_registryText {fixture : FixtureEntry} {fixtures : List FixtureEntry}
    (h : ∀ f ∈ fixture :: fixtures, f.IsValid ∧ f.IsPlain) (content : Text) :
    (content ++ registryText (fixture :: fixtures)).splitOn '\n' =
      Lines.earlierLines '\n' content ++
        (((Lines.lastLine '\n' content ++ RegistryParser.sectionLine fixture.m_FixtureName) ::
            (RegistryParser.fixturePairs fixture).map (fun pair => iniLine pair.1 pair.2) ++
            [[]]) ++ (fixtures.flatMap fixtureLines ++ [[]])) := by
  have hno : ∀ line ∈ (fixture :: fixtures).flatMap fixtureLines, '\n' ∉ line := by
    intro line hline
    obtain ⟨f, hf, hmem⟩ := List.mem_flatMap.mp hline
    exact newline_notMem_fixtureLines (h f hf).1 (h f hf).2 hmem
  rw [List.flatMap_cons, RegistryParser.fixtureLines_eq, List.cons_append,
    List.cons_append] at hno
  rw [registryText_eq, List.flatMap_cons, RegistryParser.fixtureLines_eq, List.cons_append,
    List.cons_append, Lines.splitOn_append_unlines (hno _ List.mem_cons_self)
      fun line hl => hno line (List.mem_cons_of_mem _ hl)]
  simp only [List.append_assoc, List.cons_append]

/-- **Fixtures appended behind a blank line** of an accepted content are read after the old
ones. -/
theorem readRegistryIni_append {fixtures : List FixtureEntry}
    (h : ∀ fixture ∈ fixtures, fixture.IsValid ∧ fixture.IsPlain) {content path : Text}
    (haccepted : (readRegistryIni path (some content)).2 = [])
    (hblank : ∀ c ∈ Lines.lastLine '\n' content, isSpace c = true) :
    readRegistryIni path (some (content ++ registryText fixtures)) =
      ((readRegistryIni path (some content)).1 ++ fixtures, []) := by
  cases fixtures with
  | nil =>
      have htext : content ++ registryText [] = content := List.append_nil content
      rw [htext, List.append_nil]
      exact Prod.ext rfl haccepted
  | cons fixture fixtures =>
      obtain ⟨hvalid, hplain⟩ := h fixture List.mem_cons_self
      have hrest : ∀ f ∈ fixtures, f.IsValid ∧ f.IsPlain :=
        fun f hf => h f (List.mem_cons_of_mem fixture hf)
      obtain ⟨q, hq⟩ : ∃ q, RegistryParser.handleLines {} 0
          (Lines.earlierLines '\n' content) = q := ⟨_, rfl⟩
      have hold : RegistryParser.handleLines {} 0 (getLines content) = q := by
        rw [handleLines_getLines, Lines.splitOn_eq, RegistryParser.handleLines_append, hq,
          RegistryParser.handleLines, RegistryParser.handleLine_blank _ hblank,
          RegistryParser.handleLines]
      have hclosable : q.IsClosable := by
        rw [readRegistryIni, hold] at haccepted
        exact RegistryParser.isClosable_of_finishSection haccepted
      have hnext := RegistryParser.isClosable_start hvalid (q.finishSection
        (UInt32.ofNat (0 + (Lines.earlierLines '\n' content).length + 1)))
      have hnew (last : UInt32) : (RegistryParser.handleLines {} 0
          (getLines (content ++ registryText (fixture :: fixtures)))).finishSection last =
          (q.finishSection last).addFixtures (fixture :: fixtures) := by
        rw [handleLines_getLines, splitOn_append_registryText h, RegistryParser.handleLines_append,
          hq, RegistryParser.handleLines_append,
          RegistryParser.handleLines_fixtureLines hvalid hplain _ _ hblank,
          RegistryParser.handleLines_append, RegistryParser.handleLines,
          RegistryParser.handleLines, RegistryParser.handleLine_blank _ (by simp),
          RegistryParser.finishSection_handleLines_fixtures hrest hnext,
          RegistryParser.finishSection_of_isClosable hnext,
          RegistryParser.finishSection_of_isClosable hclosable,
          RegistryParser.finishSection_of_isClosable hclosable]
        simp only [RegistryParser.addFixtures, Option.toList_some, List.append_assoc,
          List.singleton_append]
      simp only [readRegistryIni, hnew, hold,
        RegistryParser.finishSection_of_isClosable hclosable] at haccepted ⊢
      exact Prod.ext rfl haccepted

/-! ### What is read is valid and plain -/

/-- Whatever is trimmed is plain, if it has no newline. -/
theorem isPlainValue_trim {text : Text} (h : '\n' ∉ text) : IsPlainValue (trim text) :=
  ⟨fun hmem => h (Trimming.mem_of_mem_trim hmem), Trimming.tight_trim text⟩

namespace RegistryParser

/-- Every fixture in the output is valid and plain, and so far the section in progress is
plain. -/
structure OutputIsClean (p : RegistryParser) : Prop where
  output : ∀ fixture ∈ p.m_outFixtures, fixture.IsValid ∧ fixture.IsPlain
  current : ∀ fixture, p.m_current = some fixture → fixture.IsPlain

/-- A section without keys is plain. -/
theorem isPlain_start (name : Text) : FixtureEntry.IsPlain { m_FixtureName := name } :=
  ⟨⟨List.not_mem_nil, Trimming.tight_nil⟩, ⟨List.not_mem_nil, Trimming.tight_nil⟩⟩

/-- A key with a plain value keeps a section plain. -/
theorem isPlain_of_setKey {fixture fixture' : FixtureEntry} {key value : Text}
    (h : setKey fixture key value = some fixture') (hvalue : IsPlainValue value)
    (hplain : fixture.IsPlain) : fixture'.IsPlain := by
  rw [setKey] at h
  split_ifs at h
  · obtain rfl := Option.some.inj h
    exact ⟨hvalue, hplain.2⟩
  · obtain rfl := Option.some.inj h
    exact hplain
  · obtain rfl := Option.some.inj h
    exact hplain
  · obtain rfl := Option.some.inj h
    exact hplain
  · obtain rfl := Option.some.inj h
    exact ⟨hplain.1, hvalue⟩
  · obtain rfl := Option.some.inj h
    exact hplain

theorem OutputIsClean.finishSection {p : RegistryParser} (h : p.OutputIsClean)
    (lineNo : UInt32) : (p.finishSection lineNo).OutputIsClean := by
  rw [RegistryParser.finishSection]
  split
  · exact h
  · next fixture hcurrent =>
    split
    · exact ⟨h.output, fun _ hnone => by cases hnone⟩
    · next hcheck =>
      refine ⟨?_, fun _ hnone => by cases hnone⟩
      intro f hf
      rcases List.mem_append.mp hf with hf | hf
      · exact h.output f hf
      · obtain rfl := List.mem_singleton.mp hf
        exact ⟨(checkSection_eq_none_iff f).mp hcheck, h.current f hcurrent⟩

/-- A `key = value` line sets a plain value. -/
theorem OutputIsClean.handleKeyValue {p : RegistryParser} (h : p.OutputIsClean) {line : Text}
    (hline : '\n' ∉ line) (lineNo : UInt32) : (p.handleKeyValue line lineNo).OutputIsClean := by
  rw [RegistryParser.handleKeyValue]
  split
  · exact ⟨h.output, h.current⟩
  · next key value hsplit =>
    have hvalue : IsPlainValue value := by
      rw [splitIniKeyValue] at hsplit
      split_ifs at hsplit
      obtain ⟨-, rfl⟩ := Prod.mk.inj (Option.some.inj hsplit)
      exact isPlainValue_trim fun hmem =>
        hline (List.dropWhile_subset _ (List.mem_of_mem_tail hmem))
    split
    · exact ⟨h.output, h.current⟩
    · next fixture hcurrent =>
      split
      · next fixture' hset =>
        refine ⟨h.output, ?_⟩
        intro f hf
        obtain rfl := Option.some.inj hf
        exact isPlain_of_setKey hset hvalue (h.current fixture hcurrent)
      · exact ⟨h.output, h.current⟩

/-- **One line** keeps the output clean. -/
theorem OutputIsClean.handleLine {p : RegistryParser} (h : p.OutputIsClean) {line : Text}
    (hline : '\n' ∉ line) (lineNo : UInt32) : (p.handleLine line lineNo).OutputIsClean := by
  have hpop : '\n' ∉ popCarriageReturn (trim line) := by
    intro hmem
    rw [popCarriageReturn] at hmem
    split at hmem
    · exact hline (Trimming.mem_of_mem_trim (List.mem_of_mem_dropLast hmem))
    · exact hline (Trimming.mem_of_mem_trim hmem)
  rw [RegistryParser.handleLine]
  split
  · exact h
  split
  · next name _ =>
    refine ⟨(h.finishSection lineNo).output, ?_⟩
    intro fixture hfixture
    obtain rfl := Option.some.inj hfixture
    exact isPlain_start name
  · exact h.handleKeyValue hpop lineNo

/-- **A series of lines** keeps the output clean. -/
theorem OutputIsClean.handleLines {p : RegistryParser} (h : p.OutputIsClean) (lineNo : ℕ)
    {lines : List Text} (hlines : ∀ line ∈ lines, '\n' ∉ line) :
    (p.handleLines lineNo lines).OutputIsClean := by
  induction lines generalizing p lineNo with
  | nil => exact h
  | cons line lines ih =>
      exact ih (h.handleLine (hlines line List.mem_cons_self) _) (lineNo + 1)
        fun l hl => hlines l (List.mem_cons_of_mem _ hl)

end RegistryParser

/-- **Every fixture that is read is valid and plain**, whether the registry is accepted or
not. -/
theorem isClean_of_mem_readRegistryIni {path : Text} {file : Option Text}
    {fixture : FixtureEntry} (h : fixture ∈ (readRegistryIni path file).1) :
    fixture.IsValid ∧ fixture.IsPlain := by
  cases file with
  | none => cases h
  | some content =>
      have hstart : RegistryParser.OutputIsClean {} := by
        refine ⟨?_, ?_⟩
        · intro f hf
          cases hf
        · intro f hf
          cases hf
      have hlines : ∀ line ∈ getLines content, '\n' ∉ line := by
        intro line hline
        refine (Lines.sep_notMem_of_mem_splitOn : line ∈ content.splitOn '\n' → '\n' ∉ line) ?_
        rw [getLines] at hline
        split at hline
        · exact List.mem_of_mem_dropLast hline
        · exact hline
      exact ((hstart.handleLines 0 hlines).finishSection _).output fixture h

/-- A valid and plain fixture. -/
def sampleFixture : FixtureEntry where
  m_FixtureName := "F".toList
  m_HeaderPath := "f.h".toList
  m_AdapterType := "A".toList
  m_ChronoType := "C".toList
  m_HashType := "H".toList

theorem isValid_sampleFixture : sampleFixture.IsValid :=
  (checkSection_eq_none_iff _).mp (by decide)

theorem isPlain_sampleFixture : sampleFixture.IsPlain :=
  ⟨⟨by decide, by decide⟩, by decide, by decide⟩

/-! ### Rewriting an accepted registry -/

/-- **What is read survives being written from scratch**, whatever the original looked
like, and whether it was accepted or not. -/
theorem readRegistryIni_rewrite (path : Text) (original target : Option Text) :
    readRegistryIni path (writeRegistryIni (readRegistryIni path original).1 false target) =
      ((readRegistryIni path original).1, []) := by
  have hclean : ∀ fixture ∈ (readRegistryIni path original).1,
      fixture.IsValid ∧ fixture.IsPlain :=
    fun _ hfixture => isClean_of_mem_readRegistryIni hfixture
  have hblank : ∀ c ∈ Lines.lastLine '\n' [], isSpace c = true := by simp [Lines.lastLine]
  have hempty : readRegistryIni path (some []) = ([], []) := rfl
  have hread := readRegistryIni_append hclean (congrArg Prod.snd hempty) hblank
  rw [hempty] at hread
  exact hread

/-- A registry with a comment, a repeated key and carriage returns. -/
example : (readRegistryIni [] (some
    ("; old\r\n[F]\r\nheader=a\r\n header = f.h \r\nadapter=A\r\nchrono=C\r\n".toList ++
      "hash=H".toList))).1 = [sampleFixture] := by decide

end Hades.Runtime
