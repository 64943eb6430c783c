import Hades.GeneratedProgram
import Hades.RegistrySections

/-!
# The Registrations of the Generated Program

What `registerAllFixtures`, the function that the generator writes for the fixtures of a
suite, does when it is executed. Its body is a series of calls of `HADES_REGISTER_FIXTURE`
(`FixtureRegistry.h`). The preprocessor splits the arguments of a call at its commas, drops
the white space around each, and turns the second one back into text with `#Name`: this text
is the key of the registry.

The interpreter knows these calls and nothing else. Their arguments must be an identifier
and three type names, so a comma or a parenthesis is never part of one.

## Main results

* `registration?_callText`: one emitted call, read back.
* `execRegisterFunction_buildRegisterFunction`: **the emitted function registers every
  fixture** under its name, in order.
* `executedTests_registered`: every test of the program finds the first section of its name.
-/

namespace Hades.Runtime

/-! ### The interpreter -/

/-- The arguments of `HADES_REGISTER_FIXTURE` behind the registry: the stringized name and
the template arguments of the runner. -/
structure RunnerTypes where
  Name : Text
  AdapterType : Text
  ChronoType : Text
  HashType : Text
  deriving DecidableEq

/-- The arguments of a call of the macro, without the white space around them. -/
def macroArguments? (statement : Text) : Option (List Text) := do
  let text ← (statement.dropWhile isSpace).dropPrefix? "HADES_REGISTER_FIXTURE(".toList
  let arguments ← text.dropSuffix? ")".toList
  some ((arguments.splitOn ',').map trim)

/-- The registration that a statement makes. -/
def registration? (statement : Text) : Option RunnerTypes :=
  match macroArguments? statement with
  | some [registry, name, adapter, chrono, hash] =>
    if registry = "ro_Registry".toList ∧ isIdentifier name ∧ isCppTypeName adapter ∧
        isCppTypeName chrono ∧ isCppTypeName hash then
      some { Name := name, AdapterType := adapter, ChronoType := chrono, HashType := hash }
    else none
  | _ => none

/-- The registrations of the function, in order: every statement up to the closing brace. -/
def registrations? (text : Text) : Option (List RunnerTypes) := do
  let body ← text.dropPrefix?
    "void registerAllFixtures(FixtureRegistry& ro_Registry) \x7b".toList
  let statements := body.takeWhile (· != '\x7d')
  if '\x7d' ∈ body ∧ (Lines.lastLine ';' statements).all isSpace then
    (Lines.earlierLines ';' statements).mapM registration?
  else none

/-- Execute the function on an empty registry. -/
def execRegisterFunction (compiled : RunnerTypes → FactoryFn) (text : Text) :
    Option FixtureRegistry :=
  (registrations? text).map fun calls =>
    FixtureRegistry.registerAll {} (calls.map fun types => (types.Name, compiled types))

/-- The registration of a fixture. -/
def FixtureEntry.runnerTypes (fixture : FixtureEntry) : RunnerTypes where
  Name := fixture.m_FixtureName
  AdapterType := stripRuntimeNamespace fixture.m_AdapterType
  ChronoType := stripRuntimeNamespace fixture.m_ChronoType
  HashType := stripRuntimeNamespace fixture.m_HashType

/-! ### The tokens of a call -/

/-- A text of identifier characters and colons. -/
def IsToken (text : Text) : Prop :=
  ∀ c ∈ text, isIdentChar c = true ∨ c = ':'

/-- Other characters are not in a token. -/
theorem IsToken.notMem {text : Text} (h : IsToken text) {c : Char}
    (hc : isIdentChar c = false) (hcolon : c ≠ ':') : c ∉ text := by
  intro hmem
  rcases h c hmem with hident | heq
  · rw [hc] at hident
    cases hident
  · exact hcolon heq

/-- A token has no white space around it that could be dropped. -/
theorem IsToken.tight {text : Text} (h : IsToken text) : Trimming.Tight isSpace text := by
  refine Trimming.tight_of_forall fun c hc => ?_
  rcases h c hc with hident | rfl
  · exact isSpace_of_isIdentChar hident
  · decide

/-- A blank before a token is dropped. -/
theorem IsToken.trim_blank {text : Text} (h : IsToken text) : trim (' ' :: text) = text := by
  have hblank : ∀ c ∈ [' '], isSpace c = true := by decide
  exact (Trimming.trim_blank_append hblank text).trans (Trimming.trim_of_tight h.tight)

theorem isToken_of_isIdentifier {text : Text} (h : isIdentifier text = true) : IsToken text :=
  fun c hc => Or.inl ((isKey_of_isIdentifier h).2 c hc)

theorem isToken_of_isCppTypeName {type : Text} (h : isCppTypeName type = true) :
    IsToken type := by
  intro c hc
  simp only [isCppTypeName, Bool.and_eq_true, List.all_eq_true] at h
  rcases mem_typeSegments hc with rfl | ⟨segment, hsegment, hmem⟩
  · exact Or.inr rfl
  · exact Or.inl ((isKey_of_isIdentifier (h.2 segment hsegment)).2 c hmem)

/-- A type name is still one without its namespace. -/
theorem isCppTypeName_stripRuntimeNamespace {type : Text} (h : isCppTypeName type = true) :
    isCppTypeName (stripRuntimeNamespace type) = true := by
  rw [stripRuntimeNamespace]
  cases hprefix : type.dropPrefix? "Hades::Runtime::".toList with
  | none => exact h
  | some rest =>
      obtain ⟨pre, rfl, hpre⟩ := List.dropPrefix?_eq_some_iff.mp hprefix
      obtain rfl := eq_of_beq hpre
      have hsegments : typeSegments ("Hades::Runtime::".toList ++ rest) =
          "Hades".toList :: "Runtime".toList :: typeSegments rest := rfl
      have hrest : ∀ segment ∈ typeSegments rest, isIdentifier segment = true := by
        simp only [isCppTypeName, Bool.and_eq_true, List.all_eq_true, hsegments] at h
        exact fun segment hs => h.2 segment (List.mem_cons_of_mem _ (List.mem_cons_of_mem _ hs))
      have hne : rest ≠ [] := by
        rintro rfl
        exact absurd (hrest [] (List.mem_singleton.mpr rfl)) (by decide)
      simp only [Option.getD_some, isCppTypeName, Bool.and_eq_true, List.all_eq_true]
      exact ⟨by simpa using hne, hrest⟩

/-! ### One call -/

/-- The text between the parentheses of the call for a fixture. -/
def argumentText (fixture : FixtureEntry) : Text :=
  Lines.unlines ',' ["ro_Registry".toList, ' ' :: fixture.m_FixtureName,
    ' ' :: stripRuntimeNamespace fixture.m_AdapterType,
    ' ' :: stripRuntimeNamespace fixture.m_ChronoType] ++
  ' ' :: stripRuntimeNamespace fixture.m_HashType

/-- The call for a fixture. -/
def callText (fixture : FixtureEntry) : Text :=
  "HADES_REGISTER_FIXTURE(".toList ++ (argumentText fixture ++ ")".toList)

/-- The emitted line is the call, with a tabulator and a semicolon. -/
theorem registerLine_eq (fixture : FixtureEntry) :
    registerLine fixture = '\t' :: (callText fixture ++ [';', '\n']) := by
  have hstart : "\tHADES_REGISTER_FIXTURE(ro_Registry, ".toList =
      '\t' :: "HADES_REGISTER_FIXTURE(".toList ++ "ro_Registry".toList ++ [',', ' '] := by decide
  have hcomma : ", ".toList = [',', ' '] := by decide
  have hend : ");\n".toList = ")".toList ++ [';', '\n'] := by decide
  unfold registerLine callText argumentText
  rw [hstart, hcomma, hend]
  simp only [Lines.unlines, List.flatMap_cons, List.flatMap_nil, List.append_assoc,
    List.cons_append, List.nil_append]

/-- The tokens of a valid fixture. -/
theorem isToken_runnerTypes {fixture : FixtureEntry} (h : fixture.IsValid) :
    IsToken fixture.runnerTypes.Name ∧ IsToken fixture.runnerTypes.AdapterType ∧
      IsToken fixture.runnerTypes.ChronoType ∧ IsToken fixture.runnerTypes.HashType :=
  ⟨isToken_of_isIdentifier h.name,
    isToken_of_isCppTypeName (isCppTypeName_stripRuntimeNamespace h.adapter),
    isToken_of_isCppTypeName (isCppTypeName_stripRuntimeNamespace h.chrono),
    isToken_of_isCppTypeName (isCppTypeName_stripRuntimeNamespace h.hash)⟩

/-- The call of a valid fixture has none of the characters that end a statement or the
function. -/
theorem notMem_callText {fixture : FixtureEntry} (h : fixture.IsValid) {c : Char}
    (hc : c ∈ [';', '\x7d']) : c ∉ callText fixture := by
  obtain ⟨hname, hadapter, hchrono, hhash⟩ := isToken_runnerTypes h
  have hident : isIdentChar c = false ∧ c ≠ ':' :=
    (by decide : ∀ c ∈ [';', '\x7d'], isIdentChar c = false ∧ c ≠ ':') c hc
  have hfixed : c ∉ "HADES_REGISTER_FIXTURE(".toList ∧ c ∉ "ro_Registry".toList ∧
      c ∉ ")".toList ∧ c ≠ ',' ∧ c ≠ ' ' :=
    (by decide : ∀ c ∈ [';', '\x7d'], c ∉ "HADES_REGISTER_FIXTURE(".toList ∧
      c ∉ "ro_Registry".toList ∧ c ∉ ")".toList ∧ c ≠ ',' ∧ c ≠ ' ') c hc
  obtain ⟨hcall, hregistry, hclose, hcomma, hblank⟩ := hfixed
  have hname' : c ∉ fixture.m_FixtureName := hname.notMem hident.1 hident.2
  have hadapter' : c ∉ stripRuntimeNamespace fixture.m_AdapterType :=
    hadapter.notMem hident.1 hident.2
  have hchrono' : c ∉ stripRuntimeNamespace fixture.m_ChronoType :=
    hchrono.notMem hident.1 hident.2
  have hhash' : c ∉ stripRuntimeNamespace fixture.m_HashType := hhash.notMem hident.1 hident.2
  unfold callText argumentText
  simp only [Lines.unlines, List.flatMap_cons, List.flatMap_nil, List.mem_append, List.mem_cons,
    List.not_mem_nil, not_or, or_false]
  tauto

/-- The arguments of the call of a valid fixture are split at their commas. -/
theorem splitOn_argumentText {fixture : FixtureEntry} (h : fixture.IsValid) :
    (argumentText fixture).splitOn ',' = ["ro_Registry".toList,
      ' ' :: fixture.runnerTypes.Name, ' ' :: fixture.runnerTypes.AdapterType,
      ' ' :: fixture.runnerTypes.ChronoType, ' ' :: fixture.runnerTypes.HashType] := by
  obtain ⟨hname, hadapter, hchrono, hhash⟩ := isToken_runnerTypes h
  have hcomma {text : Text} (ht : IsToken text) : ',' ∉ ' ' :: text := by
    simpa using ht.notMem (by decide) (by decide)
  refine Lines.splitOn_unlines_last ?_ (hcomma hhash)
  intro argument hargument
  simp only [List.mem_cons, List.not_mem_nil, or_false] at hargument
  rcases hargument with rfl | rfl | rfl | rfl
  · decide
  · exact hcomma hname
  · exact hcomma hadapter
  · exact hcomma hchrono

/-- The arguments of one emitted call, behind white space. -/
theorem macroArguments?_callText {fixture : FixtureEntry} (h : fixture.IsValid) {pre : Text}
    (hpre : ∀ c ∈ pre, isSpace c = true) :
    macroArguments? (pre ++ callText fixture) = some ["ro_Registry".toList,
      fixture.runnerTypes.Name, fixture.runnerTypes.AdapterType,
      fixture.runnerTypes.ChronoType, fixture.runnerTypes.HashType] := by
  obtain ⟨hname, hadapter, hchrono, hhash⟩ := isToken_runnerTypes h
  have hregistry : IsToken "ro_Registry".toList := isToken_of_isIdentifier (by decide)
  have hstart : (pre ++ callText fixture).dropWhile isSpace = callText fixture := by
    rw [List.dropWhile_append_of_pos hpre]
    refine Trimming.dropWhile_of_head fun c hc => ?_
    have hhead : "HADES_REGISTER_FIXTURE(".toList.head? = some 'H' := by decide
    unfold callText at hc
    rw [List.head?_append_of_ne_nil _ (by decide), hhead] at hc
    obtain rfl := Option.some.inj hc
    decide
  have hopen : (callText fixture).dropPrefix? "HADES_REGISTER_FIXTURE(".toList =
      some (argumentText fixture ++ ")".toList) :=
    List.dropPrefix?_append_of_beq _ BEq.rfl
  have hclose : (argumentText fixture ++ ")".toList).dropSuffix? ")".toList =
      some (argumentText fixture) :=
    List.dropSuffix?_eq_some_iff.mpr ⟨_, rfl, BEq.rfl⟩
  simp only [macroArguments?, hstart, hopen, hclose, splitOn_argumentText h,
    Option.bind_eq_bind, Option.bind_some, List.map_cons, List.map_nil, hname.trim_blank,
    hadapter.trim_blank, hchrono.trim_blank, hhash.trim_blank]
  rw [trim, Trimming.trim_of_tight hregistry.tight]

/-- **One emitted call**, behind white space, registers the fixture. -/
theorem registration?_callText {fixture : FixtureEntry} (h : fixture.IsValid) {pre : Text}
    (hpre : ∀ c ∈ pre, isSpace c = true) :
    registration? (pre ++ callText fixture) = some fixture.runnerTypes := by
  rw [registration?, macroArguments?_callText h hpre]
  exact if_pos ⟨rfl, h.name, isCppTypeName_stripRuntimeNamespace h.adapter,
    isCppTypeName_stripRuntimeNamespace h.chrono, isCppTypeName_stripRuntimeNamespace h.hash⟩

/-! ### The whole function -/

/-- The statement of a fixture: the call, behind the white space before it. -/
def statementText (fixture : FixtureEntry) : Text :=
  ['\n', '\t'] ++ callText fixture

/-- The text between the braces. -/
def bodyText (fixtures : List FixtureEntry) : Text :=
  Lines.unlines ';' (fixtures.map statementText) ++ ['\n']

/-- The emitted lines are the statements. -/
theorem flatMap_registerLine (fixtures : List FixtureEntry) :
    '\n' :: fixtures.flatMap registerLine = bodyText fixtures := by
  induction fixtures with
  | nil => rfl
  | cons fixture fixtures ih =>
      rw [bodyText] at ih
      rw [bodyText, List.flatMap_cons, registerLine_eq, List.map_cons, Lines.unlines_cons]
      simp only [statementText, List.cons_append, List.nil_append, List.append_assoc,
        List.cons.injEq, true_and, List.append_cancel_left_eq]
      exact ih

/-- The emitted function is its body between braces. -/
theorem buildRegisterFunction_eq (request : ResolveRequest) :
    buildRegisterFunction request =
      "void registerAllFixtures(FixtureRegistry& ro_Registry) \x7b".toList ++
        (bodyText request.m_Fixtures ++ '\x7d' :: ['\n', '\n']) := by
  have hopen : "void registerAllFixtures(FixtureRegistry& ro_Registry) \x7b\n".toList =
      "void registerAllFixtures(FixtureRegistry& ro_Registry) \x7b".toList ++ ['\n'] := by decide
  have hclose : "\x7d\n\n".toList = ['\x7d', '\n', '\n'] := by decide
  unfold buildRegisterFunction
  rw [← flatMap_registerLine, hopen, hclose]
  simp only [List.append_assoc, List.cons_append, List.nil_append]

/-- No statement of valid fixtures contains a semicolon or a brace. -/
theorem notMem_statements {fixtures : List FixtureEntry} (h : ∀ f ∈ fixtures, f.IsValid)
    {c : Char} (hc : c ∈ [';', '\x7d']) : ∀ s ∈ fixtures.map statementText, c ∉ s := by
  intro s hs hmem
  obtain ⟨fixture, hfixture, rfl⟩ := List.mem_map.mp hs
  rcases List.mem_append.mp hmem with hmem | hmem
  · exact (by decide : ∀ c ∈ [';', '\x7d'], c ∉ ['\n', '\t']) c hc hmem
  · exact notMem_callText (h fixture hfixture) hc hmem

/-- The body of valid fixtures ends at the first closing brace. -/
theorem brace_notMem_bodyText {fixtures : List FixtureEntry} (h : ∀ f ∈ fixtures, f.IsValid) :
    '\x7d' ∉ bodyText fixtures := by
  intro hmem
  rcases List.mem_append.mp hmem with hmem | hmem
  · obtain ⟨s, hs, hmem⟩ := List.mem_flatMap.mp hmem
    rcases List.mem_append.mp hmem with hmem | hmem
    · exact notMem_statements h (by simp) s hs hmem
    · simp at hmem
  · simp at hmem

/-- The statements of valid fixtures register them. -/
theorem mapM_registration?_statements {fixtures : List FixtureEntry}
    (h : ∀ f ∈ fixtures, f.IsValid) :
    (fixtures.map statementText).mapM registration? =
      some (fixtures.map FixtureEntry.runnerTypes) := by
  induction fixtures with
  | nil => rfl
  | cons fixture fixtures ih =>
      have hfirst : registration? (statementText fixture) = some fixture.runnerTypes :=
        registration?_callText (h fixture List.mem_cons_self) (by decide)
      rw [List.map_cons, List.mapM_cons, hfirst, ih fun f hf => h f (List.mem_cons_of_mem _ hf)]
      rfl

/-- The registrations of the emitted function. -/
theorem registrations?_buildRegisterFunction {request : ResolveRequest}
    (h : ∀ fixture ∈ request.m_Fixtures, fixture.IsValid) :
    registrations? (buildRegisterFunction request) =
      some (request.m_Fixtures.map FixtureEntry.runnerTypes) := by
  obtain ⟨fixtures, hfixtures⟩ : ∃ fixtures, request.m_Fixtures = fixtures := ⟨_, rfl⟩
  rw [hfixtures] at h
  have hbody := List.dropPrefix?_append_of_beq (bodyText fixtures ++ '\x7d' :: ['\n', '\n'])
    (BEq.refl "void registerAllFixtures(FixtureRegistry& ro_Registry) \x7b".toList)
  have hstatements : (bodyText fixtures ++ '\x7d' :: ['\n', '\n']).takeWhile (· != '\x7d') =
      bodyText fixtures := by
    have hplain : ∀ c ∈ bodyText fixtures, (c != '\x7d') = true := by
      intro c hc
      rw [bne_iff_ne]
      rintro rfl
      exact brace_notMem_bodyText h hc
    rw [List.takeWhile_append_of_pos hplain]
    simp
  have hsemicolon : ∀ s ∈ fixtures.map statementText, ';' ∉ s := notMem_statements h (by simp)
  have hlast : Lines.lastLine ';' (bodyText fixtures) = ['\n'] :=
    Lines.lastLine_unlines hsemicolon (by decide)
  have hearlier : Lines.earlierLines ';' (bodyText fixtures) = fixtures.map statementText :=
    Lines.earlierLines_unlines hsemicolon (by decide)
  rw [buildRegisterFunction_eq, hfixtures]
  simp only [registrations?, hbody, Option.bind_eq_bind, Option.bind_some, hstatements, hlast,
    hearlier, mapM_registration?_statements h]
  exact if_pos ⟨by simp, by decide⟩

/-- **The emitted function registers every fixture** under its name, in order. -/
theorem execRegisterFunction_buildRegisterFunction {request : ResolveRequest}
    (h : ∀ fixture ∈ request.m_Fixtures, fixture.IsValid) (compiled : RunnerTypes → FactoryFn) :
    execRegisterFunction compiled (buildRegisterFunction request) =
      some (FixtureRegistry.registerAll {}
        (request.m_Fixtures.map fun f => (f.m_FixtureName, compiled f.runnerTypes))) := by
  rw [execRegisterFunction, registrations?_buildRegisterFunction h, Option.map_some,
    List.map_map]
  rfl

/-! ### The fixtures that the tests find -/

/-- The fixtures of a suite's program. -/
theorem fixtures_of_generate {request : ResolveRequest} {program : GeneratedProgram}
    (h : GeneratedProgram.generate request = some program) :
    program.fixtures = request.m_Fixtures := by
  rw [GeneratedProgram.generate] at h
  split at h
  · split at h
    · obtain rfl := Option.some.inj h
      rfl
    · cases h
  · cases h

/-- A name is found, with the runner of the first section of this name. -/
def FindsFirstSection (compiled : RunnerTypes → FactoryFn) (content : Text)
    (registry : FixtureRegistry) (name : Text) : Prop :=
  ∃ block, (registrySections content).find? (·.1 = name) = some block ∧
    registry.find name = some (compiled (sectionFixture block).runnerTypes)

/-- Of the registered sections of a registry the first one of a name is found. -/
theorem find_registerAll_sections (compiled : RunnerTypes → FactoryFn) (content name : Text) :
    (FixtureRegistry.registerAll {} (((registrySections content).map sectionFixture).map
        fun f => (f.m_FixtureName, compiled f.runnerTypes))).find name =
      ((registrySections content).find? (·.1 = name)).map
        fun block => compiled (sectionFixture block).runnerTypes := by
  rw [FixtureRegistry.find_registerAll, List.map_map, List.find?_map, Option.map_map]
  exact Option.none_or

/-- A test of a suite that resolves finds the first section of its fixture's name. -/
theorem findsFirstSection_of_validate {content : Text} {request : ResolveRequest}
    (hfixtures : request.m_Fixtures = (registrySections content).map sectionFixture)
    (hvalid : validateFixtureReferences request = true) (compiled : RunnerTypes → FactoryFn)
    {test : SuiteTestEntry} (htest : test ∈ request.m_Tests) :
    FindsFirstSection compiled content (FixtureRegistry.registerAll {}
      (request.m_Fixtures.map fun f => (f.m_FixtureName, compiled f.runnerTypes)))
      test.m_FixtureName := by
  obtain ⟨fixture, hfixture, hname⟩ := List.any_eq_true.mp (List.all_eq_true.mp hvalid test htest)
  rw [hfixtures] at hfixture
  obtain ⟨block, hblock, rfl⟩ := List.mem_map.mp hfixture
  have hsome : ((registrySections content).find? (·.1 = test.m_FixtureName)).isSome :=
    List.find?_isSome.mpr ⟨block, hblock, decide_eq_true (eq_of_beq hname)⟩
  obtain ⟨first, hfirst⟩ := Option.isSome_iff_exists.mp hsome
  refine ⟨first, hfirst, ?_⟩
  rw [hfixtures, find_registerAll_sections, hfirst]
  rfl

/-- **Every executed test finds its fixture.** The registry is accepted and the suite resolves;
then the emitted names read back, the emitted function can be executed, and the program with the
registry that it leaves executes every selected test with the first section of its fixture's
name. -/
theorem executedTests_registered {path content : Text} {request : ResolveRequest}
    (haccepted : (readRegistryIni path (some content)).2 = [])
    (hfixtures : request.m_Fixtures = (readRegistryIni path (some content)).1)
    (hvalid : validateFixtureReferences request = true) (compiled : RunnerTypes → FactoryFn) :
    (∀ test ∈ request.m_Tests, Denotes (stringLiteral test.m_FixtureName)
        (.string test.m_FixtureName)) ∧
      ∃ registry, execRegisterFunction compiled (buildRegisterFunction request) = some registry ∧
        ∀ program, GeneratedProgram.generate request = some program → ∀ args,
          let arguments := args.foldl MainArguments.parse {}
          let run := program.main (compiled ∘ FixtureEntry.runnerTypes) args
          (program.driver (compiled ∘ FixtureEntry.runnerTypes) arguments).m_registry = registry ∧
            executedTests run.actions =
              program.tests.filter (selects arguments.l_fbtPattern) ∧
            ∀ test ∈ executedTests run.actions,
              FindsFirstSection compiled content registry test.m_FixtureName := by
  have hclean : ∀ fixture ∈ request.m_Fixtures, fixture.IsValid := by
    intro fixture hmem
    rw [hfixtures] at hmem
    exact (isClean_of_mem_readRegistryIni hmem).1
  have hsections : request.m_Fixtures = (registrySections content).map sectionFixture :=
    hfixtures.trans (fst_readRegistryIni ((errors_readRegistryIni_iff path content).mp haccepted)
      path)
  refine ⟨fun test htest => denotes_stringLiteral (newline_notMem_fixtureName hfixtures hvalid
    htest), _, execRegisterFunction_buildRegisterFunction hclean compiled, ?_⟩
  intro program hprogram args
  have hregistry : (program.driver (compiled ∘ FixtureEntry.runnerTypes)
      (args.foldl MainArguments.parse {})).m_registry = FixtureRegistry.registerAll {}
        (request.m_Fixtures.map fun f => (f.m_FixtureName, compiled f.runnerTypes)) := by
    rw [← fixtures_of_generate hprogram]
    rfl
  have hexecuted := program.executedTests_main (compiled ∘ FixtureEntry.runnerTypes) args
  refine ⟨hregistry, hexecuted, ?_⟩
  intro test htest
  rw [hexecuted, GeneratedProgram.tests_of_generate hprogram] at htest
  obtain ⟨entry, hentry, rfl⟩ := List.mem_map.mp (List.mem_filter.mp htest).1
  have hname : entry.compiled.m_FixtureName = entry.m_FixtureName :=
    cString_eq_self (nul_notMem_fixtureName hfixtures hvalid hentry)
  rw [hname]
  exact findsFirstSection_of_validate hsections hvalid compiled hentry

/-- A registry with two sections of one name. -/
def repeatedRegistry : Text :=
  "[F]\nheader=f.h\nadapter=Hades::Runtime::A\nchrono=C\nhash=H\n".toList ++
  "[F]\nheader=g.h\nadapter=K::A\nchrono=C\nhash=H\n".toList

/-- A suite with two tests of one fixture. -/
def repeatedRequest : ResolveRequest where
  m_Fixtures := (readRegistryIni [] (some repeatedRegistry)).1
  m_Tests :=
    [{ m_FixtureName := "F".toList, m_Config := { m_Id := "a".toList } },
      { m_FixtureName := "F".toList, m_Config := { m_Id := "b".toList } }]

/-- The factory of the first section is the one with the adapter `A`. -/
theorem executedTests_registered_repeated :
    let compiled : RunnerTypes → FactoryFn := fun types _ _ =>
      { runFailed := types.AdapterType ≠ "A".toList }
    (GeneratedProgram.generate repeatedRequest).isSome = true ∧
    ∃ registry, execRegisterFunction compiled (buildRegisterFunction repeatedRequest) =
        some registry ∧
      ∀ program, GeneratedProgram.generate repeatedRequest = some program →
        ∀ test ∈ executedTests (program.main (compiled ∘ FixtureEntry.runnerTypes)
            ["--fbt=b".toList]).actions,
          FindsFirstSection compiled repeatedRegistry registry test.m_FixtureName := by
  intro compiled
  have hregistered := executedTests_registered
    (by decide : (readRegistryIni [] (some repeatedRegistry)).2 = [])
    (rfl : repeatedRequest.m_Fixtures = (readRegistryIni [] (some repeatedRegistry)).1)
    (by decide) compiled
  obtain ⟨-, registry, hexec, hprogram⟩ := hregistered
  exact ⟨by decide +kernel, registry, hexec,
    fun program h => (hprogram program h ["--fbt=b".toList]).2.2⟩

end Hades.Runtime
