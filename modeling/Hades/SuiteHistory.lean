import Hades.NewTest
import Hades.RegistryRoundTrip
import Hades.SuiteRoundTrip

/-!
# Histories of a Suite

What the two files of a suite contain after any number of `new-test` commands. `SuiteLog` is
what the commands registered and requested; `SuiteLog.IsHeldBy` says that the files contain
it and end with a line end, so that the next command can append to them.

A header or an extra link directory with a newline, or with white space at its ends, passes
the command's checks and is written as it is, and the reader returns something else. Every
other field is checked well enough. A suite whose directory has a line end at its end is
never the current one, since the line ends of the marker are not part of the name.

## Main results

* `cmdNewTest_eq_zero`: what a command that returns zero has done.
* `SuiteLog.IsHeldBy.cmdNewTest`: **one command** keeps the files in step with the log.
* `SuiteLog.IsHeldBy.runNewTests`: **a series of commands** does.
* `readsBack_runNewTests_iff`: when the files contain what the commands were given.
-/

namespace Hades.Runtime

variable {codec : DoubleCodec} {cwd : Text}

/-! ### Paths -/

theorem getLast?_stubName (fixtureName : Text) :
    (fixtureName ++ ".h".toList).getLast? = some 'h' := by
  rw [List.getLast?_append]
  rfl

theorem suiteTomlPath_ne_stubPath (dir dir' testId fixtureName : Text) :
    suiteTomlPath dir ≠ stubPath dir' testId fixtureName :=
  inDirectory_ne getLast?_names.1 (getLast?_stubName fixtureName) (by decide)

theorem registryIniPath_ne_stubPath (dir dir' testId fixtureName : Text) :
    registryIniPath dir ≠ stubPath dir' testId fixtureName :=
  inDirectory_ne getLast?_names.2.1 (getLast?_stubName fixtureName) (by decide)

theorem markerPath_ne_stubPath (cwd dir testId fixtureName : Text) :
    markerPath cwd ≠ stubPath dir testId fixtureName :=
  markerPath_ne_inDirectory (getLast?_stubName fixtureName) (by decide) cwd _

/-! ### One command -/

/-- **`new-test` accepts exactly the fixtures that the reader accepts.** -/
theorem checkNewFixture_eq_none_iff (fixture : FixtureEntry) :
    checkNewFixture fixture = none ↔ fixture.IsValid := by
  rw [checkNewFixture]
  constructor
  · intro h
    split_ifs at h with h1 h2 h3 h4 h5 h6
    simp only [not_or, Bool.not_eq_true, Bool.not_eq_false'] at h1 h2 h3 h4 h5
    obtain ⟨hheader, hadapter, hchrono, hhash⟩ := h1
    refine ⟨hheader, hadapter, hchrono, hhash, h2, h3, h4, h5, ?_⟩
    by_cases ht : fixture.m_ExtraLinkTarget = []
    · exact Or.inl ht
    · exact Or.inr (by simpa [ht] using h6)
  · intro h
    have hmissing : ¬ (fixture.m_HeaderPath = [] ∨ fixture.m_AdapterType = [] ∨
        fixture.m_ChronoType = [] ∨ fixture.m_HashType = []) := by
      rintro (hnil | hnil | hnil | hnil)
      · exact h.header_ne_nil hnil
      · exact h.adapter_ne_nil hnil
      · exact h.chrono_ne_nil hnil
      · exact h.hash_ne_nil hnil
    have htarget : ¬ (fixture.m_ExtraLinkTarget ≠ [] ∧
        (!isIdentifier fixture.m_ExtraLinkTarget) = true) := by
      rintro ⟨hne, hbad⟩
      rcases h.target with ht | ht
      · exact hne ht
      · rw [ht] at hbad
        cases hbad
    rw [if_neg hmissing, if_neg (by simp [h.name]), if_neg (by simp [h.adapter]),
      if_neg (by simp [h.chrono]), if_neg (by simp [h.hash]), if_neg htarget]

/-- The fixture of a new test is registered, or valid and described by the flags. -/
theorem chooseFixture_eq_ok {fixtures : List FixtureEntry} {flags : NewTestFlags}
    {fixtureName : Text} {fixture : FixtureEntry} {isNew : Bool}
    (h : chooseFixture fixtures flags fixtureName = .ok (fixture, isNew)) :
    fixture.m_FixtureName = fixtureName ∧
      (isNew = false ∧ fixture ∈ fixtures ∨
        isNew = true ∧ (∀ f ∈ fixtures, f.m_FixtureName ≠ fixtureName) ∧
          fixture = flags.fixture fixtureName ∧ fixture.IsValid) := by
  rw [chooseFixture] at h
  split at h
  · next found hfound =>
    obtain ⟨rfl, rfl⟩ := Prod.mk.inj (Except.ok.inj h)
    have hname := List.find?_some hfound
    exact ⟨of_decide_eq_true hname, .inl ⟨rfl, List.mem_of_find?_eq_some hfound⟩⟩
  · next hnone =>
    split at h
    · cases h
    · next hcheck =>
      obtain ⟨rfl, rfl⟩ := Prod.mk.inj (Except.ok.inj h)
      refine ⟨rfl, .inr ⟨rfl, ?_, rfl, (checkNewFixture_eq_none_iff _).mp hcheck⟩⟩
      intro f hf hname
      exact List.find?_eq_none.mp hnone f hf (decide_eq_true hname)

/-- What scaffolding that succeeds has written. -/
theorem scaffold_eq_true {fates : NewTestFates} {request : ScaffoldRequest}
    {outStubPath outTomlPath : Text} {fs fs' : FileSystem} (hne : outTomlPath ≠ outStubPath)
    (h : scaffold codec fates request outStubPath outTomlPath fs = (fs', true)) :
    fs' = (fs.write outStubPath (buildFixtureStub request.m_Fixture)).write outTomlPath
      ((fs outTomlPath).getD [] ++ suiteText codec [request.entry]) := by
  rw [scaffold] at h
  split at h
  · cases h
  · next stubbed hstub =>
    obtain rfl := of_writeTextFile hstub
    rw [appendFile_eq rfl, FileSystem.write_of_ne fs hne] at h
    exact of_writeTextFile h

/-- Scaffolding leaves every other file alone. -/
theorem scaffolded_of_ne {dir testId fixtureName path : Text} (hsuite : path ≠ suiteTomlPath dir)
    (hstub : path ≠ stubPath dir testId fixtureName) (fs : FileSystem) (stub content : Text) :
    ((fs.write (stubPath dir testId fixtureName) stub).write (suiteTomlPath dir) content) path =
      fs path := by
  rw [FileSystem.write_of_ne _ hsuite, FileSystem.write_of_ne _ hstub]

/-- What a registration that succeeds has written. -/
theorem registerNewFixture_eq_zero {fate : WriteFate} {dir : Text}
    {fixture : FixtureEntry} {fs fs' : FileSystem}
    (h : registerNewFixture fate dir fixture fs = (fs', 0)) :
    fs' = fs.write (registryIniPath dir)
      ((fs (registryIniPath dir)).getD [] ++ registryText [fixture]) := by
  rw [registerNewFixture] at h
  split at h
  · cases h
  · next hregistry =>
    obtain rfl := (Prod.mk.inj h).1
    rw [appendFile_eq rfl] at hregistry
    exact of_writeTextFile hregistry

/-- The test that a command requests. -/
def requestedTest (fixtureName testId : Text) (kind : TestKind) : SuiteTestEntry where
  m_FixtureName := fixtureName
  m_Config := { m_Id := testId, m_Kind := kind }

/-- The files after a command that returns zero: a stub is written, the test is appended to
the manifest, and a new fixture to the registry. No other manifest changes. -/
structure NewTestEffect (codec : DoubleCodec) (cwd dir : Text) (test : SuiteTestEntry)
    (registered : List FixtureEntry) (fs fs' : FileSystem) : Prop where
  marker : fs' (markerPath cwd) = fs (markerPath cwd)
  suite : fs' (suiteTomlPath dir) =
    some ((fs (suiteTomlPath dir)).getD [] ++ suiteText codec [test])
  registry : fs' (registryIniPath dir) = if registered = [] then fs (registryIniPath dir)
    else some ((fs (registryIniPath dir)).getD [] ++ registryText registered)
  others : ∀ other, other ≠ dir → fs' (suiteTomlPath other) = fs (suiteTomlPath other)

/-- The effect of the stub and the manifest. -/
theorem newTestEffect_scaffolded (codec : DoubleCodec) (cwd dir testId fixtureName : Text)
    (test : SuiteTestEntry) (fs : FileSystem) (stub : Text) :
    NewTestEffect codec cwd dir test [] fs
      ((fs.write (stubPath dir testId fixtureName) stub).write (suiteTomlPath dir)
        ((fs (suiteTomlPath dir)).getD [] ++ suiteText codec [test])) where
  marker := scaffolded_of_ne (markerPath_ne_suiteTomlPath cwd dir)
    (markerPath_ne_stubPath cwd dir testId fixtureName) fs _ _
  suite := FileSystem.write_self _ _ _
  registry := scaffolded_of_ne (registryIniPath_ne_suiteTomlPath dir dir)
    (registryIniPath_ne_stubPath dir dir testId fixtureName) fs _ _
  others := fun other hne => scaffolded_of_ne (fun heq => hne (suiteTomlPath_injective heq))
    (suiteTomlPath_ne_stubPath other dir testId fixtureName) fs _ _

/-- The effect of a registration on top. -/
theorem NewTestEffect.register {codec : DoubleCodec} {cwd dir : Text} {test : SuiteTestEntry}
    {fs fs' : FileSystem} (h : NewTestEffect codec cwd dir test [] fs fs')
    (fixture : FixtureEntry) :
    NewTestEffect codec cwd dir test [fixture] fs
      (fs'.write (registryIniPath dir)
        ((fs' (registryIniPath dir)).getD [] ++ registryText [fixture])) where
  marker := by
    rw [FileSystem.write_of_ne _ (markerPath_ne_registryIniPath cwd dir), h.marker]
  suite := by
    rw [FileSystem.write_of_ne _ (registryIniPath_ne_suiteTomlPath dir dir).symm, h.suite]
  registry := by
    rw [FileSystem.write_self, h.registry, if_pos rfl, if_neg (List.cons_ne_nil _ _)]
  others := fun other hne => by
    rw [FileSystem.write_of_ne _ (registryIniPath_ne_suiteTomlPath dir other).symm,
      h.others other hne]

/-- **What a command that returns zero has done.** -/
theorem cmdNewTest_eq_zero {fates : NewTestFates} {args : List Text}
    {fs fs' : FileSystem} (h : cmdNewTest codec cwd fates args fs = (fs', 0)) :
    ∃ fixtureName testId rest dir fixture isNew,
      args = fixtureName :: testId :: rest ∧
      loadCurrentSuite cwd fs = some dir ∧
      chooseFixture (readRegistryIni (registryIniPath dir) (fs (registryIniPath dir))).1
        (rest.foldl NewTestFlags.parse {}) fixtureName = .ok (fixture, isNew) ∧
      NewTestEffect codec cwd dir
        (requestedTest fixture.m_FixtureName testId (rest.foldl NewTestFlags.parse {}).kind)
        (if isNew then [fixture] else []) fs fs' := by
  unfold cmdNewTest at h
  split at h
  · next fixtureName testId rest =>
    dsimp only at h
    split at h
    · cases h
    · next dir hdir =>
      split at h
      · cases h
      split at h
      · cases h
      · next fixture isNew hchoose =>
        refine ⟨fixtureName, testId, rest, dir, fixture, isNew, rfl, hdir, hchoose, ?_⟩
        split at h
        · cases h
        · next written hscaffold =>
          obtain rfl := scaffold_eq_true (suiteTomlPath_ne_stubPath dir dir testId fixtureName)
            hscaffold
          have heffect := newTestEffect_scaffolded codec cwd dir testId fixtureName
            (requestedTest fixture.m_FixtureName testId (rest.foldl NewTestFlags.parse {}).kind)
            fs (buildFixtureStub fixture)
          split at h
          · next hnew =>
            obtain rfl := registerNewFixture_eq_zero h
            rw [if_pos hnew]
            exact heffect.register fixture
          · next hold =>
            obtain rfl := (Prod.mk.inj h).1
            rw [if_neg hold]
            exact heffect
  · cases h

/-- The marker loses the line ends of the directory that it names. -/
theorem eq_popLineEnds_of_loadCurrentSuite {dir dir' : Text} {fs : FileSystem}
    (hmarker : fs (markerPath cwd) = some (dir ++ ['\n']))
    (hload : loadCurrentSuite cwd fs = some dir') : dir' = popLineEnds dir := by
  obtain ⟨⟨content, hcontent, rfl⟩, -, -⟩ := loadCurrentSuite_eq_some_iff.mp hload
  rw [hmarker] at hcontent
  obtain rfl := Option.some.inj hcontent
  exact List.rdropWhile_concat_pos _ _ _ rfl

/-! ### The log of a suite -/

/-- What a suite was told: the registered fixtures and the requested tests, in order. -/
structure SuiteLog where
  fixtures : List FixtureEntry := []
  tests : List SuiteTestEntry := []

namespace SuiteLog

/-- Whether a fixture is registered. -/
def knows (log : SuiteLog) (fixtureName : Text) : Bool :=
  log.fixtures.any (·.m_FixtureName = fixtureName)

/-- One more command, with its arguments as they were given: the first test of a fixture
registers it. -/
def record (log : SuiteLog) (args : List Text) : SuiteLog :=
  match args with
  | fixtureName :: testId :: rest =>
    let flags := rest.foldl NewTestFlags.parse {}
    { fixtures := log.fixtures ++
        if log.knows fixtureName then [] else [flags.fixture fixtureName]
      tests := log.tests ++ [requestedTest fixtureName testId flags.kind] }
  | _ => log

/-- Every test's fixture is registered. -/
def IsResolved (log : SuiteLog) : Prop :=
  ∀ test ∈ log.tests, log.knows test.m_FixtureName = true

/-- A recorded test's fixture is registered. -/
theorem IsResolved.record {log : SuiteLog} (h : log.IsResolved) (args : List Text) :
    (log.record args).IsResolved := by
  unfold SuiteLog.record
  split
  · next fixtureName testId rest =>
    intro test ht
    rw [knows, List.any_append, Bool.or_eq_true]
    rcases List.mem_append.mp ht with ht | ht
    · exact .inl (h test ht)
    · obtain rfl := List.mem_singleton.mp ht
      by_cases hknown : log.knows fixtureName = true
      · exact .inl hknown
      · rw [if_neg hknown]
        exact .inr (List.any_eq_true.mpr ⟨_, List.mem_cons_self, decide_eq_true rfl⟩)
  · exact h

/-- The marker names a directory, and the files of its suite contain a log and end with a
line end. -/
structure IsHeldBy (log : SuiteLog) (codec : DoubleCodec) (cwd dir : Text) (fs : FileSystem) :
    Prop where
  marker : fs (markerPath cwd) = some (dir ++ ['\n'])
  registry : ∃ content, fs (registryIniPath dir) = some content ∧
    readRegistryIni (registryIniPath dir) (some content) = (log.fixtures, []) ∧
      Lines.lastLine '\n' content = []
  suite : ∃ content, fs (suiteTomlPath dir) = some content ∧
    readSuiteToml codec (suiteTomlPath dir) (some content) = (log.tests, []) ∧
      Lines.lastLine '\n' content = []
  resolved : log.IsResolved

/-- A text that ends with a line end has no last line to continue. -/
theorem blank_of_lastLine_eq_nil {content : Text} (h : Lines.lastLine '\n' content = []) :
    ∀ c ∈ Lines.lastLine '\n' content, isSpace c = true := by
  rw [h]
  intro c hc
  cases hc

/-- A written test comes back as it was requested. -/
theorem readSuiteToml_append_test {content path : Text} {tests : List SuiteTestEntry}
    (hread : readSuiteToml codec path (some content) = (tests, []))
    (hlast : Lines.lastLine '\n' content = []) (fixtureName testId : Text) (kind : TestKind) :
    readSuiteToml codec path
        (some (content ++ suiteText codec [requestedTest fixtureName testId kind])) =
      (tests ++ [requestedTest fixtureName testId kind], []) := by
  have hdoubles : (requestedTest fixtureName testId kind).NoDoubles := ⟨rfl, rfl⟩
  rw [readSuiteToml_append (lawful_false codec) ?_ (blank_of_lastLine_eq_nil hlast), hread,
    List.map_singleton, hdoubles.readBack_eq codec]
  · rfl
  · intro entry hentry
    obtain rfl := List.mem_singleton.mp hentry
    exact hdoubles.hasDoubles

/-- A written fixture comes back as it was registered, if it is valid and plain. -/
theorem readRegistryIni_append_fixture {content path : Text} {fixtures : List FixtureEntry}
    (hread : readRegistryIni path (some content) = (fixtures, []))
    (hlast : Lines.lastLine '\n' content = []) {fixture : FixtureEntry}
    (hvalid : fixture.IsValid) (hplain : fixture.IsPlain) :
    readRegistryIni path (some (content ++ registryText [fixture])) =
      (fixtures ++ [fixture], []) := by
  have hclean : ∀ f ∈ [fixture], f.IsValid ∧ f.IsPlain := by
    intro f hf
    obtain rfl := List.mem_singleton.mp hf
    exact ⟨hvalid, hplain⟩
  have haccepted : (readRegistryIni path (some content)).2 = [] := by rw [hread]
  have happend := readRegistryIni_append hclean haccepted (blank_of_lastLine_eq_nil hlast)
  rwa [hread] at happend

/-- A command about a known fixture registers nothing. -/
theorem fixtures_record_of_knows {log : SuiteLog} {fixtureName : Text}
    (h : log.knows fixtureName = true) (testId : Text) (rest : List Text) :
    (log.record (fixtureName :: testId :: rest)).fixtures = log.fixtures := by
  rw [SuiteLog.record, h]
  exact List.append_nil log.fixtures

/-- A command about another fixture registers it. -/
theorem fixtures_record_of_not_knows {log : SuiteLog} {fixtureName : Text}
    (h : ∀ f ∈ log.fixtures, f.m_FixtureName ≠ fixtureName) (testId : Text)
    (rest : List Text) :
    (log.record (fixtureName :: testId :: rest)).fixtures =
      log.fixtures ++ [(rest.foldl NewTestFlags.parse {}).fixture fixtureName] := by
  have hunknown : log.knows fixtureName = false := by
    rw [SuiteLog.knows, List.any_eq_false]
    intro f hf
    rw [decide_eq_true_eq]
    exact h f hf
  rw [SuiteLog.record, hunknown]
  rfl

/-- **One command** that returns zero keeps the files in step with the log, as long as the
registered fixtures are plain. -/
theorem IsHeldBy.cmdNewTest {log : SuiteLog} {dir : Text} {fs fs' : FileSystem}
    {fates : NewTestFates} {args : List Text} (hheld : log.IsHeldBy codec cwd dir fs)
    (hname : popLineEnds dir = dir)
    (h : Hades.Runtime.cmdNewTest codec cwd fates args fs = (fs', 0))
    (hplain : ∀ fixture ∈ (log.record args).fixtures, fixture.IsPlain) :
    (log.record args).IsHeldBy codec cwd dir fs' := by
  obtain ⟨fixtureName, testId, rest, dir', fixture, isNew, rfl, hload, hchoose, heffect⟩ :=
    cmdNewTest_eq_zero h
  obtain rfl : dir' = dir := (eq_popLineEnds_of_loadCurrentSuite hheld.marker hload).trans hname
  obtain ⟨registry, hregistry, hfixtures, hregistryEnd⟩ := hheld.registry
  obtain ⟨suite, hsuite, htests, hsuiteEnd⟩ := hheld.suite
  rw [hregistry, hfixtures] at hchoose
  obtain ⟨hname, hcases⟩ := chooseFixture_eq_ok hchoose
  have hsuite' := heffect.suite
  have hregistry' := heffect.registry
  rw [hsuite, Option.getD_some, hname] at hsuite'
  rw [hregistry, Option.getD_some] at hregistry'
  refine ⟨heffect.marker.trans hheld.marker, ?_,
    ⟨_, hsuite', readSuiteToml_append_test htests hsuiteEnd _ _ _, ?_⟩, hheld.resolved.record _⟩
  · rcases hcases with ⟨rfl, hmem⟩ | ⟨rfl, hnew, rfl, hvalid⟩
    · have hknown : log.knows fixtureName = true :=
        List.any_eq_true.mpr ⟨fixture, hmem, decide_eq_true hname⟩
      refine ⟨registry, hregistry', ?_, hregistryEnd⟩
      rw [hfixtures, fixtures_record_of_knows hknown]
    · rw [fixtures_record_of_not_knows hnew] at hplain ⊢
      exact ⟨_, hregistry', readRegistryIni_append_fixture hfixtures hregistryEnd hvalid
        (hplain _ (by simp)), Lines.lastLine_append_unlines (List.cons_ne_nil _ _) registry⟩
  · rw [suiteText, tomlText_eq]
    exact Lines.lastLine_append_unlines (by simp [TomlParser.tableLines]) suite

end SuiteLog

/-! ### Histories -/

/-- A command of a history, with the ends of its file operations. -/
structure NewTestCommand where
  args : List Text
  fates : NewTestFates := {}

/-- Run a series of commands that each return zero. -/
def runNewTests (codec : DoubleCodec) (cwd : Text) :
    List NewTestCommand → FileSystem → Option FileSystem
  | [], fs => some fs
  | command :: commands, fs =>
    match cmdNewTest codec cwd command.fates command.args fs with
    | (fs, 0) => runNewTests codec cwd commands fs
    | _ => none

/-- A directory with a line end at its end never becomes the current suite. -/
theorem suite_runNewTests_of_ne {dir : Text} {fs fs' : FileSystem}
    {commands : List NewTestCommand} (hname : popLineEnds dir ≠ dir)
    (hmarker : fs (markerPath cwd) = some (dir ++ ['\n']))
    (h : runNewTests codec cwd commands fs = some fs') :
    fs' (suiteTomlPath dir) = fs (suiteTomlPath dir) := by
  induction commands generalizing fs with
  | nil =>
      obtain rfl := Option.some.inj h
      rfl
  | cons command commands ih =>
      rw [runNewTests] at h
      split at h
      · next fs₁ hcommand =>
        obtain ⟨_, _, _, dir', _, _, _, hload, _, heffect⟩ := cmdNewTest_eq_zero hcommand
        obtain rfl := eq_popLineEnds_of_loadCurrentSuite hmarker hload
        rw [ih (heffect.marker.trans hmarker) h, heffect.others dir hname.symm]
      · cases h

namespace SuiteLog

/-- The log after a series of commands. -/
def recordAll (log : SuiteLog) (commands : List NewTestCommand) : SuiteLog :=
  commands.foldl (fun log command => log.record command.args) log

/-- A registered fixture stays registered. -/
theorem fixtures_subset_recordAll (log : SuiteLog) (commands : List NewTestCommand) :
    log.fixtures ⊆ (log.recordAll commands).fixtures := by
  induction commands generalizing log with
  | nil => exact fun fixture h => h
  | cons command commands ih =>
      have hrecord : log.fixtures ⊆ (log.record command.args).fixtures := by
        unfold SuiteLog.record
        split
        · exact List.subset_append_left _ _
        · exact fun fixture h => h
      exact fun fixture h => ih (log.record command.args) (hrecord h)

/-- **A series of commands** that return zero keeps the files in step with the log. -/
theorem IsHeldBy.runNewTests {log : SuiteLog} {dir : Text} {fs fs' : FileSystem}
    {commands : List NewTestCommand} (hheld : log.IsHeldBy codec cwd dir fs)
    (hname : popLineEnds dir = dir)
    (h : Hades.Runtime.runNewTests codec cwd commands fs = some fs')
    (hplain : ∀ fixture ∈ (log.recordAll commands).fixtures, fixture.IsPlain) :
    (log.recordAll commands).IsHeldBy codec cwd dir fs' := by
  induction commands generalizing log fs with
  | nil =>
      obtain rfl := Option.some.inj h
      exact hheld
  | cons command commands ih =>
      rw [Hades.Runtime.runNewTests] at h
      split at h
      · next fs₁ hcommand =>
        refine ih (hheld.cmdNewTest hname hcommand ?_) h hplain
        intro fixture hfixture
        exact hplain fixture
          ((log.record command.args).fixtures_subset_recordAll commands hfixture)
      · cases h

/-- Every command that returns zero requests one test. -/
theorem length_tests_recordAll (log : SuiteLog) {commands : List NewTestCommand}
    {fs fs' : FileSystem} (h : Hades.Runtime.runNewTests codec cwd commands fs = some fs') :
    (log.recordAll commands).tests.length = log.tests.length + commands.length := by
  induction commands generalizing log fs with
  | nil => rfl
  | cons command commands ih =>
      rw [Hades.Runtime.runNewTests] at h
      split at h
      · next fs₁ hcommand =>
        obtain ⟨fixtureName, testId, rest, -, -, -, hargs, -⟩ := cmdNewTest_eq_zero hcommand
        have hrecord : (log.record command.args).tests.length = log.tests.length + 1 := by
          rw [hargs, SuiteLog.record, List.length_append, List.length_singleton]
        have hrest : (log.recordAll (command :: commands)).tests.length =
            (log.record command.args).tests.length + commands.length := ih _ h
        rw [hrest, hrecord, List.length_cons]
        omega
      · cases h

/-- The files contain what the suite was told, and the suite resolves. -/
structure ReadsBack (log : SuiteLog) (codec : DoubleCodec) (dir : Text) (fs : FileSystem) :
    Prop where
  fixtures : readRegistryIni (registryIniPath dir) (fs (registryIniPath dir)) =
    (log.fixtures, [])
  tests : readSuiteToml codec (suiteTomlPath dir) (fs (suiteTomlPath dir)) = (log.tests, [])
  resolved : log.IsResolved
  regenerates : regenerateSuite codec fs dir =
    .ok { m_SuiteDir := dir, m_Fixtures := log.fixtures, m_Tests := log.tests }

/-- Files that contain a log are read back. -/
theorem IsHeldBy.readsBack {log : SuiteLog} {dir : Text} {fs : FileSystem}
    (h : log.IsHeldBy codec cwd dir fs) : log.ReadsBack codec dir fs := by
  obtain ⟨registry, hregistry, hfixtures, -⟩ := h.registry
  obtain ⟨suite, hsuite, htests, -⟩ := h.suite
  rw [← hregistry] at hfixtures
  rw [← hsuite] at htests
  refine ⟨hfixtures, htests, h.resolved, ?_⟩
  refine regenerateSuite_eq_ok_iff.mpr ⟨hfixtures, htests, rfl, ?_⟩
  rw [validateFixtureReferences, List.all_eq_true]
  intro test ht
  obtain ⟨fixture, hfixture, hname⟩ := List.any_eq_true.mp (h.resolved test ht)
  exact List.any_eq_true.mpr ⟨fixture, hfixture, beq_of_eq (of_decide_eq_true hname)⟩

end SuiteLog

/-! ### A new suite -/

/-- A new registry contains no fixture. -/
theorem readRegistryIni_newRegistryIni (path : Text) :
    readRegistryIni path (some newRegistryIni) = ([], []) :=
  (by decide +kernel : readRegistryIni [] (some newRegistryIni) = ([], []))

/-- A new manifest contains no test. -/
theorem readSuiteToml_newSuiteToml (path : Text) :
    readSuiteToml codec path (some newSuiteToml) = ([], []) :=
  rfl

theorem lastLine_new : Lines.lastLine '\n' newRegistryIni = [] ∧
    Lines.lastLine '\n' newSuiteToml = [] := by
  decide

theorem FileSystem.writeIfMissing_of_none {fs : FileSystem} {path : Text} (h : fs path = none)
    (content : Text) : fs.writeIfMissing path content = fs.write path content := by
  rw [FileSystem.writeIfMissing, h]
  rfl

/-- The file of a directory, from the working directory. -/
theorem absolutePath_inDirectory {dir : Text} (hdir : dir ≠ []) (cwd name : Text) :
    absolutePath cwd (inDirectory dir name) = inDirectory (absolutePath cwd dir) name := by
  have hhead : (inDirectory dir name).head? = dir.head? := by
    rw [inDirectory, List.head?_append_of_ne_nil _ hdir]
  rw [absolutePath, absolutePath, hhead]
  split
  · rfl
  split
  · rw [inDirectory, inDirectory, List.append_assoc]
  · rw [inDirectory, inDirectory, inDirectory, inDirectory, List.append_assoc, List.cons_append]

/-- **A new suite** in a fresh directory holds the empty log. -/
theorem isHeldBy_cmdInitSuite {dir : Text} {fs fs' : FileSystem}
    (hsuite : fs (suiteTomlPath (absolutePath cwd dir)) = none)
    (hregistry : fs (registryIniPath (absolutePath cwd dir)) = none)
    (h : cmdInitSuite codec cwd [dir] fs = (fs', 0)) :
    SuiteLog.IsHeldBy {} codec cwd (absolutePath cwd dir) fs' := by
  by_cases hdir : dir = []
  · rw [cmdInitSuite, adoptSuite, if_pos hdir] at h
    cases h
  have hsuitePath : absolutePath cwd (suiteTomlPath dir) = suiteTomlPath (absolutePath cwd dir) :=
    absolutePath_inDirectory hdir cwd _
  have hregistryPath : absolutePath cwd (registryIniPath dir) =
      registryIniPath (absolutePath cwd dir) := absolutePath_inDirectory hdir cwd _
  obtain ⟨root, hroot⟩ : ∃ root, absolutePath cwd dir = root := ⟨_, rfl⟩
  rw [hroot] at hsuite hregistry hsuitePath hregistryPath ⊢
  have hfiles := registryIniPath_ne_suiteTomlPath root root
  have hmissing : fs.write (suiteTomlPath root) newSuiteToml (registryIniPath root) = none := by
    rw [FileSystem.write_of_ne _ hfiles, hregistry]
  rw [cmdInitSuite, adoptSuite, if_neg hdir, hroot, hsuitePath, hregistryPath,
    FileSystem.writeIfMissing_of_none hsuite] at h
  dsimp only at h
  rw [FileSystem.writeIfMissing_of_none hmissing] at h
  split at h
  · obtain rfl := (Prod.mk.inj h).1
    refine ⟨FileSystem.write_self _ _ _,
      ⟨newRegistryIni, ?_, readRegistryIni_newRegistryIni _, lastLine_new.1⟩,
      ⟨newSuiteToml, ?_, readSuiteToml_newSuiteToml _, lastLine_new.2⟩,
      fun test ht => by cases ht⟩
    · rw [FileSystem.write_of_ne _ (markerPath_ne_registryIniPath cwd root).symm,
        FileSystem.write_self]
    · rw [FileSystem.write_of_ne _ (markerPath_ne_suiteTomlPath cwd root).symm,
        FileSystem.write_of_ne _ hfiles.symm, FileSystem.write_self]
  · cases h

/-- **The files of a new suite contain what its commands were given** exactly when they are
commands on this suite, whose directory has no line end at its end, and every fixture was
registered with a header and an extra link directory of one line, without white space at
their ends. -/
theorem readsBack_runNewTests_iff {dir : Text} {fs fs₀ fs' : FileSystem}
    {commands : List NewTestCommand} (hsuite : fs (suiteTomlPath (absolutePath cwd dir)) = none)
    (hregistry : fs (registryIniPath (absolutePath cwd dir)) = none)
    (hinit : cmdInitSuite codec cwd [dir] fs = (fs₀, 0))
    (h : runNewTests codec cwd commands fs₀ = some fs') :
    (SuiteLog.recordAll {} commands).ReadsBack codec (absolutePath cwd dir) fs' ↔
      (commands = [] ∨ popLineEnds (absolutePath cwd dir) = absolutePath cwd dir) ∧
        ∀ fixture ∈ (SuiteLog.recordAll {} commands).fixtures, fixture.IsPlain := by
  have hstart := isHeldBy_cmdInitSuite hsuite hregistry hinit
  constructor
  · intro hread
    refine ⟨?_, fun fixture hfixture => ?_⟩
    · by_contra hforeign
      obtain ⟨hne, hname⟩ := not_or.mp hforeign
      -- no command has touched the manifest, which contains no test
      have htests := hread.tests
      rw [suite_runNewTests_of_ne hname hstart.marker h, hstart.readsBack.tests] at htests
      have hlength := SuiteLog.length_tests_recordAll {} h
      rw [← (Prod.mk.inj htests).1] at hlength
      exact hne (List.length_eq_zero_iff.mp (by simpa using hlength.symm))
    · have hmem : fixture ∈ (readRegistryIni (registryIniPath (absolutePath cwd dir))
          (fs' (registryIniPath (absolutePath cwd dir)))).1 := by
        rwa [hread.fixtures]
      exact (isClean_of_mem_readRegistryIni hmem).2
  · rintro ⟨rfl | hname, hplain⟩
    · obtain rfl := Option.some.inj h
      exact hstart.readsBack
    · exact (hstart.runNewTests hname h hplain).readsBack

/-- The first test of a fixture. -/
def sampleCommand (header : Text) : NewTestCommand where
  args := ["F".toList, "a".toList, flagArgument "header".toList header, "--adapter=A".toList,
    "--chrono=C".toList, "--hash=H".toList]

/-- Two tests of one fixture. -/
theorem readsBack_runNewTests_two :
    ∃ fs', runNewTests sampleCodec "/w".toList
        [sampleCommand "f.h".toList, { args := ["F".toList, "b".toList] }]
        (cmdInitSuite sampleCodec "/w".toList ["/s".toList] fun _ => none).1 = some fs' ∧
      ((SuiteLog.recordAll {}
          [sampleCommand "f.h".toList, { args := ["F".toList, "b".toList] }]).ReadsBack
          sampleCodec (absolutePath "/w".toList "/s".toList) fs' ↔
        ([sampleCommand "f.h".toList, { args := ["F".toList, "b".toList] }] = [] ∨
          popLineEnds (absolutePath "/w".toList "/s".toList) =
            absolutePath "/w".toList "/s".toList) ∧
        ∀ fixture ∈ (SuiteLog.recordAll {}
          [sampleCommand "f.h".toList, { args := ["F".toList, "b".toList] }]).fixtures,
          fixture.IsPlain) := by
  have hsome : (runNewTests sampleCodec "/w".toList
      [sampleCommand "f.h".toList, { args := ["F".toList, "b".toList] }]
      (cmdInitSuite sampleCodec "/w".toList ["/s".toList] fun _ => none).1).isSome = true := by
    decide +kernel
  obtain ⟨fs', hrun⟩ := Option.isSome_iff_exists.mp hsome
  have hvalue : (cmdInitSuite sampleCodec "/w".toList ["/s".toList] fun _ => none).2 = 0 := by
    decide +kernel
  exact ⟨fs', hrun, readsBack_runNewTests_iff rfl rfl (Prod.ext rfl hvalue) hrun⟩

/-- A fixture whose header is a blank is registered, and the registry is no longer read. -/
theorem readsBack_runNewTests_blankHeader :
    ∃ fs', runNewTests sampleCodec "/w".toList [sampleCommand " ".toList]
        (cmdInitSuite sampleCodec "/w".toList ["/s".toList] fun _ => none).1 = some fs' ∧
      (readRegistryIni (registryIniPath "/s".toList) (fs' (registryIniPath "/s".toList))).2 ≠ [] ∧
      ¬ (SuiteLog.recordAll {} [sampleCommand " ".toList]).ReadsBack sampleCodec "/s".toList
        fs' := by
  have hany : (runNewTests sampleCodec "/w".toList [sampleCommand " ".toList]
      (cmdInitSuite sampleCodec "/w".toList ["/s".toList] fun _ => none).1).any (fun fs' =>
        decide ((readRegistryIni (registryIniPath "/s".toList)
          (fs' (registryIniPath "/s".toList))).2 ≠ [])) = true := by
    decide +kernel
  obtain ⟨fs', hrun, herrors⟩ := (Option.any_eq_true _ _).mp hany
  have herrors := of_decide_eq_true herrors
  refine ⟨fs', hrun, herrors, ?_⟩
  intro hread
  rw [hread.fixtures] at herrors
  exact herrors rfl

end Hades.Runtime
