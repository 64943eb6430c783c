import Hades.CommandLine
import Hades.EmittedConfig
import Hades.SuiteDriver
import Hades.WildcardMatch

/-!
# The Generated Program

The program that the generator makes of a suite (`MAIN_BODY_TEMPLATE` in
`HadesCodegen.cpp`): it registers the fixtures, selects tests by the pattern of `--fbt=`, runs
them with an exit-code listener, and returns whether a test failed.

Its tests are what its own assignments build (`Hades.EmittedConfig`); a suite whose
assignments cannot be executed has no program.

## Main results

* `buildSuiteTests_eq`: the tests of the program, with the suite's ids.
* `GeneratedProgram.executedTests_main`: the program executes **the selected tests in
  order**, each one once.
* `GeneratedProgram.exitCode_main_eq_zero_iff`: **the exit code is zero** exactly when every
  executed test passed.
-/

namespace Hades.Runtime

/-! ### The tests of the program -/

/-- The entry that the program builds for a test, if its text can be executed. -/
def buildSuiteTest (test : SuiteTestEntry) : Option SuiteTestEntry :=
  match readValue (stringLiteral test.m_FixtureName ++ [';']),
      execAssignments (appendConfigAssignments test.m_Config) {} with
  | some (.string name, _), some entry => some { entry with m_FixtureName := cString name }
  | _, _ => none

/-- The tests that the program builds. -/
def buildSuiteTests (request : ResolveRequest) : Option (List SuiteTestEntry) :=
  request.m_Tests.mapM buildSuiteTest

/-- The entry that a test becomes in the program. -/
def SuiteTestEntry.compiled (test : SuiteTestEntry) : SuiteTestEntry :=
  { m_FixtureName := cString test.m_FixtureName, m_Config := test.m_Config.compiled }

/-- **The entry of the program** has the names of the suite up to their first NUL. -/
theorem buildSuiteTest_eq {test entry : SuiteTestEntry} (h : buildSuiteTest test = some entry) :
    entry = test.compiled := by
  by_cases hname : '\n' ∈ test.m_FixtureName
  · rw [buildSuiteTest, readValue_stringLiteral_of_newline hname] at h
    cases h
  by_cases hid : '\n' ∈ test.m_Config.m_Id
  · rw [buildSuiteTest, execAssignments_of_newline hid] at h
    split at h
    · next hnone => cases hnone
    · cases h
  · rw [buildSuiteTest, denotes_stringLiteral hname [],
      execAssignments_appendConfigAssignments hid] at h
    exact (Option.some.inj h).symm

/-- **The tests of the program** are those of the suite. -/
theorem buildSuiteTests_eq {request : ResolveRequest} {tests : List SuiteTestEntry}
    (h : buildSuiteTests request = some tests) :
    tests = request.m_Tests.map SuiteTestEntry.compiled := by
  obtain ⟨suite, hsuite⟩ : ∃ suite, request.m_Tests = suite := ⟨_, rfl⟩
  rw [buildSuiteTests, hsuite] at h
  rw [hsuite]
  clear hsuite
  induction suite generalizing tests with
  | nil => exact (Option.some.inj h).symm
  | cons test rest ih =>
      rw [List.mapM_cons] at h
      obtain ⟨entry, hentry, h⟩ := Option.bind_eq_some_iff.mp h
      obtain ⟨entries, hentries, h⟩ := Option.bind_eq_some_iff.mp h
      obtain rfl := Option.some.inj h
      rw [buildSuiteTest_eq hentry, ih hentries, List.map_cons]

/-- A text without NULs is kept. -/
theorem cString_eq_self {text : Text} (h : '\x00' ∉ text) : cString text = text :=
  List.takeWhile_eq_self_iff.mpr fun c hc => by simpa using fun hnul : c = '\x00' => h (hnul ▸ hc)

/-- What is kept of a text has no NUL. -/
theorem nul_notMem_cString (text : Text) : '\x00' ∉ cString text := by
  intro hmem
  have h := List.mem_takeWhile_imp hmem
  simp at h

/-- In a suite that resolves, the program's tests name registered fixtures. -/
theorem resolved_buildSuiteTests {request : ResolveRequest} {tests : List SuiteTestEntry}
    (hvalid : validateFixtureReferences request = true)
    (hnames : ∀ fixture ∈ request.m_Fixtures, '\x00' ∉ fixture.m_FixtureName)
    (htests : buildSuiteTests request = some tests) :
    ∀ test ∈ tests, ∃ fixture ∈ request.m_Fixtures,
      fixture.m_FixtureName = test.m_FixtureName := by
  intro test ht
  rw [buildSuiteTests_eq htests] at ht
  obtain ⟨entry, hentry, rfl⟩ := List.mem_map.mp ht
  obtain ⟨fixture, hfixture, hname⟩ :=
    List.any_eq_true.mp (List.all_eq_true.mp hvalid entry hentry)
  have heq := eq_of_beq hname
  exact ⟨fixture, hfixture, heq.trans (cString_eq_self (heq ▸ hnames fixture hfixture)).symm⟩

/-! ### The arguments -/

/-- The arguments of the program. -/
structure MainArguments where
  l_fbtPattern : Text := []
  l_format : Text := "console".toList
  l_cooldown : ℕ := 0
  deriving DecidableEq

/-- One more argument; an unknown one is skipped. -/
def MainArguments.parse (arguments : MainArguments) (arg : Text) : MainArguments :=
  match flagValue? "fbt".toList arg with
  | some value => { arguments with l_fbtPattern := value }
  | none =>
    match flagValue? "format".toList arg with
    | some value => { arguments with l_format := value }
    | none =>
      match flagValue? "cooldown".toList arg with
      | some value =>
        let cooldown := strtoul ULONG_MAX value
        { arguments with l_cooldown := if 65535 < cooldown then 0 else cooldown }
      | none => arguments

/-- Whether a pattern selects a test; the empty one selects every test. -/
def selects (pattern : Text) (test : SuiteTestEntry) : Bool :=
  pattern.isEmpty || wildcardMatch pattern test.m_Config.m_Id

/-! ### The program -/

/-- The run did not break, and its hashes agree. -/
def BenchmarkResult.passed (result : BenchmarkResult) : Bool :=
  !result.runFailed && result.deterministic

/-- Remembers whether a test failed. -/
structure ExitCodeListener where
  m_anyFailed : Bool := false
  deriving DecidableEq

/-- A call of the listener. -/
def ExitCodeListener.handle (listener : ExitCodeListener) : ListenerEvent → ExitCodeListener
  | .onTestComplete _ result =>
    if result.runFailed || !result.deterministic then { m_anyFailed := true } else listener
  | _ => listener

/-- A program, with the fixtures that it registers and the tests that it builds. Only a suite
whose tests name registered fixtures has one. -/
structure GeneratedProgram where
  fixtures : List FixtureEntry
  tests : List SuiteTestEntry
  resolved : ∀ test ∈ tests, ∃ fixture ∈ fixtures, fixture.m_FixtureName = test.m_FixtureName

/-- What a process of the program does, and what its `main` returns. -/
structure ProcessRun where
  actions : List DriverAction
  exitCode : ℕ
  deriving DecidableEq

namespace GeneratedProgram

/-- Register every fixture, each one with the runner compiled for it. -/
def registerAllFixtures (program : GeneratedProgram) (compiled : FixtureEntry → FactoryFn) :
    FixtureRegistry :=
  FixtureRegistry.registerAll {} (program.fixtures.map fun f => (f.m_FixtureName, compiled f))

/-- The driver that the program runs. -/
def driver (program : GeneratedProgram) (compiled : FixtureEntry → FactoryFn)
    (arguments : MainArguments) : SuiteDriver where
  m_registry := program.registerAllFixtures compiled
  m_tests := program.tests.filter (selects arguments.l_fbtPattern)
  m_cooldownSeconds := UInt16.ofNat arguments.l_cooldown

/-- The program: a console or JSON listener, and the exit-code listener behind it. -/
def main (program : GeneratedProgram) (compiled : FixtureEntry → FactoryFn)
    (args : List Text) : ProcessRun :=
  let actions := (program.driver compiled (args.foldl MainArguments.parse {})).run 2
  let exitTracker : ExitCodeListener := (eventsFor 1 actions).foldl ExitCodeListener.handle {}
  { actions, exitCode := if exitTracker.m_anyFailed then 1 else 0 }

/-- The program of a suite. A name with a NUL is no identifier, and no fixture of this name can
be registered. -/
def generate (request : ResolveRequest) : Option GeneratedProgram :=
  if hvalid : validateFixtureReferences request = true ∧
      ∀ fixture ∈ request.m_Fixtures, '\x00' ∉ fixture.m_FixtureName then
    match htests : buildSuiteTests request with
    | some tests =>
      some
        { fixtures := request.m_Fixtures
          tests := tests
          resolved := resolved_buildSuiteTests hvalid.1 hvalid.2 htests }
    | none => none
  else none

/-- The tests of a suite's program. -/
theorem tests_of_generate {request : ResolveRequest} {program : GeneratedProgram}
    (h : generate request = some program) :
    program.tests = request.m_Tests.map SuiteTestEntry.compiled := by
  rw [generate] at h
  split at h
  · split at h
    · next tests htests =>
      obtain rfl := Option.some.inj h
      exact buildSuiteTests_eq htests
    · cases h
  · cases h

variable (program : GeneratedProgram) (compiled : FixtureEntry → FactoryFn)

/-- The fixture of a test: of several with its name the first. -/
def fixtureOf (test : SuiteTestEntry) : Option FixtureEntry :=
  program.fixtures.find? (·.m_FixtureName = test.m_FixtureName)

/-- The registry finds the runner of a test's fixture. -/
theorem find_registerAllFixtures (test : SuiteTestEntry) :
    (program.registerAllFixtures compiled).find test.m_FixtureName =
      (program.fixtureOf test).map compiled := by
  rw [registerAllFixtures, FixtureRegistry.find_registerAll, fixtureOf, List.find?_map,
    Option.map_map]
  exact Option.none_or

/-- The fixture of a test is registered. -/
theorem exists_fixtureOf {test : SuiteTestEntry} (ht : test ∈ program.tests) :
    ∃ fixture, program.fixtureOf test = some fixture := by
  obtain ⟨fixture, hfixture, hname⟩ := program.resolved test ht
  refine Option.isSome_iff_exists.mp (List.find?_isSome.mpr ⟨fixture, hfixture, ?_⟩)
  exact decide_eq_true hname

/-- The driver of the program knows every test. -/
theorem knows_driver (arguments : MainArguments) :
    ∀ test ∈ (program.driver compiled arguments).m_tests,
      (program.driver compiled arguments).Knows test := by
  intro test ht
  obtain ⟨fixture, hfixture⟩ := program.exists_fixtureOf (List.mem_filter.mp ht).1
  rw [SuiteDriver.Knows, driver, find_registerAllFixtures, hfixture]
  rfl

/-- **The program executes the selected tests** in order, each one once. -/
theorem executedTests_main (args : List Text) :
    executedTests (program.main compiled args).actions =
      program.tests.filter (selects (args.foldl MainArguments.parse {}).l_fbtPattern) :=
  SuiteDriver.executedTests_run _ _ (program.knows_driver compiled _)

/-- **The executions of the program**: every selected test, with what the runner of its fixture
measures at its position. -/
theorem executions_main (args : List Text) :
    executions (program.main compiled args).actions =
      (program.tests.filter
          (selects (args.foldl MainArguments.parse {}).l_fbtPattern)).zipIdx.map fun t =>
        (t.1, (program.driver compiled (args.foldl MainArguments.parse {})).testResult t.2 t.1) :=
  SuiteDriver.executions_run _ _ (program.knows_driver compiled _)

/-- The result of a test is what the runner of its fixture measures. -/
theorem testResult_driver {test : SuiteTestEntry} {fixture : FixtureEntry}
    (h : program.fixtureOf test = some fixture) (arguments : MainArguments) (index : ℕ) :
    (program.driver compiled arguments).testResult index test =
      compiled fixture index test.m_Config := by
  have hfind : (program.driver compiled arguments).m_registry.find test.m_FixtureName =
      some (compiled fixture) := by
    rw [driver, find_registerAllFixtures, h]
    rfl
  rw [SuiteDriver.testResult, hfind]

/-- The exit-code listener remembers a failure. -/
theorem anyFailed_foldl (events : List ListenerEvent) (listener : ExitCodeListener) :
    (events.foldl ExitCodeListener.handle listener).m_anyFailed = true ↔
      listener.m_anyFailed = true ∨
        ∃ id result, .onTestComplete id result ∈ events ∧ result.passed = false := by
  induction events generalizing listener with
  | nil => simp
  | cons event events ih =>
      rw [List.foldl_cons, ih]
      cases event with
      | onTestStart id => simp [ExitCodeListener.handle]
      | onSuiteComplete => simp [ExitCodeListener.handle]
      | onTestComplete id result =>
          have hfailed : (result.runFailed || !result.deterministic) = !result.passed := by
            rw [BenchmarkResult.passed, Bool.not_and, Bool.not_not]
          rw [ExitCodeListener.handle, hfailed]
          cases hpassed : result.passed with
          | true =>
              constructor
              · rintro (h | ⟨i, r, hmem, hr⟩)
                · exact .inl h
                · exact .inr ⟨i, r, List.mem_cons_of_mem _ hmem, hr⟩
              · rintro (h | ⟨i, r, hmem, hr⟩)
                · exact .inl h
                · rcases List.mem_cons.mp hmem with heq | hmem
                  · obtain ⟨rfl, rfl⟩ := ListenerEvent.onTestComplete.inj heq
                    rw [hpassed] at hr
                    cases hr
                  · exact .inr ⟨i, r, hmem, hr⟩
          | false =>
              exact ⟨fun _ => .inr ⟨id, result, List.mem_cons_self, hpassed⟩, fun _ => .inl rfl⟩

/-- **The exit code is zero** exactly when every executed test passed. -/
theorem exitCode_main_eq_zero_iff (args : List Text) :
    (program.main compiled args).exitCode = 0 ↔
      ∀ e ∈ executions (program.main compiled args).actions, e.2.passed = true := by
  obtain ⟨driver, hdriver⟩ :
      ∃ driver, program.driver compiled (args.foldl MainArguments.parse {}) = driver := ⟨_, rfl⟩
  have hknows := program.knows_driver compiled (args.foldl MainArguments.parse {})
  rw [hdriver] at hknows
  have hexit : (program.main compiled args).exitCode = 0 ↔
      ¬ ((eventsFor 1 (driver.run 2)).foldl ExitCodeListener.handle {}).m_anyFailed = true := by
    rw [main, hdriver]
    split <;> simp_all
  have hexecutions : executions (program.main compiled args).actions =
      driver.m_tests.zipIdx.map fun t => (t.1, driver.testResult t.2 t.1) := by
    rw [main, hdriver]
    exact driver.executions_run 2 hknows
  rw [hexit, hexecutions, anyFailed_foldl, driver.eventsFor_run (by decide)]
  constructor
  · intro hnone e he
    obtain ⟨t, ht, rfl⟩ := List.mem_map.mp he
    by_contra hpassed
    refine hnone (.inr ⟨t.1.m_Config.m_Id, driver.testResult t.2 t.1, ?_,
      Bool.eq_false_iff.mpr hpassed⟩)
    exact List.mem_append_left _ (List.mem_flatMap.mpr
      ⟨t, ht, List.mem_cons_of_mem _ List.mem_cons_self⟩)
  · rintro hall (hstart | ⟨id, result, hmem, hfailed⟩)
    · cases hstart
    · rcases List.mem_append.mp hmem with hmem | hmem
      · obtain ⟨t, ht, hevent⟩ := List.mem_flatMap.mp hmem
        rw [SuiteDriver.testEvents] at hevent
        simp only [List.mem_cons, reduceCtorEq, List.not_mem_nil, or_false, false_or] at hevent
        obtain ⟨rfl, rfl⟩ := ListenerEvent.onTestComplete.inj hevent
        have hpassed := hall _ (List.mem_map.mpr ⟨t, ht, rfl⟩)
        rw [hfailed] at hpassed
        cases hpassed
      · cases List.mem_singleton.mp hmem

/-- The exit code is zero or one. -/
theorem exitCode_main_le (args : List Text) : (program.main compiled args).exitCode ≤ 1 := by
  rw [main]
  dsimp only
  split
  · exact le_refl 1
  · exact Nat.zero_le 1

end GeneratedProgram

end Hades.Runtime
