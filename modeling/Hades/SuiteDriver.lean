import Hades.Configuration
import Hades.BenchmarkResult

/-!
# The Suite Driver

The registry of fixtures (`FixtureRegistry.h`) and the driver that runs the queued tests in
order and tells every listener (`SuiteDriver.cpp`). A run is the list of what the driver does:
it idles, it runs a fixture, it calls a listener.

A factory builds a fresh runner for each test. What a runner measures depends on the machine,
so the result of a run is a function of the configuration and of the test's position in the
process.

## Main results

* `FixtureRegistry.find_registerAll`: of several fixtures with one name the first is found.
* `SuiteDriver.executions_run`: with every fixture registered, the driver executes **the
  queued tests in order**, each one once.
* `SuiteDriver.eventsFor_run`: every listener hears of each of them, and of its result.
-/

namespace Hades.Runtime

/-! ### The registry -/

/-- A factory, with the `run` of the fixture that it builds. -/
abbrev FactoryFn := ℕ → Config → BenchmarkResult

/-- The registered factories; the order of the hash map is never used. -/
structure FixtureRegistry where
  m_factories : Text → Option FactoryFn := fun _ => none

namespace FixtureRegistry

/-- Look a fixture up. -/
def find (registry : FixtureRegistry) (name : Text) : Option FactoryFn :=
  registry.m_factories name

/-- Register a fixture. As with `emplace`, a name keeps its first factory. -/
def registerFixture (registry : FixtureRegistry) (name : Text) (factory : FactoryFn) :
    FixtureRegistry :=
  if (registry.find name).isSome then registry
  else { m_factories := Function.update registry.m_factories name (some factory) }

/-- Register a series of fixtures. -/
def registerAll (registry : FixtureRegistry) (fixtures : List (Text × FactoryFn)) :
    FixtureRegistry :=
  fixtures.foldl (fun registry fixture => registry.registerFixture fixture.1 fixture.2) registry

/-- One more fixture is found unless its name is taken. -/
theorem find_registerFixture (registry : FixtureRegistry) (name : Text) (factory : FactoryFn)
    (key : Text) :
    (registry.registerFixture name factory).find key =
      (registry.find key).or (if name = key then some factory else none) := by
  rw [registerFixture]
  by_cases hkey : name = key
  · obtain rfl := hkey
    cases h : registry.find name with
    | some other => simp [h]
    | none => simp [find]
  · have hother : (if name = key then some factory else none) = none := if_neg hkey
    rw [hother, Option.or_none]
    split
    · rfl
    · exact Function.update_of_ne (Ne.symm hkey) _ _

/-- **Of several fixtures with one name** the first one is found. -/
theorem find_registerAll (registry : FixtureRegistry) (fixtures : List (Text × FactoryFn))
    (key : Text) :
    (registry.registerAll fixtures).find key =
      (registry.find key).or ((fixtures.find? (·.1 = key)).map Prod.snd) := by
  induction fixtures generalizing registry with
  | nil => exact (Option.or_none).symm
  | cons fixture fixtures ih =>
      rw [registerAll, List.foldl_cons, ← registerAll, ih, find_registerFixture, Option.or_assoc]
      by_cases hkey : fixture.1 = key
      · simp [hkey]
      · simp [hkey]

end FixtureRegistry

/-! ### The driver -/

/-- A call of a listener. -/
inductive ListenerEvent where
  | onTestStart (id : Text)
  | onTestComplete (id : Text) (result : BenchmarkResult)
  | onSuiteComplete
  deriving DecidableEq

/-- What the driver does in a run. -/
inductive DriverAction where
  | sleepFor (seconds : UInt16)
  | runFixture (test : SuiteTestEntry) (result : BenchmarkResult)
  | notify (listener : ℕ) (event : ListenerEvent)
  deriving DecidableEq

/-- The driver with its queued tests. -/
structure SuiteDriver where
  m_registry : FixtureRegistry
  m_tests : List SuiteTestEntry
  m_cooldownSeconds : UInt16 := 0

namespace SuiteDriver

/-- Call every listener. -/
def notifyAll (listeners : ℕ) (event : ListenerEvent) : List DriverAction :=
  (List.range listeners).map fun listener => .notify listener event

/-- The result of the test at a position; an unknown fixture fails. -/
def testResult (driver : SuiteDriver) (index : ℕ) (test : SuiteTestEntry) : BenchmarkResult :=
  match driver.m_registry.find test.m_FixtureName with
  | none => { runFailed := true }
  | some factory => factory index test.m_Config

/-- What runs of a test: the fixture, if there is one. -/
def runFactory (driver : SuiteDriver) (index : ℕ) (test : SuiteTestEntry) : List DriverAction :=
  match driver.m_registry.find test.m_FixtureName with
  | none => []
  | some _ => [.runFixture test (driver.testResult index test)]

/-- The pause before a test: not before the first one, and not before a correctness test. -/
def cooldown (driver : SuiteDriver) (anyRan : Bool) (test : SuiteTestEntry) :
    List DriverAction :=
  if 0 < driver.m_cooldownSeconds ∧ anyRan ∧ test.m_Config.m_Kind = .Performance then
    [.sleepFor driver.m_cooldownSeconds]
  else []

/-- One test. -/
def runTest (driver : SuiteDriver) (listeners : ℕ) (anyRan : Bool) (index : ℕ)
    (test : SuiteTestEntry) : List DriverAction :=
  driver.cooldown anyRan test ++
  notifyAll listeners (.onTestStart test.m_Config.m_Id) ++
  driver.runFactory index test ++
  notifyAll listeners (.onTestComplete test.m_Config.m_Id (driver.testResult index test))

/-- The tests, one after another. -/
def runTests (driver : SuiteDriver) (listeners : ℕ) :
    Bool → ℕ → List SuiteTestEntry → List DriverAction
  | _, _, [] => []
  | anyRan, index, test :: tests =>
    driver.runTest listeners anyRan index test ++
      driver.runTests listeners true (index + 1) tests

/-- The whole run. -/
def run (driver : SuiteDriver) (listeners : ℕ) : List DriverAction :=
  driver.runTests listeners false 0 driver.m_tests ++ notifyAll listeners .onSuiteComplete

end SuiteDriver

/-! ### What a run is about -/

/-- The execution of a test, with its result. -/
def DriverAction.execution : DriverAction → Option (SuiteTestEntry × BenchmarkResult)
  | .runFixture test result => some (test, result)
  | _ => none

/-- The calls that a listener gets. -/
def DriverAction.eventFor (listener : ℕ) : DriverAction → Option ListenerEvent
  | .notify l event => if l = listener then some event else none
  | _ => none

/-- The executed tests with their results. -/
def executions (actions : List DriverAction) : List (SuiteTestEntry × BenchmarkResult) :=
  actions.filterMap DriverAction.execution

/-- The executed tests. -/
def executedTests (actions : List DriverAction) : List SuiteTestEntry :=
  (executions actions).map Prod.fst

/-- The calls that a listener gets in a run. -/
def eventsFor (listener : ℕ) (actions : List DriverAction) : List ListenerEvent :=
  actions.filterMap (DriverAction.eventFor listener)

theorem executions_append (xs ys : List DriverAction) :
    executions (xs ++ ys) = executions xs ++ executions ys :=
  List.filterMap_append

theorem eventsFor_append (listener : ℕ) (xs ys : List DriverAction) :
    eventsFor listener (xs ++ ys) = eventsFor listener xs ++ eventsFor listener ys :=
  List.filterMap_append

namespace SuiteDriver

variable (driver : SuiteDriver)

/-- A call of the listeners executes nothing. -/
theorem executions_notifyAll (listeners : ℕ) (event : ListenerEvent) :
    executions (notifyAll listeners event) = [] := by
  rw [executions, notifyAll, List.filterMap_map]
  exact List.filterMap_eq_nil_iff.mpr fun listener _ => rfl

/-- A listener gets the call. -/
theorem eventsFor_notifyAll {listener listeners : ℕ} (h : listener < listeners)
    (event : ListenerEvent) : eventsFor listener (notifyAll listeners event) = [event] := by
  rw [eventsFor, notifyAll, List.filterMap_map]
  induction listeners with
  | zero => omega
  | succ n ih =>
      rw [List.range_succ, List.filterMap_append]
      by_cases hn : listener = n
      · have hfirst : (List.range n).filterMap
            (DriverAction.eventFor listener ∘ fun l => .notify l event) = [] := by
          refine List.filterMap_eq_nil_iff.mpr ?_
          intro l hl
          exact if_neg (by have := List.mem_range.mp hl; omega)
        rw [hfirst]
        simp [DriverAction.eventFor, hn]
      · rw [ih (by omega)]
        simp [DriverAction.eventFor, Ne.symm hn]

/-- A pause executes nothing, and no listener gets a call. -/
theorem filterMap_cooldown {β : Type} {f : DriverAction → Option β}
    (hf : ∀ seconds, f (.sleepFor seconds) = none) (anyRan : Bool) (test : SuiteTestEntry) :
    (driver.cooldown anyRan test).filterMap f = [] := by
  rw [cooldown]
  split
  · simp [hf]
  · rfl

/-- The fixture of a test is registered. -/
def Knows (test : SuiteTestEntry) : Prop :=
  (driver.m_registry.find test.m_FixtureName).isSome = true

/-- **One test** with a registered fixture is executed once. -/
theorem executions_runTest (listeners : ℕ) (anyRan : Bool) (index : ℕ) {test : SuiteTestEntry}
    (h : driver.Knows test) :
    executions (driver.runTest listeners anyRan index test) =
      [(test, driver.testResult index test)] := by
  obtain ⟨factory, hfind⟩ := Option.isSome_iff_exists.mp h
  have hrun : driver.runFactory index test =
      [.runFixture test (driver.testResult index test)] := by
    rw [runFactory, hfind]
  have hpause : executions (driver.cooldown anyRan test) = [] :=
    driver.filterMap_cooldown (fun _ => rfl) anyRan test
  rw [runTest, executions_append, executions_append, executions_append, hpause,
    executions_notifyAll, executions_notifyAll, hrun]
  rfl

/-- **The tests**, one after another. -/
theorem executions_runTests (listeners : ℕ) (anyRan : Bool) (index : ℕ)
    {tests : List SuiteTestEntry} (h : ∀ test ∈ tests, driver.Knows test) :
    executions (driver.runTests listeners anyRan index tests) =
      (tests.zipIdx index).map fun t => (t.1, driver.testResult t.2 t.1) := by
  induction tests generalizing anyRan index with
  | nil => rfl
  | cons test tests ih =>
      rw [runTests, executions_append,
        driver.executions_runTest _ _ _ (h test List.mem_cons_self),
        ih _ _ fun test ht => h test (List.mem_cons_of_mem _ ht)]
      rfl

/-- **The whole run**: the queued tests are executed in order, each one once. -/
theorem executions_run (listeners : ℕ) (h : ∀ test ∈ driver.m_tests, driver.Knows test) :
    executions (driver.run listeners) =
      driver.m_tests.zipIdx.map fun t => (t.1, driver.testResult t.2 t.1) := by
  rw [run, executions_append, executions_notifyAll, List.append_nil,
    driver.executions_runTests _ _ _ h]

/-- The executed tests of a run are the queued ones. -/
theorem executedTests_run (listeners : ℕ) (h : ∀ test ∈ driver.m_tests, driver.Knows test) :
    executedTests (driver.run listeners) = driver.m_tests := by
  rw [executedTests, driver.executions_run listeners h, List.map_map]
  exact List.zipIdx_map_fst 0 driver.m_tests

/-! ### What a listener hears -/

/-- The calls for one test. -/
def testEvents (index : ℕ) (test : SuiteTestEntry) : List ListenerEvent :=
  [.onTestStart test.m_Config.m_Id,
    .onTestComplete test.m_Config.m_Id (driver.testResult index test)]

/-- **One test** is two calls for every listener. -/
theorem eventsFor_runTest {listener listeners : ℕ} (h : listener < listeners) (anyRan : Bool)
    (index : ℕ) (test : SuiteTestEntry) :
    eventsFor listener (driver.runTest listeners anyRan index test) =
      driver.testEvents index test := by
  have hpause : eventsFor listener (driver.cooldown anyRan test) = [] :=
    driver.filterMap_cooldown (fun _ => rfl) anyRan test
  have hrun : eventsFor listener (driver.runFactory index test) = [] := by
    rw [runFactory]
    split <;> rfl
  rw [runTest, eventsFor_append, eventsFor_append, eventsFor_append, hpause, hrun,
    eventsFor_notifyAll h, eventsFor_notifyAll h]
  rfl

/-- **The tests**, one after another. -/
theorem eventsFor_runTests {listener listeners : ℕ} (h : listener < listeners) (anyRan : Bool)
    (index : ℕ) (tests : List SuiteTestEntry) :
    eventsFor listener (driver.runTests listeners anyRan index tests) =
      (tests.zipIdx index).flatMap fun t => driver.testEvents t.2 t.1 := by
  induction tests generalizing anyRan index with
  | nil => rfl
  | cons test tests ih =>
      rw [runTests, eventsFor_append, driver.eventsFor_runTest h, ih]
      rfl

/-- **The whole run**, as a listener hears it. -/
theorem eventsFor_run {listener listeners : ℕ} (h : listener < listeners) :
    eventsFor listener (driver.run listeners) =
      (driver.m_tests.zipIdx.flatMap fun t => driver.testEvents t.2 t.1) ++
        [.onSuiteComplete] := by
  rw [run, eventsFor_append, driver.eventsFor_runTests h, eventsFor_notifyAll h]

end SuiteDriver

end Hades.Runtime
