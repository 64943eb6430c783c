import Hades.RunModes
import Hades.TraceMarks

/-!
# The Trace of a Suite

The driver of a suite and isolate mode of the command each have a rule of their own for the
pause between tests. This module reads the pauses off the traces, directly before the first
call that starts a test and directly before the start of its process, and says what else
happens in a run: what each listener hears, and what is executed when fixtures are missing.

## Main results

* `SuiteDriver.run_eq`: a run is one block for each test, and the end of the suite.
* `SuiteDriver.executions_run_filter`: the tests of registered fixtures are executed, whatever
  is between them.
* `pausesBefore_cmdRunIsolate`: the pauses of isolate mode.
* `SuiteDriver.run_trace`: **the whole trace of a run**.
-/

namespace Hades.Runtime

open TraceMarks

/-- The pause that an action of the driver is. -/
def DriverAction.pause : DriverAction → Option UInt16
  | .sleepFor seconds => some seconds
  | _ => none

/-- The first call of a test's start. -/
def DriverAction.startsTest : DriverAction → Bool
  | .notify 0 (.onTestStart _) => true
  | _ => false

/-- The pause that an action of the command is. -/
def CommandAction.pause : CommandAction → Option UInt16
  | .sleepFor seconds => some seconds
  | _ => none

/-- The start of a process. -/
def CommandAction.startsTest : CommandAction → Bool
  | .startProcess .. => true
  | _ => false

/-- The pauses directly before each test of a run, and before each process of a command. -/
def pausesBefore (actions : List DriverAction) : List (List UInt16) :=
  directlyBefore DriverAction.pause DriverAction.startsTest [] actions

/-- The pauses directly before each process of a command. -/
def CommandRun.pausesBefore (run : CommandRun) : List (List UInt16) :=
  directlyBefore CommandAction.pause CommandAction.startsTest [] run.actions

/-- **The rule**: a positive cooldown before every performance test but the first test. -/
def pausesOf (cooldownSeconds : UInt16) (tests : List SuiteTestEntry) : List (List UInt16) :=
  tests.zipIdx.map fun t =>
    if 0 < cooldownSeconds ∧ 0 < t.2 ∧ t.1.m_Config.m_Kind = .Performance then
      [cooldownSeconds]
    else []

namespace SuiteDriver

variable (driver : SuiteDriver)

/-! ### The blocks of a run -/

/-- The tests from a position on, one block for each. -/
theorem runTests_eq (listeners : ℕ) (index : ℕ) (tests : List SuiteTestEntry) :
    driver.runTests listeners (decide (0 < index)) index tests =
      (tests.zipIdx index).flatMap fun t =>
        driver.runTest listeners (decide (0 < t.2)) t.2 t.1 := by
  induction tests generalizing index with
  | nil => rfl
  | cons test tests ih =>
      rw [runTests, List.zipIdx_cons, List.flatMap_cons, ← ih (index + 1),
        decide_eq_true (Nat.succ_pos index)]

/-- **A run** is one block for each test, and the end of the suite. -/
theorem run_eq (listeners : ℕ) :
    driver.run listeners =
      (driver.m_tests.zipIdx.flatMap fun t =>
        driver.runTest listeners (decide (0 < t.2)) t.2 t.1) ++
      notifyAll listeners .onSuiteComplete := by
  rw [run, ← driver.runTests_eq]
  rfl

/-- A call that does not start a test is quiet. -/
theorem quiet_notifyAll {event : ListenerEvent} (h : ∀ id, event ≠ .onTestStart id)
    (listeners : ℕ) :
    ∀ a ∈ notifyAll listeners event, Quiet DriverAction.pause DriverAction.startsTest a := by
  intro a ha
  obtain ⟨listener, -, rfl⟩ := List.mem_map.mp ha
  refine ⟨rfl, ?_⟩
  cases event with
  | onTestStart id => exact absurd rfl (h id)
  | onTestComplete id result => cases listener <;> rfl
  | onSuiteComplete => cases listener <;> rfl

/-- **The block of a test**: its pause, and then the calls that start it. -/
theorem isBlock_runTest {listeners : ℕ} (hpos : 0 < listeners) (index : ℕ)
    (test : SuiteTestEntry) :
    IsBlock DriverAction.pause DriverAction.startsTest
      (if 0 < driver.m_cooldownSeconds ∧ 0 < index ∧ test.m_Config.m_Kind = .Performance then
        [driver.m_cooldownSeconds] else [])
      (driver.runTest listeners (decide (0 < index)) index test) := by
  obtain ⟨n, rfl⟩ := Nat.exists_eq_succ_of_ne_zero hpos.ne'
  have hstart : notifyAll (n + 1) (.onTestStart test.m_Config.m_Id) =
      .notify 0 (.onTestStart test.m_Config.m_Id) ::
        (List.range n).map fun l => .notify (l + 1) (.onTestStart test.m_Config.m_Id) := by
    rw [notifyAll, List.range_succ_eq_map, List.map_cons, List.map_map]
    rfl
  refine ⟨driver.cooldown (decide (0 < index)) test,
    .notify 0 (.onTestStart test.m_Config.m_Id),
    ((List.range n).map fun l => .notify (l + 1) (.onTestStart test.m_Config.m_Id)) ++
      driver.runFactory index test ++
      notifyAll (n + 1) (.onTestComplete test.m_Config.m_Id (driver.testResult index test)),
    ?_, ?_, rfl, rfl, ?_⟩
  · rw [runTest, hstart]
    simp only [List.append_assoc, List.cons_append]
  · rw [cooldown]
    simp only [decide_eq_true_eq]
    split
    · rfl
    · rfl
  · intro a ha
    rcases List.mem_append.mp ha with ha | ha
    · rcases List.mem_append.mp ha with ha | ha
      · obtain ⟨l, -, rfl⟩ := List.mem_map.mp ha
        exact ⟨rfl, rfl⟩
      · rw [runFactory] at ha
        split at ha
        · cases ha
        · rw [List.mem_singleton.mp ha]
          exact ⟨rfl, rfl⟩
    · exact quiet_notifyAll (fun id => by simp) _ a ha

/-- **The pauses of a run.** -/
theorem pausesBefore_run {listeners : ℕ} (hpos : 0 < listeners) :
    pausesBefore (driver.run listeners) =
      pausesOf driver.m_cooldownSeconds driver.m_tests := by
  rw [pausesBefore, driver.run_eq]
  exact directlyBefore_flatMap (fun t _ => driver.isBlock_runTest hpos t.2 t.1)
    (quiet_notifyAll (fun id => by simp) _)

/-- There are no other pauses. -/
theorem filterMap_pause_run {listeners : ℕ} (hpos : 0 < listeners) :
    (driver.run listeners).filterMap DriverAction.pause =
      (pausesOf driver.m_cooldownSeconds driver.m_tests).flatten := by
  rw [driver.run_eq]
  exact filterMap_flatMap (fun t _ => driver.isBlock_runTest hpos t.2 t.1)
    (quiet_notifyAll (fun id => by simp) _)

/-! ### Missing fixtures -/

/-- One test is executed if its fixture is registered. -/
theorem executions_runTest_ite (listeners : ℕ) (anyRan : Bool) (index : ℕ)
    (test : SuiteTestEntry) :
    executions (driver.runTest listeners anyRan index test) =
      if (driver.m_registry.find test.m_FixtureName).isSome then
        [(test, driver.testResult index test)]
      else [] := by
  by_cases h : driver.Knows test
  · rw [driver.executions_runTest listeners anyRan index h]
    exact (if_pos h).symm
  · have hnone : driver.m_registry.find test.m_FixtureName = none := by
      rwa [Knows, Option.isSome_iff_ne_none, not_not] at h
    have hpause : executions (driver.cooldown anyRan test) = [] :=
      driver.filterMap_cooldown (fun _ => rfl) anyRan test
    have hrun : driver.runFactory index test = [] := by rw [runFactory, hnone]
    rw [runTest, executions_append, executions_append, executions_append, hpause,
      executions_notifyAll, executions_notifyAll, hrun, hnone]
    rfl

/-- **The tests of registered fixtures are executed** in order, each one once. -/
theorem executions_run_filter (listeners : ℕ) :
    executions (driver.run listeners) =
      (driver.m_tests.zipIdx.filter fun t =>
        (driver.m_registry.find t.1.m_FixtureName).isSome).map fun t =>
          (t.1, driver.testResult t.2 t.1) := by
  rw [driver.run_eq, executions_append, executions_notifyAll, List.append_nil, executions,
    List.filterMap_flatMap]
  refine (List.flatMap_congr fun t _ =>
    driver.executions_runTest_ite listeners (decide (0 < t.2)) t.2 t.1).trans ?_
  induction driver.m_tests.zipIdx with
  | nil => rfl
  | cons t ts ih =>
      rw [List.flatMap_cons, ih]
      by_cases h : (driver.m_registry.find t.1.m_FixtureName).isSome = true
      · rw [if_pos h, List.filter_cons, if_pos h, List.map_cons]
        rfl
      · rw [if_neg h, List.filter_cons, if_neg h, List.nil_append]

end SuiteDriver

/-! ### Isolate mode -/

/-- The block of a test in isolate mode: its pause, and the process. -/
theorem isBlock_runChild (machine : Machine) (options : RunOptions) (run : PreparedRun)
    (index : ℕ) (test : SuiteTestEntry) :
    IsBlock CommandAction.pause CommandAction.startsTest
      (if 0 < run.cooldownSeconds ∧ 0 < index ∧ test.m_Config.m_Kind = .Performance then
        [run.cooldownSeconds] else [])
      (run.runChild machine options index test) := by
  refine ⟨_, _, [], rfl, ?_, rfl, rfl, fun a ha => by cases ha⟩
  split
  · rfl
  · rfl

/-- **The pauses of isolate mode**, for a manifest without errors. -/
theorem pausesBefore_cmdRunIsolate {codec : DoubleCodec} {fs : FileSystem} {run : PreparedRun}
    {entries : List SuiteTestEntry}
    (h : readSuiteToml codec (suiteTomlPath run.suiteDir) (fs (suiteTomlPath run.suiteDir)) =
      (entries, []))
    (machine : Machine) (options : RunOptions) :
    (cmdRunIsolate codec fs machine options run).pausesBefore =
      pausesOf run.cooldownSeconds (entries.filter (selects options.l_fbt)) := by
  rw [cmdRunIsolate, h]
  by_cases hnone : entries.filter (selects options.l_fbt) = []
  · simp only [hnone]
    rfl
  · simp only [ne_eq, not_true_eq_false, false_or, hnone, if_false, CommandRun.pausesBefore]
    have hblocks := directlyBefore_flatMap
      (fun t (_ : t ∈ (entries.filter (selects options.l_fbt)).zipIdx) =>
        isBlock_runChild machine options run t.2 t.1)
      (fun a (ha : a ∈ []) => by cases ha)
    rwa [List.append_nil] at hblocks

/-! ### The whole trace -/

/-- **The whole trace of a run**, for every registry, list of tests, cooldown and number of
listeners: what each listener hears, where the results come from, what is executed, where
the run idles, and that isolate mode idles before the same tests. -/
theorem SuiteDriver.run_trace (driver : SuiteDriver) (listeners : ℕ) (hpos : 0 < listeners) :
    (∀ listener < listeners, eventsFor listener (driver.run listeners) =
      (driver.m_tests.zipIdx.flatMap fun t =>
        [.onTestStart t.1.m_Config.m_Id,
          .onTestComplete t.1.m_Config.m_Id (driver.testResult t.2 t.1)]) ++
      [.onSuiteComplete]) ∧
    (∀ index test, driver.testResult index test =
      match driver.m_registry.find test.m_FixtureName with
      | none => { runFailed := true }
      | some factory => factory index test.m_Config) ∧
    executions (driver.run listeners) =
      (driver.m_tests.zipIdx.filter fun t =>
        (driver.m_registry.find t.1.m_FixtureName).isSome).map
          (fun t => (t.1, driver.testResult t.2 t.1)) ∧
    pausesBefore (driver.run listeners) =
      pausesOf driver.m_cooldownSeconds driver.m_tests ∧
    (driver.run listeners).filterMap DriverAction.pause =
      (pausesOf driver.m_cooldownSeconds driver.m_tests).flatten ∧
    ∀ (codec : DoubleCodec) (fs : FileSystem) (machine : Machine) (options : RunOptions)
      (run : PreparedRun) (entries : List SuiteTestEntry),
      readSuiteToml codec (suiteTomlPath run.suiteDir) (fs (suiteTomlPath run.suiteDir)) =
        (entries, []) →
      driver.m_tests = entries.filter (selects options.l_fbt) →
      driver.m_cooldownSeconds = run.cooldownSeconds →
      (cmdRunIsolate codec fs machine options run).pausesBefore =
        pausesBefore (driver.run listeners) := by
  refine ⟨fun listener h => driver.eventsFor_run h, fun index test => rfl,
    driver.executions_run_filter listeners, driver.pausesBefore_run hpos,
    driver.filterMap_pause_run hpos, ?_⟩
  intro codec fs machine options run entries hread htests hcooldown
  rw [pausesBefore_cmdRunIsolate hread, driver.pausesBefore_run hpos, htests, hcooldown]

/-- A suite of two tests in isolate mode, and a driver with the same tests and no fixture for
them: both idle before the second test. -/
theorem SuiteDriver.run_trace_isolate :
    ∃ run, prepareRun sampleCodec "/w".toList (sampleFiles ["a".toList, "b".toList])
        (sampleMachine true) { l_cooldownStr := "3".toList } = .ok run ∧
      let driver : SuiteDriver := ⟨{}, run.suiteTests.filter (selects []), run.cooldownSeconds⟩
      (cmdRunIsolate sampleCodec (sampleFiles ["a".toList, "b".toList]) (sampleMachine true)
          { l_cooldownStr := "3".toList } run).pausesBefore =
        pausesBefore (driver.run 2) := by
  obtain ⟨run, hrun⟩ := exists_prepareRun_of_isOk
    (by decide +kernel : (prepareRun sampleCodec "/w".toList
      (sampleFiles ["a".toList, "b".toList]) (sampleMachine true)
      { l_cooldownStr := "3".toList }).isOk = true)
  refine ⟨run, hrun, ?_⟩
  intro driver
  obtain ⟨-, -, -, -, -, hisolate⟩ := driver.run_trace 2 (Nat.succ_pos 1)
  exact hisolate _ _ _ _ run run.suiteTests (readSuiteToml_of_prepareRun hrun) rfl rfl

/-- The second of three tests has no fixture: the others still run, and all but the first
have a pause. -/
example :
    let test (id : Text) (name : Text) : SuiteTestEntry :=
      { m_FixtureName := name, m_Config := { m_Id := id } }
    let registry := ({} : FixtureRegistry).registerFixture ['F'] fun index _ =>
      { sliceCount := UInt32.ofNat index }
    let driver : SuiteDriver :=
      ⟨registry, [test ['a'] ['F'], test ['b'] ['G'], test ['c'] ['F']], 3⟩
    eventsFor 1 (driver.run 2) =
        [.onTestStart ['a'], .onTestComplete ['a'] { sliceCount := 0 },
          .onTestStart ['b'], .onTestComplete ['b'] { runFailed := true },
          .onTestStart ['c'], .onTestComplete ['c'] { sliceCount := 2 }, .onSuiteComplete] ∧
      pausesBefore (driver.run 2) = [[], [3], [3]] := by
  decide

end Hades.Runtime
