import Hades.SequentialRunner
import Hades.StopReasons
import Hades.SuiteDriver

/-!
# How the Results of a Suite Say They Ended

A result that reaches a listener comes from one of three places: the slice loop of a
performance test, the single execution of a correctness test, or the driver itself where the
fixture is not registered. Only the slice loop writes the stop reason; in the other two it
keeps the zero of the value-initialised result, which is the first enumerator.

## Main results

* `SequentialRunner.exists_internalFinish`: a performance run ends with the stop decision of its
  loop.
* `RunnerSetup.endsTruthfully_result`: **one result** of a performance test is truthful.
* `SuiteDriver.endingsTruthful_iff`: exactly which suites report every ending truthfully.
-/

namespace Hades.Runtime

open ExitLoop

/-- The exit of a converged loop is the last of the four that are tried. -/
theorem StatsAccumulator.shouldStop_converged {sqrt : ℚ → ℚ} {s : StatsAccumulator}
    (h : (s.shouldStop sqrt).2 = true) (hreason : (s.shouldStop sqrt).1.stopReason = .CvConverged) :
    s.consecutiveDiscards < s.knobs.consecutiveDiscardCap ∧
      s.totalDiscards < s.knobs.totalDiscardCap ∧ s.acceptedSlices < s.knobs.maxSlices ∧
      s.knobs.minSlices ≤ s.acceptedSlices ∧
      s.internalCurrentCv sqrt ≤ s.knobs.cvThreshold := by
  by_cases h1 : s.knobs.consecutiveDiscardCap ≤ s.consecutiveDiscards
  · rw [shouldStop, if_pos h1] at hreason
    cases hreason
  by_cases h2 : s.knobs.totalDiscardCap ≤ s.totalDiscards
  · rw [shouldStop, if_neg h1, if_pos h2] at hreason
    cases hreason
  by_cases h3 : s.knobs.maxSlices ≤ s.acceptedSlices
  · rw [shouldStop, if_neg h1, if_neg h2, if_pos h3] at hreason
    cases hreason
  by_cases h4 : s.knobs.minSlices ≤ s.acceptedSlices ∧
      s.internalCurrentCv sqrt ≤ s.knobs.cvThreshold
  · exact ⟨UInt32.not_le.mp h1, UInt32.not_le.mp h2, UInt32.not_le.mp h3, h4⟩
  · rw [shouldStop, if_neg h1, if_neg h2, if_neg h3, if_neg h4] at h
    cases h

/-- A run that fails on its last decision has been stopped by one of the first two exits. -/
theorem StatsAccumulator.stopReason_of_failed {sqrt : ℚ → ℚ} {s : StatsAccumulator}
    (h : (s.shouldStop sqrt).2 = true) (hnot : s.runFailed = false)
    (hfailed : (s.shouldStop sqrt).1.runFailed = true) :
    (s.shouldStop sqrt).1.stopReason ≠ .CvConverged ∧
      (s.shouldStop sqrt).1.stopReason ≠ .HardCapReached := by
  rcases shouldStop_stop_cases h with ⟨hr, -⟩ | ⟨hr, -⟩ | ⟨-, hf, -⟩ | ⟨-, hf, -⟩
  · rw [hr]
    exact ⟨by simp, by simp⟩
  · rw [hr]
    exact ⟨by simp, by simp⟩
  · rw [hf, hnot] at hfailed
    cases hfailed
  · rw [hf, hnot] at hfailed
    cases hfailed

namespace SequentialRunner

variable {σ ε τ : Type}

/-- A bound on the passes of the slice loop: the budget its statistics start with. -/
def passes (r : SequentialRunner σ ε τ) (config : Config) (state : σ) : ℕ :=
  (r.prepared config state).2.stats.budget

/-- The statistics `s`, which the first `n` slices lead to, after the slice that follows. -/
def lastFed (r : SequentialRunner σ ε τ) (config : Config) (state : σ) (n : ℕ)
    (s : StatsAccumulator) : StatsAccumulator :=
  (s.feedSlice (r.sliceTimings (r.prepared config state).1
    (r.prepared config state).2.world n)).1

/-- The loop of a run stops on the slice after the first `n`, out of the state `s`. -/
structure StopsAfter (r : SequentialRunner σ ε τ) (sqrt : ℚ → ℚ) (config : Config)
    (state : σ) (n : ℕ) (s : StatsAccumulator) : Prop where
  running : r.statsLoop sqrt (r.prepared config state).1 (r.prepared config state).2 n =
    .running s
  stops : ((r.lastFed config state n s).shouldStop sqrt).2 = true

/-- **The slice loop stopped because it converged**: after the minimum number of slices the
coefficient of variation is within the threshold, and none of the other exits is taken. -/
def StoppedByCv (r : SequentialRunner σ ε τ) (sqrt : ℚ → ℚ) (config : Config) (state : σ) :
    Prop :=
  ∃ n s, r.StopsAfter sqrt config state n s ∧
    let fed := r.lastFed config state n s
    fed.consecutiveDiscards < fed.knobs.consecutiveDiscardCap ∧
      fed.totalDiscards < fed.knobs.totalDiscardCap ∧
      fed.acceptedSlices < fed.knobs.maxSlices ∧
      fed.knobs.minSlices ≤ fed.acceptedSlices ∧
      fed.internalCurrentCv sqrt ≤ fed.knobs.cvThreshold

/-- **A performance run ends** within its passes: it finishes with the statistics of the stop
decision of its loop. -/
theorem exists_internalFinish (r : SequentialRunner σ ε τ) (sqrt : ℚ → ℚ) {config : Config}
    (hkind : config.m_Kind = .Performance) (state : σ) :
    ∃ n s v, r.StopsAfter sqrt config state n s ∧
      v.stats = ((r.lastFed config state n s).shouldStop sqrt).1 ∧
      ∀ fuel, r.passes config state ≤ fuel → r.run sqrt config state fuel =
        some (r.internalFinish sqrt config (r.chrono.now 0) (r.prepared config state).1 v) := by
  have hcounting : (r.prepared config state).2.stats.Counting :=
    StatsAccumulator.counting_deriveKnobs _ _ _
  obtain ⟨n, s, hs, hstop⟩ := r.exists_statsLoop_exit sqrt (r.prepared config state).1
    hcounting
  have hn : n < r.passes config state := by
    by_contra hge
    obtain ⟨s', hrunning⟩ := r.exists_running_of_le sqrt _ _ hs (not_lt.mp hge)
    obtain ⟨s'', hexited⟩ : ∃ s'', r.statsLoop sqrt (r.prepared config state).1
        (r.prepared config state).2 (r.passes config state) = .exited s'' :=
      StatsAccumulator.exists_exit_of_budget hcounting (by simp [passes])
    rw [hrunning] at hexited
    cases hexited
  obtain ⟨v, hv, hexit⟩ : ∃ v : LoopVars σ,
      v.stats = ((r.lastFed config state n s).shouldStop sqrt).1 ∧
      ∀ fuel, n + 1 ≤ fuel → r.runnerLoop sqrt (r.prepared config state).1
        (r.prepared config state).2 fuel = .exited v :=
    ⟨_, rfl, fun fuel hfuel => r.runnerLoop_of_exit sqrt _ _ hs hstop hfuel⟩
  refine ⟨n, s, v, ⟨hs, hstop⟩, hv, fun fuel hfuel => ?_⟩
  rw [r.run_of_performance sqrt hkind, hexit fuel (lt_of_lt_of_le hn hfuel)]

/-- The ending that such a run reports is the stop decision's. -/
theorem exists_finish (r : SequentialRunner σ ε τ) (sqrt : ℚ → ℚ) {config : Config}
    (hkind : config.m_Kind = .Performance) (state : σ) :
    ∃ n s result, r.StopsAfter sqrt config state n s ∧
      (∀ fuel, r.passes config state ≤ fuel → r.run sqrt config state fuel = some result) ∧
      result.stopReason = ((r.lastFed config state n s).shouldStop sqrt).1.stopReason ∧
      result.runFailed = ((r.lastFed config state n s).shouldStop sqrt).1.runFailed := by
  obtain ⟨n, s, v, hstops, hv, hrun⟩ := r.exists_internalFinish sqrt hkind state
  refine ⟨n, s, _, hstops, hrun, ?_, ?_⟩
  · rw [← hv]
    simp only [internalFinish, StatsAccumulator.assembleResult]
    split
    · rfl
    · rfl
  · rw [← hv]
    rfl

/-- Every running state of the loop is one of a run that has neither stopped nor failed. -/
theorem runsSoFar_of_running (r : SequentialRunner σ ε τ) (sqrt : ℚ → ℚ) (config : Config)
    (state : σ) {n : ℕ} {s : StatsAccumulator}
    (h : r.statsLoop sqrt (r.prepared config state).1 (r.prepared config state).2 n =
      .running s) :
    ∃ pre, StatsAccumulator.RunsSoFar (r.prepared config state).2.stats pre s :=
  ⟨_, (loopState_invariant (StatsAccumulator.sliceStep sqrt)
    (StatsAccumulator.RunsSoFar (r.prepared config state).2.stats)
    (StatsAccumulator.runsSoFar_deriveKnobs _ _ _) (fun _ _ _ hrun hgo => hrun.sliceStep hgo)
    _).1 s h⟩

/-- A correctness run is one execution, whatever the bound on its passes. -/
theorem run_of_correctness (r : SequentialRunner σ ε τ) (sqrt : ℚ → ℚ) {config : Config}
    (hkind : config.m_Kind = .Correctness) (state : σ) (fuel : ℕ) :
    r.run sqrt config state fuel = some (r.internalRunCorrectnessOnce (r.chrono.now 0)
      ((({ state := state } : World σ).now r.chrono).2.act r.fixture.startup)) := by
  simp only [run, hkind, if_true]
  rfl

end SequentialRunner

/-! ### The fixtures of a suite -/

/-- What a factory sets up for one test: a runner and the state that its fixture starts in. -/
structure RunnerSetup where
  (σ ε τ : Type)
  runner : SequentialRunner σ ε τ
  state : σ

/-- The result of the run of a setup. -/
def RunnerSetup.result (setup : RunnerSetup) (sqrt : ℚ → ℚ) (config : Config) :
    BenchmarkResult :=
  (setup.runner.run sqrt config setup.state (setup.runner.passes config setup.state)).getD {}

/-- The factory of a fixture, which sets up a fresh runner for the test at each position. -/
def concreteFixtureRunner (sqrt : ℚ → ℚ) (setups : ℕ → RunnerSetup) : FactoryFn :=
  fun index config => (setups index).result sqrt config

/-- The registry of a series of fixtures. -/
def registryOf (sqrt : ℚ → ℚ) (fixtures : List (Text × (ℕ → RunnerSetup))) :
    FixtureRegistry :=
  FixtureRegistry.registerAll {}
    (fixtures.map fun fixture => (fixture.1, concreteFixtureRunner sqrt fixture.2))

/-- The first fixture of a name is the one that is found. -/
theorem find_registryOf (sqrt : ℚ → ℚ) (fixtures : List (Text × (ℕ → RunnerSetup)))
    (name : Text) :
    (registryOf sqrt fixtures).find name =
      (fixtures.find? (·.1 = name)).map fun fixture =>
        concreteFixtureRunner sqrt fixture.2 := by
  rw [registryOf, FixtureRegistry.find_registerAll, List.find?_map, Option.map_map]
  rfl

/-! ### Truthful endings -/

/-- **The ending of a result is reported truthfully**, where `converged` says that a slice
loop ran and stopped because it converged. -/
structure EndsTruthfully (converged : Prop) (result : BenchmarkResult) : Prop where
  converged_of : result.stopReason = .CvConverged → converged
  of_failed : result.runFailed = true →
    result.stopReason ≠ .CvConverged ∧ result.stopReason ≠ .HardCapReached

/-- **One result** of a performance test is truthful. -/
theorem RunnerSetup.endsTruthfully_result (setup : RunnerSetup) (sqrt : ℚ → ℚ)
    {config : Config} (hkind : config.m_Kind = .Performance) :
    EndsTruthfully (setup.runner.StoppedByCv sqrt config setup.state)
      (setup.result sqrt config) := by
  obtain ⟨n, s, result, hstops, hrun, hreason, hfailed⟩ :=
    setup.runner.exists_finish sqrt hkind setup.state
  have hresult : setup.result sqrt config = result := by
    rw [RunnerSetup.result, hrun _ le_rfl, Option.getD_some]
  obtain ⟨pre, hso⟩ := setup.runner.runsSoFar_of_running sqrt config setup.state hstops.running
  have hnot : (setup.runner.lastFed config setup.state n s).runFailed = false := by
    rw [SequentialRunner.lastFed, (StatsAccumulator.feedSlice_frame s _).1]
    exact hso.not_failed
  rw [hresult]
  refine ⟨fun hconverged => ?_, fun hfail => ?_⟩
  · rw [hreason] at hconverged
    exact ⟨n, s, hstops, StatsAccumulator.shouldStop_converged hstops.stops hconverged⟩
  · rw [hfailed] at hfail
    rw [hreason]
    exact StatsAccumulator.stopReason_of_failed hstops.stops hnot hfail

/-- The result of a correctness test keeps the zero of the enumeration. -/
theorem RunnerSetup.stopReason_of_correctness (setup : RunnerSetup) (sqrt : ℚ → ℚ)
    {config : Config} (hkind : config.m_Kind = .Correctness) :
    (setup.result sqrt config).stopReason = .CvConverged := by
  rw [RunnerSetup.result, setup.runner.run_of_correctness sqrt hkind, Option.getD_some]
  rfl

/-! ### The results of a suite -/

/-- The results that a listener is handed, in order. -/
def completedResults (listener : ℕ) (actions : List DriverAction) : List BenchmarkResult :=
  (eventsFor listener actions).filterMap fun
    | .onTestComplete _ result => some result
    | _ => none

namespace SuiteDriver

/-- **Every listener is handed the result of each test**, in the order of the tests. -/
theorem completedResults_run (driver : SuiteDriver) {listener listeners : ℕ}
    (h : listener < listeners) :
    completedResults listener (driver.run listeners) =
      driver.m_tests.zipIdx.map fun t => driver.testResult t.2 t.1 := by
  rw [completedResults, driver.eventsFor_run h, List.filterMap_append, List.filterMap_flatMap,
    List.map_eq_flatMap]
  exact List.append_nil _

/-- **Every listener is told truthfully how each test ended.** The fixture of a test is the
first one registered under its name, and its loop is that of the setup at its position. -/
def EndingsTruthful (sqrt : ℚ → ℚ) (fixtures : List (Text × (ℕ → RunnerSetup)))
    (tests : List SuiteTestEntry) (results : List BenchmarkResult) : Prop :=
  ∀ i test result, tests[i]? = some test → results[i]? = some result →
    EndsTruthfully
      (∃ fixture, fixtures.find? (·.1 = test.m_FixtureName) = some fixture ∧
        test.m_Config.m_Kind = .Performance ∧
        (fixture.2 i).runner.StoppedByCv sqrt test.m_Config (fixture.2 i).state)
      result

/-- A fixture of that name is among the registered ones. -/
theorem find?_isSome_iff (fixtures : List (Text × (ℕ → RunnerSetup))) (name : Text) :
    (fixtures.find? (·.1 = name)).isSome = true ↔ name ∈ fixtures.map Prod.fst := by
  rw [List.find?_isSome, List.mem_map]
  simp only [decide_eq_true_eq]

/-- The result of the test at a position, by its fixture. -/
theorem testResult_registryOf (sqrt : ℚ → ℚ) (fixtures : List (Text × (ℕ → RunnerSetup)))
    (tests : List SuiteTestEntry) (cooldown : UInt16) (i : ℕ) (test : SuiteTestEntry) :
    (SuiteDriver.mk (registryOf sqrt fixtures) tests cooldown).testResult i test =
      match fixtures.find? (·.1 = test.m_FixtureName) with
      | none => { runFailed := true }
      | some fixture => (fixture.2 i).result sqrt test.m_Config := by
  rw [testResult, find_registryOf]
  cases fixtures.find? (·.1 = test.m_FixtureName) with
  | none => rfl
  | some fixture => rfl

/-- **Which suites report every ending truthfully**: those whose tests are all performance
tests of registered fixtures. -/
theorem endingsTruthful_iff (sqrt : ℚ → ℚ) (fixtures : List (Text × (ℕ → RunnerSetup)))
    (tests : List SuiteTestEntry) (cooldown : UInt16) (listeners : ℕ) :
    let driver : SuiteDriver := ⟨registryOf sqrt fixtures, tests, cooldown⟩
    (∀ listener < listeners,
      EndingsTruthful sqrt fixtures tests (completedResults listener (driver.run listeners))) ↔
    listeners = 0 ∨ ∀ test ∈ tests,
      test.m_FixtureName ∈ fixtures.map Prod.fst ∧ test.m_Config.m_Kind = .Performance := by
  intro driver
  have hget : ∀ listener < listeners, ∀ i test, tests[i]? = some test →
      (completedResults listener (driver.run listeners))[i]? =
        some (driver.testResult i test) := by
    intro listener hl i test htest
    rw [driver.completedResults_run hl, List.getElem?_map, List.getElem?_zipIdx, htest]
    simp
  constructor
  · intro h
    rcases Nat.eq_zero_or_pos listeners with rfl | hpos
    · exact Or.inl rfl
    refine Or.inr fun test htest => ?_
    obtain ⟨i, hi⟩ := List.mem_iff_getElem?.mp htest
    obtain ⟨hconverged, hfailed⟩ := h 0 hpos i test _ hi (hget 0 hpos i test hi)
    rw [testResult_registryOf] at hconverged hfailed
    cases hfind : fixtures.find? (·.1 = test.m_FixtureName) with
    | none =>
        -- an unknown fixture has failed, and says that it converged
        rw [hfind] at hfailed
        exact absurd rfl (hfailed rfl).1
    | some fixture =>
        refine ⟨(find?_isSome_iff _ _).mp (by rw [hfind]; rfl), ?_⟩
        rw [hfind] at hconverged
        cases hkind : test.m_Config.m_Kind with
        | Performance => rfl
        | Correctness =>
            obtain ⟨-, -, hp, -⟩ := hconverged
              ((fixture.2 i).stopReason_of_correctness sqrt hkind)
            rw [hkind] at hp
            cases hp
  · rintro (rfl | hall) listener hl i test result htest hresult
    · exact absurd hl (Nat.not_lt_zero listener)
    obtain ⟨hknown, hkind⟩ := hall test (List.mem_of_getElem? htest)
    obtain ⟨fixture, hfind⟩ := Option.isSome_iff_exists.mp ((find?_isSome_iff _ _).mpr hknown)
    obtain rfl : driver.testResult i test = result :=
      Option.some.inj ((hget listener hl i test htest).symm.trans hresult)
    rw [testResult_registryOf, hfind]
    obtain ⟨hconverged, hfailed⟩ := (fixture.2 i).endsTruthfully_result sqrt hkind
    exact ⟨fun h => ⟨fixture, rfl, hkind, hconverged h⟩, hfailed⟩

/-- **A misspelt fixture has converged**: the result of a test whose fixture is not
registered has failed, and its stop reason is that of a converged loop. -/
theorem not_endingsTruthful_of_unknown :
    let test : SuiteTestEntry := { m_FixtureName := ['F'] }
    let driver : SuiteDriver := ⟨registryOf id [], [test], 0⟩
    completedResults 0 (driver.run 1) = [{ runFailed := true, stopReason := .CvConverged }] ∧
      ¬ EndingsTruthful id [] [test] (completedResults 0 (driver.run 1)) := by
  intro test driver
  have hresults : completedResults 0 (driver.run 1) =
      [{ runFailed := true, stopReason := .CvConverged }] := by decide
  refine ⟨hresults, fun h => ?_⟩
  rw [hresults] at h
  exact absurd rfl ((h 0 test _ rfl rfl).of_failed rfl).1

end SuiteDriver

end Hades.Runtime
