import Hades.Configuration
import Hades.SliceLoop
import Hades.Validator

/-!
# The Sequential Runner

One benchmark run (`SequentialRunner.h`): startup, warmup, calibration, the slice loop
with its two exits, teardown and the result.

The fixture and the device adapter act on one joint state of an arbitrary type `σ`, since a
fixture may use its adapter. The clock is an arbitrary sequence of readings: the state of a
run holds the number of readings taken. The memory fences have no effect on one thread and
are left out. The slice loop takes a bound on the number of its passes; a run that needs
more of them has no result.

## Main results

* `runnerLoop_of_running` and `runnerLoop_of_exit`: the runner's loop is the slice loop of
  the statistics next to the validator and the fixture's own evolution.
* `exists_measuredSlices`: **the runner's loop ends**, after the same slices for every
  sufficient bound.
* `run_deterministic_iff`: when the reported verdict is that of the output states.
-/

namespace Hades.Runtime

open ExitLoop

variable {σ ε τ : Type}

/-- A fixture: its life cycle and its hash, which may change the state. -/
structure IFixture (σ : Type) where
  startup : σ → σ
  execute : σ → σ
  reset : σ → σ
  teardown : σ → σ
  getDeterminismHash : σ → UInt64 × σ

/-- A device adapter with its timing events. -/
structure IDeviceAdapter (σ ε : Type) where
  synchronize : σ → σ
  event : ε
  recordEvent : ε → σ → ε × σ
  elapsedTime : σ → ε → ε → ℚ

/-- A clock: the reading it gives when asked for the `n`-th time, and the nanoseconds
between two readings. -/
structure IChronoPoint (τ : Type) where
  now : ℕ → τ
  delta : τ → τ → UInt64

/-- What a run changes: the joint state, and the number of clock readings taken. -/
structure World (σ : Type) where
  state : σ
  readings : ℕ := 0
  deriving DecidableEq

namespace World

/-- Apply one operation of the fixture or the adapter. -/
def act (w : World σ) (f : σ → σ) : World σ :=
  { w with state := f w.state }

/-- Read the clock. -/
def now (w : World σ) (chrono : IChronoPoint τ) : τ × World σ :=
  (chrono.now w.readings, { w with readings := w.readings + 1 })

/-- Record a timing event. -/
def recordEvent (w : World σ) (adapter : IDeviceAdapter σ ε) (event : ε) : ε × World σ :=
  let (event, state) := adapter.recordEvent event w.state
  (event, { w with state := state })

/-- Take the fixture's hash. -/
def getDeterminismHash (w : World σ) (fixture : IFixture σ) : UInt64 × World σ :=
  let (hash, state) := fixture.getDeterminismHash w.state
  (hash, { w with state := state })

end World

/-- What a run is set up with. -/
structure SequentialRunner (σ ε τ : Type) where
  fixture : IFixture σ
  adapter : IDeviceAdapter σ ε
  chrono : IChronoPoint τ
  isGpuRun : Bool

namespace SequentialRunner

/-- The seconds between two clock readings. -/
def internalSecondsBetween (r : SequentialRunner σ ε τ) (t₁ t₂ : τ) : ℚ :=
  (r.chrono.delta t₁ t₂).toNat * (1 / 1000000000)

/-- A slice up to its output state: `execute()` as often as asked, timed by the clock and
by the device events. -/
def internalExecuteSlice (r : SequentialRunner σ ε τ) (iterations : UInt64) (w : World σ) :
    SliceTimings × World σ :=
  let (cpuStart, w) := w.now r.chrono
  let (startEvent, w) := w.recordEvent r.adapter r.adapter.event
  let w := (fun w : World σ => w.act r.fixture.execute)^[iterations.toNat] w
  let (endEvent, w) := w.recordEvent r.adapter r.adapter.event
  let w := w.act r.adapter.synchronize
  let (cpuEnd, w) := w.now r.chrono
  let cpuWallTime := r.internalSecondsBetween cpuStart cpuEnd
  let deviceKernelTime :=
    if r.isGpuRun then r.adapter.elapsedTime w.state startEvent endEvent else 0
  ({ cpuWallTime := cpuWallTime
     deviceKernelTime := deviceKernelTime
     driverOverhead :=
      if r.isGpuRun then cpuWallTime - deviceKernelTime * (1 / 1000) else 0 }, w)

/-- One slice: the output state is reset at its end. -/
def internalRunSlice (r : SequentialRunner σ ε τ) (iterations : UInt64) (w : World σ) :
    SliceTimings × World σ :=
  let (timings, w) := r.internalExecuteSlice iterations w
  (timings, (w.act r.fixture.reset).act r.adapter.synchronize)

/-- Probes taken to size a slice. -/
abbrev CALIBRATION_PROBES : ℕ := 3

/-- The length a slice aims at, in seconds. -/
abbrev TARGET_SLICE_SECONDS : ℚ := 2 / 1000

/-- The largest slice that calibration picks. -/
abbrev MAX_AUTO_ITERATIONS : UInt64 := 1048576

/-- The slice times of the calibration probes, in order. -/
def internalProbes (r : SequentialRunner σ ε τ) : ℕ → World σ → List ℚ × World σ
  | 0, w => ([], w)
  | n + 1, w =>
    let (timings, w) := r.internalRunSlice 1 w
    let (probes, w) := r.internalProbes n w
    (timings.cpuWallTime :: probes, w)

/-- The fastest of the probes. -/
def internalFastest : List ℚ → ℚ
  | [] => 0
  | first :: later =>
    later.foldl (fun fastest probe => if probe < fastest then probe else fastest) first

/-- How often a slice executes the fixture: as configured, or sized by an untimed pass and
a few probes. -/
def internalResolveIterationsPerSlice (r : SequentialRunner σ ε τ) (config : Config)
    (w : World σ) : UInt64 × World σ :=
  if config.m_Iterations > 0 then (config.m_Iterations, w)
  else
    let (_, w) := r.internalRunSlice 1 w
    let (probes, w) := r.internalProbes CALIBRATION_PROBES w
    let fastest := internalFastest probes
    let iterations := TARGET_SLICE_SECONDS / fastest
    if fastest ≤ 0 then (1, w)
    else if iterations ≤ 1 then (1, w)
    else if MAX_AUTO_ITERATIONS.toNat ≤ iterations then (MAX_AUTO_ITERATIONS, w)
    else (UInt64.ofNat iterations.floor.toNat + 1, w)

/-- The run of a correctness test: one execution, hashed before the reset. -/
def internalRunCorrectnessOnce (r : SequentialRunner σ ε τ) (runStart : τ) (w : World σ) :
    BenchmarkResult :=
  let w := (w.act r.fixture.execute).act r.adapter.synchronize
  let (hash, w) := w.getDeterminismHash r.fixture
  let w := (w.act r.fixture.reset).act r.fixture.teardown
  let (runEnd, _) := w.now r.chrono
  { totalRunTime := r.internalSecondsBetween runStart runEnd
    threadCount := 1
    iterationsPerSlice := 1
    sliceCount := 1
    deterministic := true
    referenceHash := hash
    uniqueHashCount := 1
    runFailed := false
    isGpuRun := r.isGpuRun
    isHotspotRun := false }

/-- What the slice loop works on. -/
structure LoopVars (σ : Type) where
  world : World σ
  validator : DeterminismValidator XorHashAccumulator
  stats : StatsAccumulator

/-- One slice as the loop runs it: the slice, the statistics' synchronisation, and the
hash that goes to the validator. -/
def measureSlice (r : SequentialRunner σ ε τ) (iterations : UInt64) (w : World σ) :
    (SliceTimings × UInt64) × World σ :=
  let (timings, w) := r.internalRunSlice iterations w
  let w := w.act r.adapter.synchronize
  let (hash, w) := w.getDeterminismHash r.fixture
  ((timings, hash), w)

/-- One pass of the slice loop. -/
def loopPass (r : SequentialRunner σ ε τ) (sqrt : ℚ → ℚ) (iterations : UInt64)
    (v : LoopVars σ) (_ : Unit) : LoopVars σ × Bool :=
  let ((timings, hash), w) := r.measureSlice iterations v.world
  let (stats, stop) := v.stats.sliceStep sqrt timings
  ({ world := w, validator := v.validator.validateHash hash, stats := stats }, stop)

/-- The slice loop, with a bound on its passes. -/
def runnerLoop (r : SequentialRunner σ ε τ) (sqrt : ℚ → ℚ) (iterations : UInt64)
    (v : LoopVars σ) (fuel : ℕ) : LoopState (LoopVars σ) :=
  loopState (r.loopPass sqrt iterations) v (List.replicate fuel ())

/-- The knobs that a configuration overrides. -/
def configKnobs (config : Config) : StoppingKnobs where
  cvThreshold := config.m_CvThreshold
  minSlices := config.m_MinSlices
  maxSlices := config.m_MaxSlices
  consecutiveDiscardCap := config.m_ConsecutiveDiscardCap
  totalDiscardCap := config.m_TotalDiscardCap

/-- The warmup of a run. -/
def internalWarmup (r : SequentialRunner σ ε τ) (config : Config) (w : World σ) : World σ :=
  (fun w : World σ => (w.act r.fixture.execute).act r.adapter.synchronize)^[
    config.m_WarmupCount.toNat] w

/-- Everything before the slice loop: warmup and calibration. -/
def internalPrepare (r : SequentialRunner σ ε τ) (config : Config) (w : World σ) :
    UInt64 × LoopVars σ :=
  let w := r.internalWarmup config w
  let (iterationsPerSlice, w) := r.internalResolveIterationsPerSlice config w
  let (calibration, w) := r.internalRunSlice iterationsPerSlice w
  (iterationsPerSlice,
    { world := w
      validator := .init {}
      stats := ({ isGpuRun := r.isGpuRun } : StatsAccumulator).deriveKnobs
        calibration.cpuWallTime (configKnobs config) })

/-- Everything after the slice loop: teardown and the result. -/
def internalFinish (r : SequentialRunner σ ε τ) (sqrt : ℚ → ℚ) (config : Config)
    (runStart : τ) (iterationsPerSlice : UInt64) (v : LoopVars σ) : BenchmarkResult :=
  let w := (v.world.act r.fixture.teardown).act r.adapter.synchronize
  let (runEnd, _) := w.now r.chrono
  { v.stats.assembleResult sqrt {} iterationsPerSlice with
    totalRunTime := r.internalSecondsBetween runStart runEnd
    threadCount := 1
    iterationsPerSlice := iterationsPerSlice
    warmupCount := config.m_WarmupCount
    minSlices := v.stats.knobs.minSlices
    maxSlices := v.stats.knobs.maxSlices
    cvThreshold := v.stats.knobs.cvThreshold
    deterministic := v.validator.m_deterministic
    referenceHash := v.validator.m_referenceHash
    uniqueHashCount := v.validator.uniqueHashCount
    firstDivergenceSlice := v.validator.m_firstDivergenceSlice
    runFailed := v.stats.runFailed
    isHotspotRun := false }

/-- One benchmark run, if `fuel` slices are enough for it. -/
def run (r : SequentialRunner σ ε τ) (sqrt : ℚ → ℚ) (config : Config) (state : σ)
    (fuel : ℕ) : Option BenchmarkResult :=
  let (runStart, w) := ({ state := state } : World σ).now r.chrono
  let w := w.act r.fixture.startup
  if config.m_Kind = .Correctness then some (r.internalRunCorrectnessOnce runStart w)
  else
    let (iterationsPerSlice, v) := r.internalPrepare config w
    match r.runnerLoop sqrt iterationsPerSlice v fuel with
    | .running _ => none
    | .exited v => some (r.internalFinish sqrt config runStart iterationsPerSlice v)

/-! ### The fixture's own evolution -/

/-- The world before the `n`-th slice. The loop's other variables do not act on it. -/
def sliceWorld (r : SequentialRunner σ ε τ) (iterations : UInt64) (w : World σ) :
    ℕ → World σ
  | 0 => w
  | n + 1 => (r.measureSlice iterations (r.sliceWorld iterations w n)).2

/-- The timings of the `n`-th slice. -/
def sliceTimings (r : SequentialRunner σ ε τ) (iterations : UInt64) (w : World σ) (n : ℕ) :
    SliceTimings :=
  (r.measureSlice iterations (r.sliceWorld iterations w n)).1.1

/-- The hash that the validator is fed for the `n`-th slice. -/
def sliceHash (r : SequentialRunner σ ε τ) (iterations : UInt64) (w : World σ) (n : ℕ) :
    UInt64 :=
  (r.measureSlice iterations (r.sliceWorld iterations w n)).1.2

/-- **The output state** of the `n`-th slice: after its `execute()` calls, before `reset()`. -/
def outputState (r : SequentialRunner σ ε τ) (iterations : UInt64) (w : World σ) (n : ℕ) :
    σ :=
  (r.internalExecuteSlice iterations (r.sliceWorld iterations w n)).2.state

/-- What happens to an output state before it is hashed. -/
def settle (r : SequentialRunner σ ε τ) (s : σ) : σ :=
  r.adapter.synchronize (r.adapter.synchronize (r.fixture.reset s))

/-- The fixture's hash is the same in all of these states. -/
def HashesAgree (fixture : IFixture σ) (states : List σ) : Prop :=
  ∀ s ∈ states, ∀ t ∈ states,
    (fixture.getDeterminismHash s).1 = (fixture.getDeterminismHash t).1

/-- The validator is fed the hash of the settled output state. -/
theorem sliceHash_eq (r : SequentialRunner σ ε τ) (iterations : UInt64) (w : World σ)
    (n : ℕ) : r.sliceHash iterations w n =
      (r.fixture.getDeterminismHash (r.settle (r.outputState iterations w n))).1 := rfl

/-- One pass of the runner's loop, once its variables are those of the `n`-th slice. -/
theorem loopPass_slice (r : SequentialRunner σ ε τ) (sqrt : ℚ → ℚ) (iterations : UInt64)
    (w : World σ) (n : ℕ) (validator : DeterminismValidator XorHashAccumulator)
    (s : StatsAccumulator) :
    r.loopPass sqrt iterations ⟨r.sliceWorld iterations w n, validator, s⟩ () =
      (⟨r.sliceWorld iterations w (n + 1),
          validator.validateHash (r.sliceHash iterations w n),
          (s.sliceStep sqrt (r.sliceTimings iterations w n)).1⟩,
        (s.sliceStep sqrt (r.sliceTimings iterations w n)).2) := rfl

/-- The validator after the first `n` slices. -/
def validatorAfter (r : SequentialRunner σ ε τ) (iterations : UInt64) (v : LoopVars σ)
    (n : ℕ) : DeterminismValidator XorHashAccumulator :=
  v.validator.validateSlices ((List.range n).map (r.sliceHash iterations v.world))

/-- The statistics' own loop over the first `n` slices. -/
def statsLoop (r : SequentialRunner σ ε τ) (sqrt : ℚ → ℚ) (iterations : UInt64)
    (v : LoopVars σ) (n : ℕ) : LoopState StatsAccumulator :=
  StatsAccumulator.sliceLoop sqrt v.stats
    ((List.range n).map (r.sliceTimings iterations v.world))

theorem statsLoop_succ (r : SequentialRunner σ ε τ) (sqrt : ℚ → ℚ) (iterations : UInt64)
    (v : LoopVars σ) (n : ℕ) : r.statsLoop sqrt iterations v (n + 1) =
      LoopState.step (StatsAccumulator.sliceStep sqrt) (r.statsLoop sqrt iterations v n)
        (r.sliceTimings iterations v.world n) := by
  rw [statsLoop, List.range_succ, List.map_append, List.map_singleton,
    StatsAccumulator.sliceLoop, loopState_concat]
  rfl

theorem validatorAfter_succ (r : SequentialRunner σ ε τ) (iterations : UInt64)
    (v : LoopVars σ) (n : ℕ) : r.validatorAfter iterations v (n + 1) =
      (r.validatorAfter iterations v n).validateHash (r.sliceHash iterations v.world n) := by
  rw [validatorAfter, List.range_succ, List.map_append, DeterminismValidator.validateSlices,
    List.foldl_append]
  rfl

/-- **The runner's loop is the statistics' loop** next to the validator and the fixture, as
long as it runs. -/
theorem runnerLoop_of_running (r : SequentialRunner σ ε τ) (sqrt : ℚ → ℚ)
    (iterations : UInt64) (v : LoopVars σ) {n : ℕ} {s : StatsAccumulator}
    (h : r.statsLoop sqrt iterations v n = .running s) :
    r.runnerLoop sqrt iterations v n = .running
      ⟨r.sliceWorld iterations v.world n, r.validatorAfter iterations v n, s⟩ := by
  induction n generalizing s with
  | zero =>
      obtain rfl : v.stats = s := LoopState.running.inj h
      rfl
  | succ n ih =>
      rw [statsLoop_succ] at h
      cases hl : r.statsLoop sqrt iterations v n with
      | exited s' =>
          rw [hl, LoopState.step_exited] at h
          cases h
      | running s' =>
          rw [hl] at h
          cases hgo : (s'.sliceStep sqrt (r.sliceTimings iterations v.world n)).2 with
          | true =>
              rw [LoopState.step_running_of_stop hgo] at h
              cases h
          | false =>
              rw [LoopState.step_running_of_continue hgo] at h
              rw [runnerLoop, List.replicate_succ', loopState_concat, ← runnerLoop, ih hl,
                LoopState.step_running_of_continue, loopPass_slice, validatorAfter_succ,
                LoopState.running.inj h]
              rw [loopPass_slice]
              exact hgo

/-- **The exit**: the loop stops with the slice on which the statistics stop, and further
passes do not matter. -/
theorem runnerLoop_of_exit (r : SequentialRunner σ ε τ) (sqrt : ℚ → ℚ)
    (iterations : UInt64) (v : LoopVars σ) {n : ℕ} {s : StatsAccumulator}
    (h : r.statsLoop sqrt iterations v n = .running s)
    (hstop : (s.sliceStep sqrt (r.sliceTimings iterations v.world n)).2 = true)
    {fuel : ℕ} (hfuel : n + 1 ≤ fuel) :
    r.runnerLoop sqrt iterations v fuel = .exited
      ⟨r.sliceWorld iterations v.world (n + 1), r.validatorAfter iterations v (n + 1),
        (s.sliceStep sqrt (r.sliceTimings iterations v.world n)).1⟩ := by
  obtain ⟨k, rfl⟩ := Nat.exists_eq_add_of_le hfuel
  rw [runnerLoop, List.replicate_add]
  refine loopState_append_of_exited ?_ _
  rw [List.replicate_succ', loopState_concat, ← runnerLoop,
    r.runnerLoop_of_running sqrt iterations v h, LoopState.step_running_of_stop,
    loopPass_slice, validatorAfter_succ]
  rw [loopPass_slice]
  exact hstop

/-- The statistics stop on some slice, if their counters start below the caps. -/
theorem exists_statsLoop_exit (r : SequentialRunner σ ε τ) (sqrt : ℚ → ℚ)
    (iterations : UInt64) {v : LoopVars σ} (h : v.stats.Counting) :
    ∃ n s, r.statsLoop sqrt iterations v n = .running s ∧
      (s.sliceStep sqrt (r.sliceTimings iterations v.world n)).2 = true := by
  by_contra hnot
  push Not at hnot
  have hrun : ∀ n, ∃ s, r.statsLoop sqrt iterations v n = .running s := by
    intro n
    induction n with
    | zero => exact ⟨v.stats, rfl⟩
    | succ n ih =>
        obtain ⟨s, hs⟩ := ih
        have hgo := Bool.eq_false_of_not_eq_true (hnot n s hs)
        exact ⟨_, by rw [statsLoop_succ, hs, LoopState.step_running_of_continue hgo]⟩
  obtain ⟨s, hs⟩ := hrun v.stats.budget
  obtain ⟨s', hs'⟩ : ∃ s', r.statsLoop sqrt iterations v v.stats.budget = .exited s' :=
    StatsAccumulator.exists_exit_of_budget h (by simp)
  rw [hs'] at hs
  cases hs

/-- A loop that runs has been running all along. -/
theorem exists_running_of_le (r : SequentialRunner σ ε τ) (sqrt : ℚ → ℚ)
    (iterations : UInt64) (v : LoopVars σ) {n : ℕ} {s : StatsAccumulator}
    (h : r.statsLoop sqrt iterations v n = .running s) {m : ℕ} (hm : m ≤ n) :
    ∃ s', r.statsLoop sqrt iterations v m = .running s' := by
  induction n, hm using Nat.le_induction generalizing s with
  | base => exact ⟨s, h⟩
  | succ n _ ih =>
      rw [statsLoop_succ] at h
      cases hl : r.statsLoop sqrt iterations v n with
      | running s' => exact ih hl
      | exited s' =>
          rw [hl, LoopState.step_exited] at h
          cases h

/-! ### Whole runs -/

/-- The iterations of a slice, and the variables with which the loop of a run starts. -/
def prepared (r : SequentialRunner σ ε τ) (config : Config) (state : σ) :
    UInt64 × LoopVars σ :=
  r.internalPrepare config
    ((({ state := state } : World σ).now r.chrono).2.act r.fixture.startup)

/-- The output states of the first `n` slices that a run measures. -/
def measuredOutputs (r : SequentialRunner σ ε τ) (config : Config) (state : σ) (n : ℕ) :
    List σ :=
  (List.range n).map
    (r.outputState (r.prepared config state).1 (r.prepared config state).2.world)

/-- A performance run is its loop between preparation and finish. -/
theorem run_of_performance (r : SequentialRunner σ ε τ) (sqrt : ℚ → ℚ) {config : Config}
    (hkind : config.m_Kind = .Performance) (state : σ) (fuel : ℕ) :
    r.run sqrt config state fuel =
      match r.runnerLoop sqrt (r.prepared config state).1 (r.prepared config state).2 fuel with
      | .running _ => none
      | .exited v => some (r.internalFinish sqrt config (r.chrono.now 0)
          (r.prepared config state).1 v) := by
  simp only [run, hkind]
  rfl

/-- The verdict after `n` slices is about the settled output states. -/
theorem deterministic_validatorAfter_iff (r : SequentialRunner σ ε τ) (config : Config)
    (state : σ) (n : ℕ) :
    (r.validatorAfter (r.prepared config state).1
        (r.prepared config state).2 n).m_deterministic = true ↔
      HashesAgree r.fixture ((r.measuredOutputs config state n).map r.settle) := by
  have hfresh : (r.prepared config state).2.validator = .init {} := rfl
  rw [validatorAfter, hfresh, DeterminismValidator.isDeterministic_validateSlices_iff,
    measuredOutputs, List.map_map]
  simp only [HashesAgree, List.forall_mem_map, sliceHash_eq, Function.comp_apply]

/-- **A run ends** after the slices on which its statistics stop, whatever the bound on its
passes, and its verdict is about the settled output states of these slices. -/
theorem exists_measuredSlices (r : SequentialRunner σ ε τ) (sqrt : ℚ → ℚ) {config : Config}
    (hkind : config.m_Kind = .Performance) (state : σ) :
    ∃ n result, 0 < n ∧
      (∀ fuel, r.run sqrt config state fuel = if n ≤ fuel then some result else none) ∧
      (result.deterministic = true ↔
        HashesAgree r.fixture ((r.measuredOutputs config state n).map r.settle)) := by
  have hcounting : (r.prepared config state).2.stats.Counting :=
    StatsAccumulator.counting_deriveKnobs _ _ _
  obtain ⟨n, s, hs, hstop⟩ := r.exists_statsLoop_exit sqrt (r.prepared config state).1
    hcounting
  obtain ⟨v, hv, hexit⟩ : ∃ v : LoopVars σ,
      v.validator = r.validatorAfter (r.prepared config state).1 (r.prepared config state).2
        (n + 1) ∧
      ∀ fuel, n + 1 ≤ fuel → r.runnerLoop sqrt (r.prepared config state).1
        (r.prepared config state).2 fuel = .exited v :=
    ⟨_, rfl, fun fuel hfuel => r.runnerLoop_of_exit sqrt _ _ hs hstop hfuel⟩
  refine ⟨n + 1, r.internalFinish sqrt config (r.chrono.now 0) (r.prepared config state).1 v,
    Nat.succ_pos n, fun fuel => ?_, ?_⟩
  swap
  · rw [← deterministic_validatorAfter_iff, ← hv]
    rfl
  rw [r.run_of_performance sqrt hkind]
  by_cases hfuel : n + 1 ≤ fuel
  · rw [hexit fuel hfuel, if_pos hfuel]
  · obtain ⟨s', hs'⟩ := r.exists_running_of_le sqrt _ _ hs (m := fuel) (by omega)
    rw [r.runnerLoop_of_running sqrt _ _ hs', if_neg hfuel]

/-- **The verdict of a run** is that of the output states of its measured slices exactly
when settling them, their reset above all, neither hides nor adds a divergence. -/
theorem run_deterministic_iff (r : SequentialRunner σ ε τ) (sqrt : ℚ → ℚ) (config : Config)
    (state : σ) (hkind : config.m_Kind = .Performance) :
    ∃ n result, 0 < n ∧
      (∀ fuel, r.run sqrt config state fuel = if n ≤ fuel then some result else none) ∧
      ((result.deterministic = true ↔
          HashesAgree r.fixture (r.measuredOutputs config state n)) ↔
        (HashesAgree r.fixture ((r.measuredOutputs config state n).map r.settle) ↔
          HashesAgree r.fixture (r.measuredOutputs config state n))) := by
  obtain ⟨n, result, hpos, hrun, hverdict⟩ := r.exists_measuredSlices sqrt hkind state
  exact ⟨n, result, hpos, hrun, by rw [hverdict]⟩

/-! ### A fixture that clears its output -/

/-- A fixture whose output is the number of executions so far, and whose reset clears it. -/
def clearingFixture : IFixture (ℕ × UInt64) where
  startup s := s
  execute s := (s.1 + 1, UInt64.ofNat (s.1 + 1))
  reset s := (s.1, 0)
  teardown s := s
  getDeterminismHash s := (s.2, s)

/-- An adapter for synchronous work. -/
def nullAdapter (σ : Type) : IDeviceAdapter σ Unit where
  synchronize s := s
  event := ()
  recordEvent _ s := ((), s)
  elapsedTime _ _ _ := 0

/-- A clock that ticks once a microsecond between readings. -/
def tickingClock : IChronoPoint ℕ where
  now n := n
  delta t₁ t₂ := UInt64.ofNat ((t₂ - t₁) * 1000)

/-- A runner of the clearing fixture. -/
def clearingRunner : SequentialRunner (ℕ × UInt64) Unit ℕ where
  fixture := clearingFixture
  adapter := nullAdapter _
  chrono := tickingClock
  isGpuRun := false

/-- A run of two slices with one execution each. -/
def twoSlices : Config where
  m_Iterations := 1
  m_MinSlices := 2

/-- The reset hides that the two slices have different outputs: the run is reported as
deterministic although the hashes of its output states differ. -/
theorem run_clearingRunner :
    clearingRunner.run id twoSlices (0, 0) 1 = none ∧
      (clearingRunner.run id twoSlices (0, 0) 2).map BenchmarkResult.deterministic =
        some true ∧
      clearingRunner.measuredOutputs twoSlices (0, 0) 2 = [(2, 2), (3, 3)] ∧
      ¬ HashesAgree clearingRunner.fixture
        (clearingRunner.measuredOutputs twoSlices (0, 0) 2) := by
  have houtputs : clearingRunner.measuredOutputs twoSlices (0, 0) 2 = [(2, 2), (3, 3)] := by
    decide +kernel
  refine ⟨by decide +kernel, by decide +kernel, houtputs, fun h => ?_⟩
  rw [houtputs] at h
  exact absurd (h (2, 2) (by simp) (3, 3) (by simp)) (by decide)

/-- The verdict on the clearing fixture. -/
theorem run_deterministic_iff_clearing :
    ∃ n result, 0 < n ∧
      (∀ fuel, clearingRunner.run id twoSlices (0, 0) fuel =
        if n ≤ fuel then some result else none) ∧
      ((result.deterministic = true ↔ HashesAgree clearingRunner.fixture
          (clearingRunner.measuredOutputs twoSlices (0, 0) n)) ↔
        (HashesAgree clearingRunner.fixture
            ((clearingRunner.measuredOutputs twoSlices (0, 0) n).map clearingRunner.settle) ↔
          HashesAgree clearingRunner.fixture
            (clearingRunner.measuredOutputs twoSlices (0, 0) n))) :=
  clearingRunner.run_deterministic_iff id twoSlices (0, 0) rfl

end SequentialRunner

end Hades.Runtime
