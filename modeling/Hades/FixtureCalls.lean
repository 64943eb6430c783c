import Hades.SequentialRunner

/-!
# What a Run Calls

A fixture is written against the calls that it gets. This module runs the runner on a fixture
and an adapter that log them, and reads off the log: the order of the calls of a whole run is
the same for every fixture, and only the number of slices and the iterations of a slice depend
on it.

Logging is one case of a general fact: a run sees its state only through the operations of the
fixture and the adapter, so a map of states that commutes with these carries runs to runs.

## Main results

* `Simulates.runThrough`: **a simulation of the operations is one of the runs**; the result of
  a run does not depend on what the operations do not.
* `run_logged`: logging changes no result.
* `exists_lifecycle`: **the calls of a whole run**, for both kinds of test.
-/

namespace Hades.Runtime

open ExitLoop

variable {σ σ' ε τ : Type}

/-- The same readings over another joint state. -/
def World.map (p : σ' → σ) (w : World σ') : World σ :=
  { state := p w.state, readings := w.readings }

namespace SequentialRunner

/-! ### The world that a run leaves -/

/-- The world after a correctness run. -/
def correctnessWorld (r : SequentialRunner σ ε τ) (w : World σ) : World σ :=
  let w := (w.act r.fixture.execute).act r.adapter.synchronize
  let (_, w) := w.getDeterminismHash r.fixture
  let w := (w.act r.fixture.reset).act r.fixture.teardown
  (w.now r.chrono).2

/-- The world after the teardown of a performance run. -/
def finishWorld (r : SequentialRunner σ ε τ) (v : LoopVars σ) : World σ :=
  (((v.world.act r.fixture.teardown).act r.adapter.synchronize).now r.chrono).2

/-- One benchmark run, with the world that it leaves. -/
def runThrough (r : SequentialRunner σ ε τ) (sqrt : ℚ → ℚ) (config : Config) (state : σ)
    (fuel : ℕ) : Option (BenchmarkResult × World σ) :=
  let (runStart, w) := ({ state := state } : World σ).now r.chrono
  let w := w.act r.fixture.startup
  if config.m_Kind = .Correctness then
    some (r.internalRunCorrectnessOnce runStart w, r.correctnessWorld w)
  else
    let (iterationsPerSlice, v) := r.internalPrepare config w
    match r.runnerLoop sqrt iterationsPerSlice v fuel with
    | .running _ => none
    | .exited v => some (r.internalFinish sqrt config runStart iterationsPerSlice v,
        r.finishWorld v)

/-- The result of a run is what `run` returns. -/
theorem run_eq_map_runThrough (r : SequentialRunner σ ε τ) (sqrt : ℚ → ℚ) (config : Config)
    (state : σ) (fuel : ℕ) :
    r.run sqrt config state fuel = (r.runThrough sqrt config state fuel).map Prod.fst := by
  rw [run, runThrough]
  dsimp only
  split
  · rfl
  · cases r.runnerLoop sqrt _ _ fuel <;> rfl

/-! ### Simulations -/

/-- **A simulation**: the map `p` of states commutes with every operation. -/
structure Simulates (p : σ' → σ) (r' : SequentialRunner σ' ε τ) (r : SequentialRunner σ ε τ) :
    Prop where
  chrono : r'.chrono = r.chrono
  isGpuRun : r'.isGpuRun = r.isGpuRun
  startup : ∀ s, p (r'.fixture.startup s) = r.fixture.startup (p s)
  execute : ∀ s, p (r'.fixture.execute s) = r.fixture.execute (p s)
  reset : ∀ s, p (r'.fixture.reset s) = r.fixture.reset (p s)
  teardown : ∀ s, p (r'.fixture.teardown s) = r.fixture.teardown (p s)
  getDeterminismHash : ∀ s, Prod.map id p (r'.fixture.getDeterminismHash s) =
    r.fixture.getDeterminismHash (p s)
  synchronize : ∀ s, p (r'.adapter.synchronize s) = r.adapter.synchronize (p s)
  event : r'.adapter.event = r.adapter.event
  recordEvent : ∀ e s, Prod.map id p (r'.adapter.recordEvent e s) = r.adapter.recordEvent e (p s)
  elapsedTime : ∀ s e₁ e₂, r'.adapter.elapsedTime s e₁ e₂ = r.adapter.elapsedTime (p s) e₁ e₂

variable {p : σ' → σ} {r' : SequentialRunner σ' ε τ} {r : SequentialRunner σ ε τ}

/-- One operation. -/
theorem map_act {f : σ' → σ'} {g : σ → σ} (h : ∀ s, p (f s) = g (p s)) (w : World σ') :
    (w.act f).map p = (w.map p).act g := by
  rw [World.map, World.act, World.act, h]
  rfl

/-- An operation, several times over. -/
theorem map_iterate {f : World σ' → World σ'} {g : World σ → World σ}
    (h : ∀ w, (f w).map p = g (w.map p)) (n : ℕ) (w : World σ') :
    (f^[n] w).map p = g^[n] (w.map p) :=
  Function.Semiconj.iterate_right (f := World.map p) h n w

namespace Simulates

/-- The clock does not depend on the state. -/
theorem now (h : Simulates p r' r) (w : World σ') :
    (w.map p).now r.chrono = ((w.now r'.chrono).1, (w.now r'.chrono).2.map p) := by
  rw [h.chrono]
  rfl

theorem recordEvent_world (h : Simulates p r' r) (e : ε) (w : World σ') :
    (w.map p).recordEvent r.adapter e =
      ((w.recordEvent r'.adapter e).1, (w.recordEvent r'.adapter e).2.map p) := by
  have hstep := h.recordEvent e w.state
  simp only [World.recordEvent, World.map, ← hstep]
  rfl

theorem hash_world (h : Simulates p r' r) (w : World σ') :
    (w.map p).getDeterminismHash r.fixture =
      ((w.getDeterminismHash r'.fixture).1, (w.getDeterminismHash r'.fixture).2.map p) := by
  have hstep := h.getDeterminismHash w.state
  simp only [World.getDeterminismHash, World.map, ← hstep]
  rfl

theorem secondsBetween (h : Simulates p r' r) (t₁ t₂ : τ) :
    r.internalSecondsBetween t₁ t₂ = r'.internalSecondsBetween t₁ t₂ := by
  rw [internalSecondsBetween, internalSecondsBetween, h.chrono]

/-- **A slice** takes the same time, and leaves corresponding worlds. -/
theorem internalExecuteSlice (h : Simulates p r' r) (k : UInt64) (w : World σ') :
    r.internalExecuteSlice k (w.map p) =
      ((r'.internalExecuteSlice k w).1, (r'.internalExecuteSlice k w).2.map p) := by
  have hexec : ∀ w : World σ',
      ((fun w : World σ' => w.act r'.fixture.execute)^[k.toNat] w).map p =
        (fun w : World σ => w.act r.fixture.execute)^[k.toNat] (w.map p) :=
    map_iterate (fun w => map_act h.execute w) k.toNat
  simp only [SequentialRunner.internalExecuteSlice, h.now, h.recordEvent_world, ← hexec,
    ← map_act h.synchronize, h.secondsBetween, ← h.isGpuRun, ← h.event]
  simp only [World.map, h.elapsedTime]

theorem internalRunSlice (h : Simulates p r' r) (k : UInt64) (w : World σ') :
    r.internalRunSlice k (w.map p) =
      ((r'.internalRunSlice k w).1, (r'.internalRunSlice k w).2.map p) := by
  simp only [SequentialRunner.internalRunSlice, h.internalExecuteSlice, map_act h.synchronize,
    map_act h.reset]

theorem internalProbes (h : Simulates p r' r) (n : ℕ) (w : World σ') :
    r.internalProbes n (w.map p) =
      ((r'.internalProbes n w).1, (r'.internalProbes n w).2.map p) := by
  induction n generalizing w with
  | zero => rfl
  | succ n ih =>
      simp only [SequentialRunner.internalProbes, h.internalRunSlice, ih]

/-- **The calibration** picks the same iterations. -/
theorem internalResolve (h : Simulates p r' r) (config : Config) (w : World σ') :
    r.internalResolveIterationsPerSlice config (w.map p) =
      ((r'.internalResolveIterationsPerSlice config w).1,
        (r'.internalResolveIterationsPerSlice config w).2.map p) := by
  simp only [internalResolveIterationsPerSlice, h.internalRunSlice, h.internalProbes]
  split_ifs <;> rfl

theorem internalWarmup (h : Simulates p r' r) (config : Config) (w : World σ') :
    r.internalWarmup config (w.map p) = (r'.internalWarmup config w).map p := by
  refine (map_iterate (fun w => ?_) config.m_WarmupCount.toNat w).symm
  rw [map_act h.synchronize, map_act h.execute]

/-- The loop's variables over another joint state. -/
def mapVars (p : σ' → σ) (v : LoopVars σ') : LoopVars σ :=
  { world := v.world.map p, validator := v.validator, stats := v.stats }

theorem internalPrepare (h : Simulates p r' r) (config : Config) (w : World σ') :
    r.internalPrepare config (w.map p) =
      ((r'.internalPrepare config w).1, mapVars p (r'.internalPrepare config w).2) := by
  simp only [SequentialRunner.internalPrepare, h.internalWarmup, h.internalResolve,
    h.internalRunSlice, h.isGpuRun]
  rfl

/-- **A pass of the slice loop.** -/
theorem loopPass (h : Simulates p r' r) (sqrt : ℚ → ℚ) (k : UInt64) (v : LoopVars σ')
    (u : Unit) :
    r.loopPass sqrt k (mapVars p v) u =
      (mapVars p (r'.loopPass sqrt k v u).1, (r'.loopPass sqrt k v u).2) := by
  simp only [SequentialRunner.loopPass, measureSlice, mapVars, h.internalRunSlice,
    ← map_act h.synchronize, h.hash_world]

theorem runnerLoop (h : Simulates p r' r) (sqrt : ℚ → ℚ) (k : UInt64) (v : LoopVars σ')
    (fuel : ℕ) :
    r.runnerLoop sqrt k (mapVars p v) fuel = (r'.runnerLoop sqrt k v fuel).map (mapVars p) :=
  loopState_map (h.loopPass sqrt k) v _

theorem finishWorld (h : Simulates p r' r) (v : LoopVars σ') :
    r.finishWorld (mapVars p v) = (r'.finishWorld v).map p := by
  simp only [SequentialRunner.finishWorld, mapVars, ← map_act h.teardown,
    ← map_act h.synchronize, h.now]

theorem internalFinish (h : Simulates p r' r) (sqrt : ℚ → ℚ) (config : Config) (start : τ)
    (k : UInt64) (v : LoopVars σ') :
    r.internalFinish sqrt config start k (mapVars p v) =
      r'.internalFinish sqrt config start k v := by
  simp only [SequentialRunner.internalFinish, mapVars, ← map_act h.teardown,
    ← map_act h.synchronize, h.now, h.secondsBetween]

theorem correctnessWorld (h : Simulates p r' r) (w : World σ') :
    r.correctnessWorld (w.map p) = (r'.correctnessWorld w).map p := by
  simp only [SequentialRunner.correctnessWorld, ← map_act h.execute, ← map_act h.synchronize,
    h.hash_world, ← map_act h.reset, ← map_act h.teardown, h.now]

theorem internalRunCorrectnessOnce (h : Simulates p r' r) (start : τ) (w : World σ') :
    r.internalRunCorrectnessOnce start (w.map p) = r'.internalRunCorrectnessOnce start w := by
  simp only [SequentialRunner.internalRunCorrectnessOnce, ← map_act h.execute,
    ← map_act h.synchronize, h.hash_world, ← map_act h.reset, ← map_act h.teardown, h.now,
    h.secondsBetween, h.isGpuRun]

/-- **A simulation of the operations is one of the runs**: the same result, and corresponding
worlds at the end. -/
theorem runThrough (h : Simulates p r' r) (sqrt : ℚ → ℚ) (config : Config) (s : σ')
    (fuel : ℕ) :
    r.runThrough sqrt config (p s) fuel =
      (r'.runThrough sqrt config s fuel).map (Prod.map id (World.map p)) := by
  have hstart : ((({ state := p s } : World σ).now r.chrono).2.act r.fixture.startup) =
      ((({ state := s } : World σ').now r'.chrono).2.act r'.fixture.startup).map p := by
    rw [map_act h.startup, h.chrono]
    rfl
  have hclock : (({ state := p s } : World σ).now r.chrono).1 =
      (({ state := s } : World σ').now r'.chrono).1 := by
    rw [h.chrono]
    rfl
  rw [SequentialRunner.runThrough, SequentialRunner.runThrough]
  dsimp only
  rw [hstart, hclock]
  split
  · rw [h.internalRunCorrectnessOnce, h.correctnessWorld]
    rfl
  · rw [h.internalPrepare, h.runnerLoop]
    cases r'.runnerLoop sqrt _ _ fuel with
    | running v => rfl
    | exited v =>
        simp only [LoopState.map, h.internalFinish, h.finishWorld]
        rfl

/-- The results of two runs, one simulating the other. -/
theorem run (h : Simulates p r' r) (sqrt : ℚ → ℚ) (config : Config) (s : σ') (fuel : ℕ) :
    r'.run sqrt config s fuel = r.run sqrt config (p s) fuel := by
  rw [run_eq_map_runThrough, run_eq_map_runThrough, h.runThrough, Option.map_map]
  rfl

end Simulates

/-! ### Logged calls -/

/-- A call that a fixture or an adapter gets from the runner and that can change its state. -/
inductive Call where
  | startup
  | execute
  | reset
  | teardown
  | getDeterminismHash
  | synchronize
  | recordEvent
  deriving DecidableEq

/-- An operation that logs its call. -/
def logging (call : Call) (f : σ → σ) (s : σ × List Call) : σ × List Call :=
  (f s.1, s.2 ++ [call])

/-- An operation with a value that logs its call. -/
def loggingValue {β : Type} (call : Call) (f : σ → β × σ) (s : σ × List Call) :
    β × σ × List Call :=
  ((f s.1).1, (f s.1).2, s.2 ++ [call])

/-- The fixture, with a log. -/
def loggedFixture (fixture : IFixture σ) : IFixture (σ × List Call) where
  startup := logging .startup fixture.startup
  execute := logging .execute fixture.execute
  reset := logging .reset fixture.reset
  teardown := logging .teardown fixture.teardown
  getDeterminismHash := loggingValue .getDeterminismHash fixture.getDeterminismHash

/-- The adapter, with a log. -/
def loggedAdapter (adapter : IDeviceAdapter σ ε) : IDeviceAdapter (σ × List Call) ε where
  synchronize := logging .synchronize adapter.synchronize
  event := adapter.event
  recordEvent event := loggingValue .recordEvent (adapter.recordEvent event)
  elapsedTime s := adapter.elapsedTime s.1

/-- The runner of the logged fixture. -/
def logged (r : SequentialRunner σ ε τ) : SequentialRunner (σ × List Call) ε τ where
  fixture := loggedFixture r.fixture
  adapter := loggedAdapter r.adapter
  chrono := r.chrono
  isGpuRun := r.isGpuRun

/-- Forgetting the log. -/
theorem simulates_logged (r : SequentialRunner σ ε τ) : Simulates Prod.fst r.logged r where
  chrono := rfl
  isGpuRun := rfl
  startup _ := rfl
  execute _ := rfl
  reset _ := rfl
  teardown _ := rfl
  getDeterminismHash _ := rfl
  synchronize _ := rfl
  event := rfl
  recordEvent _ _ := rfl
  elapsedTime _ _ _ := rfl

/-- **Logging changes no result.** -/
theorem run_logged (r : SequentialRunner σ ε τ) (sqrt : ℚ → ℚ) (config : Config) (state : σ)
    (log : List Call) (fuel : ℕ) :
    r.logged.run sqrt config (state, log) fuel = r.run sqrt config state fuel :=
  r.simulates_logged.run sqrt config (state, log) fuel

/-! ### The calls of one part of a run -/

/-- The log in a world. -/
def calls (w : World (σ × List Call)) : List Call :=
  w.state.2

/-- A part of a run that makes the given calls, whatever the world. -/
def Makes (f : World (σ × List Call) → World (σ × List Call)) (cs : List Call) : Prop :=
  ∀ w, calls (f w) = calls w ++ cs

/-- One part after another. -/
theorem Makes.comp {f g : World (σ × List Call) → World (σ × List Call)} {cs ds : List Call}
    (hg : Makes g ds) (hf : Makes f cs) : Makes (fun w => g (f w)) (cs ++ ds) := by
  intro w
  rw [hg, hf, List.append_assoc]

/-- One part, several times over. -/
theorem Makes.iterate {f : World (σ × List Call) → World (σ × List Call)} {cs : List Call}
    (h : Makes f cs) (n : ℕ) : Makes (f^[n]) (List.replicate n cs).flatten := by
  induction n with
  | zero => exact fun w => (List.append_nil _).symm
  | succ n ih =>
      intro w
      rw [Function.iterate_succ_apply, ih, h, List.append_assoc, List.replicate_succ,
        List.flatten_cons]

/-- The calls of a slice: its executions between two events, and the reset. -/
def sliceCalls (iterations : UInt64) : List Call :=
  .recordEvent :: List.replicate iterations.toNat .execute ++
    [.recordEvent, .synchronize, .reset, .synchronize]

/-- The calls of a slice that is measured: it is hashed after its reset. -/
def measuredCalls (iterations : UInt64) : List Call :=
  sliceCalls iterations ++ [.synchronize, .getDeterminismHash]

/-- The slices that size a slice: an untimed one and the probes. -/
def sizingCalls (config : Config) : List Call :=
  if config.m_Iterations > 0 then []
  else (List.replicate (CALIBRATION_PROBES + 1) (sliceCalls 1)).flatten

/-- **The life cycle** of a fixture in a run with so many measured slices. -/
def lifecycle (config : Config) (iterations : UInt64) (slices : ℕ) : List Call :=
  match config.m_Kind with
  | .Correctness => [.startup, .execute, .synchronize, .getDeterminismHash, .reset, .teardown]
  | .Performance =>
    .startup :: (List.replicate config.m_WarmupCount.toNat [.execute, .synchronize]).flatten ++
      sizingCalls config ++ sliceCalls iterations ++
      (List.replicate slices (measuredCalls iterations)).flatten ++ [.teardown, .synchronize]

section

variable (r : SequentialRunner σ ε τ)

/-- **A slice.** -/
theorem makes_internalRunSlice (iterations : UInt64) :
    Makes (fun w => (r.logged.internalRunSlice iterations w).2) (sliceCalls iterations) := by
  intro w
  have hexec : ∀ w : World (σ × List Call), calls
      ((fun w : World (σ × List Call) => w.act r.logged.fixture.execute)^[iterations.toNat] w) =
        calls w ++ List.replicate iterations.toNat .execute := by
    intro w
    have hone : Makes (fun w => w.act r.logged.fixture.execute) [.execute] := fun _ => rfl
    rw [hone.iterate, List.flatten_replicate_singleton]
  have hbefore : calls (((w.now r.chrono).2.recordEvent r.logged.adapter
      r.logged.adapter.event).2) = calls w ++ [.recordEvent] := rfl
  have hslice := hexec ((w.now r.chrono).2.recordEvent r.logged.adapter
    r.logged.adapter.event).2
  rw [hbefore, List.append_assoc, List.singleton_append] at hslice
  calc calls (r.logged.internalRunSlice iterations w).2
      = calls ((fun w : World (σ × List Call) =>
          w.act r.logged.fixture.execute)^[iterations.toNat]
            ((w.now r.chrono).2.recordEvent r.logged.adapter r.logged.adapter.event).2) ++
          [.recordEvent] ++ [.synchronize] ++ [.reset] ++ [.synchronize] := rfl
    _ = calls w ++ sliceCalls iterations := by
        rw [hslice, sliceCalls]
        simp only [List.append_assoc, List.cons_append, List.nil_append]

/-- **A measured slice.** -/
theorem makes_measureSlice (iterations : UInt64) :
    Makes (fun w => (r.logged.measureSlice iterations w).2) (measuredCalls iterations) := by
  intro w
  have htail : calls (r.logged.measureSlice iterations w).2 =
      calls (r.logged.internalRunSlice iterations w).2 ++ [.synchronize] ++
        [.getDeterminismHash] := rfl
  rw [htail, r.makes_internalRunSlice iterations w, measuredCalls]
  simp only [List.append_assoc, List.singleton_append]

theorem makes_internalProbes (n : ℕ) :
    Makes (fun w => (r.logged.internalProbes n w).2)
      (List.replicate n (sliceCalls 1)).flatten := by
  induction n with
  | zero => exact fun w => (List.append_nil _).symm
  | succ n ih =>
      rw [List.replicate_succ, List.flatten_cons]
      exact ih.comp (r.makes_internalRunSlice 1)

/-- **The sizing of the slices.** -/
theorem makes_internalResolve (config : Config) :
    Makes (fun w => (r.logged.internalResolveIterationsPerSlice config w).2)
      (sizingCalls config) := by
  intro w
  simp only [internalResolveIterationsPerSlice, sizingCalls]
  split
  · exact (List.append_nil _).symm
  · rw [List.replicate_succ, List.flatten_cons]
    have hprobes := (r.makes_internalProbes CALIBRATION_PROBES).comp
      (r.makes_internalRunSlice 1) w
    split_ifs <;> exact hprobes

theorem makes_internalWarmup (config : Config) :
    Makes (r.logged.internalWarmup config)
      (List.replicate config.m_WarmupCount.toNat [.execute, .synchronize]).flatten := by
  have hone : Makes (fun w => (w.act r.logged.fixture.execute).act r.logged.adapter.synchronize)
      [.execute, .synchronize] := by
    intro w
    exact List.append_assoc _ [Call.execute] [Call.synchronize]
  exact hone.iterate _

/-- **Everything before the slice loop.** -/
theorem calls_internalPrepare (config : Config) (w : World (σ × List Call)) :
    calls (r.logged.internalPrepare config w).2.world = calls w ++
      ((List.replicate config.m_WarmupCount.toNat [.execute, .synchronize]).flatten ++
        sizingCalls config ++ sliceCalls (r.logged.internalPrepare config w).1) := by
  have hcalibration := r.makes_internalRunSlice (r.logged.internalPrepare config w).1
    (r.logged.internalResolveIterationsPerSlice config (r.logged.internalWarmup config w)).2
  have hprepared : (r.logged.internalPrepare config w).2.world =
      (r.logged.internalRunSlice (r.logged.internalPrepare config w).1
        (r.logged.internalResolveIterationsPerSlice config
          (r.logged.internalWarmup config w)).2).2 := rfl
  rw [hprepared, hcalibration, r.makes_internalResolve config, r.makes_internalWarmup config]
  simp only [List.append_assoc]

/-- **The slices of the loop.** -/
theorem calls_sliceWorld (iterations : UInt64) (w : World (σ × List Call)) (n : ℕ) :
    calls (r.logged.sliceWorld iterations w n) =
      calls w ++ (List.replicate n (measuredCalls iterations)).flatten := by
  induction n with
  | zero => exact (List.append_nil _).symm
  | succ n ih =>
      have hstep := r.makes_measureSlice iterations (r.logged.sliceWorld iterations w n)
      rw [sliceWorld, hstep, ih, List.append_assoc, List.replicate_succ', List.flatten_append,
        List.flatten_singleton]

/-! ### Whole runs -/

/-- **The end of a performance run**: the loop exits after some slice, whatever the bound on
its passes, with the world that its slices left and the statistics that fed on them. -/
theorem exists_runThrough (sqrt : ℚ → ℚ) {config : Config}
    (hkind : config.m_Kind = .Performance) (state : σ) :
    ∃ n v, 0 < n ∧
      v.world = r.sliceWorld (r.prepared config state).1 (r.prepared config state).2.world n ∧
      r.statsLoop sqrt (r.prepared config state).1 (r.prepared config state).2 n =
        .exited v.stats ∧
      ∀ fuel, r.runThrough sqrt config state fuel = if n ≤ fuel then
        some (r.internalFinish sqrt config (r.chrono.now 0) (r.prepared config state).1 v,
          r.finishWorld v) else none := by
  have hcounting : (r.prepared config state).2.stats.Counting :=
    StatsAccumulator.counting_deriveKnobs _ _ _
  obtain ⟨n, s, hs, hstop⟩ := r.exists_statsLoop_exit sqrt (r.prepared config state).1
    hcounting
  obtain ⟨v, hworld, hstats, hexit⟩ : ∃ v : LoopVars σ,
      v.world = r.sliceWorld (r.prepared config state).1
        (r.prepared config state).2.world (n + 1) ∧
      v.stats = (s.sliceStep sqrt (r.sliceTimings (r.prepared config state).1
        (r.prepared config state).2.world n)).1 ∧
      ∀ fuel, n + 1 ≤ fuel → r.runnerLoop sqrt (r.prepared config state).1
        (r.prepared config state).2 fuel = .exited v :=
    ⟨_, rfl, rfl, fun fuel hfuel => r.runnerLoop_of_exit sqrt _ _ hs hstop hfuel⟩
  have hthrough : ∀ fuel, r.runThrough sqrt config state fuel =
      match r.runnerLoop sqrt (r.prepared config state).1 (r.prepared config state).2 fuel with
      | .running _ => none
      | .exited v => some (r.internalFinish sqrt config (r.chrono.now 0)
          (r.prepared config state).1 v, r.finishWorld v) := by
    intro fuel
    simp only [runThrough, hkind]
    rfl
  refine ⟨n + 1, v, Nat.succ_pos n, hworld, ?_, fun fuel => ?_⟩
  · rw [statsLoop_succ, hs, LoopState.step_running_of_stop hstop, hstats]
  rw [hthrough]
  by_cases hfuel : n + 1 ≤ fuel
  · rw [hexit fuel hfuel, if_pos hfuel]
  · obtain ⟨s', hs'⟩ := r.exists_running_of_le sqrt _ _ hs (m := fuel) (by omega)
    rw [r.runnerLoop_of_running sqrt _ _ hs', if_neg hfuel]

/-- The calls of a correctness run. -/
theorem exists_lifecycle_correctness (sqrt : ℚ → ℚ) {config : Config}
    (hkind : config.m_Kind = .Correctness) (state : σ) :
    ∃ result w,
      (∀ fuel, r.logged.runThrough sqrt config (state, []) fuel =
        if 0 ≤ fuel then some (result, w) else none) ∧
      calls w = lifecycle config result.iterationsPerSlice 0 := by
  have hthrough : ∀ fuel, r.logged.runThrough sqrt config (state, []) fuel =
      some (r.logged.internalRunCorrectnessOnce (r.chrono.now 0)
          ((({ state := (state, []) } : World (σ × List Call)).now r.chrono).2.act
            r.logged.fixture.startup),
        r.logged.correctnessWorld
          ((({ state := (state, []) } : World (σ × List Call)).now r.chrono).2.act
            r.logged.fixture.startup)) := by
    intro fuel
    simp only [runThrough, hkind]
    rfl
  refine ⟨_, _, fun fuel => (hthrough fuel).trans (if_pos (Nat.zero_le fuel)).symm, ?_⟩
  rw [lifecycle, hkind]
  rfl

/-- The calls of a performance run. -/
theorem exists_lifecycle_performance (sqrt : ℚ → ℚ) {config : Config}
    (hkind : config.m_Kind = .Performance) (state : σ) :
    ∃ n result w, 0 < n ∧
      (∀ fuel, r.logged.runThrough sqrt config (state, []) fuel =
        if n ≤ fuel then some (result, w) else none) ∧
      calls w = lifecycle config result.iterationsPerSlice n := by
  obtain ⟨n, v, hpos, hworld, -, hthrough⟩ := r.logged.exists_runThrough sqrt hkind (state, [])
  refine ⟨n, _, _, hpos, hthrough, ?_⟩
  have hfinish : calls (r.logged.finishWorld v) =
      calls v.world ++ [.teardown] ++ [.synchronize] := rfl
  have hstart : calls ((({ state := (state, []) } : World (σ × List Call)).now
      r.logged.chrono).2.act r.logged.fixture.startup) = [.startup] := rfl
  have hiterations : (r.logged.internalFinish sqrt config (r.logged.chrono.now 0)
      (r.logged.prepared config (state, [])).1 v).iterationsPerSlice =
        (r.logged.prepared config (state, [])).1 := rfl
  rw [hfinish, hworld, hiterations, calls_sliceWorld, prepared, calls_internalPrepare, hstart,
    lifecycle, hkind]
  simp only [List.append_assoc, List.cons_append, List.nil_append]

/-- **The calls of a whole run.** Whatever the fixture, the adapter and the clock, a run ends,
with the result that it has without the log; a correctness run makes its six calls, and a
performance run makes the calls of its warmup, of its calibration and of at least one measured
slice between the startup and the teardown. -/
theorem exists_lifecycle (sqrt : ℚ → ℚ) (config : Config) (state : σ) :
    ∃ n result w,
      (∀ fuel, r.run sqrt config state fuel = if n ≤ fuel then some result else none) ∧
      (∀ fuel, r.logged.runThrough sqrt config (state, []) fuel =
        if n ≤ fuel then some (result, w) else none) ∧
      calls w = lifecycle config result.iterationsPerSlice n ∧
      (0 < n ↔ config.m_Kind = .Performance) := by
  have hresult : ∀ {n result w}, (∀ fuel, r.logged.runThrough sqrt config (state, []) fuel =
      if n ≤ fuel then some (result, w) else none) →
      ∀ fuel, r.run sqrt config state fuel = if n ≤ fuel then some result else none := by
    intro n result w hthrough fuel
    rw [← r.run_logged sqrt config state [], run_eq_map_runThrough, hthrough]
    split <;> rfl
  cases hkind : config.m_Kind with
  | Correctness =>
      obtain ⟨result, w, hthrough, hcalls⟩ := r.exists_lifecycle_correctness sqrt hkind state
      exact ⟨0, result, w, hresult hthrough, hthrough, hcalls, by simp⟩
  | Performance =>
      obtain ⟨n, result, w, hpos, hthrough, hcalls⟩ :=
        r.exists_lifecycle_performance sqrt hkind state
      exact ⟨n, result, w, hresult hthrough, hthrough, hcalls, by simp [hpos]⟩

end

end SequentialRunner

end Hades.Runtime
