import Mathlib.Data.Rat.Floor
import Hades.LevelRuns
import Hades.RunTime
import Hades.SuiteEndings

/-!
# The Speed that a Run Measures

A benchmark run on a machine that keeps its speed: every execution takes between `a` and `b`
seconds, and `b` is at most `6/5` of `a`, which is what the jitter window tolerates. Then no
slice is discarded, and what the run reports is the speed of the fixture
(`SequentialRunner.h`, `StatsAccumulator.h`).

Slices that calibration has sized come close to the length it aims at: the fastest probe is
the time of one execution up to the same factor.

## Main results

* `StatsAccumulator.Smooth.feedSlice`: a slice within the bounds is accepted.
* `SequentialRunner.sized_internalResolveIterationsPerSlice`: how calibration sizes a slice.
* `SequentialRunner.exists_run_reports`: **the report of such a run** is accurate.
-/

namespace Hades.Runtime

open ExitLoop

/-! ### Statistics of slices within bounds -/

/-- A slice whose time lies between two bounds. -/
def SliceTimings.Within (lo hi : ℚ) (t : SliceTimings) : Prop :=
  lo ≤ t.cpuWallTime ∧ t.cpuWallTime ≤ hi

namespace StatsAccumulator

variable {lo hi : ℚ} {s₀ s : StatsAccumulator} {ts : List SliceTimings}

/-- **The state after smooth slices**: all of them are accepted. -/
structure Smooth (lo hi : ℚ) (s₀ : StatsAccumulator) (ts : List SliceTimings)
    (s : StatsAccumulator) : Prop where
  knobs_eq : s.knobs = s₀.knobs
  threshold_eq : s.jitterThreshold = 1 / 5
  not_failed : s.runFailed = false
  consecutive_eq : s.consecutiveDiscards = 0
  total_eq : s.totalDiscards = 0
  levels_eq : s.levelShifts = 0
  window_mem : ∀ y ∈ s.jitterWindow.entries, lo ≤ y ∧ y ≤ hi
  window_count : s.jitterWindow.count = min JITTER_WINDOW ts.length
  cpu_count : s.cpuWallTime.count = s.acceptedSlices
  stats : s.cpuWallTime.Summarises (ts.map SliceTimings.cpuWallTime)

/-- A fresh accumulator. -/
theorem smooth_deriveKnobs (lo hi : ℚ) (isGpuRun : Bool) (c : ℚ) (k : StoppingKnobs) :
    let s₀ := ({ isGpuRun := isGpuRun } : StatsAccumulator).deriveKnobs c k
    Smooth lo hi s₀ [] s₀ := by
  intro s₀
  refine ⟨rfl, rfl, rfl, rfl, rfl, rfl, fun y hy => ?_, rfl, rfl, WelfordState.summarises_nil⟩
  cases hy

/-- **A slice within the bounds** is accepted. -/
theorem Smooth.feedSlice (h : Smooth lo hi s₀ ts s) (hlo : 0 < lo) (hhi : hi ≤ 6 / 5 * lo)
    {t : SliceTimings} (ht : t.Within lo hi) (hlt : s.acceptedSlices < s.knobs.maxSlices) :
    Smooth lo hi s₀ (ts ++ [t]) (s.feedSlice t).1 := by
  have haccepts : s.rejects t = false := by
    rw [rejects, h.threshold_eq]
    refine RollingJitterWindow.isJittered_eq_false (fun y hy => ?_) (fun y hy => ?_)
    · linarith [(h.window_mem y hy).1]
    · linarith [(h.window_mem y hy).1, ht.2]
  have hfeed : (s.feedSlice t).1 = s.acceptSlice t := by
    rw [StatsAccumulator.feedSlice, haccepts]
    rfl
  have hexact : (s.cpuWallTime.count + 1).toNat = s.cpuWallTime.count.toNat + 1 := by
    rw [h.cpu_count]
    exact exactSucc_of_lt (UInt32.lt_iff_toNat_lt.mp hlt)
  rw [hfeed]
  refine ⟨h.knobs_eq, h.threshold_eq, h.not_failed, rfl, h.total_eq, h.levels_eq, ?_, ?_, ?_, ?_⟩
  · intro y hy
    rcases RollingJitterWindow.mem_entries_push hy with rfl | hy
    · exact ht
    · exact h.window_mem y hy
  · have hcount : (s.acceptSlice t).jitterWindow.count =
        min JITTER_WINDOW (s.jitterWindow.count + 1) := RollingJitterWindow.count_push _ _
    rw [hcount, h.window_count, List.length_append, List.length_singleton]
    omega
  · exact congrArg (· + 1) h.cpu_count
  · rw [List.map_append, List.map_singleton]
    exact h.stats.update t.cpuWallTime hexact

/-- **The loop on slices within the bounds.** -/
theorem smooth_of_running {sqrt : ℚ → ℚ} (hfresh : Smooth lo hi s₀ [] s₀)
    (hmax : s₀.acceptedSlices < s₀.knobs.maxSlices) (hlo : 0 < lo) (hhi : hi ≤ 6 / 5 * lo)
    (hts : ∀ t ∈ ts, t.Within lo hi) (h : sliceLoop sqrt s₀ ts = .running s) :
    Smooth lo hi s₀ ts s ∧ s.acceptedSlices < s.knobs.maxSlices := by
  let Inv : List SliceTimings → StatsAccumulator → Prop := fun pre s =>
    (∀ t ∈ pre, t.Within lo hi) → Smooth lo hi s₀ pre s ∧ s.acceptedSlices < s.knobs.maxSlices
  have hstep : ∀ pre s x, Inv pre s → (s.sliceStep sqrt x).2 = false →
      Inv (pre ++ [x]) (s.sliceStep sqrt x).1 := by
    intro pre s x hinv hgo hx
    obtain ⟨hsmooth, hlt⟩ := hinv fun t ht => hx t (List.mem_append_left _ ht)
    have hfed := hsmooth.feedSlice hlo hhi (hx x (by simp)) hlt
    rw [sliceStep_of_continue hgo]
    exact ⟨hfed, ((shouldStop_continue_iff sqrt _).mp hgo).2.2.1⟩
  have hstart : Inv [] s₀ := fun _ => ⟨hfresh, hmax⟩
  exact (loopState_invariant (StatsAccumulator.sliceStep sqrt) Inv hstart hstep ts).1 s h hts

/-- **The last decision** of such a loop is one of those that do not fail. -/
theorem Smooth.shouldStop {sqrt : ℚ → ℚ} (h : Smooth lo hi s₀ ts s)
    (hconsecutive : 0 < s₀.knobs.consecutiveDiscardCap) (htotal : 0 < s₀.knobs.totalDiscardCap)
    (hstop : (s.shouldStop sqrt).2 = true) :
    ((s.shouldStop sqrt).1.stopReason = .CvConverged ∨
        (s.shouldStop sqrt).1.stopReason = .HardCapReached) ∧
      Smooth lo hi s₀ ts (s.shouldStop sqrt).1 := by
  have hframe : (s.shouldStop sqrt).1.runFailed = false →
      Smooth lo hi s₀ ts (s.shouldStop sqrt).1 := by
    obtain ⟨failed, reason, heq⟩ := shouldStop_fst sqrt s
    rw [heq]
    exact fun hfailed => { h with not_failed := hfailed }
  rcases shouldStop_stop_cases hstop with ⟨-, -, hcap⟩ | ⟨-, -, hcap⟩ | ⟨hreason, hfailed, -⟩ |
    ⟨hreason, hfailed, -⟩
  · rw [h.knobs_eq, h.consecutive_eq] at hcap
    exact absurd hcap (UInt32.not_le.mpr hconsecutive)
  · rw [h.knobs_eq, h.total_eq] at hcap
    exact absurd hcap (UInt32.not_le.mpr htotal)
  · exact ⟨.inr hreason, hframe (hfailed.trans h.not_failed)⟩
  · exact ⟨.inl hreason, hframe (hfailed.trans h.not_failed)⟩

/-- The median of the window lies within the bounds. -/
theorem Smooth.median_mem (h : Smooth lo hi s₀ ts s) (hne : ts ≠ []) :
    lo ≤ s.jitterWindow.median ∧ s.jitterWindow.median ≤ hi := by
  have hpos := List.length_pos_of_ne_nil hne
  have hwindow : JITTER_WINDOW = 8 := rfl
  have hcount : s.jitterWindow.count ≠ 0 := by
    rw [h.window_count]
    omega
  rw [RollingJitterWindow.median, dif_neg hcount]
  refine RollingJitterWindow.internalMedian_of_forall (P := fun y => lo ≤ y ∧ y ≤ hi) hcount ?_
    h.window_mem
  rintro x y ⟨hxlo, hxhi⟩ ⟨hylo, hyhi⟩
  exact ⟨by linarith, by linarith⟩

end StatsAccumulator

namespace SequentialRunner

variable {σ ε τ : Type} {a b : ℚ}

/-! ### Calibration -/

/-- The fastest of some probes has every property that they share. -/
theorem internalFastest_of_forall {P : ℚ → Prop} {probes : List ℚ} (hne : probes ≠ [])
    (h : ∀ time ∈ probes, P time) : P (internalFastest probes) := by
  cases probes with
  | nil => exact absurd rfl hne
  | cons first later =>
      refine StatsAccumulator.foldl_choose _ (fun x y => ?_) (h first List.mem_cons_self)
        fun time htime => h time (List.mem_cons_of_mem first htime)
      split
      · exact .inr rfl
      · exact .inl rfl

/-- The times of the probes that size a slice from a state. -/
def probeTimes (r : SequentialRunner σ ε τ) (w : World σ) : List ℚ :=
  (r.internalProbes CALIBRATION_PROBES (r.internalRunSlice 1 w).2).1

/-- The size that a fastest probe leads to. -/
theorem internalResolveIterationsPerSlice_auto (r : SequentialRunner σ ε τ) {config : Config}
    (hauto : config.m_Iterations = 0) (w : World σ) :
    (r.internalResolveIterationsPerSlice config w).1 =
      let fastest := internalFastest (r.probeTimes w)
      let iterations := TARGET_SLICE_SECONDS / fastest
      if fastest ≤ 0 then 1
      else if iterations ≤ 1 then 1
      else if MAX_AUTO_ITERATIONS.toNat ≤ iterations then MAX_AUTO_ITERATIONS
      else UInt64.ofNat iterations.floor.toNat + 1 := by
  rw [internalResolveIterationsPerSlice, if_neg (by rw [hauto]; decide), probeTimes]
  dsimp only
  split
  · rfl
  split
  · rfl
  split
  · rfl
  · rfl

/-- **How calibration sizes a slice**: the executions that the fastest probe predicts last
at least as long as a slice aims at, and one execution less does not. -/
theorem sized_internalResolveIterationsPerSlice (r : SequentialRunner σ ε τ) {config : Config}
    (hauto : config.m_Iterations = 0) (w : World σ) (ha : 0 < a)
    (hprobes : ∀ time ∈ r.probeTimes w, a ≤ time ∧ time ≤ b) :
    let iterations := (r.internalResolveIterationsPerSlice config w).1
    iterations = MAX_AUTO_ITERATIONS ∨
      ∃ fastest : ℚ, a ≤ fastest ∧ fastest ≤ b ∧ 1 ≤ iterations.toNat ∧
        TARGET_SLICE_SECONDS ≤ iterations.toNat * fastest ∧
        iterations.toNat * fastest ≤ TARGET_SLICE_SECONDS + fastest := by
  obtain ⟨hlow, hhigh⟩ := internalFastest_of_forall (P := fun time => a ≤ time ∧ time ≤ b)
    (List.cons_ne_nil _ _) hprobes
  rw [r.internalResolveIterationsPerSlice_auto hauto]
  change a ≤ internalFastest (r.probeTimes w) at hlow
  change internalFastest (r.probeTimes w) ≤ b at hhigh
  generalize internalFastest (r.probeTimes w) = fastest at hlow hhigh
  have hpos : 0 < fastest := lt_of_lt_of_le ha hlow
  dsimp only
  rw [if_neg (not_le.mpr hpos)]
  split
  · next hone =>
    refine .inr ⟨fastest, hlow, hhigh, le_refl 1, ?_, ?_⟩
    · rw [div_le_one hpos] at hone
      simpa using hone
    · have htarget : (0 : ℚ) < TARGET_SLICE_SECONDS := by norm_num
      simpa using htarget.le
  next hmore =>
  split
  · exact .inl rfl
  next hcap =>
  rw [not_le] at hmore hcap
  obtain ⟨n, hn⟩ : ∃ n : ℕ, (TARGET_SLICE_SECONDS / fastest).floor.toNat = n := ⟨_, rfl⟩
  have hfloor : (n : ℚ) ≤ TARGET_SLICE_SECONDS / fastest ∧
      TARGET_SLICE_SECONDS / fastest < n + 1 := by
    have hnonneg : 0 ≤ (TARGET_SLICE_SECONDS / fastest).floor := by
      exact Int.floor_nonneg.mpr (le_of_lt (lt_trans one_pos hmore))
    have hcast : (n : ℚ) = ((TARGET_SLICE_SECONDS / fastest).floor : ℚ) := by
      rw [← hn, ← Int.cast_natCast, Int.toNat_of_nonneg hnonneg]
    rw [hcast]
    exact ⟨Int.floor_le _, Int.lt_floor_add_one _⟩
  have hsmall : n < 1048576 := by
    have hlt : (n : ℚ) < MAX_AUTO_ITERATIONS.toNat := lt_of_le_of_lt hfloor.1 hcap
    exact Nat.cast_lt.mp hlt
  have hsize : (UInt64.ofNat n + 1).toNat = n + 1 := by
    rw [UInt64.toNat_add, UInt64.toNat_ofNat_of_lt' (lt_trans hsmall (by decide))]
    exact Nat.mod_eq_of_lt (lt_of_le_of_lt hsmall (by decide))
  rw [hn, hsize]
  obtain ⟨hle, hlt⟩ := hfloor
  rw [le_div_iff₀ hpos] at hle
  rw [div_lt_iff₀ hpos] at hlt
  rw [Nat.cast_add, Nat.cast_one]
  exact .inr ⟨fastest, hlow, hhigh, Nat.le_add_left 1 n, hlt.le, by linarith⟩

/-! ### Whole runs -/

/-- The state of a run after its warmup. -/
def warmWorld (r : SequentialRunner σ ε τ) (config : Config) (state : σ) : World σ :=
  r.internalWarmup config
    ((({ state := state } : World σ).now r.chrono).2.act r.fixture.startup)

/-- The executions of a slice. -/
def iterationsPerSlice (r : SequentialRunner σ ε τ) (config : Config) (state : σ) : ℕ :=
  (r.prepared config state).1.toNat

/-- **Every execution takes between `a` and `b` seconds**: those of the probes, if calibration
takes some, and those of the slices of the loop. -/
structure TakesBetween (r : SequentialRunner σ ε τ) (config : Config) (state : σ) (a b : ℚ) :
    Prop where
  probes : config.m_Iterations = 0 →
    ∀ time ∈ r.probeTimes (r.warmWorld config state), a ≤ time ∧ time ≤ b
  slices : ∀ n, (r.sliceTimings (r.prepared config state).1 (r.prepared config state).2.world
    n).Within (r.iterationsPerSlice config state * a) (r.iterationsPerSlice config state * b)

/-- **An accurate report** of executions that take between `a` and `b` seconds. -/
structure ReportsBetween (a b : ℚ) (result : BenchmarkResult) : Prop where
  not_failed : result.runFailed = false
  no_discards : result.totalDiscards = 0
  no_shifts : result.levelShifts = 0
  stopReason : result.stopReason = .CvConverged ∨ result.stopReason = .HardCapReached
  meanThroughput : 1 / b ≤ result.meanThroughput ∧ result.meanThroughput ≤ 1 / a
  medianSliceWallTime : result.iterationsPerSlice.toNat * a ≤ result.medianSliceWallTime ∧
    result.medianSliceWallTime ≤ result.iterationsPerSlice.toNat * b

/-- **Slices have the length that calibration aims at**, up to the tolerated factor and one
execution, unless the size is capped. -/
def HasTargetLength (b : ℚ) (result : BenchmarkResult) : Prop :=
  result.iterationsPerSlice = MAX_AUTO_ITERATIONS ∨
    5 / 6 * TARGET_SLICE_SECONDS ≤ result.medianSliceWallTime ∧
      result.medianSliceWallTime ≤ 6 / 5 * TARGET_SLICE_SECONDS + b

/-- A slice executes the fixture at least once. -/
theorem iterationsPerSlice_pos (r : SequentialRunner σ ε τ) {config : Config} {state : σ}
    (ha : 0 < a) (h : r.TakesBetween config state a b) : 0 < r.iterationsPerSlice config state := by
  by_cases hauto : config.m_Iterations = 0
  · rcases r.sized_internalResolveIterationsPerSlice hauto _ ha (h.probes hauto) with
      hcap | ⟨fastest, -, -, hone, -⟩
    · have hsize : r.iterationsPerSlice config state = MAX_AUTO_ITERATIONS.toNat :=
        congrArg UInt64.toNat hcap
      rw [hsize]
      decide
    · exact hone
  · have hsize : r.iterationsPerSlice config state = config.m_Iterations.toNat := by
      have hpos : config.m_Iterations > 0 := UInt64.pos_iff_ne_zero.mpr hauto
      have hfst : (r.internalResolveIterationsPerSlice config (r.warmWorld config state)).1 =
          config.m_Iterations := by
        rw [internalResolveIterationsPerSlice, if_pos hpos]
      exact congrArg UInt64.toNat hfst
    rw [hsize, Nat.pos_iff_ne_zero]
    exact fun hzero => hauto (UInt64.toNat_inj.mp hzero)

/-- What a finish takes from the statistics. -/
theorem internalFinish_fields (r : SequentialRunner σ ε τ) (sqrt : ℚ → ℚ) (config : Config)
    (runStart : τ) (iterations : UInt64) (v : LoopVars σ) :
    let result := r.internalFinish sqrt config runStart iterations v
    result.runFailed = v.stats.runFailed ∧ result.totalDiscards = v.stats.totalDiscards ∧
      result.levelShifts = v.stats.levelShifts ∧ result.stopReason = v.stats.stopReason ∧
      result.meanThroughput = (if v.stats.cpuWallTime.meanV > 0 then
        iterations.toNat / v.stats.cpuWallTime.meanV else 0) ∧
      result.medianSliceWallTime = v.stats.jitterWindow.median ∧
      result.iterationsPerSlice = iterations := by
  intro result
  simp only [result, internalFinish, StatsAccumulator.assembleResult]
  split
  · simp
  · simp

/-- **The finish after smooth slices** reports accurately. -/
theorem reportsBetween_internalFinish (r : SequentialRunner σ ε τ) (sqrt : ℚ → ℚ)
    (config : Config) (runStart : τ) {iterations : UInt64} {v : LoopVars σ}
    {s₀ : StatsAccumulator} {ts : List SliceTimings} (hsize : 0 < iterations.toNat) (ha : 0 < a)
    (h : StatsAccumulator.Smooth (iterations.toNat * a) (iterations.toNat * b) s₀ ts v.stats)
    (hts : ∀ t ∈ ts, t.Within (iterations.toNat * a) (iterations.toNat * b)) (hne : ts ≠ [])
    (hreason : v.stats.stopReason = .CvConverged ∨ v.stats.stopReason = .HardCapReached) :
    ReportsBetween a b (r.internalFinish sqrt config runStart iterations v) := by
  obtain ⟨hfailed, hdiscards, hshifts, hstop, hthroughput, hmedian, hiterations⟩ :=
    r.internalFinish_fields sqrt config runStart iterations v
  have hpos : (0 : ℚ) < iterations.toNat := Nat.cast_pos.mpr hsize
  obtain ⟨hlow, hhigh⟩ : iterations.toNat * a ≤ v.stats.cpuWallTime.meanV ∧
      v.stats.cpuWallTime.meanV ≤ iterations.toNat * b := by
    rw [h.stats.meanV_eq]
    refine OnlineMoments.mean_mem_bounds (fun hnil => hne (List.map_eq_nil_iff.mp hnil)) ?_
    rw [List.forall_mem_map]
    exact hts
  have hmean : 0 < v.stats.cpuWallTime.meanV := lt_of_lt_of_le (mul_pos hpos ha) hlow
  refine ⟨hfailed.trans h.not_failed, hdiscards.trans h.total_eq, hshifts.trans h.levels_eq,
    ?_, ?_, ?_⟩
  · rw [hstop]
    exact hreason
  · have hb : 0 < b := pos_of_mul_pos_right (lt_of_lt_of_le hmean hhigh) hpos.le
    rw [hthroughput, if_pos hmean, div_le_div_iff₀ hb hmean, div_le_div_iff₀ hmean ha, one_mul]
    exact ⟨hhigh, hlow⟩
  · rw [hmedian, hiterations]
    exact h.median_mem hne

/-- The statistics with which the loop of a run starts. -/
theorem smooth_prepared (r : SequentialRunner σ ε τ) (config : Config) (state : σ) (lo hi : ℚ) :
    let s₀ := (r.prepared config state).2.stats
    StatsAccumulator.Smooth lo hi s₀ [] s₀ ∧ s₀.acceptedSlices < s₀.knobs.maxSlices ∧
      0 < s₀.knobs.consecutiveDiscardCap ∧ 0 < s₀.knobs.totalDiscardCap := by
  obtain ⟨c, hc⟩ : ∃ c, (r.prepared config state).2.stats =
      ({ isGpuRun := r.isGpuRun } : StatsAccumulator).deriveKnobs c (configKnobs config) :=
    ⟨_, rfl⟩
  obtain ⟨-, hmax, hconsecutive, htotal⟩ := StatsAccumulator.deriveKnobs_pos
    { isGpuRun := r.isGpuRun } c (configKnobs config)
  rw [hc]
  exact ⟨StatsAccumulator.smooth_deriveKnobs lo hi r.isGpuRun c (configKnobs config), hmax,
    hconsecutive, htotal⟩

/-- The slices of a loop, one more at the end. -/
theorem within_slices {r : SequentialRunner σ ε τ} {config : Config} {state : σ}
    (h : r.TakesBetween config state a b) (n : ℕ) :
    ∀ t ∈ (List.range n).map (r.sliceTimings (r.prepared config state).1
      (r.prepared config state).2.world),
      t.Within (r.iterationsPerSlice config state * a) (r.iterationsPerSlice config state * b) := by
  rw [List.forall_mem_map]
  exact fun i _ => h.slices i

/-- A report of slices that calibration has sized. -/
theorem ReportsBetween.hasTargetLength {result : BenchmarkResult} (h : ReportsBetween a b result)
    (hb : b ≤ 6 / 5 * a) {fastest : ℚ} (hlow : a ≤ fastest) (hhigh : fastest ≤ b)
    (hone : 1 ≤ result.iterationsPerSlice.toNat)
    (hlong : TARGET_SLICE_SECONDS ≤ result.iterationsPerSlice.toNat * fastest)
    (hshort : result.iterationsPerSlice.toNat * fastest ≤ TARGET_SLICE_SECONDS + fastest) :
    HasTargetLength b result := by
  obtain ⟨hmedianlow, hmedianhigh⟩ := h.medianSliceWallTime
  have hone' : (1 : ℚ) ≤ result.iterationsPerSlice.toNat := Nat.one_le_cast.mpr hone
  have hfastest : result.iterationsPerSlice.toNat * fastest ≤
      result.iterationsPerSlice.toNat * (6 / 5 * a) :=
    mul_le_mul_of_nonneg_left (hhigh.trans hb) (by linarith)
  -- the last execution is the one that passes the target
  have hbefore : (result.iterationsPerSlice.toNat - 1) * b ≤
      (result.iterationsPerSlice.toNat - 1) * (6 / 5 * fastest) :=
    mul_le_mul_of_nonneg_left (by linarith) (by linarith)
  rw [HasTargetLength]
  generalize TARGET_SLICE_SECONDS = target at hlong hshort ⊢
  exact .inr ⟨by linarith, by linarith⟩

/-- **The run on a machine that keeps its speed** is accurate. -/
theorem exists_run_reports (r : SequentialRunner σ ε τ) (sqrt : ℚ → ℚ) {config : Config}
    (hkind : config.m_Kind = .Performance) (state : σ) (ha : 0 < a) (hb : b ≤ 6 / 5 * a)
    (h : r.TakesBetween config state a b) :
    ∃ result, (∀ fuel, r.passes config state ≤ fuel →
        r.run sqrt config state fuel = some result) ∧
      ReportsBetween a b result ∧ (config.m_Iterations = 0 → HasTargetLength b result) := by
  have hsize := r.iterationsPerSlice_pos ha h
  have hpos : (0 : ℚ) < r.iterationsPerSlice config state := Nat.cast_pos.mpr hsize
  have hlo : 0 < r.iterationsPerSlice config state * a := mul_pos hpos ha
  have hhi : r.iterationsPerSlice config state * b ≤
      6 / 5 * (r.iterationsPerSlice config state * a) := by
    have hmul := mul_le_mul_of_nonneg_left hb hpos.le
    linarith
  obtain ⟨n, s, v, ⟨hrunning, hstop⟩, hv, hrun⟩ := r.exists_internalFinish sqrt hkind state
  obtain ⟨hfresh, hmax, hconsecutive, htotal⟩ := r.smooth_prepared config state
    (r.iterationsPerSlice config state * a) (r.iterationsPerSlice config state * b)
  obtain ⟨hsmooth, hlt⟩ := StatsAccumulator.smooth_of_running hfresh hmax hlo hhi
    (within_slices h n) hrunning
  -- the loop stops on one more slice
  have hfed := hsmooth.feedSlice hlo hhi (h.slices n) hlt
  obtain ⟨hreason, hlast⟩ := hfed.shouldStop hconsecutive htotal hstop
  have hts := within_slices h (n + 1)
  rw [List.range_succ, List.map_append, List.map_singleton] at hts
  have hreports := r.reportsBetween_internalFinish (v := v) sqrt config (r.chrono.now 0) hsize ha
    (hv ▸ hlast) hts (List.append_ne_nil_of_right_ne_nil _ (List.cons_ne_nil _ _)) (hv ▸ hreason)
  refine ⟨_, hrun, hreports, fun hauto => ?_⟩
  have hiterations := (r.internalFinish_fields sqrt config (r.chrono.now 0)
    (r.prepared config state).1 v).2.2.2.2.2.2
  rcases r.sized_internalResolveIterationsPerSlice hauto _ ha (h.probes hauto) with
    hcap | ⟨fastest, hlow, hhigh, hone, hlong, hshort⟩
  · exact .inl (hiterations.trans hcap)
  · refine hreports.hasTargetLength hb hlow hhigh ?_ ?_ ?_
    · rw [hiterations]
      exact hone
    · rw [hiterations]
      exact hlong
    · rw [hiterations]
      exact hshort

/-- A runner whose executions all take a millisecond: one in each probe, three in each slice. -/
def steadyRunner : SequentialRunner Unit Unit ℕ where
  fixture :=
    { startup := id, execute := id, reset := id, teardown := id, getDeterminismHash s := (0, s) }
  adapter := nullAdapter Unit
  chrono := { now n := n, delta _ t₂ := if t₂ ≤ 8 then 1000000 else 3000000 }
  isGpuRun := false

/-- Calibration takes eight readings for the probes, and two for its own slice. -/
theorem takesBetween_steadyRunner : steadyRunner.TakesBetween {} () (1 / 1000) (1 / 1000) where
  probes := by
    intro _ time htime
    have hprobes : steadyRunner.probeTimes (steadyRunner.warmWorld {} ()) =
        List.replicate 3 (1 / 1000) := by
      decide +kernel
    rw [hprobes] at htime
    exact ⟨(List.eq_of_mem_replicate htime).ge, (List.eq_of_mem_replicate htime).le⟩
  slices := by
    intro n
    have hsize : steadyRunner.iterationsPerSlice {} () = 3 := by decide +kernel
    have hreadings : (steadyRunner.prepared {} ()).2.world.readings = 11 := by decide +kernel
    have htime : steadyRunner.elapsed (11 + 2 * n) (11 + 2 * n + 1) = 3 / 1000 := by
      have hdelta : steadyRunner.chrono.delta (11 + 2 * n) (11 + 2 * n + 1) = 3000000 :=
        if_neg (by omega)
      have hnanoseconds : (3000000 : UInt64).toNat = 3000000 := rfl
      change ((steadyRunner.chrono.delta (11 + 2 * n) (11 + 2 * n + 1)).toNat : ℚ) *
        (1 / 1000000000) = 3 / 1000
      rw [hdelta, hnanoseconds]
      norm_num
    rw [SliceTimings.Within, cpuWallTime_sliceTimings, hreadings, hsize, htime]
    norm_num

theorem exists_run_reports_steady :
    ∃ result, (∀ fuel, steadyRunner.passes {} () ≤ fuel →
        steadyRunner.run id {} () fuel = some result) ∧
      ReportsBetween (1 / 1000) (1 / 1000) result ∧
        (Config.m_Iterations {} = 0 → HasTargetLength (1 / 1000) result) :=
  steadyRunner.exists_run_reports id rfl () (by norm_num) (by norm_num) takesBetween_steadyRunner

end SequentialRunner

end Hades.Runtime
