import Hades.StopReasons

/-!
# What Becomes of the Slices

Every slice that is fed to the accumulator is accepted, or discarded, or discarded as the
last of a run that moves the baseline. The fates of the slices of a series (`judged`) say
which slices the statistics are about: those accepted since the baseline moved last, or
since the start (`measured`). The three Welford streams keep in step with that list.

## Main results

* `measured_concat`: what one more slice does to the list of measured slices.
* `Streams.feedSlice` and `streams_feedAll`: **the streams summarise the measured slices**,
  over a slice and over a series.
* `reportsMeasured_feedAll`: what is reported is the batch statistics of these slices, unless
  there are too many for the counter; `reportsMeasured_sliceLoop`: in the runner's loop there
  never are.
-/

namespace Hades.Runtime.StatsAccumulator

open ExitLoop

/-- What `feedSlice` does with a slice. -/
inductive SliceFate where
  | accepted
  | discarded
  | rebaselined
  deriving DecidableEq

/-- The fate of one slice. -/
def fate (s : StatsAccumulator) (t : SliceTimings) : SliceFate :=
  if s.rejects t then if (s.recordDiscard t).shiftsLevel then .rebaselined else .discarded
  else .accepted

/-- The slices of a series, each with its fate. -/
def judged (s : StatsAccumulator) : List SliceTimings → List (SliceTimings × SliceFate)
  | [] => []
  | t :: ts => (t, s.fate t) :: judged (s.feedSlice t).1 ts

/-- The slices with the fate of being accepted. -/
def taken (slices : List (SliceTimings × SliceFate)) : List SliceTimings :=
  (slices.filter fun slice => slice.2 = .accepted).map Prod.fst

/-- The slices after the last move of the baseline. -/
def currentLevel (slices : List (SliceTimings × SliceFate)) :
    List (SliceTimings × SliceFate) :=
  slices.rtakeWhile fun slice => slice.2 ≠ .rebaselined

/-- **The measured slices** of a series: those accepted since the last move of the baseline. -/
def measured (s : StatsAccumulator) (ts : List SliceTimings) : List SliceTimings :=
  taken (currentLevel (s.judged ts))

/-- **What a slice does**, by its fate. -/
theorem feedSlice_of_fate (s : StatsAccumulator) (t : SliceTimings) :
    (s.fate t = .accepted ∧ s.feedSlice t = (s.acceptSlice t, true)) ∨
    (s.fate t = .discarded ∧ s.feedSlice t = (s.recordDiscard t, false)) ∨
    (s.fate t = .rebaselined ∧ (s.recordDiscard t).shiftsLevel = true ∧
      s.feedSlice t = ((s.recordDiscard t).internalRebaseline, false)) := by
  rcases feedSlice_cases s t with ⟨hr, hf⟩ | ⟨hr, hl, hf⟩ | ⟨hr, hl, hf⟩
  · exact Or.inl ⟨by simp [fate, hr], hf⟩
  · exact Or.inr (Or.inl ⟨by simp [fate, hr, hl], hf⟩)
  · exact Or.inr (Or.inr ⟨by simp [fate, hr, hl], hl, hf⟩)

/-- An accepted slice. -/
theorem feedSlice_of_accepted {s : StatsAccumulator} {t : SliceTimings}
    (h : s.fate t = .accepted) : s.feedSlice t = (s.acceptSlice t, true) := by
  rcases feedSlice_of_fate s t with ⟨-, hf⟩ | ⟨hother, -⟩ | ⟨hother, -⟩
  · exact hf
  · simp [h] at hother
  · simp [h] at hother

/-- A slice that is only discarded. -/
theorem feedSlice_of_discarded {s : StatsAccumulator} {t : SliceTimings}
    (h : s.fate t = .discarded) : s.feedSlice t = (s.recordDiscard t, false) := by
  rcases feedSlice_of_fate s t with ⟨hother, -⟩ | ⟨-, hf⟩ | ⟨hother, -⟩
  · simp [h] at hother
  · exact hf
  · simp [h] at hother

/-- A discard that moves the baseline. -/
theorem feedSlice_of_rebaselined {s : StatsAccumulator} {t : SliceTimings}
    (h : s.fate t = .rebaselined) : (s.recordDiscard t).shiftsLevel = true ∧
      s.feedSlice t = ((s.recordDiscard t).internalRebaseline, false) := by
  rcases feedSlice_of_fate s t with ⟨hother, -⟩ | ⟨hother, -⟩ | ⟨-, hf⟩
  · simp [h] at hother
  · simp [h] at hother
  · exact hf

/-- One more slice has its fate in the state the others lead to. -/
theorem judged_concat (s : StatsAccumulator) (ts : List SliceTimings) (t : SliceTimings) :
    s.judged (ts ++ [t]) = s.judged ts ++ [(t, (s.feedAll ts).fate t)] := by
  induction ts generalizing s with
  | nil => rfl
  | cons first ts ih => rw [List.cons_append, judged, ih]; rfl

/-- One more slice among those taken. -/
theorem taken_concat (slices : List (SliceTimings × SliceFate)) (t : SliceTimings)
    (f : SliceFate) :
    taken (slices ++ [(t, f)]) = if f = .accepted then taken slices ++ [t] else taken slices := by
  rw [taken, List.filter_append, List.map_append]
  by_cases h : f = .accepted
  · simp [taken, h]
  · simp [taken, h]

/-- The measured slices after a slice of a given fate. -/
def nextMeasured (slices : List SliceTimings) (t : SliceTimings) :
    SliceFate → List SliceTimings
  | .accepted => slices ++ [t]
  | .discarded => slices
  | .rebaselined => []

/-- **The measured slices after one more slice.** -/
theorem measured_concat (s : StatsAccumulator) (ts : List SliceTimings) (t : SliceTimings) :
    s.measured (ts ++ [t]) = nextMeasured (s.measured ts) t ((s.feedAll ts).fate t) := by
  rw [measured, judged_concat, currentLevel, List.rtakeWhile_concat]
  cases (s.feedAll ts).fate t with
  | accepted =>
      rw [if_pos (by simp), taken_concat, if_pos rfl]
      rfl
  | discarded =>
      rw [if_pos (by simp), taken_concat, if_neg (by decide)]
      rfl
  | rebaselined =>
      rw [if_neg (by simp)]
      rfl

/-! ### The streams -/

/-- **The streams have seen the slices `slices`**; without a GPU only the first one has. -/
structure Streams (s : StatsAccumulator) (slices : List SliceTimings) : Prop where
  accepted : s.acceptedSlices.toNat = slices.length
  cpu : s.cpuWallTime.Summarises (slices.map SliceTimings.cpuWallTime)
  device : s.isGpuRun = true →
    s.deviceKernelTime.Summarises (slices.map SliceTimings.deviceKernelTime)
  driver : s.isGpuRun = true →
    s.driverOverhead.Summarises (slices.map SliceTimings.driverOverhead)
  empty : s.isGpuRun = false → s.deviceKernelTime = {} ∧ s.driverOverhead = {}

/-- Before any slice. -/
theorem streams_nil (isGpuRun : Bool) (knobs : StoppingKnobs) :
    Streams { isGpuRun := isGpuRun, knobs := knobs } [] where
  accepted := rfl
  cpu := WelfordState.summarises_nil
  device := fun _ => WelfordState.summarises_nil
  driver := fun _ => WelfordState.summarises_nil
  empty := fun _ => ⟨rfl, rfl⟩

/-- A counter below the top of its range is incremented exactly. -/
theorem exactSucc_of_lt_two_pow {a : UInt32} (h : a.toNat + 1 < 2 ^ 32) : ExactSucc a := by
  rw [ExactSucc, UInt32.toNat_add, UInt32.toNat_one, Nat.mod_eq_of_lt h]

/-- The larger of two counters. -/
theorem toNat_ite_gt (a b : UInt32) : (if a > b then a else b).toNat = max b.toNat a.toNat := by
  split
  next h => exact (max_eq_right (UInt32.lt_iff_toNat_lt.mp h).le).symm
  next h => exact (max_eq_left (not_lt.mp (mt UInt32.lt_iff_toNat_lt.mpr h))).symm

/-- **The counters of a discard**, as long as the total does not wrap. -/
theorem counts_recordDiscard {s : StatsAccumulator}
    (hle : s.consecutiveDiscards.toNat ≤ s.totalDiscards.toNat)
    (hlt : s.totalDiscards.toNat + 1 < 2 ^ 32) (t : SliceTimings) :
    (s.recordDiscard t).consecutiveDiscards.toNat = s.consecutiveDiscards.toNat + 1 ∧
      (s.recordDiscard t).totalDiscards.toNat = s.totalDiscards.toNat + 1 ∧
      (s.recordDiscard t).maxConsecutiveDiscards.toNat =
        max s.maxConsecutiveDiscards.toNat (s.consecutiveDiscards.toNat + 1) := by
  have hconsecutive : (s.consecutiveDiscards + 1).toNat = s.consecutiveDiscards.toNat + 1 :=
    exactSucc_of_lt_two_pow (by omega)
  have htotal : (s.totalDiscards + 1).toNat = s.totalDiscards.toNat + 1 :=
    exactSucc_of_lt_two_pow hlt
  refine ⟨hconsecutive, htotal, ?_⟩
  rw [← hconsecutive]
  exact toNat_ite_gt _ _

/-- **A move of the baseline** takes the current run of discards out of the total. -/
theorem totalDiscards_internalRebaseline {s : StatsAccumulator}
    (hle : s.consecutiveDiscards.toNat ≤ s.totalDiscards.toNat) :
    s.internalRebaseline.totalDiscards.toNat + s.consecutiveDiscards.toNat =
      s.totalDiscards.toNat :=
  exactSub_of_le hle

/-- **An accepted slice is one more of the measured ones.** -/
theorem Streams.acceptSlice {s : StatsAccumulator} {slices : List SliceTimings}
    (h : Streams s slices) (t : SliceTimings) (hlt : slices.length + 1 < 2 ^ 32) :
    Streams (s.acceptSlice t) (slices ++ [t]) := by
  refine ⟨?_, h.cpu.map_concat _ t hlt, fun hgpu => ?_, fun hgpu => ?_, fun hcpu => ?_⟩
  · have hsucc : ExactSucc s.acceptedSlices := exactSucc_of_lt_two_pow (by rwa [h.accepted])
    rw [List.length_append, List.length_singleton, ← h.accepted]
    exact hsucc
  · have hg : s.isGpuRun = true := hgpu
    simp only [StatsAccumulator.acceptSlice, hg, if_true]
    exact (h.device hg).map_concat _ t hlt
  · have hg : s.isGpuRun = true := hgpu
    simp only [StatsAccumulator.acceptSlice, hg, if_true]
    exact (h.driver hg).map_concat _ t hlt
  · have hc : s.isGpuRun = false := hcpu
    simp only [StatsAccumulator.acceptSlice, hc]
    exact h.empty hc

/-- A move of the baseline starts all streams again. -/
theorem streams_internalRebaseline (s : StatsAccumulator) : Streams s.internalRebaseline [] where
  accepted := rfl
  cpu := WelfordState.summarises_nil
  device := fun _ => WelfordState.summarises_nil
  driver := fun _ => WelfordState.summarises_nil
  empty := fun _ => ⟨rfl, rfl⟩

/-- **The step lemma**: the streams keep in step with the measured slices, as long as the
counters can hold one more. -/
theorem Streams.feedSlice {s : StatsAccumulator} {slices : List SliceTimings}
    (h : Streams s slices) (t : SliceTimings)
    (hlt : s.fate t = .accepted → slices.length + 1 < 2 ^ 32) :
    Streams (s.feedSlice t).1 (nextMeasured slices t (s.fate t)) := by
  rcases feedSlice_of_fate s t with ⟨hfate, hf⟩ | ⟨hfate, hf⟩ | ⟨hfate, -, hf⟩
  · rw [hf, hfate]
    exact h.acceptSlice t (hlt hfate)
  · rw [hf, hfate]
    obtain ⟨haccepted, hcpu, hdevice, hdriver, hempty⟩ := h
    exact ⟨haccepted, hcpu, hdevice, hdriver, hempty⟩
  · rw [hf, hfate]
    exact streams_internalRebaseline _

/-- **The streams summarise the measured slices**, as long as the counters can hold their
number. By induction on the series, from its end. -/
theorem streams_feedAll {s : StatsAccumulator} (hfresh : Streams s [])
    {ts : List SliceTimings} (hlt : (s.measured ts).length < 2 ^ 32) :
    Streams (s.feedAll ts) (s.measured ts) := by
  induction ts using List.reverseRecOn with
  | nil => exact hfresh
  | append_singleton ts t ih =>
      rw [measured_concat] at hlt ⊢
      rw [feedAll_concat]
      -- a move of the baseline needs nothing of what was measured before
      cases hfate : (s.feedAll ts).fate t with
      | accepted =>
          rw [hfate, nextMeasured, List.length_append, List.length_singleton] at hlt
          rw [← hfate]
          exact (ih (Nat.lt_of_succ_lt hlt)).feedSlice t fun _ => hlt
      | discarded =>
          rw [hfate] at hlt
          rw [← hfate]
          exact (ih hlt).feedSlice t fun h => by simp [hfate] at h
      | rebaselined =>
          rcases feedSlice_of_fate (s.feedAll ts) t with ⟨h, -⟩ | ⟨h, -⟩ | ⟨-, -, hf⟩
          · simp [hfate] at h
          · simp [hfate] at h
          · rw [hf]
            exact streams_internalRebaseline _

/-! ### What is reported -/

/-- **The report is about the slices `slices`**: their number, the statistics of each stream
and the throughput. -/
structure ReportsMeasured (sqrt : ℚ → ℚ) (s : StatsAccumulator) (reported : BenchmarkResult)
    (iterationsPerSlice : UInt64) (slices : List SliceTimings) : Prop where
  sliceCount_eq : reported.sliceCount.toNat = slices.length
  cpu : ReportsStream sqrt reported.finalSliceWallTime reported.stddev
    (slices.map SliceTimings.cpuWallTime)
  throughput : reported.meanThroughput =
    if 0 < OnlineMoments.mean (slices.map SliceTimings.cpuWallTime) then
      iterationsPerSlice.toNat / OnlineMoments.mean (slices.map SliceTimings.cpuWallTime)
    else 0
  cpuOfGpu : s.isGpuRun = true →
    ReportsStream sqrt reported.cpuWallTimeMean reported.cpuWallTimeStddev
      (slices.map SliceTimings.cpuWallTime)
  device : s.isGpuRun = true →
    ReportsStream sqrt reported.deviceKernelTimeMean reported.deviceKernelTimeStddev
      (slices.map SliceTimings.deviceKernelTime)
  driver : s.isGpuRun = true →
    ReportsStream sqrt reported.driverOverheadMean reported.driverOverheadStddev
      (slices.map SliceTimings.driverOverhead)
  empty : s.isGpuRun = false → s.deviceKernelTime = {} ∧ s.driverOverhead = {}

/-- What is reported of streams that have seen the slices. -/
theorem Streams.reportsMeasured {s : StatsAccumulator} {slices : List SliceTimings}
    (h : Streams s slices) (sqrt : ℚ → ℚ) (result : BenchmarkResult)
    (iterationsPerSlice : UInt64) :
    ReportsMeasured sqrt s (s.assembleResult sqrt result iterationsPerSlice)
      iterationsPerSlice slices := by
  have hcpu := h.cpu.reportsStream sqrt
  have hthroughput := h.cpu.meanV_eq
  cases hg : s.isGpuRun with
  | false =>
      simp only [assembleResult, hg, Bool.false_eq_true, if_false]
      exact ⟨h.accepted, hcpu, by rw [hthroughput], fun hgpu => by simp [hg] at hgpu,
        fun hgpu => by simp [hg] at hgpu, fun hgpu => by simp [hg] at hgpu, h.empty⟩
  | true =>
      simp only [assembleResult, hg, if_true]
      exact ⟨h.accepted, hcpu, by rw [hthroughput], fun _ => hcpu,
        fun _ => (h.device hg).reportsStream sqrt,
        fun _ => (h.driver hg).reportsStream sqrt, h.empty⟩

/-- **What is reported is the batch statistics of the measured slices**, for every series
and all knobs, as long as the slice counter can hold their number. -/
theorem reportsMeasured_feedAll (sqrt : ℚ → ℚ) (isGpuRun : Bool) (knobs : StoppingKnobs)
    (ts : List SliceTimings) (result : BenchmarkResult) (iterationsPerSlice : UInt64) :
    let s₀ : StatsAccumulator := { isGpuRun := isGpuRun, knobs := knobs }
    let s := s₀.feedAll ts
    (s₀.measured ts).length < 2 ^ 32 →
    ReportsMeasured sqrt s (s.assembleResult sqrt result iterationsPerSlice)
      iterationsPerSlice (s₀.measured ts) := by
  intro s₀ s hlt
  exact (streams_feedAll (streams_nil isGpuRun knobs) hlt).reportsMeasured sqrt result
    iterationsPerSlice

/-- Three slices, a climb to a new level and two slices there. -/
theorem reportsMeasured_feedAll_levels :
    let s₀ : StatsAccumulator := { isGpuRun := true, knobs := { consecutiveDiscardCap := 3 } }
    let ts := [10, 10, 10, 20, 20, 20, 20, 22].map fun x => SliceTimings.mk x 7 1
    s₀.measured ts = [⟨20, 7, 1⟩, ⟨22, 7, 1⟩] ∧
      ReportsMeasured id (s₀.feedAll ts) ((s₀.feedAll ts).assembleResult id {} 100) 100
        (s₀.measured ts) := by
  intro s₀ ts
  have hmeasured : s₀.measured ts = [⟨20, 7, 1⟩, ⟨22, 7, 1⟩] := by decide +kernel
  refine ⟨hmeasured, reportsMeasured_feedAll id true _ ts {} 100 ?_⟩
  change (s₀.measured ts).length < 2 ^ 32
  rw [hmeasured]
  decide

/-! ### A counter that wraps -/

/-- A steady machine: every slice takes one second. -/
theorem feedAll_steady (s₀ : StatsAccumulator) (hfresh : s₀.jitterWindow = .empty)
    (haccepted : s₀.acceptedSlices = 0) (hthreshold : 0 ≤ s₀.jitterThreshold) (n : ℕ) :
    let ts := List.replicate n (SliceTimings.mk 1 0 0)
    (∀ y ∈ (s₀.feedAll ts).jitterWindow.entries, y = 1) ∧
      (s₀.feedAll ts).jitterThreshold = s₀.jitterThreshold ∧
      (s₀.feedAll ts).acceptedSlices = UInt32.ofNat n ∧ (s₀.measured ts).length = n := by
  intro ts
  induction n with
  | zero => exact ⟨by simp [ts, feedAll, hfresh], rfl, haccepted, rfl⟩
  | succ n ih =>
      obtain ⟨hentries, hsame, hcount, hlength⟩ := ih
      have hts : ts = List.replicate n (SliceTimings.mk 1 0 0) ++ [⟨1, 0, 0⟩] :=
        List.replicate_succ'
      rw [hts, measured_concat, feedAll_concat]
      generalize s₀.feedAll (List.replicate n ⟨1, 0, 0⟩) = s at hentries hsame hcount ⊢
      have hnot : s.rejects ⟨1, 0, 0⟩ = false := by
        refine RollingJitterWindow.isJittered_eq_false (fun y hy => ?_) (fun y hy => ?_)
        · rw [hentries y hy]
          exact one_pos
        · rw [hentries y hy, hsame]
          change (1 : ℚ) ≤ (1 + s₀.jitterThreshold) * 1
          linarith
      have hfed : s.feedSlice ⟨1, 0, 0⟩ = (s.acceptSlice ⟨1, 0, 0⟩, true) := by
        simp [StatsAccumulator.feedSlice, hnot]
      have hfate : s.fate ⟨1, 0, 0⟩ = .accepted := by simp [fate, hnot]
      rw [hfed, hfate]
      refine ⟨fun y hy => ?_, hsame, ?_, ?_⟩
      · rcases RollingJitterWindow.mem_entries_push hy with rfl | hy
        · rfl
        · exact hentries y hy
      · change s.acceptedSlices + 1 = _
        rw [hcount, UInt32.ofNat_add]
        rfl
      · rw [nextMeasured, List.length_append, hlength, List.length_singleton]

/-- The slice count that is reported is the counter of accepted slices. -/
theorem sliceCount_assembleResult (sqrt : ℚ → ℚ) (s : StatsAccumulator)
    (result : BenchmarkResult) (iterationsPerSlice : UInt64) :
    (s.assembleResult sqrt result iterationsPerSlice).sliceCount = s.acceptedSlices := by
  rw [assembleResult]
  split
  · rfl
  · rfl

/-- **After `2 ^ 32` steady slices the report counts none of them.** -/
theorem sliceCount_wraps :
    let s₀ : StatsAccumulator := { isGpuRun := false, knobs := {} }
    let ts := List.replicate (2 ^ 32) (SliceTimings.mk 1 0 0)
    ((s₀.feedAll ts).assembleResult id {} 1).sliceCount.toNat ≠ (s₀.measured ts).length := by
  intro s₀ ts
  obtain ⟨-, -, hcount, hlength⟩ := feedAll_steady s₀ rfl rfl (by norm_num [s₀]) (2 ^ 32)
  rw [sliceCount_assembleResult, hcount, hlength, UInt32.toNat_ofNat']
  norm_num

/-! ### The runner's loop -/

/-- In a running loop the slices measured are fewer than the cap, so one more fits. -/
theorem nextStreams {s₀ s : StatsAccumulator} {pre : List SliceTimings}
    (h : RunsSoFar s₀ pre s) (hstreams : Streams s (s₀.measured pre)) (t : SliceTimings) :
    Streams (s.feedSlice t).1 (s₀.measured (pre ++ [t])) := by
  have hlt := h.counting.accepted_lt
  have hmax := s.knobs.maxSlices.toNat_lt
  rw [measured_concat, ← h.fed]
  refine hstreams.feedSlice t fun _ => ?_
  rw [← hstreams.accepted]
  omega

/-- **In the runner's loop no counter wraps**: at every exit the report is about the slices
measured on the way. -/
theorem reportsMeasured_sliceLoop (sqrt : ℚ → ℚ) (isGpuRun : Bool) (calibrationWallTime : ℚ)
    (configKnobs : StoppingKnobs) (ts : List SliceTimings) (s : StatsAccumulator)
    (result : BenchmarkResult) (iterationsPerSlice : UInt64) :
    let s₀ := ({ isGpuRun := isGpuRun } : StatsAccumulator).deriveKnobs calibrationWallTime
      configKnobs
    sliceLoop sqrt s₀ ts = .exited s →
    ∃ consumed, consumed <+: ts ∧
      ReportsMeasured sqrt s (s.assembleResult sqrt result iterationsPerSlice)
        iterationsPerSlice (s₀.measured consumed) := by
  intro s₀ hexit
  have hinv := loopState_invariant (StatsAccumulator.sliceStep sqrt)
    (fun pre s => RunsSoFar s₀ pre s ∧ Streams s (s₀.measured pre))
    ⟨runsSoFar_deriveKnobs isGpuRun calibrationWallTime configKnobs, streams_nil isGpuRun _⟩
    (fun pre s t h hgo => ?_) ts
  · obtain ⟨pre, t, s₁, hpre, ⟨hrun, hstreams⟩, -, -, rfl⟩ := hinv.2 s hexit
    refine ⟨pre ++ [t], hpre, Streams.reportsMeasured ?_ sqrt result iterationsPerSlice⟩
    obtain ⟨failed, reason, hs⟩ := shouldStop_fst sqrt (s₁.feedSlice t).1
    obtain ⟨haccepted, hcpu, hdevice, hdriver, hempty⟩ := nextStreams hrun hstreams t
    rw [StatsAccumulator.sliceStep, hs]
    exact ⟨haccepted, hcpu, hdevice, hdriver, hempty⟩
  · rw [sliceStep_of_continue hgo]
    exact ⟨by simpa only [sliceStep_of_continue hgo] using h.1.sliceStep hgo,
      nextStreams h.1 h.2 t⟩

end Hades.Runtime.StatsAccumulator
