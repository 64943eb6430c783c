import Hades.LevelRuns
import Hades.RingBuffer

/-!
# What a Stop Reason Says

The four exits are tried in a fixed order, on counters that accepts, discards and
rebaselines move. This module says what the reason that is reported means for the whole
run: which slices were discarded, and what the counters are.

A running loop has a current run of discards (`DiscardRun`): the last slices, all of them
discarded, with their times in the ring. It ends at an accept and at a rebaseline, so at the
exit its length is the counter.

## Main results

* `shouldStop_stop_cases`: what each of the four exits knows.
* `RunsSoFar.discardRun_feedSlice` and `RunsSoFar.sliceStep`: what one slice does to the
  run of discards and to a running loop.
* `sliceLoop_justified`: **every exit is justified** by the slices of its run.
-/

namespace Hades.Runtime.StatsAccumulator

open ExitLoop

/-! ### The four exits -/

/-- **What each of the four exits knows**, and the verdict it writes. -/
theorem shouldStop_stop_cases {sqrt : ℚ → ℚ} {s : StatsAccumulator}
    (h : (s.shouldStop sqrt).2 = true) :
    let s' := (s.shouldStop sqrt).1
    (s'.stopReason = .ConsecutiveDiscards ∧ s'.runFailed = true ∧
      s.knobs.consecutiveDiscardCap ≤ s.consecutiveDiscards) ∨
    (s'.stopReason = .TotalDiscards ∧ s'.runFailed = true ∧
      s.knobs.totalDiscardCap ≤ s.totalDiscards) ∨
    (s'.stopReason = .HardCapReached ∧ s'.runFailed = s.runFailed ∧
      s.knobs.maxSlices ≤ s.acceptedSlices) ∨
    (s'.stopReason = .CvConverged ∧ s'.runFailed = s.runFailed ∧
      s.knobs.minSlices ≤ s.acceptedSlices ∧ s.acceptedSlices < s.knobs.maxSlices ∧
        s.internalCurrentCv sqrt ≤ s.knobs.cvThreshold) := by
  intro s'
  by_cases h1 : s.knobs.consecutiveDiscardCap ≤ s.consecutiveDiscards
  · have hs : s' = { s with runFailed := true, stopReason := .ConsecutiveDiscards } := by
      simp only [s', shouldStop, if_pos h1]
    exact Or.inl ⟨by rw [hs], by rw [hs], h1⟩
  by_cases h2 : s.knobs.totalDiscardCap ≤ s.totalDiscards
  · have hs : s' = { s with runFailed := true, stopReason := .TotalDiscards } := by
      simp only [s', shouldStop, if_neg h1, if_pos h2]
    exact Or.inr (Or.inl ⟨by rw [hs], by rw [hs], h2⟩)
  by_cases h3 : s.knobs.maxSlices ≤ s.acceptedSlices
  · have hs : s' = { s with stopReason := .HardCapReached } := by
      simp only [s', shouldStop, if_neg h1, if_neg h2, if_pos h3]
    exact Or.inr (Or.inr (Or.inl ⟨by rw [hs], by rw [hs], h3⟩))
  by_cases h4 : s.knobs.minSlices ≤ s.acceptedSlices ∧
      s.internalCurrentCv sqrt ≤ s.knobs.cvThreshold
  · have hs : s' = { s with stopReason := .CvConverged } := by
      simp only [s', shouldStop, if_neg h1, if_neg h2, if_neg h3, if_pos h4]
    exact Or.inr (Or.inr (Or.inr
      ⟨by rw [hs], by rw [hs], h4.1, UInt32.not_le.mp h3, h4.2⟩))
  · rw [shouldStop, if_neg h1, if_neg h2, if_neg h3, if_neg h4] at h
    cases h

/-! ### The verdicts on the slices -/

/-- The accumulator after a series of slices, without the stop decisions. -/
def feedAll (s : StatsAccumulator) (ts : List SliceTimings) : StatsAccumulator :=
  ts.foldl (fun s t => (s.feedSlice t).1) s

/-- Whether each slice of a series was accepted. -/
def verdicts (s : StatsAccumulator) : List SliceTimings → List Bool
  | [] => []
  | t :: ts => (s.feedSlice t).2 :: verdicts (s.feedSlice t).1 ts

@[simp] theorem feedAll_concat (s : StatsAccumulator) (ts : List SliceTimings)
    (t : SliceTimings) : s.feedAll (ts ++ [t]) = ((s.feedAll ts).feedSlice t).1 := by
  simp [feedAll]

/-- One more slice has one more verdict. -/
theorem verdicts_concat (s : StatsAccumulator) (ts : List SliceTimings) (t : SliceTimings) :
    s.verdicts (ts ++ [t]) = s.verdicts ts ++ [((s.feedAll ts).feedSlice t).2] := by
  induction ts generalizing s with
  | nil => rfl
  | cons first ts ih => rw [List.cons_append, verdicts, ih]; rfl

/-! ### Discards -/

/-- A slice is rejected only if it takes some time. -/
theorem pos_of_rejects {s : StatsAccumulator} {t : SliceTimings}
    (h : s.rejects t = true) (hthreshold : 0 ≤ s.jitterThreshold) : 0 < t.cpuWallTime := by
  rw [rejects, RollingJitterWindow.isJittered] at h
  split at h
  · cases h
  next hcount =>
  dsimp only at h
  split at h
  · cases h
  next hmedian =>
  have hpos := not_le.mp hmedian
  rw [decide_eq_true_eq, gt_iff_lt, lt_div_iff₀ hpos] at h
  have hprod := mul_nonneg hthreshold hpos.le
  linarith

/-- **The current run of discards**: the last slices, all of them discarded, with their
times in the ring. -/
structure DiscardRun (s₀ : StatsAccumulator) (earlier run : List SliceTimings)
    (s : StatsAccumulator) : Prop where
  length_eq : run.length = s.consecutiveDiscards.toNat
  verdicts_eq : s₀.verdicts (earlier ++ run) =
    s₀.verdicts earlier ++ List.replicate run.length false
  holds : RingBuffer.Holds s.discardRun (run.map SliceTimings.cpuWallTime)
  pos : ∀ t ∈ run, 0 < t.cpuWallTime

/-- A run of discards that has just ended. -/
theorem discardRun_nil {s : StatsAccumulator} (h : s.consecutiveDiscards = 0)
    (s₀ : StatsAccumulator) (earlier : List SliceTimings) : DiscardRun s₀ earlier [] s where
  length_eq := by simp [h]
  verdicts_eq := by simp
  holds := RingBuffer.holds_nil _
  pos := by simp

/-- **The state of a running loop** after the slices `pre`. -/
structure RunsSoFar (s₀ : StatsAccumulator) (pre : List SliceTimings) (s : StatsAccumulator) :
    Prop where
  counting : Counting s
  fed : s = s₀.feedAll pre
  not_failed : s.runFailed = false
  not_stopped : s.stopReason = .NotStopped
  knobs_eq : s.knobs = s₀.knobs
  threshold_eq : s.jitterThreshold = 1 / 5
  discards : ∃ earlier run, pre = earlier ++ run ∧ DiscardRun s₀ earlier run s

/-- **The run of discards after one more slice.** -/
theorem RunsSoFar.discardRun_feedSlice {s₀ s : StatsAccumulator} {pre : List SliceTimings}
    (h : RunsSoFar s₀ pre s) (t : SliceTimings) :
    ∃ earlier run, pre ++ [t] = earlier ++ run ∧ DiscardRun s₀ earlier run (s.feedSlice t).1 := by
  obtain ⟨earlier, run, rfl, hrun⟩ := h.discards
  rcases feedSlice_cases s t with ⟨-, hf⟩ | ⟨hrejects, -, hf⟩ | ⟨-, -, hf⟩
  · exact ⟨earlier ++ run ++ [t], [], by simp, discardRun_nil (by rw [hf]; rfl) _ _⟩
  · -- the run goes on
    refine ⟨earlier, run ++ [t], by simp, ?_⟩
    have hsucc : (s.consecutiveDiscards + 1).toNat = s.consecutiveDiscards.toNat + 1 :=
      exactSucc_of_lt h.counting.consecutive_lt
    rw [hf]
    refine ⟨?_, ?_, ?_, ?_⟩
    · have hcount : (s.recordDiscard t).consecutiveDiscards = s.consecutiveDiscards + 1 := rfl
      rw [List.length_append, List.length_singleton, hrun.length_eq, hcount, hsucc]
    · rw [← List.append_assoc, verdicts_concat, ← h.fed, hf, hrun.verdicts_eq]
      simp [List.replicate_add]
    · have hset := RingBuffer.holds_set hrun.holds t.cpuWallTime (Nat.mod_lt _ (by decide))
      simpa [recordDiscard, hrun.length_eq] using hset
    · have hnew : 0 < t.cpuWallTime :=
        pos_of_rejects hrejects (by rw [h.threshold_eq]; norm_num)
      intro u hu
      rcases List.mem_append.mp hu with hu | hu
      · exact hrun.pos u hu
      · obtain rfl := List.mem_singleton.mp hu
        exact hnew
  · exact ⟨earlier ++ run ++ [t], [], by simp, discardRun_nil (by rw [hf]; rfl) _ _⟩

/-- A slice leaves the verdict and the threshold alone. -/
theorem feedSlice_frame (s : StatsAccumulator) (t : SliceTimings) :
    (s.feedSlice t).1.runFailed = s.runFailed ∧
      (s.feedSlice t).1.stopReason = s.stopReason ∧
      (s.feedSlice t).1.jitterThreshold = s.jitterThreshold ∧
      (s.feedSlice t).1.knobs = s.knobs := by
  rcases feedSlice_cases s t with ⟨-, hf⟩ | ⟨-, -, hf⟩ | ⟨-, -, hf⟩
  · rw [hf]
    exact ⟨rfl, rfl, rfl, rfl⟩
  · rw [hf]
    exact ⟨rfl, rfl, rfl, rfl⟩
  · rw [hf]
    exact ⟨rfl, rfl, rfl, rfl⟩

/-- **A pass that goes on** keeps the loop running. -/
theorem RunsSoFar.sliceStep {sqrt : ℚ → ℚ} {s₀ s : StatsAccumulator} {pre : List SliceTimings}
    (h : RunsSoFar s₀ pre s) {t : SliceTimings} (hgo : (s.sliceStep sqrt t).2 = false) :
    RunsSoFar s₀ (pre ++ [t]) (s.sliceStep sqrt t).1 := by
  have hcounting := h.counting.sliceStep hgo
  obtain ⟨hfailed, hreason, hthreshold, hknobs⟩ := feedSlice_frame s t
  rw [sliceStep_of_continue hgo] at hcounting ⊢
  refine ⟨hcounting, ?_, hfailed.trans h.not_failed, hreason.trans h.not_stopped,
    hknobs.trans h.knobs_eq, hthreshold.trans h.threshold_eq, h.discardRun_feedSlice t⟩
  rw [feedAll_concat, ← h.fed]

/-- A fresh accumulator with derived knobs. -/
theorem runsSoFar_deriveKnobs (isGpuRun : Bool) (c : ℚ) (k : StoppingKnobs) :
    let s₀ := ({ isGpuRun := isGpuRun } : StatsAccumulator).deriveKnobs c k
    RunsSoFar s₀ [] s₀ :=
  ⟨counting_deriveKnobs isGpuRun c k, rfl, rfl, rfl, rfl, rfl, [], [], rfl,
    discardRun_nil rfl _ _⟩

/-! ### What the exits mean -/

/-- Times that agree within a threshold: none exceeds another one by more than this part of
it. -/
def AgreeWithin (threshold : ℚ) (times : List ℚ) : Prop :=
  ∀ x ∈ times, ∀ y ∈ times, x - y ≤ threshold * y

/-- **The exit of a run is justified** by its slices `consumed`: what the verdict and the
reported result say about them. -/
structure Justified (s₀ : StatsAccumulator) (consumed : List SliceTimings) (failed : Bool)
    (reported : BenchmarkResult) : Prop where
  stopped : reported.stopReason ≠ .NotStopped
  failed_iff : failed = true ↔
    reported.stopReason = .ConsecutiveDiscards ∨ reported.stopReason = .TotalDiscards
  consecutive : reported.stopReason = .ConsecutiveDiscards →
    (s₀.verdicts consumed).rtake s₀.knobs.consecutiveDiscardCap.toNat =
        List.replicate s₀.knobs.consecutiveDiscardCap.toNat false ∧
      (reported.levelShifts = MAX_LEVEL_SHIFTS ∨
        ¬ AgreeWithin s₀.jitterThreshold ((consumed.map SliceTimings.cpuWallTime).rtake
          (min s₀.knobs.consecutiveDiscardCap.toNat JITTER_WINDOW)))
  total : reported.stopReason = .TotalDiscards →
    reported.totalDiscards = s₀.knobs.totalDiscardCap
  hardCap : reported.stopReason = .HardCapReached → reported.sliceCount = s₀.knobs.maxSlices
  converged : reported.stopReason = .CvConverged →
    s₀.knobs.minSlices ≤ reported.sliceCount ∧ reported.sliceCount < s₀.knobs.maxSlices ∧
      reported.cv ≤ s₀.knobs.cvThreshold

/-- What is reported of the accumulator that has decided. -/
theorem assembleResult_shouldStop (sqrt : ℚ → ℚ) (s : StatsAccumulator)
    (result : BenchmarkResult) (iterationsPerSlice : UInt64) :
    let s' := (s.shouldStop sqrt).1
    let reported := s'.assembleResult sqrt result iterationsPerSlice
    reported.stopReason = s'.stopReason ∧ reported.sliceCount = s.acceptedSlices ∧
      reported.cv = s.internalCurrentCv sqrt ∧ reported.totalDiscards = s.totalDiscards ∧
      reported.levelShifts = s.levelShifts := by
  intro s' reported
  obtain ⟨failed, reason, hs⟩ := shouldStop_fst sqrt s
  have hs' : s' = { s with runFailed := failed, stopReason := reason } := hs
  simp only [reported, assembleResult, hs']
  split <;> exact ⟨rfl, rfl, rfl, rfl, rfl⟩

/-- No counter grows by more than one. -/
theorem Counting.feedSlice_le {s : StatsAccumulator} (h : Counting s) (t : SliceTimings) :
    (s.feedSlice t).1.consecutiveDiscards.toNat ≤ s.consecutiveDiscards.toNat + 1 ∧
      (s.feedSlice t).1.totalDiscards.toNat ≤ s.totalDiscards.toNat + 1 ∧
      (s.feedSlice t).1.acceptedSlices.toNat ≤ s.acceptedSlices.toNat + 1 := by
  have htotal : (s.totalDiscards + 1).toNat = s.totalDiscards.toNat + 1 :=
    exactSucc_of_lt h.total_lt
  have hconsec : (s.consecutiveDiscards + 1).toNat = s.consecutiveDiscards.toNat + 1 :=
    exactSucc_of_lt h.consecutive_lt
  have haccepted : (s.acceptedSlices + 1).toNat = s.acceptedSlices.toNat + 1 :=
    exactSucc_of_lt h.accepted_lt
  rcases feedSlice_cases s t with ⟨-, hf⟩ | ⟨-, -, hf⟩ | ⟨-, -, hf⟩
  · rw [hf]
    exact ⟨Nat.zero_le _, Nat.le_succ _, haccepted.le⟩
  · rw [hf]
    exact ⟨hconsec.le, htotal.le, Nat.le_succ _⟩
  · have hle : (s.consecutiveDiscards + 1).toNat ≤ (s.totalDiscards + 1).toNat := by
      rw [hconsec, htotal]
      exact Nat.succ_le_succ h.consecutive_le
    have hsub := exactSub_of_le hle
    rw [hf]
    refine ⟨Nat.zero_le _, ?_, Nat.zero_le _⟩
    change (s.totalDiscards + 1 - (s.consecutiveDiscards + 1)).toNat ≤ _
    rw [ExactSub] at hsub
    omega

/-- A counter that reaches its cap in one step is the cap. -/
theorem eq_cap_of_le {before after cap : UInt32} (hbefore : before.toNat < cap.toNat)
    (hstep : after.toNat ≤ before.toNat + 1) (hcap : cap ≤ after) : after = cap := by
  have hle := UInt32.le_iff_toNat_le.mp hcap
  exact UInt32.toNat_inj.mp (by omega)

/-- The end of a list behind a prefix. -/
theorem rtake_append_of_le {α : Type} (xs ys : List α) {n : ℕ} (h : n ≤ ys.length) :
    (xs ++ ys).rtake n = ys.rtake n := by
  rw [List.rtake, List.rtake, List.length_append, Nat.add_sub_assoc h, List.drop_append,
    List.drop_of_length_le (by omega), List.nil_append]
  congr 1
  omega

/-- The end of a list that is all of it. -/
theorem rtake_min_length {α : Type} (xs : List α) (n : ℕ) :
    xs.rtake (min xs.length n) = xs.rtake n := by
  rw [List.rtake, List.rtake]
  congr 1
  omega

/-- A run of discards that agrees with itself is recognised as a level. -/
theorem DiscardRun.isLevel {s₀ s : StatsAccumulator} {earlier run : List SliceTimings}
    (h : DiscardRun s₀ earlier run s) (hthreshold : s.jitterThreshold = 1 / 5)
    (hne : run ≠ []) (hagree : AgreeWithin (1 / 5)
      ((run.map SliceTimings.cpuWallTime).rtake JITTER_WINDOW)) :
    s.internalDiscardRunIsLevel = true := by
  have hsub : (run.map SliceTimings.cpuWallTime).rtake JITTER_WINDOW ⊆
      run.map SliceTimings.cpuWallTime := List.drop_subset _ _
  have hlevel : IsLevel ((run.map SliceTimings.cpuWallTime).rtake JITTER_WINDOW) := by
    refine ⟨fun x hx => ?_, fun x hx y hy => ?_⟩
    · obtain ⟨t, ht, rfl⟩ := List.mem_map.mp (hsub hx)
      exact h.pos t ht
    · have := hagree x hx y hy
      linarith
  have hpos : 0 < s.consecutiveDiscards.toNat := by
    rw [← h.length_eq]
    exact List.length_pos_iff.mpr hne
  refine internalDiscardRunIsLevel_of_isLevel hlevel hthreshold hpos fun y hy => ?_
  rw [discardRunEntries, List.mem_take_iff_getElem] at hy
  obtain ⟨i, hi, rfl⟩ := hy
  obtain ⟨hcount, hslot⟩ : i < s.discardRunCount ∧ i < JITTER_WINDOW := by
    rw [lt_min_iff, Vector.length_toList] at hi
    exact hi
  rw [Vector.getElem_toList]
  refine RingBuffer.mem_rtake_of_holds h.holds hslot ?_
  rw [List.length_map, h.length_eq]
  exact lt_of_lt_of_le hcount (min_le_left _ _)

/-- A slice after which the run of discards is at its cap has not found a level, if there
is a level shift left. -/
theorem Counting.isLevel_feedSlice {s : StatsAccumulator} (h : Counting s) (t : SliceTimings)
    (hcap : s.knobs.consecutiveDiscardCap ≤ (s.feedSlice t).1.consecutiveDiscards)
    (hlevels : (s.feedSlice t).1.levelShifts ≠ MAX_LEVEL_SHIFTS) :
    (s.feedSlice t).1.internalDiscardRunIsLevel = false := by
  obtain ⟨-, hle, -⟩ := h.feedSlice_counts t
  have hlt := h.consecutive_lt
  have hcap' := UInt32.le_iff_toNat_le.mp hcap
  rcases feedSlice_cases s t with ⟨-, hf⟩ | ⟨-, hstay, hf⟩ | ⟨-, -, hf⟩
  · -- an accept sets the counter to zero
    rw [hf] at hcap'
    change _ ≤ 0 at hcap'
    omega
  · rw [hf] at hle hlevels hcap ⊢
    have hshift : (s.recordDiscard t).levelShifts < MAX_LEVEL_SHIFTS := by
      have hne : (s.recordDiscard t).levelShifts.toNat ≠ MAX_LEVEL_SHIFTS.toNat :=
        fun heq => hlevels (UInt32.toNat_inj.mp heq)
      exact UInt32.lt_iff_toNat_lt.mpr (lt_of_le_of_ne hle hne)
    have hreached : (s.recordDiscard t).knobs.consecutiveDiscardCap ≤
        (s.recordDiscard t).consecutiveDiscards := hcap
    rw [shiftsLevel, decide_eq_true hreached, decide_eq_true hshift] at hstay
    simpa using hstay
  · -- and so does a rebaseline
    rw [hf] at hcap'
    change _ ≤ 0 at hcap'
    omega

/-- **The exit for discards in a row**: the last slices were all discarded, and they are not
a new level, or there is no level shift left. -/
theorem RunsSoFar.exit_consecutive {s₀ s : StatsAccumulator} {pre : List SliceTimings}
    (h : RunsSoFar s₀ pre s) (hthreshold : s₀.jitterThreshold = 1 / 5) {t : SliceTimings}
    (hcap : s.knobs.consecutiveDiscardCap ≤ (s.feedSlice t).1.consecutiveDiscards) :
    (s₀.verdicts (pre ++ [t])).rtake s₀.knobs.consecutiveDiscardCap.toNat =
        List.replicate s₀.knobs.consecutiveDiscardCap.toNat false ∧
      ((s.feedSlice t).1.levelShifts = MAX_LEVEL_SHIFTS ∨
        ¬ AgreeWithin s₀.jitterThreshold (((pre ++ [t]).map SliceTimings.cpuWallTime).rtake
          (min s₀.knobs.consecutiveDiscardCap.toNat JITTER_WINDOW))) := by
  have hcount := eq_cap_of_le h.counting.consecutive_lt (h.counting.feedSlice_le t).1 hcap
  obtain ⟨earlier, run, hpre, hrun⟩ := h.discardRun_feedSlice t
  have hlength : run.length = s₀.knobs.consecutiveDiscardCap.toNat := by
    rw [hrun.length_eq, hcount, h.knobs_eq]
  rw [hpre, ← hlength]
  refine ⟨?_, ?_⟩
  · rw [hrun.verdicts_eq, rtake_append_of_le _ _ (by simp)]
    simp [List.rtake]
  · rw [List.map_append, ← List.length_map SliceTimings.cpuWallTime,
      rtake_append_of_le _ _ (min_le_left _ _), rtake_min_length, hthreshold]
    by_contra hneither
    rw [not_or, not_not] at hneither
    obtain ⟨hlevels, hagree⟩ := hneither
    have hne : run ≠ [] := by
      have hlt := h.counting.consecutive_lt
      rw [h.knobs_eq, ← hlength] at hlt
      exact List.ne_nil_of_length_pos (by omega)
    obtain ⟨-, -, hsame, -⟩ := feedSlice_frame s t
    have hlevel := hrun.isLevel (hsame.trans h.threshold_eq) hne hagree
    rw [h.counting.isLevel_feedSlice t hcap hlevels] at hlevel
    cases hlevel

/-- **One stopping pass is justified.** -/
theorem RunsSoFar.justified {sqrt : ℚ → ℚ} {s₀ s : StatsAccumulator} {pre : List SliceTimings}
    (h : RunsSoFar s₀ pre s) (hthreshold : s₀.jitterThreshold = 1 / 5) {t : SliceTimings}
    (hstop : (s.sliceStep sqrt t).2 = true) (result : BenchmarkResult)
    (iterationsPerSlice : UInt64) :
    Justified s₀ (pre ++ [t]) (s.sliceStep sqrt t).1.runFailed
      ((s.sliceStep sqrt t).1.assembleResult sqrt result iterationsPerSlice) := by
  obtain ⟨hfailed, -, -, hknobs⟩ := feedSlice_frame s t
  obtain ⟨-, htotalStep, hacceptedStep⟩ := h.counting.feedSlice_le t
  obtain ⟨hreason, hslices, hcv, htotal, hlevels⟩ :=
    assembleResult_shouldStop sqrt (s.feedSlice t).1 result iterationsPerSlice
  have hcases := shouldStop_stop_cases hstop
  dsimp only at hcases
  rw [hknobs, hfailed, h.not_failed, ← hreason] at hcases
  rw [StatsAccumulator.sliceStep]
  rcases hcases with ⟨hr, hf, hcap⟩ | ⟨hr, hf, hcap⟩ | ⟨hr, hf, hcap⟩ | ⟨hr, hf, hmin, hlt, hle⟩
  · have hexit := h.exit_consecutive hthreshold hcap
    refine ⟨by simp [hr], by simp [hr, hf], fun _ => ⟨hexit.1, ?_⟩, by simp [hr], by simp [hr],
      by simp [hr]⟩
    rw [hlevels]
    exact hexit.2
  · refine ⟨by simp [hr], by simp [hr, hf], by simp [hr], fun _ => ?_, by simp [hr],
      by simp [hr]⟩
    rw [htotal, eq_cap_of_le h.counting.total_lt htotalStep hcap, h.knobs_eq]
  · refine ⟨by simp [hr], by simp [hr, hf], by simp [hr], by simp [hr], fun _ => ?_,
      by simp [hr]⟩
    rw [hslices, eq_cap_of_le h.counting.accepted_lt hacceptedStep hcap, h.knobs_eq]
  · refine ⟨by simp [hr], by simp [hr, hf], by simp [hr], by simp [hr], by simp [hr],
      fun _ => ?_⟩
    rw [hslices, hcv, ← h.knobs_eq]
    exact ⟨hmin, hlt, hle⟩

/-- **Every exit is justified** by the slices of its run. -/
theorem sliceLoop_justified (sqrt : ℚ → ℚ) (isGpuRun : Bool) (calibrationWallTime : ℚ)
    (configKnobs : StoppingKnobs) (ts : List SliceTimings) (s : StatsAccumulator)
    (result : BenchmarkResult) (iterationsPerSlice : UInt64) :
    let s₀ := ({ isGpuRun := isGpuRun } : StatsAccumulator).deriveKnobs calibrationWallTime
      configKnobs
    sliceLoop sqrt s₀ ts = .exited s →
    ∃ consumed, consumed <+: ts ∧ StopsAt sqrt s₀ consumed s ∧
      Justified s₀ consumed s.runFailed (s.assembleResult sqrt result iterationsPerSlice) := by
  intro s₀ hexit
  have hinv := loopState_invariant (StatsAccumulator.sliceStep sqrt) (RunsSoFar s₀)
    (runsSoFar_deriveKnobs isGpuRun calibrationWallTime configKnobs)
    (fun _ _ _ hrun hgo => hrun.sliceStep hgo) ts
  obtain ⟨pre, t, s₁, hpre, hrun, hrunning, hstop, rfl⟩ := hinv.2 s hexit
  refine ⟨pre ++ [t], hpre, ⟨pre, t, s₁, rfl, hrunning, ?_⟩,
    hrun.justified rfl hstop result iterationsPerSlice⟩
  rw [sliceLoop, loopState_concat, hrunning]
  exact LoopState.step_running_of_stop hstop

/-- A run that is thrown off by three slices that do not agree with each other. -/
theorem sliceLoop_justified_consecutive :
    let s₀ := ({ isGpuRun := false } : StatsAccumulator).deriveKnobs (1 / 1000)
      { cvThreshold := 0, minSlices := 9, maxSlices := 7, consecutiveDiscardCap := 3,
        totalDiscardCap := 5 }
    let ts := [10, 10, 10, 20, 40, 30, 10].map fun x => SliceTimings.mk x 0 0
    (sliceLoop id s₀ ts).isExited = true ∧
      (sliceLoop id s₀ ts).state.stopReason = .ConsecutiveDiscards ∧
      ∀ s, sliceLoop id s₀ ts = .exited s →
        ∃ consumed, consumed <+: ts ∧ StopsAt id s₀ consumed s ∧
          Justified s₀ consumed s.runFailed (s.assembleResult id {} 100) := by
  intro s₀ ts
  refine ⟨by decide +kernel, by decide +kernel, fun s hexit => ?_⟩
  exact sliceLoop_justified id false (1 / 1000) _ ts s {} 100 hexit

end Hades.Runtime.StatsAccumulator
