import Hades.LevelWindows
import Hades.RunWideCounts

/-!
# The Allowance of Discards

A run may discard a tenth of its slices, and at least twenty. The tenth is that of the
slices which the calibration suggests: `deriveKnobs` computes the allowance before it looks
at the user's `maxSlices`, so a longer run has no larger allowance. A run that stops for its
total has discarded the allowance and, for each move of the baseline, one run of discards as
long as the cap.

## Main results

* `totalDiscardCap_calibratedKnobs`: the allowance without an override.
* `discards_eq`: **the discards of a run** by what its counter and its moves of the baseline
  say.
* `allowanceScales_iff`: the runs that discard as much as their length allows.
-/

namespace Hades.Runtime.StatsAccumulator

open ExitLoop

/-- **The allowance scales with the run**: if the run stops for its total of discards, they
are a tenth of its effective `maxSlices`, and at least twenty. -/
def AllowanceScales (s₀ : StatsAccumulator) (consumed : List SliceTimings)
    (s : StatsAccumulator) : Prop :=
  s.stopReason = .TotalDiscards →
    max 20 (s₀.knobs.maxSlices.toNat / 10) ≤ s₀.discards consumed

/-- The allowance that the calibration slice alone suggests. -/
def calibratedAllowance (calibrationWallTime : ℚ) : ℕ :=
  max 20 ((calibratedKnobs calibrationWallTime).maxSlices.toNat / 10)

/-- **The allowance is derived from the calibrated run length.** -/
theorem totalDiscardCap_calibratedKnobs (calibrationWallTime : ℚ) :
    (calibratedKnobs calibrationWallTime).totalDiscardCap.toNat =
      calibratedAllowance calibrationWallTime := by
  rw [calibratedAllowance]
  by_cases h1 : calibrationWallTime < 1 / 10000
  · simp only [calibratedKnobs, h1, if_true]
    decide
  by_cases h2 : calibrationWallTime < 1 / 100
  · simp only [calibratedKnobs, h1, h2, if_true, if_false]
    decide
  · simp only [calibratedKnobs, h1, h2, if_false]
    decide

/-- **The step lemma**: what the counter of discards has lost is a cap's worth for each move
of the baseline. -/
theorem Discarding.discards_feedSlice {s₀ s : StatsAccumulator} {pre : List SliceTimings}
    (h : Discarding s₀ pre s) (hcounting : Counting s) (t : SliceTimings)
    (hshed : s.totalDiscards.toNat +
      s₀.knobs.consecutiveDiscardCap.toNat * s₀.rebaselines pre = s₀.discards pre) :
    (s.feedSlice t).1.totalDiscards.toNat +
      s₀.knobs.consecutiveDiscardCap.toNat * s₀.rebaselines (pre ++ [t]) =
        s₀.discards (pre ++ [t]) := by
  have htop := s.knobs.totalDiscardCap.toNat_lt
  have hbelow := hcounting.total_lt
  obtain ⟨hcurrent, hcount, -⟩ := counts_recordDiscard hcounting.consecutive_le (by omega) t
  rw [rebaselines_concat, discards_concat, ← h.fed, ← hshed]
  rcases feedSlice_of_fate s t with ⟨hfate, hf⟩ | ⟨hfate, hf⟩ | ⟨hfate, hshift, hf⟩
  · rw [hf, hfate]
    rfl
  · simp only [hf, hfate, reduceCtorEq, Bool.false_eq_true, if_false, Nat.add_zero]
    rw [hcount]
    omega
  · have hcap : (s.recordDiscard t).consecutiveDiscards.toNat =
        s₀.knobs.consecutiveDiscardCap.toNat := h.consecutive_eq_cap hshift
    have hrest : (s.recordDiscard t).internalRebaseline.totalDiscards.toNat +
        (s.recordDiscard t).consecutiveDiscards.toNat = (s.recordDiscard t).totalDiscards.toNat := by
      refine totalDiscards_internalRebaseline ?_
      rw [hcurrent, hcount]
      exact Nat.succ_le_succ hcounting.consecutive_le
    simp only [hf, hfate, Bool.false_eq_true, if_false, if_true, Nat.mul_succ]
    omega

/-- **The discards of a run** from a fresh accumulator. -/
theorem discards_eq (sqrt : ℚ → ℚ) (isGpuRun : Bool) (calibrationWallTime : ℚ)
    (configKnobs : StoppingKnobs) {ts : List SliceTimings} {s : StatsAccumulator} :
    let s₀ := ({ isGpuRun := isGpuRun } : StatsAccumulator).deriveKnobs calibrationWallTime
      configKnobs
    sliceLoop sqrt s₀ ts = .running s →
    s.totalDiscards.toNat + s₀.knobs.consecutiveDiscardCap.toNat * s₀.rebaselines ts =
      s₀.discards ts := by
  intro s₀ hl
  obtain ⟨-, -, hcap, -⟩ := deriveKnobs_pos { isGpuRun := isGpuRun } calibrationWallTime
    configKnobs
  have hinv := loopState_invariant (StatsAccumulator.sliceStep sqrt)
    (fun pre s => Discarding s₀ pre s ∧ Counting s ∧ s.totalDiscards.toNat +
      s₀.knobs.consecutiveDiscardCap.toNat * s₀.rebaselines pre = s₀.discards pre)
    ⟨discarding_nil isGpuRun _ hcap, counting_deriveKnobs isGpuRun _ _, rfl⟩
    (fun pre s t h hgo => ⟨h.1.sliceStep hcap hgo, h.2.1.sliceStep hgo, ?_⟩) ts
  · exact (hinv.1 s hl).2.2
  · rw [sliceStep_of_continue hgo]
    exact h.1.discards_feedSlice h.2.1 t h.2.2

/-- **A run that stops for its total of discards** has discarded the cap on the total, and
a cap on discards in a row for each move of the baseline. -/
theorem discards_of_totalDiscards (sqrt : ℚ → ℚ) (isGpuRun : Bool) (calibrationWallTime : ℚ)
    (configKnobs : StoppingKnobs) {consumed : List SliceTimings} {s : StatsAccumulator} :
    let s₀ := ({ isGpuRun := isGpuRun } : StatsAccumulator).deriveKnobs calibrationWallTime
      configKnobs
    StopsAt sqrt s₀ consumed s → s.stopReason = .TotalDiscards →
    s₀.discards consumed = s₀.knobs.totalDiscardCap.toNat +
      s₀.knobs.consecutiveDiscardCap.toNat * s₀.rebaselines consumed := by
  intro s₀ hstops hreason
  obtain ⟨pre, t, s₁, rfl, hpre, hstop⟩ := hstops
  obtain ⟨-, -, hcap, -⟩ := deriveKnobs_pos { isGpuRun := isGpuRun } calibrationWallTime
    configKnobs
  have hd : Discarding s₀ pre s₁ := discarding_of_running hcap hpre
  have hcounting : Counting s₁ := counting_of_running (counting_deriveKnobs isGpuRun _ _) hpre
  have hshed := hd.discards_feedSlice hcounting t
    (discards_eq sqrt isGpuRun calibrationWallTime configKnobs hpre)
  rw [← hshed]
  congr 2
  -- the stopping pass leaves the total at its cap
  obtain ⟨hgo, rfl⟩ := stop_of_concat hpre hstop
  have hknobs := (feedSlice_frame s₁ t).2.2.2
  obtain ⟨hr, -⟩ | ⟨-, -, hle⟩ | ⟨hr, -⟩ | ⟨hr, -⟩ := shouldStop_stop_cases hgo
  · exact absurd (hr.symm.trans hreason) (by decide)
  · rw [hknobs] at hle
    rw [← hd.knobs_eq]
    exact eq_cap_of_le hcounting.total_lt (hcounting.feedSlice_le t).2.1 hle
  · exact absurd (hr.symm.trans hreason) (by decide)
  · exact absurd (hr.symm.trans hreason) (by decide)

/-- **The runs whose allowance scales.** If the effective `maxSlices` asks for no more than
the calibrated allowance, they all do. Otherwise a run that stops for its total does so
exactly if its moves of the baseline have let it discard enough. -/
theorem allowanceScales_iff (sqrt : ℚ → ℚ) (isGpuRun : Bool) (calibrationWallTime : ℚ)
    (configKnobs : StoppingKnobs) (consumed : List SliceTimings) (s : StatsAccumulator) :
    let s₀ := ({ isGpuRun := isGpuRun } : StatsAccumulator).deriveKnobs calibrationWallTime
      { configKnobs with totalDiscardCap := 0 }
    StopsAt sqrt s₀ consumed s →
    (s₀.knobs.maxSlices.toNat / 10 ≤ calibratedAllowance calibrationWallTime →
      AllowanceScales s₀ consumed s) ∧
    (s.stopReason = .TotalDiscards → (AllowanceScales s₀ consumed s ↔
      s₀.knobs.maxSlices.toNat / 10 ≤ calibratedAllowance calibrationWallTime +
        s₀.knobs.consecutiveDiscardCap.toNat * s₀.rebaselines consumed)) := by
  intro s₀ hstops
  have hallowance : s₀.knobs.totalDiscardCap.toNat = calibratedAllowance calibrationWallTime :=
    totalDiscardCap_calibratedKnobs calibrationWallTime
  have htwenty : 20 ≤ calibratedAllowance calibrationWallTime := le_max_left _ _
  have hexact : s.stopReason = .TotalDiscards →
      s₀.discards consumed = calibratedAllowance calibrationWallTime +
        s₀.knobs.consecutiveDiscardCap.toNat * s₀.rebaselines consumed := by
    intro hreason
    rw [← hallowance]
    exact discards_of_totalDiscards sqrt isGpuRun calibrationWallTime _ hstops hreason
  refine ⟨fun hle hreason => ?_, fun hreason => ⟨fun h => ?_, fun hle _ => ?_⟩⟩
  · rw [hexact hreason]
    omega
  · have hscales := h hreason
    rw [hexact hreason] at hscales
    exact (le_max_right _ _).trans hscales
  · rw [hexact hreason]
    omega

/-- A run that its last slice stops. -/
theorem stopsAt_of_isExited {sqrt : ℚ → ℚ} {s₀ : StatsAccumulator} {ts : List SliceTimings}
    (hrun : (sliceLoop sqrt s₀ ts.dropLast).isExited = false)
    (hstop : (sliceLoop sqrt s₀ ts).isExited = true) :
    StopsAt sqrt s₀ ts (sliceLoop sqrt s₀ ts).state := by
  have hne : ts ≠ [] := by
    rintro rfl
    cases hstop
  exact ⟨ts.dropLast, ts.getLast hne, _, (List.dropLast_append_getLast hne).symm,
    LoopState.eq_running hrun, LoopState.eq_exited hstop⟩

/-- A stop for the total of discards: four spikes behind every accepted slice. -/
def spikesUntilStop : List SliceTimings :=
  ([10, 10] ++ (List.replicate 5 [10, 20, 20, 20, 20]).flatten).map
    fun x => SliceTimings.mk x 0 0

/-- The calibrated run length has the allowance of twenty. -/
theorem allowanceScales_iff_calibrated :
    let s₀ := ({ isGpuRun := false } : StatsAccumulator).deriveKnobs (1 / 10)
      { minSlices := 200, totalDiscardCap := 0 }
    let s := (sliceLoop id s₀ spikesUntilStop).state
    StopsAt id s₀ spikesUntilStop s ∧ s.stopReason = .TotalDiscards ∧
      s₀.knobs.maxSlices.toNat / 10 ≤ calibratedAllowance (1 / 10) ∧
      AllowanceScales s₀ spikesUntilStop s ∧
      (AllowanceScales s₀ spikesUntilStop s ↔
        s₀.knobs.maxSlices.toNat / 10 ≤ calibratedAllowance (1 / 10) +
          s₀.knobs.consecutiveDiscardCap.toNat * s₀.rebaselines spikesUntilStop) := by
  intro s₀ s
  have hstops : StopsAt id s₀ spikesUntilStop s :=
    stopsAt_of_isExited (by decide +kernel) (by decide +kernel)
  have hreason : s.stopReason = .TotalDiscards := by decide +kernel
  have hle : s₀.knobs.maxSlices.toNat / 10 ≤ calibratedAllowance (1 / 10) := by
    decide +kernel
  obtain ⟨henough, hiff⟩ := allowanceScales_iff id false (1 / 10) { minSlices := 200 }
    spikesUntilStop s hstops
  exact ⟨hstops, hreason, hle, henough hle, hiff hreason⟩

/-- **A run of up to a thousand slices** that stops at its twentieth discard: the allowance
is that of the calibrated two hundred. -/
theorem not_allowanceScales_of_thousand :
    let s₀ := ({ isGpuRun := false } : StatsAccumulator).deriveKnobs (1 / 10)
      { minSlices := 200, maxSlices := 1000 }
    let s := (sliceLoop id s₀ spikesUntilStop).state
    StopsAt id s₀ spikesUntilStop s ∧ s₀.knobs.maxSlices = 1000 ∧
      s.stopReason = .TotalDiscards ∧ s₀.discards spikesUntilStop = 20 ∧
      ¬ AllowanceScales s₀ spikesUntilStop s := by
  intro s₀ s
  have hstops : StopsAt id s₀ spikesUntilStop s :=
    stopsAt_of_isExited (by decide +kernel) (by decide +kernel)
  have hreason : s.stopReason = .TotalDiscards := by decide +kernel
  have hdiscards : s₀.discards spikesUntilStop = 20 := by decide +kernel
  refine ⟨hstops, rfl, hreason, hdiscards, fun h => ?_⟩
  have hscales := h hreason
  rw [hdiscards] at hscales
  exact absurd hscales (by decide)

end Hades.Runtime.StatsAccumulator
