import Hades.StatsAccumulator

/-!
# The Slice Loop Ends, and its Counters Are Exact

The runner's loop is `while (true)`: it feeds a slice and asks whether to stop. Neither
counter it stops on is monotone, because a rebaseline sets the accepted slices back to
zero and takes the current run of discards out of the total. What is monotone is the
budget `budget`: the level shifts left, each worth a full allowance of accepts and
discards, and what is left of the allowance at the current level.

## Main results

* `Counting.sliceStep`: a pass that goes on keeps the counters below their caps.
* `Counting.exact`: under the caps no machine counter wraps while a slice is fed.
* `budget_sliceStep_lt`: a pass that goes on spends some of the budget.
* `sliceLoop_exits`: **every run ends** within the initial budget, with exact counters.
-/

namespace Hades.Runtime.StatsAccumulator

open ExitLoop

/-! ### Exact machine arithmetic -/

/-- The increment of a counter did not wrap. -/
def ExactSucc (a : UInt32) : Prop :=
  (a + 1).toNat = a.toNat + 1

/-- The difference of two counters did not wrap. -/
def ExactSub (a b : UInt32) : Prop :=
  (a - b).toNat + b.toNat = a.toNat

/-- A counter below another one can be incremented. -/
theorem exactSucc_of_lt {a b : UInt32} (h : a.toNat < b.toNat) : ExactSucc a := by
  have hb := b.toNat_lt
  rw [ExactSucc, UInt32.toNat_add, UInt32.toNat_one]
  omega

/-- A counter can be subtracted from a larger one. -/
theorem exactSub_of_le {a b : UInt32} (h : b.toNat ≤ a.toNat) : ExactSub a b := by
  have ha := a.toNat_lt
  rw [ExactSub, UInt32.toNat_sub]
  omega

/-- **No counter wraps** while the slice is fed: every `++` and `-=` of the branch that
`feedSlice` takes computes the sum or the difference of the counters' values. -/
def FeedExact (s : StatsAccumulator) (t : SliceTimings) : Prop :=
  if s.rejects t then
    ExactSucc s.totalDiscards ∧ ExactSucc s.consecutiveDiscards ∧
      ((s.recordDiscard t).shiftsLevel = true →
        ExactSub (s.recordDiscard t).totalDiscards (s.recordDiscard t).consecutiveDiscards ∧
          ExactSucc s.levelShifts)
  else
    ExactSucc s.acceptedSlices ∧ ExactSucc s.cpuWallTime.count ∧
      (s.isGpuRun = true →
        ExactSucc s.deviceKernelTime.count ∧ ExactSucc s.driverOverhead.count)

/-! ### The counting invariant -/

/-- **The counters of a running loop**: each is below its cap, the current run of discards
is part of the total, and the streams have seen the accepted slices. -/
structure Counting (s : StatsAccumulator) : Prop where
  accepted_lt : s.acceptedSlices.toNat < s.knobs.maxSlices.toNat
  total_lt : s.totalDiscards.toNat < s.knobs.totalDiscardCap.toNat
  consecutive_lt : s.consecutiveDiscards.toNat < s.knobs.consecutiveDiscardCap.toNat
  consecutive_le : s.consecutiveDiscards.toNat ≤ s.totalDiscards.toNat
  levels_le : s.levelShifts.toNat ≤ MAX_LEVEL_SHIFTS.toNat
  cpu_count : s.cpuWallTime.count = s.acceptedSlices
  device_count : s.isGpuRun = true → s.deviceKernelTime.count = s.acceptedSlices
  driver_count : s.isGpuRun = true → s.driverOverhead.count = s.acceptedSlices

/-- The level shifts are within budget when the baseline moves. -/
theorem levelShifts_lt_of_shiftsLevel {s : StatsAccumulator} (h : s.shiftsLevel = true) :
    s.levelShifts.toNat < MAX_LEVEL_SHIFTS.toNat := by
  simp only [shiftsLevel, Bool.and_eq_true, decide_eq_true_eq] at h
  exact UInt32.lt_iff_toNat_lt.mp h.1.2

/-- Under the caps the counters are exact. -/
theorem Counting.exact {s : StatsAccumulator} (h : Counting s) (t : SliceTimings) :
    FeedExact s t := by
  have htotal : ExactSucc s.totalDiscards := exactSucc_of_lt h.total_lt
  have hconsec : ExactSucc s.consecutiveDiscards := exactSucc_of_lt h.consecutive_lt
  have haccepted : ExactSucc s.acceptedSlices := exactSucc_of_lt h.accepted_lt
  rw [FeedExact]
  split
  · refine ⟨htotal, hconsec, fun hshift => ⟨exactSub_of_le ?_, ?_⟩⟩
    · change (s.consecutiveDiscards + 1).toNat ≤ (s.totalDiscards + 1).toNat
      rw [hconsec, htotal]
      exact Nat.succ_le_succ h.consecutive_le
    · exact exactSucc_of_lt (levelShifts_lt_of_shiftsLevel (s := s.recordDiscard t) hshift)
  · refine ⟨haccepted, ?_, fun hgpu => ⟨?_, ?_⟩⟩
    · rw [h.cpu_count]
      exact haccepted
    · rw [h.device_count hgpu]
      exact haccepted
    · rw [h.driver_count hgpu]
      exact haccepted

/-- The part of the invariant that does not depend on the caps survives any slice. -/
theorem Counting.feedSlice_counts {s : StatsAccumulator} (h : Counting s)
    (t : SliceTimings) :
    let s' := (s.feedSlice t).1
    s'.consecutiveDiscards.toNat ≤ s'.totalDiscards.toNat ∧
      s'.levelShifts.toNat ≤ MAX_LEVEL_SHIFTS.toNat ∧
      s'.cpuWallTime.count = s'.acceptedSlices ∧
      (s'.isGpuRun = true → s'.deviceKernelTime.count = s'.acceptedSlices) ∧
      (s'.isGpuRun = true → s'.driverOverhead.count = s'.acceptedSlices) := by
  have htotal : ExactSucc s.totalDiscards := exactSucc_of_lt h.total_lt
  have hconsec : ExactSucc s.consecutiveDiscards := exactSucc_of_lt h.consecutive_lt
  rcases feedSlice_cases s t with ⟨-, hf⟩ | ⟨-, -, hf⟩ | ⟨-, hshift, hf⟩ <;> rw [hf]
  · refine ⟨Nat.zero_le _, h.levels_le, ?_, fun hgpu => ?_, fun hgpu => ?_⟩
    · exact congrArg (· + 1) h.cpu_count
    · have hg : s.isGpuRun = true := hgpu
      simp only [acceptSlice, hg, if_true]
      exact congrArg (· + 1) (h.device_count hg)
    · have hg : s.isGpuRun = true := hgpu
      simp only [acceptSlice, hg, if_true]
      exact congrArg (· + 1) (h.driver_count hg)
  · refine ⟨?_, h.levels_le, h.cpu_count, h.device_count, h.driver_count⟩
    change (s.consecutiveDiscards + 1).toNat ≤ (s.totalDiscards + 1).toNat
    rw [hconsec, htotal]
    exact Nat.succ_le_succ h.consecutive_le
  · refine ⟨Nat.zero_le _, ?_, rfl, fun _ => rfl, fun _ => rfl⟩
    have hlt := levelShifts_lt_of_shiftsLevel hshift
    have hsucc : ExactSucc s.levelShifts := exactSucc_of_lt hlt
    change (s.levelShifts + 1).toNat ≤ MAX_LEVEL_SHIFTS.toNat
    rw [hsucc]
    exact hlt

/-- **The step lemma**: a pass that goes on keeps the counting invariant. -/
theorem Counting.sliceStep {sqrt : ℚ → ℚ} {s : StatsAccumulator} (h : Counting s)
    {t : SliceTimings} (hgo : (s.sliceStep sqrt t).2 = false) :
    Counting (s.sliceStep sqrt t).1 := by
  rw [sliceStep_of_continue hgo]
  obtain ⟨hc, ht, ha, -⟩ := (shouldStop_continue_iff sqrt _).mp hgo
  obtain ⟨hle, hlev, hcpu, hdev, hdrv⟩ := h.feedSlice_counts t
  exact ⟨UInt32.lt_iff_toNat_lt.mp ha, UInt32.lt_iff_toNat_lt.mp ht,
    UInt32.lt_iff_toNat_lt.mp hc, hle, hlev, hcpu, hdev, hdrv⟩

/-- A fresh accumulator with derived knobs satisfies the invariant. -/
theorem counting_deriveKnobs (isGpuRun : Bool) (c : ℚ) (k : StoppingKnobs) :
    Counting (({ isGpuRun := isGpuRun } : StatsAccumulator).deriveKnobs c k) := by
  obtain ⟨-, hmax, hcap, htotal⟩ := deriveKnobs_pos { isGpuRun := isGpuRun } c k
  exact ⟨UInt32.lt_iff_toNat_lt.mp hmax, UInt32.lt_iff_toNat_lt.mp htotal,
    UInt32.lt_iff_toNat_lt.mp hcap, le_refl _, Nat.zero_le _, rfl, fun _ => rfl,
    fun _ => rfl⟩

/-! ### The budget -/

/-- The allowance of one level: as many accepts and discards as the caps admit. -/
def levelAllowance (k : StoppingKnobs) : ℕ :=
  k.maxSlices.toNat + k.totalDiscardCap.toNat

/-- **The budget** of a running loop: a full allowance for each level shift left, and what
is left of the accepts and the discards at the current level. -/
def budget (s : StatsAccumulator) : ℕ :=
  (MAX_LEVEL_SHIFTS.toNat - s.levelShifts.toNat) * levelAllowance s.knobs +
    (s.knobs.maxSlices.toNat - s.acceptedSlices.toNat) +
    (s.knobs.totalDiscardCap.toNat - s.totalDiscards.toNat)

/-- A running loop has some budget left. -/
theorem Counting.budget_pos {s : StatsAccumulator} (h : Counting s) : 0 < s.budget := by
  have := h.accepted_lt
  rw [budget]
  omega

/-- A rebaseline gives back at most what was spent at the level, and pays an allowance
for it. -/
theorem Counting.budget_rebaseline_lt {s : StatsAccumulator} (h : Counting s)
    {t : SliceTimings} (hshift : (s.recordDiscard t).shiftsLevel = true) :
    budget (s.recordDiscard t).internalRebaseline < s.budget := by
  have hlt : s.levelShifts.toNat < MAX_LEVEL_SHIFTS.toNat :=
    levelShifts_lt_of_shiftsLevel (s := s.recordDiscard t) hshift
  have hlev : (s.levelShifts + 1).toNat = s.levelShifts.toNat + 1 := exactSucc_of_lt hlt
  have ha := h.accepted_lt
  have ht := h.total_lt
  have hallow : (MAX_LEVEL_SHIFTS.toNat - s.levelShifts.toNat) * levelAllowance s.knobs =
      (MAX_LEVEL_SHIFTS.toNat - (s.levelShifts + 1).toNat) * levelAllowance s.knobs +
        levelAllowance s.knobs := by
    rw [hlev, ← Nat.succ_mul]
    congr 1
    omega
  have hfull : levelAllowance s.knobs =
      s.knobs.maxSlices.toNat + s.knobs.totalDiscardCap.toNat := rfl
  have hnew : budget (s.recordDiscard t).internalRebaseline ≤
      (MAX_LEVEL_SHIFTS.toNat - (s.levelShifts + 1).toNat) * levelAllowance s.knobs +
        s.knobs.maxSlices.toNat + s.knobs.totalDiscardCap.toNat :=
    Nat.add_le_add (Nat.add_le_add (le_refl _) (Nat.sub_le _ _)) (Nat.sub_le _ _)
  unfold budget at hnew ⊢
  omega

/-- **A pass that goes on spends some of the budget.** -/
theorem Counting.budget_sliceStep_lt {sqrt : ℚ → ℚ} {s : StatsAccumulator}
    (h : Counting s) {t : SliceTimings} (hgo : (s.sliceStep sqrt t).2 = false) :
    budget (s.sliceStep sqrt t).1 < s.budget := by
  rw [sliceStep_of_continue hgo]
  have ha := h.accepted_lt
  have ht := h.total_lt
  rcases feedSlice_cases s t with ⟨-, hf⟩ | ⟨-, -, hf⟩ | ⟨-, hshift, hf⟩ <;> rw [hf]
  · have hacc : (s.acceptedSlices + 1).toNat = s.acceptedSlices.toNat + 1 :=
      exactSucc_of_lt ha
    simp only [budget, acceptSlice, hacc]
    omega
  · have htot : (s.totalDiscards + 1).toNat = s.totalDiscards.toNat + 1 :=
      exactSucc_of_lt ht
    simp only [budget, recordDiscard, htot]
    omega
  · exact h.budget_rebaseline_lt hshift

/-- The initial budget: an allowance for each of the levels. -/
theorem budget_deriveKnobs (isGpuRun : Bool) (c : ℚ) (k : StoppingKnobs) :
    budget (({ isGpuRun := isGpuRun } : StatsAccumulator).deriveKnobs c k) =
      (MAX_LEVEL_SHIFTS.toNat + 1) * levelAllowance
        (({ isGpuRun := isGpuRun } : StatsAccumulator).deriveKnobs c k).knobs := by
  rw [Nat.succ_mul, levelAllowance, ← Nat.add_assoc]
  rfl

/-! ### Whole runs -/

/-- Every running state of a loop satisfies the counting invariant. -/
theorem counting_of_running {sqrt : ℚ → ℚ} {s₀ s : StatsAccumulator} (h₀ : Counting s₀)
    {ts : List SliceTimings} (h : sliceLoop sqrt s₀ ts = .running s) : Counting s :=
  (loopState_invariant (StatsAccumulator.sliceStep sqrt) (fun _ s => Counting s) h₀
    (fun _ _ _ hs hgo => hs.sliceStep hgo) ts).1 s h

/-- A loop in the counting invariant stops within its budget. -/
theorem exists_exit_of_budget {sqrt : ℚ → ℚ} {s₀ : StatsAccumulator} (h₀ : Counting s₀)
    {ts : List SliceTimings} (hlen : s₀.budget ≤ ts.length) :
    ∃ s, sliceLoop sqrt s₀ ts = .exited s := by
  refine exists_exit_of_measure (StatsAccumulator.sliceStep sqrt) Counting budget
    (fun _ _ hs hgo => hs.sliceStep hgo)
    (fun _ _ hs hgo => ⟨(hs.sliceStep hgo).budget_pos, hs.budget_sliceStep_lt hgo⟩) h₀ ?_ hlen
  exact List.ne_nil_of_length_pos (lt_of_lt_of_le h₀.budget_pos hlen)

/-- **Every run ends.** For every set of overrides, every calibration time and every
sequence of slices, the loop stops after at most `(MAX_LEVEL_SHIFTS + 1) * (maxSlices +
totalDiscardCap)` slices, and each slice up to there is fed with exact counters. -/
theorem sliceLoop_exits (sqrt : ℚ → ℚ) (isGpuRun : Bool) (calibrationWallTime : ℚ)
    (configKnobs : StoppingKnobs) (timings : ℕ → SliceTimings) :
    let s₀ := ({ isGpuRun := isGpuRun } : StatsAccumulator).deriveKnobs calibrationWallTime
      configKnobs
    ∃ n ≤ (MAX_LEVEL_SHIFTS.toNat + 1) *
        (s₀.knobs.maxSlices.toNat + s₀.knobs.totalDiscardCap.toNat),
      (∃ s, sliceLoop sqrt s₀ ((List.range n).map timings) = .exited s) ∧
        ∀ k < n, ∃ s, sliceLoop sqrt s₀ ((List.range k).map timings) = .running s ∧
          FeedExact s (timings k) := by
  intro s₀
  have h₀ : Counting s₀ := counting_deriveKnobs isGpuRun calibrationWallTime configKnobs
  have hbudget : ∃ s, sliceLoop sqrt s₀ ((List.range s₀.budget).map timings) = .exited s :=
    exists_exit_of_budget h₀ (by simp)
  have hexit : ∃ n, ∃ s, sliceLoop sqrt s₀ ((List.range n).map timings) = .exited s :=
    ⟨s₀.budget, hbudget⟩
  classical
  refine ⟨Nat.find hexit, ?_, Nat.find_spec hexit, fun k hk => ?_⟩
  · refine (Nat.find_min' hexit hbudget).trans ?_
    exact (budget_deriveKnobs isGpuRun calibrationWallTime configKnobs).le
  · cases hl : sliceLoop sqrt s₀ ((List.range k).map timings) with
    | running s => exact ⟨s, rfl, (counting_of_running h₀ hl).exact _⟩
    | exited s => exact absurd ⟨s, hl⟩ (Nat.find_min hexit hk)

end Hades.Runtime.StatsAccumulator
