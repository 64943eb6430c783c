import Hades.LevelWindows

/-!
# Lone Discards

A discard between two accepted slices is a spike, not a new level, and should cost the run
nothing but this one slice. The cap on discards in a row is a user's choice, though, and a
move of the baseline asks for no more discards than the cap: with a cap of one, a lone spike
is a level of its own, and with a cap of two the window of the new level is too short to
reject anything.

## Main results

* `three_le_count_feedSlice`, `three_le_count_feedAll`: the window stays long enough, or the
  baseline moves with a cap below three.
* `loneDiscardsHarmless_iff`: **the runs on which lone discards are harmless**.
-/

namespace Hades.Runtime.StatsAccumulator

open ExitLoop RollingJitterWindow

/-- Two states with the same level and the same statistics. -/
structure SameStatistics (s s' : StatsAccumulator) : Prop where
  levelShifts_eq : s'.levelShifts = s.levelShifts
  accepted_eq : s'.acceptedSlices = s.acceptedSlices
  window_eq : s'.jitterWindow = s.jitterWindow
  cpu_eq : s'.cpuWallTime = s.cpuWallTime
  device_eq : s'.deviceKernelTime = s.deviceKernelTime
  driver_eq : s'.driverOverhead = s.driverOverhead

/-- **Lone discards are harmless** on a run: a discard between two accepted slices moves no
baseline and loses no statistics, and the window never falls below the samples that
rejection needs, once it has them. -/
structure LoneDiscardsHarmless (sqrt : ℚ → ℚ) (s₀ : StatsAccumulator)
    (consumed : List SliceTimings) : Prop where
  kept : ∀ pre before lone after f s s', pre ++ [before, lone, after] <+: consumed →
    s₀.judged (pre ++ [before, lone, after]) =
      s₀.judged pre ++ [(before, .accepted), (lone, f), (after, .accepted)] →
    f ≠ .accepted → Reaches sqrt s₀ (pre ++ [before]) s →
    Reaches sqrt s₀ (pre ++ [before, lone]) s' → f = .discarded ∧ SameStatistics s s'
  armed : ∀ ts us s s', ts <+: us → us <+: consumed → Reaches sqrt s₀ ts s →
    Reaches sqrt s₀ us s' → JITTER_WINDOW_MIN_SAMPLES ≤ s.jitterWindow.count →
    JITTER_WINDOW_MIN_SAMPLES ≤ s'.jitterWindow.count

/-! ### One slice -/

/-- Nothing is rejected before the window has its minimum. -/
theorem three_le_count_of_rejects {s : StatsAccumulator} {t : SliceTimings}
    (h : s.rejects t = true) : JITTER_WINDOW_MIN_SAMPLES ≤ s.jitterWindow.count := by
  rw [rejects, isJittered] at h
  split at h
  · cases h
  next hcount => exact not_lt.mp hcount

/-- A slice with a fate other than acceptance is rejected. -/
theorem rejects_of_fate {s : StatsAccumulator} {t : SliceTimings} (h : s.fate t ≠ .accepted) :
    s.rejects t = true := by
  rw [fate] at h
  split at h
  next hr => exact hr
  · exact absurd rfl h

/-- The window that a move of the baseline leaves is as long as the cap, or full. -/
theorem Discarding.count_internalRebaseline {s₀ s : StatsAccumulator}
    {pre : List SliceTimings} (h : Discarding s₀ pre s) {t : SliceTimings}
    (hshift : (s.recordDiscard t).shiftsLevel = true) :
    (s.recordDiscard t).internalRebaseline.jitterWindow.count =
      min s₀.knobs.consecutiveDiscardCap.toNat JITTER_WINDOW := by
  rw [← length_arrival, arrival_internalRebaseline, discardRunEntries, List.length_take,
    Vector.length_toList, discardRunCount, h.consecutive_eq_cap hshift]
  omega

/-- **One slice**: a window that has its minimum keeps it, unless the baseline moves with a
cap below it. -/
theorem Discarding.three_le_count_feedSlice {s₀ s : StatsAccumulator}
    {pre : List SliceTimings} (h : Discarding s₀ pre s) (t : SliceTimings)
    (hcap : s.fate t = .rebaselined →
      JITTER_WINDOW_MIN_SAMPLES ≤ s₀.knobs.consecutiveDiscardCap.toNat)
    (hcount : JITTER_WINDOW_MIN_SAMPLES ≤ s.jitterWindow.count) :
    JITTER_WINDOW_MIN_SAMPLES ≤ (s.feedSlice t).1.jitterWindow.count := by
  rcases feedSlice_of_fate s t with ⟨-, hf⟩ | ⟨-, hf⟩ | ⟨hfate, hshift, hf⟩
  · have hle : s.jitterWindow.count ≤ JITTER_WINDOW := s.jitterWindow.count_le
    rw [hf]
    change _ ≤ (s.jitterWindow.push t.cpuWallTime).count
    rw [count_push]
    omega
  · rw [hf]
    exact hcount
  · have hthree := hcap hfate
    rw [hf, h.count_internalRebaseline hshift]
    exact le_min hthree (by decide)

/-- A slice that is only discarded changes no statistics. -/
theorem sameStatistics_of_discarded {s : StatsAccumulator} {t : SliceTimings}
    (h : s.fate t = .discarded) : SameStatistics s (s.feedSlice t).1 := by
  rw [feedSlice_of_discarded h]
  exact ⟨rfl, rfl, rfl, rfl, rfl, rfl⟩

/-- An accepted slice ends the run of discards. -/
theorem consecutive_of_accepted {s : StatsAccumulator} {t : SliceTimings}
    (h : s.fate t = .accepted) : (s.feedSlice t).1.consecutiveDiscards = 0 := by
  rw [feedSlice_of_accepted h]
  rfl

/-- **A lone discard moves the baseline** only with a cap of one. -/
theorem Discarding.cap_eq_one {s₀ s : StatsAccumulator} {pre : List SliceTimings}
    (h : Discarding s₀ pre s) (hzero : s.consecutiveDiscards = 0) {t : SliceTimings}
    (hfate : s.fate t = .rebaselined) : s₀.knobs.consecutiveDiscardCap.toNat = 1 := by
  obtain ⟨hshift, -⟩ := feedSlice_of_rebaselined hfate
  rw [← h.consecutive_eq_cap hshift, h.consecutive_recordDiscard, hzero]
  rfl

/-- With a cap that is not below the minimum of the window, **a lone discard** is one. -/
theorem Discarding.fate_eq_discarded {s₀ s : StatsAccumulator} {pre : List SliceTimings}
    (h : Discarding s₀ pre s) (hzero : s.consecutiveDiscards = 0) {t : SliceTimings}
    (hcap : s.fate t = .rebaselined →
      JITTER_WINDOW_MIN_SAMPLES ≤ s₀.knobs.consecutiveDiscardCap.toNat)
    (hne : s.fate t ≠ .accepted) : s.fate t = .discarded := by
  cases hfate : s.fate t with
  | accepted => exact absurd hfate hne
  | discarded => rfl
  | rebaselined =>
      have hthree := hcap hfate
      rw [h.cap_eq_one hzero hfate] at hthree
      exact absurd hthree (by decide)

/-! ### Whole runs -/

/-- **A run of slices** keeps the minimum of the window. By induction from the end. -/
theorem three_le_count_feedAll {s₀ : StatsAccumulator} {consumed : List SliceTimings}
    (hrun : ∀ pre t, pre ++ [t] <+: consumed → Discarding s₀ pre (s₀.feedAll pre))
    (hcap : ∀ pre t, pre ++ [t] <+: consumed → (s₀.feedAll pre).fate t = .rebaselined →
      JITTER_WINDOW_MIN_SAMPLES ≤ s₀.knobs.consecutiveDiscardCap.toNat)
    {ts us : List SliceTimings} (hts : ts <+: us) (hus : us <+: consumed)
    (hcount : JITTER_WINDOW_MIN_SAMPLES ≤ (s₀.feedAll ts).jitterWindow.count) :
    JITTER_WINDOW_MIN_SAMPLES ≤ (s₀.feedAll us).jitterWindow.count := by
  obtain ⟨rest, rfl⟩ := hts
  induction rest using List.reverseRecOn with
  | nil =>
      rw [List.append_nil]
      exact hcount
  | append_singleton rest t ih =>
      rw [← List.append_assoc] at hus ⊢
      rw [feedAll_concat]
      exact (hrun _ t hus).three_le_count_feedSlice t (hcap _ t hus)
        (ih ((List.prefix_append _ [t]).trans hus))

/-- The fates of three slices in a row. -/
theorem judged_three (s₀ : StatsAccumulator) (pre : List SliceTimings)
    (before lone after : SliceTimings) :
    s₀.judged (pre ++ [before, lone, after]) = s₀.judged pre ++
      [(before, (s₀.feedAll pre).fate before),
        (lone, (s₀.feedAll (pre ++ [before])).fate lone),
        (after, (s₀.feedAll (pre ++ [before, lone])).fate after)] := by
  have hsplit : pre ++ [before, lone, after] = pre ++ [before] ++ [lone] ++ [after] := by simp
  rw [hsplit, judged_concat, judged_concat, judged_concat]
  simp

/-- **Lone discards are harmless on a run** exactly if the cap is at least the minimum of the
window, or the run does not move the baseline. -/
theorem loneDiscardsHarmless_iff (sqrt : ℚ → ℚ) (isGpuRun : Bool) (calibrationWallTime : ℚ)
    (configKnobs : StoppingKnobs) (consumed : List SliceTimings) (s : StatsAccumulator) :
    let s₀ := ({ isGpuRun := isGpuRun } : StatsAccumulator).deriveKnobs calibrationWallTime
      configKnobs
    Reaches sqrt s₀ consumed s →
    (LoneDiscardsHarmless sqrt s₀ consumed ↔
      JITTER_WINDOW_MIN_SAMPLES ≤ s₀.knobs.consecutiveDiscardCap.toNat ∨
        ∀ pre t, pre ++ [t] <+: consumed → (s₀.feedAll pre).fate t ≠ .rebaselined) := by
  intro s₀ hreached
  obtain ⟨-, -, hcap, -⟩ := deriveKnobs_pos { isGpuRun := isGpuRun } calibrationWallTime
    configKnobs
  have hrun : ∀ {pre t}, pre ++ [t] <+: consumed → sliceLoop sqrt s₀ pre = .running
      (s₀.feedAll pre) ∧ Discarding s₀ pre (s₀.feedAll pre) :=
    fun hpre => hreached.discarding hcap hpre
  constructor
  · intro h
    by_contra hneither
    simp only [not_or, not_forall, not_not, not_le] at hneither
    obtain ⟨hlt, pre, t, hpre, hfate⟩ := hneither
    obtain ⟨hl, hd⟩ := hrun hpre
    have hrejects : (s₀.feedAll pre).rejects t = true := rejects_of_fate (by simp [hfate])
    have harmed := h.armed pre (pre ++ [t]) _ _ (List.prefix_append pre [t]) hpre (Or.inl hl)
      (reaches_concat hl t) (three_le_count_of_rejects hrejects)
    obtain ⟨hshift, hf⟩ := feedSlice_of_rebaselined hfate
    rw [sliceStep_jitterWindow, hf, hd.count_internalRebaseline hshift] at harmed
    omega
  · intro h
    have hthree : ∀ pre t, pre ++ [t] <+: consumed → (s₀.feedAll pre).fate t = .rebaselined →
        JITTER_WINDOW_MIN_SAMPLES ≤ s₀.knobs.consecutiveDiscardCap.toNat :=
      fun pre t hpre hfate => h.resolve_right fun hnone => hnone pre t hpre hfate
    refine ⟨fun pre before lone after f s s' hpre hjudged hf hs hs' => ?_,
      fun ts us s s' hts hus hs hs' hcount => ?_⟩
    · rw [judged_three, List.append_cancel_left_eq] at hjudged
      simp only [List.cons.injEq, Prod.mk.injEq, true_and, and_true] at hjudged
      obtain ⟨hbefore, rfl, -⟩ := hjudged
      have hlone : pre ++ [before] ++ [lone] <+: consumed :=
        List.IsPrefix.trans ⟨[after], by simp⟩ hpre
      obtain ⟨-, hd⟩ := hrun hlone
      have hzero : (s₀.feedAll (pre ++ [before])).consecutiveDiscards = 0 := by
        rw [feedAll_concat]
        exact consecutive_of_accepted hbefore
      have hdiscarded : (s₀.feedAll (pre ++ [before])).fate lone = .discarded :=
        hd.fate_eq_discarded hzero (hthree _ _ hlone) hf
      obtain ⟨failed, reason, rfl⟩ := hs.eq_feedAll hcap
      obtain ⟨failed', reason', rfl⟩ := hs'.eq_feedAll hcap
      have hsame := sameStatistics_of_discarded hdiscarded
      rw [← feedAll_concat, List.append_assoc] at hsame
      exact ⟨hdiscarded, hsame.levelShifts_eq, hsame.accepted_eq, hsame.window_eq,
        hsame.cpu_eq, hsame.device_eq, hsame.driver_eq⟩
    · obtain ⟨failed, reason, rfl⟩ := hs.eq_feedAll hcap
      obtain ⟨failed', reason', rfl⟩ := hs'.eq_feedAll hcap
      exact three_le_count_feedAll (fun _ _ hpre => (hrun hpre).2) hthree hts hus hcount

/-- A spike between accepted slices, with the derived cap of five. -/
theorem loneDiscardsHarmless_iff_spike :
    let s₀ := ({ isGpuRun := false } : StatsAccumulator).deriveKnobs (1 / 1000) {}
    let consumed := [10, 10, 10, 20, 10, 10].map fun x => SliceTimings.mk x 0 0
    let s := (sliceLoop id s₀ consumed).state
    Reaches id s₀ consumed s ∧ s₀.verdicts consumed = [true, true, true, false, true, true] ∧
      (LoneDiscardsHarmless id s₀ consumed ↔
        JITTER_WINDOW_MIN_SAMPLES ≤ s₀.knobs.consecutiveDiscardCap.toNat ∨
          ∀ pre t, pre ++ [t] <+: consumed → (s₀.feedAll pre).fate t ≠ .rebaselined) := by
  intro s₀ consumed s
  have hreached : Reaches id s₀ consumed s :=
    Or.inl (LoopState.eq_running (by decide +kernel))
  exact ⟨hreached, by decide +kernel,
    loneDiscardsHarmless_iff id false (1 / 1000) {} consumed s hreached⟩

/-- **A cap of one**: the spike is a level of its own. The slices accepted before it are
gone, and the window that it leaves is too short to reject anything. -/
theorem not_loneDiscardsHarmless_of_one :
    let s₀ := ({ isGpuRun := false } : StatsAccumulator).deriveKnobs (1 / 1000)
      { consecutiveDiscardCap := 1 }
    let ts := [10, 10, 10, 20, 10].map fun x => SliceTimings.mk x 0 0
    let s := (sliceLoop id s₀ ts).state
    Reaches id s₀ ts s ∧ s₀.verdicts ts = [true, true, true, false, true] ∧
      ¬ LoneDiscardsHarmless id s₀ ts ∧ s.acceptedSlices = 1 ∧ s.levelShifts = 1 ∧
      s.jitterWindow.count = 2 := by
  intro s₀ ts s
  have hreached : Reaches id s₀ ts s := Or.inl (LoopState.eq_running (by decide +kernel))
  have hjudged : s₀.judged ts = [(⟨10, 0, 0⟩, .accepted), (⟨10, 0, 0⟩, .accepted),
      (⟨10, 0, 0⟩, .accepted), (⟨20, 0, 0⟩, .rebaselined), (⟨10, 0, 0⟩, .accepted)] := by
    decide +kernel
  refine ⟨hreached, by decide +kernel, fun h => ?_, by decide +kernel, by decide +kernel,
    by decide +kernel⟩
  obtain ⟨hfate, -⟩ := h.kept [⟨10, 0, 0⟩, ⟨10, 0, 0⟩] ⟨10, 0, 0⟩ ⟨20, 0, 0⟩ ⟨10, 0, 0⟩
    .rebaselined _ _ List.prefix_rfl hjudged (by decide)
    (Or.inl (LoopState.eq_running (by decide +kernel)))
    (Or.inl (LoopState.eq_running (by decide +kernel)))
  cases hfate

end Hades.Runtime.StatsAccumulator
