import Hades.JitterWindow
import Hades.SliceFates

/-!
# The Window of the Current Level

The slices of the current level are the accepted slices since the start or, behind a move of
the baseline, the discards that led to it and the slices accepted since (`levelTimes`). The
jitter window should hold the last of them in the order of arrival.

A move of the baseline copies the ring of discards slot by slot. In the runner's loop it
happens as soon as the run of discards is as long as the cap, so beyond a cap of eight the
ring has been written more than once around, and its first slot need not be its oldest: the
window gets the discards rotated (`KeepsOrder` says when that does not show).

## Main results

* `Discarding.sliceStep`: the ring holds the current run of discards in a running loop.
* `Discarding.rotate_discardRunEntries`: what a move of the baseline copies.
* `inArrivalOrder_iff`: **the runs on which the window is in order**.
-/

namespace Hades.Runtime.StatsAccumulator

open ExitLoop

/-! ### The slices of the current level -/

/-- The times of the slices that were not accepted. -/
def rejectedTimes (slices : List (SliceTimings × SliceFate)) : List ℚ :=
  (slices.filter fun slice => slice.2 ≠ .accepted).map fun slice => slice.1.cpuWallTime

/-- The slices up to the last move of the baseline, which is the last of them. -/
def uptoRebaseline (slices : List (SliceTimings × SliceFate)) :
    List (SliceTimings × SliceFate) :=
  slices.rdropWhile fun slice => slice.2 ≠ .rebaselined

/-- The last discards of a series, as many as a move of the baseline takes over. -/
def lastDiscards (s : StatsAccumulator) (slices : List (SliceTimings × SliceFate)) : List ℚ :=
  (rejectedTimes slices).rtake (min s.knobs.consecutiveDiscardCap.toNat JITTER_WINDOW)

/-- **The slices of the current level** of a series, in the order of arrival. -/
def levelTimes (s : StatsAccumulator) (ts : List SliceTimings) : List ℚ :=
  s.lastDiscards (uptoRebaseline (s.judged ts)) ++
    (s.measured ts).map SliceTimings.cpuWallTime

/-- **The window of a state is in order**: it holds the last slices of the level, the oldest
one goes with the next push, and the median that is reported is theirs. -/
structure InArrivalOrder (sqrt : ℚ → ℚ) (s₀ : StatsAccumulator) (ts : List SliceTimings)
    (s : StatsAccumulator) : Prop where
  arrival_eq : s.jitterWindow.arrival = (s₀.levelTimes ts).rtake JITTER_WINDOW
  push_eq : ∀ x, (s.jitterWindow.push x).arrival =
    (s₀.levelTimes ts ++ [x]).rtake JITTER_WINDOW
  median_eq : ∀ result iterationsPerSlice,
    (s.assembleResult sqrt result iterationsPerSlice).medianSliceWallTime =
      Median.median ((s₀.levelTimes ts).rtake JITTER_WINDOW)

/-- **The condition on a move of the baseline** for a cap and the last discards: the ring
is not overwritten, or the run of discards ends at its last slot, or the times are the same
when they are read from the slot that is next. -/
def KeepsOrder (consecutiveDiscardCap : ℕ) (lastDiscards : List ℚ) : Prop :=
  consecutiveDiscardCap ≤ JITTER_WINDOW ∨ JITTER_WINDOW ∣ consecutiveDiscardCap ∨
    lastDiscards.rotate consecutiveDiscardCap = lastDiscards

/-- The window is in order if the entries are. -/
theorem inArrivalOrder_of_arrival {sqrt : ℚ → ℚ} {s₀ s : StatsAccumulator}
    {ts : List SliceTimings}
    (h : s.jitterWindow.arrival = (s₀.levelTimes ts).rtake JITTER_WINDOW) :
    InArrivalOrder sqrt s₀ ts s where
  arrival_eq := h
  push_eq := fun x => by
    rw [RollingJitterWindow.arrival_push, h, RingBuffer.rtake_append_rtake]
  median_eq := fun result iterationsPerSlice => by
    rw [← h, ← RollingJitterWindow.median_eq, assembleResult]
    split
    · rfl
    · rfl

theorem rejectedTimes_concat (slices : List (SliceTimings × SliceFate)) (t : SliceTimings)
    (f : SliceFate) :
    rejectedTimes (slices ++ [(t, f)]) =
      if f = .accepted then rejectedTimes slices
      else rejectedTimes slices ++ [t.cpuWallTime] := by
  rw [rejectedTimes, List.filter_append, List.map_append]
  by_cases h : f = .accepted
  · simp [rejectedTimes, h]
  · simp [rejectedTimes, h]

/-- Before any slice the level has none. -/
theorem levelTimes_nil (s : StatsAccumulator) : s.levelTimes [] = [] := by
  have hnone : s.lastDiscards [] = [] := List.rtake_nil _
  rw [levelTimes, judged, uptoRebaseline, List.rdropWhile_nil, hnone]
  rfl

/-- **The slices of the level after one more slice**: an accepted slice is one more of
them, a discard is none, and a move of the baseline starts them again. -/
theorem levelTimes_concat (s : StatsAccumulator) (ts : List SliceTimings)
    (t : SliceTimings) :
    s.levelTimes (ts ++ [t]) =
      match (s.feedAll ts).fate t with
      | .accepted => s.levelTimes ts ++ [t.cpuWallTime]
      | .discarded => s.levelTimes ts
      | .rebaselined => s.lastDiscards (s.judged (ts ++ [t])) := by
  rw [levelTimes, measured_concat, judged_concat, uptoRebaseline, List.rdropWhile_concat]
  cases (s.feedAll ts).fate t with
  | accepted =>
      rw [if_pos (by simp), nextMeasured, List.map_append, ← List.append_assoc]
      rfl
  | discarded =>
      rw [if_pos (by simp)]
      rfl
  | rebaselined => simp [nextMeasured]

/-! ### The states of a run -/

/-- **A state of a run** after the slices it has consumed: the loop is still running, or it
has just stopped. -/
def Reaches (sqrt : ℚ → ℚ) (s₀ : StatsAccumulator) (consumed : List SliceTimings)
    (s : StatsAccumulator) : Prop :=
  sliceLoop sqrt s₀ consumed = .running s ∨ StopsAt sqrt s₀ consumed s

/-- One pass out of a running loop. -/
theorem reaches_concat {sqrt : ℚ → ℚ} {s₀ s : StatsAccumulator} {pre : List SliceTimings}
    (h : sliceLoop sqrt s₀ pre = .running s) (t : SliceTimings) :
    Reaches sqrt s₀ (pre ++ [t]) (s.sliceStep sqrt t).1 := by
  have hconcat : sliceLoop sqrt s₀ (pre ++ [t]) =
      LoopState.step (StatsAccumulator.sliceStep sqrt) (.running s) t := by
    rw [sliceLoop, loopState_concat, ← sliceLoop, h]
  cases hgo : (s.sliceStep sqrt t).2 with
  | false => exact Or.inl (hconcat.trans (LoopState.step_running_of_continue hgo))
  | true =>
      exact Or.inr ⟨pre, t, s, rfl, h, hconcat.trans (LoopState.step_running_of_stop hgo)⟩

/-- Before each of its slices a run is running. -/
theorem Reaches.running_of_prefix {sqrt : ℚ → ℚ} {s₀ s : StatsAccumulator}
    {consumed pre : List SliceTimings} {t : SliceTimings} (h : Reaches sqrt s₀ consumed s)
    (hpre : pre ++ [t] <+: consumed) : ∃ s₁, sliceLoop sqrt s₀ pre = .running s₁ := by
  cases hl : sliceLoop sqrt s₀ pre with
  | running s₁ => exact ⟨s₁, rfl⟩
  | exited s₁ =>
      have hexited : ∀ {us}, pre <+: us → sliceLoop sqrt s₀ us = .exited s₁ := by
        rintro us ⟨rest, rfl⟩
        exact loopState_append_of_exited hl rest
      rcases h with h | ⟨before, x, s₂, rfl, hbefore, -⟩
      · rw [hexited ((List.prefix_append pre [t]).trans hpre)] at h
        cases h
      · have hle : pre <+: before := by
          refine List.prefix_of_prefix_length_le
            ((List.prefix_append pre [t]).trans hpre) (List.prefix_append before [x]) ?_
          have := hpre.length_le
          simpa using this
        rw [hexited hle] at hbefore
        cases hbefore

/-- The state of a run is that of its slices, up to the verdict. -/
theorem sliceStep_jitterWindow (sqrt : ℚ → ℚ) (s : StatsAccumulator) (t : SliceTimings) :
    (s.sliceStep sqrt t).1.jitterWindow = (s.feedSlice t).1.jitterWindow := by
  obtain ⟨failed, reason, hs⟩ := shouldStop_fst sqrt (s.feedSlice t).1
  rw [sliceStep, hs]

/-- **The ring of a running loop** holds the current run of discards, which is shorter than
the cap. -/
structure Discarding (s₀ : StatsAccumulator) (pre : List SliceTimings) (s : StatsAccumulator) :
    Prop where
  fed : s = s₀.feedAll pre
  knobs_eq : s.knobs = s₀.knobs
  consecutive_lt : s.consecutiveDiscards.toNat < s₀.knobs.consecutiveDiscardCap.toNat
  consecutive_le : s.consecutiveDiscards.toNat ≤ (rejectedTimes (s₀.judged pre)).length
  holds : RingBuffer.Holds s.discardRun
    ((rejectedTimes (s₀.judged pre)).rtake s.consecutiveDiscards.toNat)

/-- A fresh accumulator. -/
theorem discarding_nil (isGpuRun : Bool) (knobs : StoppingKnobs)
    (hcap : 0 < knobs.consecutiveDiscardCap) :
    Discarding { isGpuRun := isGpuRun, knobs := knobs } []
      { isGpuRun := isGpuRun, knobs := knobs } where
  fed := rfl
  knobs_eq := rfl
  consecutive_lt := UInt32.lt_iff_toNat_lt.mp hcap
  consecutive_le := Nat.zero_le _
  holds := RingBuffer.holds_nil _

/-- The count of the current run after a discard. -/
theorem Discarding.consecutive_recordDiscard {s₀ s : StatsAccumulator}
    {pre : List SliceTimings} (h : Discarding s₀ pre s) (t : SliceTimings) :
    (s.recordDiscard t).consecutiveDiscards.toNat = s.consecutiveDiscards.toNat + 1 :=
  exactSucc_of_lt h.consecutive_lt

/-- The discards of a series of which the last slice is one. -/
theorem Discarding.rejectedTimes_eq {s₀ s : StatsAccumulator} {pre : List SliceTimings}
    (h : Discarding s₀ pre s) {t : SliceTimings} (hfate : s.fate t ≠ .accepted) :
    rejectedTimes (s₀.judged (pre ++ [t])) =
      rejectedTimes (s₀.judged pre) ++ [t.cpuWallTime] := by
  rw [judged_concat, ← h.fed, rejectedTimes_concat, if_neg hfate]

/-- **A discard** is written into the next slot of the ring. -/
theorem Discarding.recordDiscard {s₀ s : StatsAccumulator} {pre : List SliceTimings}
    (h : Discarding s₀ pre s) {t : SliceTimings} (hfate : s.fate t ≠ .accepted) :
    let s' := s.recordDiscard t
    let times := rejectedTimes (s₀.judged (pre ++ [t]))
    s'.consecutiveDiscards.toNat ≤ times.length ∧
      RingBuffer.Holds s'.discardRun (times.rtake s'.consecutiveDiscards.toNat) := by
  intro s' times
  have hcount : s'.consecutiveDiscards.toNat = s.consecutiveDiscards.toNat + 1 :=
    h.consecutive_recordDiscard t
  have hle := h.consecutive_le
  have htimes : times = rejectedTimes (s₀.judged pre) ++ [t.cpuWallTime] :=
    h.rejectedTimes_eq hfate
  rw [hcount, htimes]
  refine ⟨by rw [List.length_append, List.length_singleton]; omega, ?_⟩
  have hlength : ((rejectedTimes (s₀.judged pre)).rtake s.consecutiveDiscards.toNat).length =
      s.consecutiveDiscards.toNat := by
    rw [RingBuffer.length_rtake, min_eq_left hle]
  have hset := RingBuffer.holds_set h.holds t.cpuWallTime (Nat.mod_lt _ (by decide))
  simp only [hlength] at hset
  rw [List.rtake_concat_succ]
  exact hset

/-- **A pass that goes on** leaves a ring of this kind. -/
theorem Discarding.sliceStep {sqrt : ℚ → ℚ} {s₀ s : StatsAccumulator}
    {pre : List SliceTimings} (hcap : 0 < s₀.knobs.consecutiveDiscardCap)
    (h : Discarding s₀ pre s) {t : SliceTimings} (hgo : (s.sliceStep sqrt t).2 = false) :
    Discarding s₀ (pre ++ [t]) (s.sliceStep sqrt t).1 := by
  have hpos := UInt32.lt_iff_toNat_lt.mp hcap
  have hlt := ((shouldStop_continue_iff sqrt _).mp hgo).1
  rw [sliceStep_of_continue hgo]
  have hfed : (s.feedSlice t).1 = s₀.feedAll (pre ++ [t]) := by rw [feedAll_concat, ← h.fed]
  have hknobs : (s.feedSlice t).1.knobs = s₀.knobs := by
    rw [(feedSlice_frame s t).2.2.2, h.knobs_eq]
  rcases feedSlice_of_fate s t with ⟨-, hf⟩ | ⟨hfate, hf⟩ | ⟨-, -, hf⟩
  · refine ⟨hfed, hknobs, ?_, ?_, ?_⟩
    · rw [hf]
      exact hpos
    · rw [hf]
      exact Nat.zero_le _
    · rw [hf]
      simpa [acceptSlice] using RingBuffer.holds_nil _
  · obtain ⟨hle, hholds⟩ := h.recordDiscard (t := t) (by simp [hfate])
    rw [hknobs] at hlt
    refine ⟨hfed, hknobs, UInt32.lt_iff_toNat_lt.mp hlt, ?_, ?_⟩
    · rw [hf]
      exact hle
    · rw [hf]
      exact hholds
  · refine ⟨hfed, hknobs, ?_, ?_, ?_⟩
    · rw [hf]
      exact hpos
    · rw [hf]
      exact Nat.zero_le _
    · rw [hf]
      simpa [internalRebaseline] using RingBuffer.holds_nil _

/-- Every running state of a loop has a ring of this kind. -/
theorem discarding_of_running {sqrt : ℚ → ℚ} {isGpuRun : Bool} {knobs : StoppingKnobs}
    (hcap : 0 < knobs.consecutiveDiscardCap) {pre : List SliceTimings} {s : StatsAccumulator} :
    let s₀ : StatsAccumulator := { isGpuRun := isGpuRun, knobs := knobs }
    sliceLoop sqrt s₀ pre = .running s → Discarding s₀ pre s := by
  intro s₀ hl
  exact (loopState_invariant (StatsAccumulator.sliceStep sqrt) (Discarding s₀)
    (discarding_nil isGpuRun knobs hcap)
    (fun _ _ _ h hgo => h.sliceStep hcap hgo) pre).1 s hl

/-! ### What a move of the baseline copies -/

/-- In a running loop the baseline moves when the run of discards is as long as the cap. -/
theorem Discarding.consecutive_eq_cap {s₀ s : StatsAccumulator} {pre : List SliceTimings}
    (h : Discarding s₀ pre s) {t : SliceTimings} (hshift : (s.recordDiscard t).shiftsLevel = true) :
    (s.recordDiscard t).consecutiveDiscards.toNat = s₀.knobs.consecutiveDiscardCap.toNat := by
  have hlt := h.consecutive_lt
  have hcount := h.consecutive_recordDiscard t
  have hknobs : (s.recordDiscard t).knobs = s₀.knobs := h.knobs_eq
  simp only [shiftsLevel, Bool.and_eq_true, decide_eq_true_eq, hknobs] at hshift
  have hle := UInt32.le_iff_toNat_le.mp hshift.1.1
  omega

/-- **The slots that a move of the baseline copies**, read from the one that is next, are
the last discards. -/
theorem Discarding.rotate_discardRunEntries {s₀ s : StatsAccumulator}
    {pre : List SliceTimings} (h : Discarding s₀ pre s) {t : SliceTimings}
    (hfate : s.fate t = .rebaselined) (hshift : (s.recordDiscard t).shiftsLevel = true) :
    (s.recordDiscard t).discardRunEntries.rotate s₀.knobs.consecutiveDiscardCap.toNat =
      s₀.lastDiscards (s₀.judged (pre ++ [t])) := by
  obtain ⟨hle, hholds⟩ := h.recordDiscard (t := t) (by simp [hfate])
  have hcount := h.consecutive_eq_cap hshift
  have hrotate := RingBuffer.rotate_take_of_holds hholds
  rw [RingBuffer.length_rtake, min_eq_left hle, RingBuffer.rtake_rtake, min_comm, hcount]
    at hrotate
  have hentries : (s.recordDiscard t).discardRunEntries =
      (s.recordDiscard t).discardRun.toList.take s₀.knobs.consecutiveDiscardCap.toNat := by
    rw [discardRunEntries, discardRunCount, hcount, List.take_eq_take_iff]
    simp only [Vector.length_toList]
    omega
  rw [hentries, hrotate, lastDiscards]

/-- The discards that a move of the baseline takes over. -/
theorem length_lastDiscards_le (s : StatsAccumulator)
    (slices : List (SliceTimings × SliceFate)) :
    (s.lastDiscards slices).length ≤ JITTER_WINDOW := by
  rw [lastDiscards, RingBuffer.length_rtake]
  omega

/-- The window behind a move of the baseline. -/
theorem arrival_internalRebaseline (s : StatsAccumulator) :
    s.internalRebaseline.jitterWindow.arrival = s.discardRunEntries := by
  have hle : s.discardRunEntries.length ≤ JITTER_WINDOW := by
    rw [discardRunEntries, List.length_take, Vector.length_toList]
    exact min_le_right _ _
  have harrival : s.internalRebaseline.jitterWindow.arrival =
      s.discardRunEntries.rtake JITTER_WINDOW :=
    RollingJitterWindow.arrival_foldl_push _ _
  rw [harrival, List.rtake, Nat.sub_eq_zero_of_le hle, List.drop_zero]

/-- The condition is that the rotation does not show. -/
theorem KeepsOrder.rotate_eq {cap : ℕ} {times : List ℚ} (h : KeepsOrder cap times)
    (hlength : times.length = min cap JITTER_WINDOW) : times.rotate cap = times := by
  rcases h with hle | hdvd | hrotate
  · rw [min_eq_left hle] at hlength
    rw [← hlength, List.rotate_length]
  · rw [← List.rotate_mod, hlength]
    rcases Nat.le_total cap JITTER_WINDOW with hle | hge
    · rw [min_eq_left hle, Nat.mod_self, List.rotate_zero]
    · rw [min_eq_right hge, Nat.mod_eq_zero_of_dvd hdvd, List.rotate_zero]
  · exact hrotate

/-- **One move of the baseline**: it leaves the last discards in order exactly under the
condition. -/
theorem Discarding.entries_eq_iff {s₀ s : StatsAccumulator} {pre : List SliceTimings}
    (h : Discarding s₀ pre s) {t : SliceTimings} (hfate : s.fate t = .rebaselined)
    (hshift : (s.recordDiscard t).shiftsLevel = true) :
    let times := s₀.lastDiscards (s₀.judged (pre ++ [t]))
    (s.recordDiscard t).discardRunEntries = times ↔
      KeepsOrder s₀.knobs.consecutiveDiscardCap.toNat times := by
  intro times
  have hrotate := h.rotate_discardRunEntries hfate hshift
  have hlength : times.length = min s₀.knobs.consecutiveDiscardCap.toNat JITTER_WINDOW := by
    obtain ⟨hle, -⟩ := h.recordDiscard (t := t) (by simp [hfate])
    rw [h.consecutive_eq_cap hshift] at hle
    simp only [times, lastDiscards]
    rw [RingBuffer.length_rtake, min_eq_left ((min_le_left _ _).trans hle)]
  constructor
  · intro heq
    rw [heq] at hrotate
    exact Or.inr (Or.inr hrotate)
  · intro hkeeps
    rw [← List.rotate_eq_rotate (n := s₀.knobs.consecutiveDiscardCap.toNat), hrotate]
    exact (hkeeps.rotate_eq hlength).symm

/-! ### Whole runs -/

/-- Before each of its slices a run is in the state of the slices consumed. -/
theorem Reaches.discarding {sqrt : ℚ → ℚ} {isGpuRun : Bool} {knobs : StoppingKnobs}
    (hcap : 0 < knobs.consecutiveDiscardCap) {consumed pre : List SliceTimings}
    {s : StatsAccumulator} {t : SliceTimings} :
    let s₀ : StatsAccumulator := { isGpuRun := isGpuRun, knobs := knobs }
    Reaches sqrt s₀ consumed s → pre ++ [t] <+: consumed →
    sliceLoop sqrt s₀ pre = .running (s₀.feedAll pre) ∧ Discarding s₀ pre (s₀.feedAll pre) := by
  intro s₀ h hpre
  obtain ⟨s₁, hl⟩ := h.running_of_prefix hpre
  have hd : Discarding s₀ pre s₁ := discarding_of_running hcap hl
  obtain rfl := hd.fed
  exact ⟨hl, hd⟩

/-- A reached state is that of the slices consumed, up to the verdict. -/
theorem Reaches.eq_feedAll {sqrt : ℚ → ℚ} {isGpuRun : Bool} {knobs : StoppingKnobs}
    (hcap : 0 < knobs.consecutiveDiscardCap) {ts : List SliceTimings} {s : StatsAccumulator} :
    let s₀ : StatsAccumulator := { isGpuRun := isGpuRun, knobs := knobs }
    Reaches sqrt s₀ ts s →
    ∃ failed reason, s = { s₀.feedAll ts with runFailed := failed, stopReason := reason } := by
  intro s₀ h
  rcases h with h | ⟨pre, t, s₁, rfl, hpre, hstop⟩
  · have hfed := (discarding_of_running hcap h).fed
    exact ⟨s.runFailed, s.stopReason, by rw [← hfed]⟩
  · have hfed : s₁ = s₀.feedAll pre := (discarding_of_running hcap hpre).fed
    obtain ⟨-, rfl⟩ := stop_of_concat hpre hstop
    rw [feedAll_concat, ← hfed]
    exact shouldStop_fst sqrt (s₁.feedSlice t).1

/-- **The step lemma**: one more slice keeps the entries in order, a move of the baseline
under its condition. -/
theorem Discarding.arrival_feedSlice {s₀ s : StatsAccumulator} {pre : List SliceTimings}
    (h : Discarding s₀ pre s) (t : SliceTimings)
    (harrival : s.jitterWindow.arrival = (s₀.levelTimes pre).rtake JITTER_WINDOW)
    (hkeeps : s.fate t = .rebaselined → KeepsOrder s₀.knobs.consecutiveDiscardCap.toNat
      (s₀.lastDiscards (s₀.judged (pre ++ [t])))) :
    (s.feedSlice t).1.jitterWindow.arrival =
      (s₀.levelTimes (pre ++ [t])).rtake JITTER_WINDOW := by
  rw [levelTimes_concat, ← h.fed]
  rcases feedSlice_of_fate s t with ⟨hfate, hf⟩ | ⟨hfate, hf⟩ | ⟨hfate, hshift, hf⟩
  · rw [hf, hfate]
    change (s.jitterWindow.push t.cpuWallTime).arrival = _
    rw [RollingJitterWindow.arrival_push, harrival, RingBuffer.rtake_append_rtake]
  · rw [hf, hfate]
    exact harrival
  · rw [hf, hfate, arrival_internalRebaseline, List.rtake,
      Nat.sub_eq_zero_of_le (length_lastDiscards_le _ _), List.drop_zero]
    exact (h.entries_eq_iff hfate hshift).mpr (hkeeps hfate)

/-- **The window is in order in every state of a run** exactly if every move of the baseline
on the way keeps the order of the discards that led to it. -/
theorem inArrivalOrder_iff (sqrt : ℚ → ℚ) (isGpuRun : Bool) (knobs : StoppingKnobs)
    (hcap : 0 < knobs.consecutiveDiscardCap) (consumed : List SliceTimings)
    (s : StatsAccumulator) :
    let s₀ : StatsAccumulator := { isGpuRun := isGpuRun, knobs := knobs }
    Reaches sqrt s₀ consumed s →
    ((∀ ts s', ts <+: consumed → Reaches sqrt s₀ ts s' → InArrivalOrder sqrt s₀ ts s') ↔
      ∀ pre t, pre ++ [t] <+: consumed → (s₀.feedAll pre).fate t = .rebaselined →
        KeepsOrder knobs.consecutiveDiscardCap.toNat
          (s₀.lastDiscards (s₀.judged (pre ++ [t])))) := by
  intro s₀ hreached
  constructor
  · intro horder pre t hpre hfate
    obtain ⟨hl, hd⟩ := hreached.discarding hcap hpre
    obtain ⟨hshift, hf⟩ := feedSlice_of_rebaselined hfate
    refine (hd.entries_eq_iff hfate hshift).mp ?_
    have harrival := (horder _ _ hpre (reaches_concat hl t)).arrival_eq
    rw [sliceStep_jitterWindow, hf, arrival_internalRebaseline, levelTimes_concat, hfate,
      List.rtake, Nat.sub_eq_zero_of_le (length_lastDiscards_le _ _), List.drop_zero] at harrival
    exact harrival
  · intro hkeeps ts s' hts hs'
    refine inArrivalOrder_of_arrival ?_
    obtain ⟨failed, reason, rfl⟩ := hs'.eq_feedAll hcap
    change (s₀.feedAll ts).jitterWindow.arrival = _
    -- by induction on the slices consumed, from the end
    clear hs'
    induction ts using List.reverseRecOn with
    | nil =>
        rw [levelTimes_nil]
        rfl
    | append_singleton pre t ih =>
        obtain ⟨-, hd⟩ := hreached.discarding hcap hts
        rw [feedAll_concat]
        exact hd.arrival_feedSlice t (ih ((List.prefix_append pre [t]).trans hts))
          (hkeeps pre t hts)

/-- A cap of ten, and ten discards whose times take turns: the first slot of the ring is not
its oldest, but reads the same. -/
theorem inArrivalOrder_iff_ten :
    let knobs : StoppingKnobs :=
      { minSlices := 9, maxSlices := 9, consecutiveDiscardCap := 10, totalDiscardCap := 20 }
    let s₀ : StatsAccumulator := { isGpuRun := false, knobs := knobs }
    let consumed := [10, 10, 10, 20, 22, 20, 22, 20, 22, 20, 22, 20, 22, 21].map
      fun x => SliceTimings.mk x 0 0
    let s := (sliceLoop id s₀ consumed).state
    0 < knobs.consecutiveDiscardCap ∧ Reaches id s₀ consumed s ∧
      s₀.levelTimes consumed = [20, 22, 20, 22, 20, 22, 20, 22, 21] ∧
      ((∀ ts s', ts <+: consumed → Reaches id s₀ ts s' → InArrivalOrder id s₀ ts s') ↔
        ∀ pre t, pre ++ [t] <+: consumed → (s₀.feedAll pre).fate t = .rebaselined →
          KeepsOrder knobs.consecutiveDiscardCap.toNat
            (s₀.lastDiscards (s₀.judged (pre ++ [t])))) := by
  intro knobs s₀ consumed s
  have hcap : 0 < knobs.consecutiveDiscardCap := by decide
  have hreached : Reaches id s₀ consumed s :=
    Or.inl (LoopState.eq_running (by decide +kernel))
  exact ⟨hcap, hreached, by decide +kernel,
    inArrivalOrder_iff id false knobs hcap consumed s hreached⟩

/-- **A cap of nine**: the ninth discard overwrites the first one, so the window reads the
last discard as its oldest entry, and the next slice evicts it. -/
theorem not_inArrivalOrder_of_nine :
    let s₀ := ({ isGpuRun := false } : StatsAccumulator).deriveKnobs (1 / 1000)
      { consecutiveDiscardCap := 9 }
    let ts := [10, 10, 10, 20, 20, 20, 20, 20, 23, 23, 23, 23, 23].map
      fun x => SliceTimings.mk x 0 0
    let s := (sliceLoop id s₀ ts).state
    Reaches id s₀ ts s ∧ ¬ InArrivalOrder id s₀ ts s ∧
      s₀.levelTimes ts = [20, 20, 20, 20, 23, 23, 23, 23, 23] ∧
      s.jitterWindow.arrival = [20, 20, 20, 20, 23, 23, 23, 23] ∧
      (s.assembleResult id {} 1).medianSliceWallTime = 43 / 2 := by
  intro s₀ ts s
  have harrival : s.jitterWindow.arrival = [20, 20, 20, 20, 23, 23, 23, 23] := by
    decide +kernel
  have hlevel : s₀.levelTimes ts = [20, 20, 20, 20, 23, 23, 23, 23, 23] := by decide +kernel
  refine ⟨Or.inl (LoopState.eq_running (by decide +kernel)), fun horder => ?_, hlevel, harrival,
    by decide +kernel⟩
  have heq := horder.arrival_eq
  rw [harrival, hlevel] at heq
  exact absurd heq (by decide +kernel)

end Hades.Runtime.StatsAccumulator
