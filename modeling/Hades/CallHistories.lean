import Hades.RingBuffer
import Hades.SliceFates

/-!
# Calls in Any Order

The runner calls `deriveKnobs` once and then `feedSlice` and `shouldStop` in turn, but the
accumulator does not depend on it: its counters, its streams and its ring of discards fit
together after any calls in any order. The ring is never cleared. What an earlier run of
discards has left in it is behind the slots that the current run has written, or is written
over.

`Tracked` is the invariant, over the current run of discards and the number of slices fed.

## Main results

* `Tracked.acceptSlice`, `Tracked.recordDiscard`, `Tracked.internalRebaseline`: **the
  branches of `feedSlice`** keep the invariant.
* `tracked_runCalls`: any series of calls does.
* `consistent_runCalls`: what holds after every series of fewer than `2 ^ 32` slices.
-/

namespace Hades.Runtime.StatsAccumulator

/-- A call of one of the operations. -/
inductive AccumulatorCall where
  | deriveKnobs (calibrationWallTime : ℚ) (configKnobs : StoppingKnobs)
  | feedSlice (timings : SliceTimings)
  | shouldStop

/-- The slice that a call feeds. -/
def AccumulatorCall.slice? : AccumulatorCall → Option SliceTimings
  | .feedSlice timings => some timings
  | _ => none

/-- The state after a call. -/
def call (sqrt : ℚ → ℚ) (s : StatsAccumulator) : AccumulatorCall → StatsAccumulator
  | .deriveKnobs calibrationWallTime configKnobs => s.deriveKnobs calibrationWallTime configKnobs
  | .feedSlice timings => (s.feedSlice timings).1
  | .shouldStop => (s.shouldStop sqrt).1

/-- The state after a series of calls. -/
def runCalls (sqrt : ℚ → ℚ) (s : StatsAccumulator) (calls : List AccumulatorCall) :
    StatsAccumulator :=
  calls.foldl (call sqrt) s

/-- How many slices the calls feed. -/
def slicesFed (calls : List AccumulatorCall) : ℕ :=
  (calls.filterMap AccumulatorCall.slice?).length

/-- The slices that the calls feed, each with its fate. -/
def judgedCalls (sqrt : ℚ → ℚ) (s : StatsAccumulator) :
    List AccumulatorCall → List (SliceTimings × SliceFate)
  | [] => []
  | c :: calls =>
    (c.slice?.toList.map fun t => (t, s.fate t)) ++ judgedCalls sqrt (s.call sqrt c) calls

/-- **The current run of discards**: the times of the slices discarded since the last one that
was accepted or moved the baseline. -/
def currentRun (slices : List (SliceTimings × SliceFate)) : List ℚ :=
  (slices.rtakeWhile fun slice => slice.2 = .discarded).map fun slice => slice.1.cpuWallTime

/-- **The parts of the accumulator fit together** after slices with their fates. -/
structure Consistent (s : StatsAccumulator) (slices : List (SliceTimings × SliceFate)) :
    Prop where
  consecutive_le_total : s.consecutiveDiscards ≤ s.totalDiscards
  consecutive_le_max : s.consecutiveDiscards ≤ s.maxConsecutiveDiscards
  levelShifts_le : s.levelShifts ≤ MAX_LEVEL_SHIFTS
  cpu_count : s.cpuWallTime.count = s.acceptedSlices
  device_count : s.isGpuRun = true → s.deviceKernelTime.count = s.acceptedSlices
  driver_count : s.isGpuRun = true → s.driverOverhead.count = s.acceptedSlices
  consecutive_eq : s.consecutiveDiscards.toNat = (currentRun slices).length
  ring_perm : (s.discardRun.toList.take (min s.consecutiveDiscards.toNat JITTER_WINDOW)).Perm
    ((currentRun slices).rtake JITTER_WINDOW)

/-! ### The invariant -/

/-- **The invariant**, for the times of the current run of discards and the number of slices
fed so far, which bounds the discards. -/
structure Tracked (s : StatsAccumulator) (run : List ℚ) (fed : ℕ) : Prop where
  consecutive_eq : s.consecutiveDiscards.toNat = run.length
  consecutive_le : s.consecutiveDiscards.toNat ≤ s.totalDiscards.toNat
  total_le : s.totalDiscards.toNat ≤ fed
  max_le : s.consecutiveDiscards.toNat ≤ s.maxConsecutiveDiscards.toNat
  levelShifts_le : s.levelShifts.toNat ≤ MAX_LEVEL_SHIFTS.toNat
  cpu_count : s.cpuWallTime.count = s.acceptedSlices
  device_count : s.isGpuRun = true → s.deviceKernelTime.count = s.acceptedSlices
  driver_count : s.isGpuRun = true → s.driverOverhead.count = s.acceptedSlices
  holds : RingBuffer.Holds s.discardRun run

/-- A fresh accumulator. -/
theorem tracked_nil (isGpuRun : Bool) : Tracked { isGpuRun := isGpuRun } [] 0 where
  consecutive_eq := rfl
  consecutive_le := le_rfl
  total_le := le_rfl
  max_le := le_rfl
  levelShifts_le := Nat.zero_le _
  cpu_count := rfl
  device_count := fun _ => rfl
  driver_count := fun _ => rfl
  holds := RingBuffer.holds_nil _

/-- **An accepted slice** ends the run of discards, and is one more for every stream. -/
theorem Tracked.acceptSlice {s : StatsAccumulator} {run : List ℚ} {fed : ℕ}
    (h : Tracked s run fed) (t : SliceTimings) : Tracked (s.acceptSlice t) [] (fed + 1) where
  consecutive_eq := rfl
  consecutive_le := Nat.zero_le _
  total_le := Nat.le_succ_of_le h.total_le
  max_le := Nat.zero_le _
  levelShifts_le := h.levelShifts_le
  cpu_count := congrArg (· + 1) h.cpu_count
  device_count := fun hgpu => by
    have hg : s.isGpuRun = true := hgpu
    simp only [StatsAccumulator.acceptSlice, hg, if_true]
    exact congrArg (· + 1) (h.device_count hg)
  driver_count := fun hgpu => by
    have hg : s.isGpuRun = true := hgpu
    simp only [StatsAccumulator.acceptSlice, hg, if_true]
    exact congrArg (· + 1) (h.driver_count hg)
  holds := RingBuffer.holds_nil _

/-- **A discard** is one more of its run, written into the next slot of the ring. -/
theorem Tracked.recordDiscard {s : StatsAccumulator} {run : List ℚ} {fed : ℕ}
    (h : Tracked s run fed) (t : SliceTimings) (hlt : fed + 1 < 2 ^ 32) :
    Tracked (s.recordDiscard t) (run ++ [t.cpuWallTime]) (fed + 1) := by
  have hfed := h.total_le
  obtain ⟨hcurrent, hcount, hlongest⟩ := counts_recordDiscard h.consecutive_le (by omega) t
  refine ⟨?_, ?_, ?_, ?_, h.levelShifts_le, h.cpu_count, h.device_count, h.driver_count, ?_⟩
  · rw [hcurrent, h.consecutive_eq, List.length_append, List.length_singleton]
  · rw [hcurrent, hcount]
    exact Nat.succ_le_succ h.consecutive_le
  · rw [hcount]
    exact Nat.succ_le_succ hfed
  · rw [hcurrent, hlongest]
    exact le_max_right _ _
  · have hset := RingBuffer.holds_set h.holds t.cpuWallTime (Nat.mod_lt _ (by decide))
    simp only [← h.consecutive_eq] at hset
    exact hset

/-- **A move of the baseline** takes the run of discards out of their total. -/
theorem Tracked.internalRebaseline {s : StatsAccumulator} {run : List ℚ} {fed : ℕ}
    (h : Tracked s run fed) (hshift : s.shiftsLevel = true) :
    Tracked s.internalRebaseline [] fed := by
  have hlevel := levelShifts_lt_of_shiftsLevel hshift
  have hsucc : (s.levelShifts + 1).toNat = s.levelShifts.toNat + 1 := exactSucc_of_lt hlevel
  have hshifts : s.internalRebaseline.levelShifts = s.levelShifts + 1 := rfl
  have htotal := totalDiscards_internalRebaseline h.consecutive_le
  have hfed := h.total_le
  refine ⟨rfl, Nat.zero_le _, ?_, Nat.zero_le _, ?_, rfl, fun _ => rfl, fun _ => rfl,
    RingBuffer.holds_nil _⟩
  · omega
  · rw [hshifts, hsucc]
    exact hlevel

/-! ### Series of calls -/

/-- The state after one more call. -/
theorem runCalls_concat (sqrt : ℚ → ℚ) (s : StatsAccumulator) (calls : List AccumulatorCall)
    (c : AccumulatorCall) :
    s.runCalls sqrt (calls ++ [c]) = (s.runCalls sqrt calls).call sqrt c := by
  rw [runCalls, List.foldl_append]
  rfl

/-- A slice fed after a series of calls. -/
theorem judgedCalls_concat_feedSlice (sqrt : ℚ → ℚ) (s : StatsAccumulator)
    (calls : List AccumulatorCall) (t : SliceTimings) :
    s.judgedCalls sqrt (calls ++ [.feedSlice t]) =
      s.judgedCalls sqrt calls ++ [(t, (s.runCalls sqrt calls).fate t)] := by
  induction calls generalizing s with
  | nil => rfl
  | cons c calls ih =>
      rw [List.cons_append, judgedCalls, ih, judgedCalls, List.append_assoc]
      rfl

/-- Another call after a series of calls. -/
theorem judgedCalls_concat_of_none (sqrt : ℚ → ℚ) (s : StatsAccumulator)
    (calls : List AccumulatorCall) {c : AccumulatorCall} (hc : c.slice? = none) :
    s.judgedCalls sqrt (calls ++ [c]) = s.judgedCalls sqrt calls := by
  induction calls generalizing s with
  | nil => simp [judgedCalls, hc]
  | cons first calls ih => rw [List.cons_append, judgedCalls, ih, judgedCalls]

/-- One more call feeds a slice or none. -/
theorem slicesFed_concat (calls : List AccumulatorCall) (c : AccumulatorCall) :
    slicesFed (calls ++ [c]) = slicesFed calls + c.slice?.toList.length := by
  rw [slicesFed, List.filterMap_append, List.length_append, slicesFed]
  cases c <;> rfl

/-- A slice that is accepted or moves the baseline ends the run of discards. -/
theorem currentRun_concat_of_ne (slices : List (SliceTimings × SliceFate)) (t : SliceTimings)
    {f : SliceFate} (hf : f ≠ .discarded) : currentRun (slices ++ [(t, f)]) = [] := by
  rw [currentRun, List.rtakeWhile_concat_neg _ _ _ (by simpa using hf), List.map_nil]

/-- A discard goes on with it. -/
theorem currentRun_concat_discarded (slices : List (SliceTimings × SliceFate))
    (t : SliceTimings) :
    currentRun (slices ++ [(t, .discarded)]) = currentRun slices ++ [t.cpuWallTime] := by
  rw [currentRun, List.rtakeWhile_concat_pos _ _ _ (by simp), List.map_append]
  rfl

/-- **The step lemma**: one more slice. -/
theorem Tracked.feedSlice {s : StatsAccumulator} {slices : List (SliceTimings × SliceFate)}
    {fed : ℕ} (h : Tracked s (currentRun slices) fed) (t : SliceTimings)
    (hlt : fed + 1 < 2 ^ 32) :
    Tracked (s.feedSlice t).1 (currentRun (slices ++ [(t, s.fate t)])) (fed + 1) := by
  rcases feedSlice_of_fate s t with ⟨hfate, hf⟩ | ⟨hfate, hf⟩ | ⟨hfate, hshift, hf⟩
  · rw [hf, hfate, currentRun_concat_of_ne _ _ (by decide)]
    exact h.acceptSlice t
  · rw [hf, hfate, currentRun_concat_discarded]
    exact h.recordDiscard t hlt
  · rw [hf, hfate, currentRun_concat_of_ne _ _ (by decide)]
    exact (h.recordDiscard t hlt).internalRebaseline hshift

/-- `shouldStop` writes its verdict only. -/
theorem Tracked.shouldStop {s : StatsAccumulator} {run : List ℚ} {fed : ℕ}
    (h : Tracked s run fed) (sqrt : ℚ → ℚ) : Tracked (s.shouldStop sqrt).1 run fed := by
  obtain ⟨failed, reason, hs⟩ := shouldStop_fst sqrt s
  rw [hs]
  exact { h with }

/-- **Any series of calls** keeps the invariant. By induction from the end. -/
theorem tracked_runCalls (sqrt : ℚ → ℚ) (isGpuRun : Bool) {calls : List AccumulatorCall}
    (hlt : slicesFed calls < 2 ^ 32) :
    let s₀ : StatsAccumulator := { isGpuRun := isGpuRun }
    Tracked (s₀.runCalls sqrt calls) (currentRun (s₀.judgedCalls sqrt calls))
      (slicesFed calls) := by
  intro s₀
  induction calls using List.reverseRecOn with
  | nil => exact tracked_nil isGpuRun
  | append_singleton calls c ih =>
      rw [slicesFed_concat] at hlt ⊢
      have h := ih (by omega)
      rw [runCalls_concat]
      cases c with
      | deriveKnobs calibrationWallTime configKnobs =>
          rw [judgedCalls_concat_of_none _ _ _ rfl]
          exact { h with }
      | feedSlice t =>
          rw [judgedCalls_concat_feedSlice]
          exact h.feedSlice t hlt
      | shouldStop =>
          rw [judgedCalls_concat_of_none _ _ _ rfl]
          exact h.shouldStop sqrt

/-- The invariant says what the slots of the ring hold, up to their order. -/
theorem Tracked.consistent {s : StatsAccumulator} {slices : List (SliceTimings × SliceFate)}
    {fed : ℕ} (h : Tracked s (currentRun slices) fed) : Consistent s slices where
  consecutive_le_total := UInt32.le_iff_toNat_le.mpr h.consecutive_le
  consecutive_le_max := UInt32.le_iff_toNat_le.mpr h.max_le
  levelShifts_le := UInt32.le_iff_toNat_le.mpr h.levelShifts_le
  cpu_count := h.cpu_count
  device_count := h.device_count
  driver_count := h.driver_count
  consecutive_eq := h.consecutive_eq
  ring_perm := by
    have hslots : s.discardRun.toList.take (min s.consecutiveDiscards.toNat JITTER_WINDOW) =
        s.discardRun.toList.take (currentRun slices).length := by
      rw [h.consecutive_eq, List.take_eq_take_iff, Vector.length_toList]
      omega
    rw [hslots, ← RingBuffer.rotate_take_of_holds h.holds]
    exact (List.rotate_perm _ _).symm

/-- **After any calls in any order** that feed fewer than `2 ^ 32` slices, the parts of the
accumulator fit together, and no move of the baseline on the way has taken more discards out
of their total than there were. -/
theorem consistent_runCalls (sqrt : ℚ → ℚ) (isGpuRun : Bool) (calls : List AccumulatorCall)
    (hlt : slicesFed calls < 2 ^ 32) :
    let s₀ : StatsAccumulator := { isGpuRun := isGpuRun }
    Consistent (s₀.runCalls sqrt calls) (s₀.judgedCalls sqrt calls) ∧
      ∀ pre t, pre ++ [.feedSlice t] <+: calls →
        let s := (s₀.runCalls sqrt pre).recordDiscard t
        s.consecutiveDiscards ≤ s.totalDiscards := by
  intro s₀
  refine ⟨(tracked_runCalls sqrt isGpuRun hlt).consistent, fun pre t hpre => ?_⟩
  have hfed : slicesFed (pre ++ [.feedSlice t]) ≤ slicesFed calls :=
    (hpre.filterMap AccumulatorCall.slice?).length_le
  rw [slicesFed_concat] at hfed
  have hone : slicesFed pre + 1 < 2 ^ 32 := lt_of_le_of_lt hfed hlt
  have h := tracked_runCalls sqrt isGpuRun (Nat.lt_of_succ_lt hone)
  exact UInt32.le_iff_toNat_le.mpr (h.recordDiscard t hone).consecutive_le

/-- A verdict before the knobs, a spike, and the knobs again behind it. -/
theorem consistent_runCalls_spike :
    let s₀ : StatsAccumulator := { isGpuRun := true }
    let calls : List AccumulatorCall := [.shouldStop, .feedSlice ⟨10, 1, 1⟩,
      .feedSlice ⟨10, 1, 1⟩, .feedSlice ⟨10, 1, 1⟩, .deriveKnobs 1 {}, .feedSlice ⟨20, 1, 1⟩,
      .deriveKnobs 1 {}]
    slicesFed calls < 2 ^ 32 ∧ (s₀.runCalls id calls).consecutiveDiscards = 1 ∧
      Consistent (s₀.runCalls id calls) (s₀.judgedCalls id calls) ∧
      ∀ pre t, pre ++ [.feedSlice t] <+: calls →
        let s := (s₀.runCalls id pre).recordDiscard t
        s.consecutiveDiscards ≤ s.totalDiscards := by
  intro s₀ calls
  exact ⟨by decide, by decide +kernel, consistent_runCalls id true calls (by decide)⟩

end Hades.Runtime.StatsAccumulator
