import Mathlib.Algebra.Order.Field.Rat
import Mathlib.Tactic.Linarith
import Hades.BenchmarkResult
import Hades.ExitLoop
import Hades.InPlaceSort
import Hades.OnlineMoments

/-!
# The Stats Accumulator

The stopping logic of a benchmark run (`StatsAccumulator.h`): each slice is accepted or
discarded as jitter against the rolling median, a run of discards that agree with each
other moves the baseline to a new level, and after each slice the accumulator decides
whether the run is over.

A `double` is modelled by the rational it stands for, a `uint32_t` counter by `UInt32`
with its wrap-around. The square root of the C library enters as the parameter `sqrt`.
The two counters of the jitter window are natural numbers: the structure carries the proof
that they stay within the eight slots.

## Main definitions

* `StatsAccumulator.feedSlice` and `StatsAccumulator.shouldStop`: the two halves of the
  runner's protocol, run once per slice by `StatsAccumulator.sliceStep`.
* `StatsAccumulator.sliceLoop`: the runner's slice loop, fed the timings of its slices.

## Main results

* `StatsAccumulator.feedSlice_cases`: all that one slice can do.
* `StatsAccumulator.shouldStop_continue_iff`: when the run goes on.
* `RollingJitterWindow.isJittered_eq_false` and `RollingJitterWindow.isJittered_eq_true`: a
  slice within, or beyond, the threshold of every entry of the window.
-/

namespace Hades.Runtime

/-- Per-slice timings: seconds, milliseconds (GPU only) and seconds. -/
structure SliceTimings where
  cpuWallTime : ℚ
  deviceKernelTime : ℚ
  driverOverhead : ℚ
  deriving DecidableEq

/-- The stopping parameters. A zero field of a configured set means "not overridden". -/
structure StoppingKnobs where
  cvThreshold : ℚ := 0
  minSlices : UInt32 := 0
  maxSlices : UInt32 := 0
  consecutiveDiscardCap : UInt32 := 0
  totalDiscardCap : UInt32 := 0
  deriving DecidableEq

/-- One of Welford's online accumulators. -/
structure WelfordState where
  count : UInt32 := 0
  meanV : ℚ := 0
  m2 : ℚ := 0
  deriving DecidableEq

/-- Welford's update by one value. -/
def WelfordState.update (w : WelfordState) (value : ℚ) : WelfordState :=
  let count := w.count + 1
  let delta := value - w.meanV
  let meanV := w.meanV + delta / count.toNat
  let delta2 := value - meanV
  { count := count, meanV := meanV, m2 := w.m2 + delta * delta2 }

/-- The sample standard deviation (`0` below two values). -/
def WelfordState.stddev (sqrt : ℚ → ℚ) (w : WelfordState) : ℚ :=
  if w.count < 2 then 0 else sqrt (w.m2 / (w.count - 1).toNat)

/-- The state has seen the values `xs`: their number, mean and sum of squares. -/
structure WelfordState.Summarises (w : WelfordState) (xs : List ℚ) : Prop where
  count_eq : w.count.toNat = xs.length
  meanV_eq : w.meanV = OnlineMoments.mean xs
  m2_eq : w.m2 = OnlineMoments.sumSqDev xs

/-- The fresh state has seen nothing. -/
theorem WelfordState.summarises_nil : WelfordState.Summarises {} [] :=
  ⟨rfl, OnlineMoments.mean_nil.symm, rfl⟩

/-- **Welford's recurrence is the batch computation**, as long as the counter is exact. -/
theorem WelfordState.Summarises.update {w : WelfordState} {xs : List ℚ}
    (h : w.Summarises xs) (x : ℚ) (hexact : (w.count + 1).toNat = w.count.toNat + 1) :
    (w.update x).Summarises (xs ++ [x]) := by
  have hcount : (w.count + 1).toNat = xs.length + 1 := by rw [hexact, h.count_eq]
  have hmean : (w.update x).meanV = OnlineMoments.mean (xs ++ [x]) := by
    rw [OnlineMoments.mean_concat, ← h.meanV_eq, ← hcount]
    rfl
  refine ⟨by simpa [WelfordState.update] using hcount, hmean, ?_⟩
  rw [OnlineMoments.sumSqDev_concat, ← h.m2_eq, ← hmean, ← h.meanV_eq]
  rfl

/-- One more item of which a number is taken, as long as the counter can hold it. -/
theorem WelfordState.Summarises.map_concat {α : Type} {w : WelfordState} {xs : List α}
    (f : α → ℚ) (h : w.Summarises (xs.map f)) (x : α) (hlt : xs.length + 1 < 2 ^ 32) :
    (w.update (f x)).Summarises ((xs ++ [x]).map f) := by
  have hcount : w.count.toNat = xs.length := by rw [h.count_eq, List.length_map]
  rw [List.map_append]
  refine h.update (f x) ?_
  rw [UInt32.toNat_add, UInt32.toNat_one, hcount, Nat.mod_eq_of_lt hlt]

/-- The standard deviation of a sample, by the batch formula. -/
def sampleStddev (sqrt : ℚ → ℚ) (xs : List ℚ) : ℚ :=
  if xs.length < 2 then 0 else sqrt (OnlineMoments.sumSqDev xs / (xs.length - 1 : ℕ))

/-- The reported standard deviation is that of the values seen. -/
theorem WelfordState.Summarises.stddev_eq {w : WelfordState} {xs : List ℚ}
    (h : w.Summarises xs) (sqrt : ℚ → ℚ) : w.stddev sqrt = sampleStddev sqrt xs := by
  have hlt : w.count < 2 ↔ xs.length < 2 := by
    rw [← h.count_eq, UInt32.lt_iff_toNat_lt]
    rfl
  rw [WelfordState.stddev, sampleStddev]
  by_cases hc : w.count < 2
  · rw [if_pos hc, if_pos (hlt.mp hc)]
  · rw [if_neg hc, if_neg (mt hlt.mpr hc), h.m2_eq, ← h.count_eq]
    have hone : (1 : UInt32) ≤ w.count := by
      rw [UInt32.le_iff_toNat_le]
      rw [UInt32.lt_iff_toNat_lt] at hc
      exact le_trans (by decide) (not_lt.mp hc)
    rw [UInt32.toNat_sub_of_le _ _ hone, UInt32.toNat_one]

/-- The sample variance, by the batch formula (`0` below two values). -/
def sampleVariance (xs : List ℚ) : ℚ :=
  if xs.length < 2 then 0 else OnlineMoments.sumSqDev xs / (xs.length - 1 : ℕ)

/-- **The two numbers reported of one stream** are the mean and the standard deviation of
`xs`. The last field is the variance: it asks for a square root only of that number. -/
structure ReportsStream (sqrt : ℚ → ℚ) (meanV stddev : ℚ) (xs : List ℚ) : Prop where
  mean_eq : meanV = OnlineMoments.mean xs
  stddev_eq : stddev = sampleStddev sqrt xs
  variance_eq : sqrt (sampleVariance xs) ^ 2 = sampleVariance xs →
    stddev ^ 2 = sampleVariance xs

/-- The square of the batch standard deviation is the batch variance. -/
theorem sampleStddev_sq {sqrt : ℚ → ℚ} {xs : List ℚ}
    (h : sqrt (sampleVariance xs) ^ 2 = sampleVariance xs) :
    sampleStddev sqrt xs ^ 2 = sampleVariance xs := by
  rw [sampleVariance] at h ⊢
  rw [sampleStddev]
  by_cases hlt : xs.length < 2
  · rw [if_pos hlt, if_pos hlt, zero_pow (by decide)]
  · rw [if_neg hlt] at h ⊢
    rwa [if_neg hlt]

/-- A stream that summarises values reports them. -/
theorem WelfordState.Summarises.reportsStream {w : WelfordState} {xs : List ℚ}
    (h : w.Summarises xs) (sqrt : ℚ → ℚ) : ReportsStream sqrt w.meanV (w.stddev sqrt) xs := by
  refine ⟨h.meanV_eq, h.stddev_eq sqrt, fun hsq => ?_⟩
  rw [h.stddev_eq]
  exact sampleStddev_sq hsq

/-! ### The rolling jitter window -/

/-- Slots of the rolling window and of the ring of discards. -/
abbrev JITTER_WINDOW : ℕ := 8

/-- Below this many entries nothing is rejected as jitter. -/
abbrev JITTER_WINDOW_MIN_SAMPLES : ℕ := 3

/-- How often the baseline may move in one run. -/
abbrev MAX_LEVEL_SHIFTS : UInt32 := 2

/-- `(a + b) * 0.5` for the values of a window: exact for the rationals, rounded twice for
doubles. -/
class HalfSum (α : Type*) where
  halfSum : α → α → α

instance : HalfSum ℚ where
  halfSum a b := (a + b) * (1 / 2)

/-- The ring of the last accepted slice times. While it is filling, the write position is
the number of entries; the invariants are part of the structure. -/
structure RollingJitterWindow (α : Type*) where
  window : Vector α JITTER_WINDOW
  count : ℕ
  next : ℕ
  count_le : count ≤ JITTER_WINDOW
  next_lt : next < JITTER_WINDOW
  next_of_filling : count < JITTER_WINDOW → next = count

namespace RollingJitterWindow

variable {α : Type*}

/-- The window before any slice. -/
def empty [Zero α] : RollingJitterWindow α where
  window := Vector.replicate JITTER_WINDOW 0
  count := 0
  next := 0
  count_le := by decide
  next_lt := by decide
  next_of_filling := fun _ => rfl

/-- The median of the entries, by insertion sort on a copy of the occupied slots. Only a
window with an entry has one. -/
def internalMedian [LT α] [DecidableLT α] [HalfSum α] (w : RollingJitterWindow α)
    (h : w.count ≠ 0) : α :=
  have hc := w.count_le
  let sorted := InPlaceSort.sortPrefix w.window w.count w.count_le
  if h2 : w.count % 2 = 1 then sorted[w.count / 2]
  else HalfSum.halfSum sorted[w.count / 2 - 1] sorted[w.count / 2]

/-- The median, `0` for the empty window. -/
def median [Zero α] [LT α] [DecidableLT α] [HalfSum α] (w : RollingJitterWindow α) : α :=
  if h : w.count = 0 then 0 else w.internalMedian h

/-- Whether a slice time exceeds the rolling median by more than the threshold. -/
def isJittered (w : RollingJitterWindow ℚ) (sliceWallTime threshold : ℚ) : Bool :=
  if h : w.count < JITTER_WINDOW_MIN_SAMPLES then false
  else
    let median := w.internalMedian (by unfold JITTER_WINDOW_MIN_SAMPLES at h; omega)
    if median ≤ 0 then false
    else
      let deviation := (sliceWallTime - median) / median
      decide (deviation > threshold)

/-- Enter one slice time, over the oldest entry once the window is full. -/
def push (w : RollingJitterWindow α) (sliceWallTime : α) : RollingJitterWindow α where
  window := w.window.set w.next sliceWallTime w.next_lt
  count := if w.count < JITTER_WINDOW then w.count + 1 else w.count
  next := (w.next + 1) % JITTER_WINDOW
  count_le := by
    have := w.count_le
    split <;> omega
  next_lt := Nat.mod_lt _ (by decide)
  next_of_filling := by
    have := w.next_of_filling
    unfold JITTER_WINDOW at *
    split <;> omega

/-- The occupied slots, in slot order. -/
def entries (w : RollingJitterWindow α) : List α :=
  w.window.toList.take w.count

@[simp] theorem count_empty [Zero α] : (empty : RollingJitterWindow α).count = 0 := rfl

@[simp] theorem entries_empty [Zero α] : (empty : RollingJitterWindow α).entries = [] := rfl

/-- A push adds an entry until the window is full. -/
@[simp] theorem count_push (w : RollingJitterWindow α) (x : α) :
    (w.push x).count = min JITTER_WINDOW (w.count + 1) := by
  have := w.count_le
  simp only [push]
  split <;> omega

/-- After a push, every entry is the pushed value or an entry from before. -/
theorem mem_entries_push {w : RollingJitterWindow α} {x y : α}
    (h : y ∈ (w.push x).entries) : y = x ∨ y ∈ w.entries := by
  have hc := w.count_le
  have hn := w.next_of_filling
  rw [entries, List.mem_take_iff_getElem] at h
  obtain ⟨i, hi, rfl⟩ := h
  obtain ⟨hcount, hi8⟩ : i < (w.push x).count ∧ i < JITTER_WINDOW := by
    rw [lt_min_iff, Vector.length_toList] at hi
    exact hi
  rw [Vector.getElem_toList]
  by_cases hin : w.next = i
  · subst hin
    exact Or.inl (Vector.getElem_set_self _)
  · refine Or.inr ?_
    have hiw : i < w.count := by
      rw [count_push] at hcount
      unfold JITTER_WINDOW at *
      omega
    have hget : (w.push x).window[i] = w.window[i] := Vector.getElem_set_ne w.next_lt _ hin
    rw [hget, entries, List.mem_take_iff_getElem]
    exact ⟨i, lt_min hiw (by rwa [Vector.length_toList]), Vector.getElem_toList _⟩

/-- A property of every entry is a property of every sorted cell. -/
theorem forall_getElem_sorted [LT α] [DecidableLT α] {w : RollingJitterWindow α} {P : α → Prop}
    (h : ∀ x ∈ w.entries, P x) {i : ℕ} (hi : i < w.count) (_ : i < JITTER_WINDOW) :
    P (InPlaceSort.sortPrefix w.window w.count w.count_le)[i] :=
  h _ (InPlaceSort.mem_of_getElem_sortPrefix w.window w.count_le hi)

/-- The median has every property of the entries that a midpoint inherits. -/
theorem internalMedian_of_forall {w : RollingJitterWindow ℚ} {P : ℚ → Prop}
    (hne : w.count ≠ 0) (hmid : ∀ a b, P a → P b → P ((a + b) * (1 / 2)))
    (h : ∀ x ∈ w.entries, P x) : P (w.internalMedian hne) := by
  have hhalf : w.count / 2 < w.count := by omega
  have hle := w.count_le
  rw [internalMedian]
  split
  · exact forall_getElem_sorted h hhalf _
  · exact hmid _ _ (forall_getElem_sorted h (by omega) _) (forall_getElem_sorted h hhalf _)

/-- A slice time within the threshold of every entry is not jitter. -/
theorem isJittered_eq_false {w : RollingJitterWindow ℚ} {x threshold : ℚ}
    (hpos : ∀ y ∈ w.entries, 0 < y)
    (hle : ∀ y ∈ w.entries, x ≤ (1 + threshold) * y) :
    w.isJittered x threshold = false := by
  rw [isJittered]
  split
  · rfl
  next h =>
  have hne : w.count ≠ 0 := by unfold JITTER_WINDOW_MIN_SAMPLES at h; omega
  have hm : 0 < w.internalMedian hne :=
    internalMedian_of_forall hne (fun a b ha hb => by linarith) hpos
  have hx : x ≤ (1 + threshold) * w.internalMedian hne :=
    internalMedian_of_forall (P := fun y => x ≤ (1 + threshold) * y) hne
      (fun a b ha hb => by linarith) hle
  rw [if_neg (not_le.mpr hm), decide_eq_false_iff_not, gt_iff_lt, not_lt, div_le_iff₀ hm]
  linarith

/-- A slice time beyond the threshold of every entry is jitter, once there are enough
entries. -/
theorem isJittered_eq_true {w : RollingJitterWindow ℚ} {x threshold : ℚ}
    (hcount : JITTER_WINDOW_MIN_SAMPLES ≤ w.count) (hpos : ∀ y ∈ w.entries, 0 < y)
    (hlt : ∀ y ∈ w.entries, (1 + threshold) * y < x) :
    w.isJittered x threshold = true := by
  have hne : w.count ≠ 0 := by unfold JITTER_WINDOW_MIN_SAMPLES at hcount; omega
  have hm : 0 < w.internalMedian hne :=
    internalMedian_of_forall hne (fun a b ha hb => by linarith) hpos
  have hx : (1 + threshold) * w.internalMedian hne < x :=
    internalMedian_of_forall (P := fun y => (1 + threshold) * y < x) hne
      (fun a b ha hb => by linarith) hlt
  rw [isJittered]
  rw [dif_neg (not_lt.mpr hcount), if_neg (not_le.mpr hm), decide_eq_true_eq, gt_iff_lt,
    lt_div_iff₀ hm]
  linarith

/-- After a series of pushes, every entry is one of the pushed values or an old entry. -/
theorem mem_entries_foldl_push {w : RollingJitterWindow α} {xs : List α} {y : α}
    (h : y ∈ (xs.foldl push w).entries) : y ∈ xs ∨ y ∈ w.entries := by
  induction xs generalizing w with
  | nil => exact Or.inr h
  | cons x xs ih =>
      rcases ih h with hxs | hw
      · exact Or.inl (List.mem_cons_of_mem x hxs)
      rcases mem_entries_push hw with rfl | hw
      · exact Or.inl List.mem_cons_self
      · exact Or.inr hw

/-- A series of pushes fills the window. -/
theorem count_foldl_push (w : RollingJitterWindow α) (xs : List α) :
    (xs.foldl push w).count = min JITTER_WINDOW (w.count + xs.length) := by
  have := w.count_le
  induction xs generalizing w with
  | nil => rw [List.foldl_nil, List.length_nil]; omega
  | cons x xs ih =>
      rw [List.foldl_cons, ih _ (push w x).count_le, count_push, List.length_cons]
      omega

end RollingJitterWindow

/-! ### The accumulator -/

/-- The accumulator of one run. -/
structure StatsAccumulator where
  isGpuRun : Bool
  acceptedSlices : UInt32 := 0
  consecutiveDiscards : UInt32 := 0
  totalDiscards : UInt32 := 0
  maxConsecutiveDiscards : UInt32 := 0
  levelShifts : UInt32 := 0
  discardRun : Vector ℚ JITTER_WINDOW := Vector.replicate JITTER_WINDOW 0
  runFailed : Bool := false
  stopReason : StopReason := .NotStopped
  jitterThreshold : ℚ := 1 / 5
  pcieTransferTime : ℚ := 0
  knobs : StoppingKnobs := {}
  jitterWindow : RollingJitterWindow ℚ := .empty
  cpuWallTime : WelfordState := {}
  deviceKernelTime : WelfordState := {}
  driverOverhead : WelfordState := {}

namespace StatsAccumulator

/-- The knobs that the calibration slice alone suggests. -/
def calibratedKnobs (calibrationWallTime : ℚ) : StoppingKnobs :=
  let slices : UInt32 × UInt32 :=
    if calibrationWallTime < 1 / 10000 then (30, 500)
    else if calibrationWallTime < 1 / 100 then (20, 300)
    else (10, 200)
  { cvThreshold := 1 / 50
    minSlices := slices.1
    maxSlices := slices.2
    consecutiveDiscardCap := 5
    totalDiscardCap := if slices.2 / 10 > 20 then slices.2 / 10 else 20 }

/-- Derive the stopping knobs; the non-zero fields of `configKnobs` override. -/
def deriveKnobs (s : StatsAccumulator) (calibrationWallTime : ℚ)
    (configKnobs : StoppingKnobs) : StatsAccumulator :=
  let derived := calibratedKnobs calibrationWallTime
  { s with
    knobs := {
      cvThreshold :=
        if configKnobs.cvThreshold > 0 then configKnobs.cvThreshold else derived.cvThreshold
      minSlices :=
        if configKnobs.minSlices > 0 then configKnobs.minSlices else derived.minSlices
      maxSlices :=
        if configKnobs.maxSlices > 0 then configKnobs.maxSlices else derived.maxSlices
      consecutiveDiscardCap :=
        if configKnobs.consecutiveDiscardCap > 0 then configKnobs.consecutiveDiscardCap
        else derived.consecutiveDiscardCap
      totalDiscardCap :=
        if configKnobs.totalDiscardCap > 0 then configKnobs.totalDiscardCap
        else derived.totalDiscardCap } }

/-- How many slots of the discard ring belong to the current run of discards. -/
def discardRunCount (s : StatsAccumulator) : ℕ :=
  min s.consecutiveDiscards.toNat JITTER_WINDOW

/-- The occupied slots of the discard ring, in slot order. -/
def discardRunEntries (s : StatsAccumulator) : List ℚ :=
  s.discardRun.toList.take s.discardRunCount

/-- Whether the run of discards agrees with itself within the jitter threshold. -/
def internalDiscardRunIsLevel (s : StatsAccumulator) : Bool :=
  let later := s.discardRunEntries.tail
  let lowest := later.foldl (fun lowest x => if x < lowest then x else lowest) s.discardRun[0]
  let highest :=
    later.foldl (fun highest x => if x > highest then x else highest) s.discardRun[0]
  decide (lowest > 0) && decide ((highest - lowest) / lowest ≤ s.jitterThreshold)

/-- Move the baseline: the run of discards becomes the window of a new level. -/
def internalRebaseline (s : StatsAccumulator) : StatsAccumulator :=
  { s with
    jitterWindow := s.discardRunEntries.foldl RollingJitterWindow.push .empty
    cpuWallTime := {}
    deviceKernelTime := {}
    driverOverhead := {}
    acceptedSlices := 0
    totalDiscards := s.totalDiscards - s.consecutiveDiscards
    consecutiveDiscards := 0
    levelShifts := s.levelShifts + 1 }

/-- Whether `feedSlice` rejects the slice as jitter. -/
def rejects (s : StatsAccumulator) (timings : SliceTimings) : Bool :=
  s.jitterWindow.isJittered timings.cpuWallTime s.jitterThreshold

/-- The discard branch of `feedSlice` up to its decision about the level. -/
def recordDiscard (s : StatsAccumulator) (timings : SliceTimings) : StatsAccumulator :=
  { s with
    totalDiscards := s.totalDiscards + 1
    discardRun := s.discardRun.set (s.consecutiveDiscards.toNat % JITTER_WINDOW)
      timings.cpuWallTime (Nat.mod_lt _ (by decide))
    consecutiveDiscards := s.consecutiveDiscards + 1
    maxConsecutiveDiscards :=
      if s.consecutiveDiscards + 1 > s.maxConsecutiveDiscards then s.consecutiveDiscards + 1
      else s.maxConsecutiveDiscards }

/-- The decision of the discard branch to move the baseline. -/
def shiftsLevel (s : StatsAccumulator) : Bool :=
  decide (s.knobs.consecutiveDiscardCap ≤ s.consecutiveDiscards) &&
    decide (s.levelShifts < MAX_LEVEL_SHIFTS) && s.internalDiscardRunIsLevel

/-- The accepting branch of `feedSlice`. -/
def acceptSlice (s : StatsAccumulator) (timings : SliceTimings) : StatsAccumulator :=
  { s with
    consecutiveDiscards := 0
    jitterWindow := s.jitterWindow.push timings.cpuWallTime
    cpuWallTime := s.cpuWallTime.update timings.cpuWallTime
    deviceKernelTime :=
      if s.isGpuRun then s.deviceKernelTime.update timings.deviceKernelTime
      else s.deviceKernelTime
    driverOverhead :=
      if s.isGpuRun then s.driverOverhead.update timings.driverOverhead
      else s.driverOverhead
    acceptedSlices := s.acceptedSlices + 1 }

/-- Ingest one slice. The Boolean tells whether the slice was accepted. -/
def feedSlice (s : StatsAccumulator) (timings : SliceTimings) : StatsAccumulator × Bool :=
  if s.rejects timings then
    let discarded := s.recordDiscard timings
    if discarded.shiftsLevel then (discarded.internalRebaseline, false)
    else (discarded, false)
  else (s.acceptSlice timings, true)

/-- The coefficient of variation of the accepted slices. -/
def internalCurrentCv (sqrt : ℚ → ℚ) (s : StatsAccumulator) : ℚ :=
  if s.cpuWallTime.meanV > 0 then s.cpuWallTime.stddev sqrt / s.cpuWallTime.meanV else 0

/-- Decide whether the run is over. The four exits are tried in this order. -/
def shouldStop (sqrt : ℚ → ℚ) (s : StatsAccumulator) : StatsAccumulator × Bool :=
  if s.knobs.consecutiveDiscardCap ≤ s.consecutiveDiscards then
    ({ s with runFailed := true, stopReason := .ConsecutiveDiscards }, true)
  else if s.knobs.totalDiscardCap ≤ s.totalDiscards then
    ({ s with runFailed := true, stopReason := .TotalDiscards }, true)
  else if s.knobs.maxSlices ≤ s.acceptedSlices then
    ({ s with stopReason := .HardCapReached }, true)
  else if s.knobs.minSlices ≤ s.acceptedSlices ∧
      s.internalCurrentCv sqrt ≤ s.knobs.cvThreshold then
    ({ s with stopReason := .CvConverged }, true)
  else (s, false)

/-- Fill in the statistics of the result; the runner fills in the rest. -/
def assembleResult (sqrt : ℚ → ℚ) (s : StatsAccumulator) (result : BenchmarkResult)
    (iterationsPerSlice : UInt64) : BenchmarkResult :=
  let result := { result with
    meanThroughput :=
      if s.cpuWallTime.meanV > 0 then iterationsPerSlice.toNat / s.cpuWallTime.meanV else 0
    stddev := s.cpuWallTime.stddev sqrt
    cv := s.internalCurrentCv sqrt
    sliceCount := s.acceptedSlices
    finalSliceWallTime := s.cpuWallTime.meanV
    stopReason := s.stopReason
    totalDiscards := s.totalDiscards
    maxConsecutiveDiscards := s.maxConsecutiveDiscards
    levelShifts := s.levelShifts
    medianSliceWallTime := s.jitterWindow.median
    isGpuRun := s.isGpuRun }
  if s.isGpuRun then
    { result with
      cpuWallTimeMean := s.cpuWallTime.meanV
      cpuWallTimeStddev := s.cpuWallTime.stddev sqrt
      deviceKernelTimeMean := s.deviceKernelTime.meanV
      deviceKernelTimeStddev := s.deviceKernelTime.stddev sqrt
      driverOverheadMean := s.driverOverhead.meanV
      driverOverheadStddev := s.driverOverhead.stddev sqrt
      pcieTransferTime := s.pcieTransferTime }
  else result

/-- One pass of the runner's protocol: feed the slice, then ask whether to stop. -/
def sliceStep (sqrt : ℚ → ℚ) (s : StatsAccumulator) (timings : SliceTimings) :
    StatsAccumulator × Bool :=
  (s.feedSlice timings).1.shouldStop sqrt

/-- The runner's slice loop on the timings of its slices. -/
def sliceLoop (sqrt : ℚ → ℚ) (s : StatsAccumulator) (timings : List SliceTimings) :
    ExitLoop.LoopState StatsAccumulator :=
  ExitLoop.loopState (sliceStep sqrt) s timings

/-! ### What one pass can do -/

/-- **All that one slice can do**: it is accepted, or it is discarded and the level stays,
or it is discarded and the baseline moves. -/
theorem feedSlice_cases (s : StatsAccumulator) (t : SliceTimings) :
    (s.rejects t = false ∧ s.feedSlice t = (s.acceptSlice t, true)) ∨
    (s.rejects t = true ∧ (s.recordDiscard t).shiftsLevel = false ∧
      s.feedSlice t = (s.recordDiscard t, false)) ∨
    (s.rejects t = true ∧ (s.recordDiscard t).shiftsLevel = true ∧
      s.feedSlice t = ((s.recordDiscard t).internalRebaseline, false)) := by
  rw [feedSlice]
  cases hr : s.rejects t with
  | false => exact Or.inl ⟨rfl, by simp⟩
  | true =>
      cases hl : (s.recordDiscard t).shiftsLevel with
      | false => exact Or.inr (Or.inl ⟨rfl, rfl, by simp [hl]⟩)
      | true => exact Or.inr (Or.inr ⟨rfl, rfl, by simp [hl]⟩)

/-- The stop decision writes the verdict and nothing else. -/
theorem shouldStop_fst (sqrt : ℚ → ℚ) (s : StatsAccumulator) :
    ∃ failed reason,
      (s.shouldStop sqrt).1 = { s with runFailed := failed, stopReason := reason } := by
  rw [shouldStop]
  split
  · exact ⟨_, _, rfl⟩
  split
  · exact ⟨_, _, rfl⟩
  split
  · exact ⟨s.runFailed, _, rfl⟩
  split
  · exact ⟨s.runFailed, _, rfl⟩
  · exact ⟨s.runFailed, s.stopReason, rfl⟩

/-- **The run goes on** exactly when none of the four exits is taken, and then the stop
decision leaves the accumulator as it is. -/
theorem shouldStop_continue_iff (sqrt : ℚ → ℚ) (s : StatsAccumulator) :
    (s.shouldStop sqrt).2 = false ↔
      s.consecutiveDiscards < s.knobs.consecutiveDiscardCap ∧
      s.totalDiscards < s.knobs.totalDiscardCap ∧
      s.acceptedSlices < s.knobs.maxSlices ∧
      ¬ (s.knobs.minSlices ≤ s.acceptedSlices ∧
        s.internalCurrentCv sqrt ≤ s.knobs.cvThreshold) := by
  simp only [← UInt32.not_le]
  rw [shouldStop]
  split
  · next h => simp [h]
  split
  · next h => simp [h]
  split
  · next h => simp [h]
  split
  · next h => simp [h]
  · next h1 h2 h3 h4 => exact ⟨fun _ => ⟨h1, h2, h3, h4⟩, fun _ => rfl⟩

/-- A run that goes on has not been touched by the stop decision. -/
theorem shouldStop_fst_of_continue {sqrt : ℚ → ℚ} {s : StatsAccumulator}
    (h : (s.shouldStop sqrt).2 = false) : (s.shouldStop sqrt).1 = s := by
  obtain ⟨h1, h2, h3, h4⟩ := (shouldStop_continue_iff sqrt s).mp h
  rw [shouldStop, if_neg (UInt32.not_le.mpr h1), if_neg (UInt32.not_le.mpr h2),
    if_neg (UInt32.not_le.mpr h3), if_neg h4]

/-- A run that stops for lack of discards has not failed. -/
theorem runFailed_shouldStop {sqrt : ℚ → ℚ} {s : StatsAccumulator}
    (hf : s.runFailed = false)
    (hc : s.consecutiveDiscards < s.knobs.consecutiveDiscardCap)
    (ht : s.totalDiscards < s.knobs.totalDiscardCap) :
    (s.shouldStop sqrt).1.runFailed = false := by
  rw [shouldStop, if_neg (UInt32.not_le.mpr hc), if_neg (UInt32.not_le.mpr ht)]
  split
  · exact hf
  split
  · exact hf
  · exact hf

/-- The pass that goes on is the slice alone. -/
theorem sliceStep_of_continue {sqrt : ℚ → ℚ} {s : StatsAccumulator} {t : SliceTimings}
    (h : (s.sliceStep sqrt t).2 = false) : (s.sliceStep sqrt t).1 = (s.feedSlice t).1 :=
  shouldStop_fst_of_continue h

/-- The derived caps are positive, whatever is overridden. -/
theorem deriveKnobs_pos (s : StatsAccumulator) (c : ℚ) (k : StoppingKnobs) :
    0 < (s.deriveKnobs c k).knobs.minSlices ∧ 0 < (s.deriveKnobs c k).knobs.maxSlices ∧
      0 < (s.deriveKnobs c k).knobs.consecutiveDiscardCap ∧
      0 < (s.deriveKnobs c k).knobs.totalDiscardCap := by
  have hov : ∀ a b : UInt32, 0 < b → 0 < if a > 0 then a else b := by
    intro a b hb
    split
    · assumption
    · exact hb
  have hcal : 0 < (calibratedKnobs c).minSlices ∧ 0 < (calibratedKnobs c).maxSlices ∧
      0 < (calibratedKnobs c).consecutiveDiscardCap ∧
      0 < (calibratedKnobs c).totalDiscardCap := by
    by_cases h1 : c < 1 / 10000
    · simp only [calibratedKnobs, h1, if_true]
      decide
    by_cases h2 : c < 1 / 100
    · simp only [calibratedKnobs, h1, h2, if_true, if_false]
      decide
    · simp only [calibratedKnobs, h1, h2, if_false]
      decide
  exact ⟨hov _ _ hcal.1, hov _ _ hcal.2.1, hov _ _ hcal.2.2.1, hov _ _ hcal.2.2.2⟩

end StatsAccumulator

end Hades.Runtime
