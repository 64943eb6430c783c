import Hades.SliceLoop

/-!
# Runs over Successive Speed Levels

A machine that settles at a few successive speeds (`IsLevelSequence`) is measured at each
of them: the run climbs to a new level through one full run of discards, which moves the
baseline, and reports only slices of the level in which it stops.

While the slices stay on one level the accumulator is `Settled` there: nothing is
discarded, and the statistics summarise the slices since the last rebaseline. While the
slices are on the next level and the baseline is still below, it is `Climbing`: every slice
is a discard, and the ring of discards holds slices of the new level only. A level is
entered by climbing from a settled state, and the rebaseline settles it.

## Main results

* `Settled.sliceStep` and `Climbing.sliceStep`: what one slice does in each phase.
* `Settled.run` and `Climbing.run`: what a level does, by induction on its slices.
* `runsOverLevels_cons`: one more level in front of a run.
* `sliceLoop_levels`: **no run over at most `MAX_LEVEL_SHIFTS + 1` levels fails**, and its
  mean and coefficient of variation are those of slices of one level, the last.
-/

namespace Hades.Runtime.StatsAccumulator

open ExitLoop

/-! ### Level sequences -/

/-- A level: positive slice times, the largest at most `6/5` of the smallest. -/
def IsLevel (level : List ℚ) : Prop :=
  (∀ x ∈ level, 0 < x) ∧ ∀ x ∈ level, ∀ y ∈ level, x ≤ 6 / 5 * y

/-- The slice times of one level all exceed `6/5` of those of the other. -/
def Below (lower upper : List ℚ) : Prop :=
  ∀ x ∈ lower, ∀ y ∈ upper, 6 / 5 * x < y

/-- **A sequence of speed levels**: few enough for the rebaselines, each one above all
earlier ones, the first one long enough to fill the jitter window's minimum and each middle
one long enough for a full run of discards. -/
structure IsLevelSequence (consecutiveDiscardCap : ℕ) (levels : List (List ℚ)) : Prop where
  length_le : levels.length ≤ MAX_LEVEL_SHIFTS.toNat + 1
  isLevel : ∀ level ∈ levels, IsLevel level
  pairwise_below : levels.Pairwise Below
  first_length : ∀ level ∈ levels.head?, JITTER_WINDOW_MIN_SAMPLES ≤ level.length
  middle_length : ∀ level ∈ levels.tail.dropLast, consecutiveDiscardCap ≤ level.length

/-! ### The two phases -/

/-- What the effective knobs must satisfy for a level to be measurable. -/
structure KnobsForLevels (k : StoppingKnobs) : Prop where
  minSlices_pos : 0 < k.minSlices
  maxSlices_pos : 0 < k.maxSlices
  three_le_cap : 3 ≤ k.consecutiveDiscardCap
  cap_le_total : k.consecutiveDiscardCap ≤ k.totalDiscardCap

/-- None of the exits that depend on the accepted slices is taken. -/
def Undecided (sqrt : ℚ → ℚ) (s : StatsAccumulator) : Prop :=
  s.acceptedSlices < s.knobs.maxSlices ∧
    ¬ (s.knobs.minSlices ≤ s.acceptedSlices ∧
      s.internalCurrentCv sqrt ≤ s.knobs.cvThreshold)

/-- What both phases share: a running accumulator whose discards are all in the current
run of discards. -/
structure Calm (sqrt : ℚ → ℚ) (k : StoppingKnobs) (s : StatsAccumulator) : Prop where
  knobs_eq : s.knobs = k
  threshold_eq : s.jitterThreshold = 1 / 5
  not_failed : s.runFailed = false
  total_eq : s.totalDiscards = s.consecutiveDiscards
  undecided : s.Undecided sqrt

/-- **Settled** on a level: the window holds slices of the level and the statistics
summarise the slices `measured` since the baseline last moved. -/
structure Settled (sqrt : ℚ → ℚ) (k : StoppingKnobs) (level measured : List ℚ)
    (s : StatsAccumulator) : Prop extends Calm sqrt k s where
  consecutive_eq : s.consecutiveDiscards = 0
  window_mem : ∀ y ∈ s.jitterWindow.entries, y ∈ level
  cpu_count : s.cpuWallTime.count = s.acceptedSlices
  stats : s.cpuWallTime.Summarises measured

/-- **Climbing** to a level: the window still holds slices of a lower level, and the
current run of discards, `c` long, consists of slices of the new one. -/
structure Climbing (sqrt : ℚ → ℚ) (k : StoppingKnobs) (lower level : List ℚ) (c : ℕ)
    (s : StatsAccumulator) : Prop extends Calm sqrt k s where
  consecutive_eq : s.consecutiveDiscards.toNat = c
  consecutive_lt : c < k.consecutiveDiscardCap.toNat
  levels_lt : s.levelShifts < MAX_LEVEL_SHIFTS
  window_mem : ∀ y ∈ s.jitterWindow.entries, y ∈ lower
  window_count : JITTER_WINDOW_MIN_SAMPLES ≤ s.jitterWindow.count
  ring_mem : ∀ y ∈ s.discardRunEntries, y ∈ level

/-- A settled accumulator is ready to climb. -/
theorem Settled.toClimbing {sqrt : ℚ → ℚ} {k : StoppingKnobs} {lower level m : List ℚ}
    {s : StatsAccumulator} (hk : KnobsForLevels k) (h : Settled sqrt k lower m s)
    (hcount : JITTER_WINDOW_MIN_SAMPLES ≤ s.jitterWindow.count)
    (hlevels : s.levelShifts < MAX_LEVEL_SHIFTS) : Climbing sqrt k lower level 0 s where
  toCalm := h.toCalm
  consecutive_eq := by rw [h.consecutive_eq]; rfl
  consecutive_lt := lt_of_lt_of_le (by decide) (UInt32.le_iff_toNat_le.mp hk.three_le_cap)
  levels_lt := hlevels
  window_mem := h.window_mem
  window_count := hcount
  ring_mem := by
    rw [discardRunEntries, discardRunCount, h.consecutive_eq]
    simp

/-! ### One slice on a settled level -/

/-- A slice of the level is accepted. -/
theorem Settled.rejects_eq_false {sqrt : ℚ → ℚ} {k : StoppingKnobs} {level m : List ℚ}
    {s : StatsAccumulator} (h : Settled sqrt k level m s) (hlevel : IsLevel level)
    {t : SliceTimings} (ht : t.cpuWallTime ∈ level) : s.rejects t = false := by
  rw [rejects, h.threshold_eq]
  refine RollingJitterWindow.isJittered_eq_false
    (fun y hy => hlevel.1 y (h.window_mem y hy)) (fun y hy => ?_)
  have := hlevel.2 _ ht y (h.window_mem y hy)
  linarith

/-- An accepted slice of the level keeps the accumulator settled, unless it decides. -/
theorem Settled.acceptSlice {sqrt : ℚ → ℚ} {k : StoppingKnobs} {level m : List ℚ}
    {s : StatsAccumulator} (h : Settled sqrt k level m s) {t : SliceTimings}
    (ht : t.cpuWallTime ∈ level)
    (hstats : (s.acceptSlice t).cpuWallTime.Summarises (m ++ [t.cpuWallTime]))
    (hundecided : (s.acceptSlice t).Undecided sqrt) :
    Settled sqrt k level (m ++ [t.cpuWallTime]) (s.acceptSlice t) := by
  refine ⟨⟨h.knobs_eq, h.threshold_eq, h.not_failed, ?_, hundecided⟩, rfl, ?_, ?_, hstats⟩
  · exact h.total_eq.trans h.consecutive_eq
  · intro y hy
    rcases RollingJitterWindow.mem_entries_push hy with rfl | hy
    · exact ht
    · exact h.window_mem y hy
  · exact congrArg (· + 1) h.cpu_count

/-- **A slice on a settled level** is accepted; the accumulator stays settled, or it stops
without having failed and reports the slices measured so far. -/
theorem Settled.sliceStep {sqrt : ℚ → ℚ} {k : StoppingKnobs} {level m : List ℚ}
    {s : StatsAccumulator} (hk : KnobsForLevels k) (h : Settled sqrt k level m s)
    (hlevel : IsLevel level) {t : SliceTimings} (ht : t.cpuWallTime ∈ level) :
    let s' := (s.sliceStep sqrt t).1
    s'.cpuWallTime.Summarises (m ++ [t.cpuWallTime]) ∧ s'.runFailed = false ∧
      ((s.sliceStep sqrt t).2 = false → Settled sqrt k level (m ++ [t.cpuWallTime]) s' ∧
        s'.jitterWindow.count = min JITTER_WINDOW (s.jitterWindow.count + 1) ∧
        s'.levelShifts = s.levelShifts) := by
  intro s'
  have hfeed : s.feedSlice t = (s.acceptSlice t, true) := by
    rw [feedSlice, h.rejects_eq_false hlevel ht]
    simp
  have hexact : (s.cpuWallTime.count + 1).toNat = s.cpuWallTime.count.toNat + 1 := by
    rw [h.cpu_count]
    exact exactSucc_of_lt (UInt32.lt_iff_toNat_lt.mp h.undecided.1)
  have hstats : (s.acceptSlice t).cpuWallTime.Summarises (m ++ [t.cpuWallTime]) :=
    h.stats.update t.cpuWallTime hexact
  have hcap : (s.acceptSlice t).consecutiveDiscards <
      (s.acceptSlice t).knobs.consecutiveDiscardCap := by
    change (0 : UInt32) < s.knobs.consecutiveDiscardCap
    rw [h.knobs_eq]
    exact UInt32.lt_of_lt_of_le (by decide) hk.three_le_cap
  have htotal : (s.acceptSlice t).totalDiscards <
      (s.acceptSlice t).knobs.totalDiscardCap := by
    change s.totalDiscards < s.knobs.totalDiscardCap
    rw [h.total_eq, h.consecutive_eq, h.knobs_eq]
    exact UInt32.lt_of_lt_of_le (UInt32.lt_of_lt_of_le (by decide) hk.three_le_cap)
      hk.cap_le_total
  refine ⟨?_, ?_, fun hgo => ?_⟩
  · obtain ⟨f, r, hs⟩ := shouldStop_fst sqrt (s.acceptSlice t)
    change ((s.feedSlice t).1.shouldStop sqrt).1.cpuWallTime.Summarises _
    rw [hfeed, hs]
    exact hstats
  · change ((s.feedSlice t).1.shouldStop sqrt).1.runFailed = false
    rw [hfeed]
    exact runFailed_shouldStop h.not_failed hcap htotal
  · have hs' : s' = s.acceptSlice t := by
      rw [show s' = (s.feedSlice t).1 from sliceStep_of_continue hgo, hfeed]
    have hstop : ((s.acceptSlice t).shouldStop sqrt).2 = false := by
      rw [StatsAccumulator.sliceStep, hfeed] at hgo
      exact hgo
    rw [hs']
    obtain ⟨-, -, hu⟩ := (shouldStop_continue_iff sqrt _).mp hstop
    exact ⟨h.acceptSlice ht hstats hu, RollingJitterWindow.count_push _ _, rfl⟩

/-! ### One slice on the way to the next level -/

/-- After a discard, the ring holds the new slice and slices of the same run of discards. -/
theorem mem_discardRunEntries_recordDiscard {s : StatsAccumulator} {t : SliceTimings}
    {y : ℚ} (hexact : (s.consecutiveDiscards + 1).toNat = s.consecutiveDiscards.toNat + 1)
    (h : y ∈ (s.recordDiscard t).discardRunEntries) :
    y = t.cpuWallTime ∨ y ∈ s.discardRunEntries := by
  rw [discardRunEntries, List.mem_take_iff_getElem] at h
  obtain ⟨i, hi, rfl⟩ := h
  obtain ⟨hcount, hi8⟩ : i < (s.recordDiscard t).discardRunCount ∧ i < JITTER_WINDOW := by
    rw [lt_min_iff, Vector.length_toList] at hi
    exact hi
  rw [Vector.getElem_toList]
  by_cases hin : s.consecutiveDiscards.toNat % JITTER_WINDOW = i
  · subst hin
    exact Or.inl (Vector.getElem_set_self _)
  · refine Or.inr ?_
    have hiw : i < s.discardRunCount := by
      have hc : i < min (s.consecutiveDiscards + 1).toNat JITTER_WINDOW := hcount
      rw [hexact] at hc
      unfold discardRunCount JITTER_WINDOW at *
      omega
    have hget : (s.recordDiscard t).discardRun[i] = s.discardRun[i] :=
      Vector.getElem_set_ne (Nat.mod_lt _ (by decide)) _ hin
    rw [hget, discardRunEntries, List.mem_take_iff_getElem]
    exact ⟨i, lt_min hiw (by rwa [Vector.length_toList]), Vector.getElem_toList _⟩

/-- A fold that keeps one of two values has every property the list and its start share. -/
theorem foldl_choose {P : ℚ → Prop} (choose : ℚ → ℚ → ℚ)
    (hchoose : ∀ a b, choose a b = a ∨ choose a b = b) {xs : List ℚ} {a : ℚ} (ha : P a)
    (h : ∀ x ∈ xs, P x) : P (xs.foldl choose a) := by
  induction xs generalizing a with
  | nil => exact ha
  | cons x xs ih =>
      refine ih ?_ (fun y hy => h y (List.mem_cons_of_mem x hy))
      rcases hchoose a x with hc | hc <;> rw [hc]
      · exact ha
      · exact h x List.mem_cons_self

/-- A run of discards that lies on one level is recognised as a level. -/
theorem internalDiscardRunIsLevel_of_isLevel {s : StatsAccumulator} {level : List ℚ}
    (hlevel : IsLevel level) (hthreshold : s.jitterThreshold = 1 / 5)
    (hpos : 0 < s.consecutiveDiscards.toNat) (h : ∀ y ∈ s.discardRunEntries, y ∈ level) :
    s.internalDiscardRunIsLevel = true := by
  have h0 : s.discardRun[0] ∈ level := by
    refine h _ (List.mem_take_iff_getElem.mpr ⟨0, ?_, Vector.getElem_toList _⟩)
    rw [Vector.length_toList]
    exact lt_min (lt_min hpos (by decide)) (by decide)
  have htail : ∀ y ∈ s.discardRunEntries.tail, y ∈ level :=
    fun y hy => h y (List.mem_of_mem_tail hy)
  have hlow := foldl_choose (P := (· ∈ level))
    (fun lowest x => if x < lowest then x else lowest)
    (fun a b => by split <;> simp) h0 htail
  have hhigh := foldl_choose (P := (· ∈ level))
    (fun highest x => if x > highest then x else highest)
    (fun a b => by split <;> simp) h0 htail
  have hlowpos := hlevel.1 _ hlow
  have hspread := hlevel.2 _ hhigh _ hlow
  rw [internalDiscardRunIsLevel, Bool.and_eq_true, decide_eq_true_eq, decide_eq_true_eq,
    hthreshold, div_le_iff₀ hlowpos]
  exact ⟨hlowpos, by linarith⟩

/-- A slice of the new level is rejected. -/
theorem Climbing.rejects_eq_true {sqrt : ℚ → ℚ} {k : StoppingKnobs} {lower level : List ℚ}
    {c : ℕ} {s : StatsAccumulator} (h : Climbing sqrt k lower level c s)
    (hlower : IsLevel lower) (hbelow : Below lower level) {t : SliceTimings}
    (ht : t.cpuWallTime ∈ level) : s.rejects t = true := by
  rw [rejects, h.threshold_eq]
  refine RollingJitterWindow.isJittered_eq_true h.window_count
    (fun y hy => hlower.1 y (h.window_mem y hy)) (fun y hy => ?_)
  have := hbelow y (h.window_mem y hy) _ ht
  linarith

/-- The counter of the current run of discards is exact while climbing. -/
theorem Climbing.consecutive_succ {sqrt : ℚ → ℚ} {k : StoppingKnobs}
    {lower level : List ℚ} {c : ℕ} {s : StatsAccumulator}
    (h : Climbing sqrt k lower level c s) :
    (s.consecutiveDiscards + 1).toNat = s.consecutiveDiscards.toNat + 1 :=
  exactSucc_of_lt (b := k.consecutiveDiscardCap)
    (by rw [h.consecutive_eq]; exact h.consecutive_lt)

/-- One more discard of the current run. -/
theorem Climbing.consecutive_recordDiscard {sqrt : ℚ → ℚ} {k : StoppingKnobs}
    {lower level : List ℚ} {c : ℕ} {s : StatsAccumulator}
    (h : Climbing sqrt k lower level c s) (t : SliceTimings) :
    (s.recordDiscard t).consecutiveDiscards.toNat = c + 1 := by
  change (s.consecutiveDiscards + 1).toNat = c + 1
  rw [h.consecutive_succ, h.consecutive_eq]

/-- Its ring holds slices of the new level only. -/
theorem Climbing.ring_recordDiscard {sqrt : ℚ → ℚ} {k : StoppingKnobs}
    {lower level : List ℚ} {c : ℕ} {s : StatsAccumulator}
    (h : Climbing sqrt k lower level c s) {t : SliceTimings} (ht : t.cpuWallTime ∈ level) :
    ∀ y ∈ (s.recordDiscard t).discardRunEntries, y ∈ level := by
  intro y hy
  rcases mem_discardRunEntries_recordDiscard h.consecutive_succ hy with rfl | hy
  · exact ht
  · exact h.ring_mem y hy

/-- All discards stay in the current run. -/
theorem Calm.total_recordDiscard {sqrt : ℚ → ℚ} {k : StoppingKnobs} {s : StatsAccumulator}
    (h : Calm sqrt k s) (t : SliceTimings) :
    (s.recordDiscard t).totalDiscards = (s.recordDiscard t).consecutiveDiscards :=
  congrArg (· + 1) h.total_eq

/-- **A discard below the cap** only lengthens the run of discards. -/
theorem Climbing.sliceStep_of_lt {sqrt : ℚ → ℚ} {k : StoppingKnobs} {lower level : List ℚ}
    {c : ℕ} {s : StatsAccumulator} (hk : KnobsForLevels k)
    (h : Climbing sqrt k lower level c s) (hlower : IsLevel lower)
    (hbelow : Below lower level) {t : SliceTimings} (ht : t.cpuWallTime ∈ level)
    (hc : c + 1 < k.consecutiveDiscardCap.toNat) :
    (s.sliceStep sqrt t).2 = false ∧
      Climbing sqrt k lower level (c + 1) (s.sliceStep sqrt t).1 ∧
      (s.sliceStep sqrt t).1.levelShifts = s.levelShifts := by
  have hcons := h.consecutive_recordDiscard t
  have htot := h.total_recordDiscard t
  have hlt : (s.recordDiscard t).consecutiveDiscards < k.consecutiveDiscardCap := by
    rw [UInt32.lt_iff_toNat_lt, hcons]
    exact hc
  have hshift : (s.recordDiscard t).shiftsLevel = false := by
    have hn : ¬ (s.recordDiscard t).knobs.consecutiveDiscardCap ≤
        (s.recordDiscard t).consecutiveDiscards := by
      rw [show (s.recordDiscard t).knobs = k from h.knobs_eq]
      exact UInt32.not_le.mpr hlt
    simp [shiftsLevel, hn]
  have hfeed : s.feedSlice t = (s.recordDiscard t, false) := by
    rw [feedSlice, h.rejects_eq_true hlower hbelow ht]
    simp [hshift]
  have hgo : (s.sliceStep sqrt t).2 = false := by
    rw [StatsAccumulator.sliceStep, hfeed]
    refine (shouldStop_continue_iff sqrt _).mpr ⟨?_, ?_, h.undecided⟩
    · rw [show (s.recordDiscard t).knobs = k from h.knobs_eq]
      exact hlt
    · rw [show (s.recordDiscard t).knobs = k from h.knobs_eq, htot]
      exact UInt32.lt_of_lt_of_le hlt hk.cap_le_total
  refine ⟨hgo, ?_, ?_⟩ <;> rw [sliceStep_of_continue hgo, hfeed]
  · exact ⟨⟨h.knobs_eq, h.threshold_eq, h.not_failed, htot, h.undecided⟩, hcons, hc,
      h.levels_lt, h.window_mem, h.window_count, h.ring_recordDiscard ht⟩
  · rfl

/-- Nothing is accepted yet on a new level. -/
theorem undecided_internalRebaseline {sqrt : ℚ → ℚ} {k : StoppingKnobs} {s : StatsAccumulator}
    (hk : KnobsForLevels k) (hs : s.knobs = k) : s.internalRebaseline.Undecided sqrt := by
  constructor
  · change (0 : UInt32) < s.knobs.maxSlices
    rw [hs]
    exact hk.maxSlices_pos
  · rintro ⟨hmin, -⟩
    have hmin' : s.knobs.minSlices ≤ (0 : UInt32) := hmin
    rw [hs] at hmin'
    exact UInt32.not_le.mpr hk.minSlices_pos hmin'

/-- After three discards in a row the window of the new level is filled enough. -/
theorem le_count_internalRebaseline {s : StatsAccumulator}
    (h : JITTER_WINDOW_MIN_SAMPLES ≤ s.consecutiveDiscards.toNat) :
    JITTER_WINDOW_MIN_SAMPLES ≤ s.internalRebaseline.jitterWindow.count := by
  change _ ≤ (s.discardRunEntries.foldl RollingJitterWindow.push .empty).count
  rw [RollingJitterWindow.count_foldl_push, discardRunEntries, List.length_take,
    Vector.length_toList, discardRunCount, RollingJitterWindow.count_empty]
  unfold JITTER_WINDOW JITTER_WINDOW_MIN_SAMPLES at *
  omega

/-- The discard that fills the run shifts the level. -/
theorem Climbing.shiftsLevel_recordDiscard {sqrt : ℚ → ℚ} {k : StoppingKnobs}
    {lower level : List ℚ} {c : ℕ} {s : StatsAccumulator}
    (h : Climbing sqrt k lower level c s) (hlevel : IsLevel level) {t : SliceTimings}
    (ht : t.cpuWallTime ∈ level) (hc : c + 1 = k.consecutiveDiscardCap.toNat) :
    (s.recordDiscard t).shiftsLevel = true := by
  have hcons := h.consecutive_recordDiscard t
  have hcap : (s.recordDiscard t).knobs.consecutiveDiscardCap ≤
      (s.recordDiscard t).consecutiveDiscards := by
    rw [show (s.recordDiscard t).knobs = k from h.knobs_eq, UInt32.le_iff_toNat_le, hcons, hc]
  have hlev : (s.recordDiscard t).levelShifts < MAX_LEVEL_SHIFTS := h.levels_lt
  have his : (s.recordDiscard t).internalDiscardRunIsLevel = true :=
    internalDiscardRunIsLevel_of_isLevel hlevel h.threshold_eq (by omega) (h.ring_recordDiscard ht)
  rw [shiftsLevel, decide_eq_true hcap, decide_eq_true hlev, his]
  rfl

/-- **The discard that reaches the cap** moves the baseline: the accumulator is settled on
the new level, with a window of its slices and nothing measured yet. -/
theorem Climbing.sliceStep_of_eq {sqrt : ℚ → ℚ} {k : StoppingKnobs} {lower level : List ℚ}
    {c : ℕ} {s : StatsAccumulator} (hk : KnobsForLevels k)
    (h : Climbing sqrt k lower level c s) (hlower : IsLevel lower) (hlevel : IsLevel level)
    (hbelow : Below lower level) {t : SliceTimings} (ht : t.cpuWallTime ∈ level)
    (hc : c + 1 = k.consecutiveDiscardCap.toNat) :
    (s.sliceStep sqrt t).2 = false ∧ Settled sqrt k level [] (s.sliceStep sqrt t).1 ∧
      JITTER_WINDOW_MIN_SAMPLES ≤ (s.sliceStep sqrt t).1.jitterWindow.count ∧
      (s.sliceStep sqrt t).1.levelShifts.toNat = s.levelShifts.toNat + 1 := by
  have hcons := h.consecutive_recordDiscard t
  have htot := h.total_recordDiscard t
  have hring := h.ring_recordDiscard ht
  have hshift := h.shiftsLevel_recordDiscard hlevel ht hc
  have hfeed : s.feedSlice t = ((s.recordDiscard t).internalRebaseline, false) := by
    rw [feedSlice, h.rejects_eq_true hlower hbelow ht]
    simp [hshift]
  have hzero : (s.recordDiscard t).internalRebaseline.totalDiscards = 0 := by
    change (s.recordDiscard t).totalDiscards - (s.recordDiscard t).consecutiveDiscards = 0
    rw [htot, UInt32.sub_self]
  have hundecided : (s.recordDiscard t).internalRebaseline.Undecided sqrt :=
    undecided_internalRebaseline hk h.knobs_eq
  have hpos : (0 : UInt32) < k.consecutiveDiscardCap :=
    UInt32.lt_of_lt_of_le (by decide) hk.three_le_cap
  have hgo : (s.sliceStep sqrt t).2 = false := by
    rw [StatsAccumulator.sliceStep, hfeed]
    refine (shouldStop_continue_iff sqrt _).mpr ⟨?_, ?_, hundecided⟩
    · change (0 : UInt32) < s.knobs.consecutiveDiscardCap
      rw [h.knobs_eq]
      exact hpos
    · rw [hzero]
      change (0 : UInt32) < s.knobs.totalDiscardCap
      rw [h.knobs_eq]
      exact UInt32.lt_of_lt_of_le hpos hk.cap_le_total
  refine ⟨hgo, ?_, ?_, ?_⟩ <;> rw [sliceStep_of_continue hgo, hfeed]
  · refine ⟨⟨h.knobs_eq, h.threshold_eq, h.not_failed, hzero, hundecided⟩, rfl,
      fun y hy => ?_, rfl, WelfordState.summarises_nil⟩
    rcases RollingJitterWindow.mem_entries_foldl_push hy with hy | hy
    · exact hring y hy
    · simp at hy
  · refine le_count_internalRebaseline ?_
    rw [hcons, hc]
    exact UInt32.le_iff_toNat_le.mp hk.three_le_cap
  · exact exactSucc_of_lt (UInt32.lt_iff_toNat_lt.mp h.levels_lt)

/-! ### The slices of one level -/

/-- The loop started in `s` stops on the last of the slices `ts`, in the state `s'`. -/
def StopsAt (sqrt : ℚ → ℚ) (s : StatsAccumulator) (ts : List SliceTimings)
    (s' : StatsAccumulator) : Prop :=
  ∃ pre x s₁, ts = pre ++ [x] ∧ sliceLoop sqrt s pre = .running s₁ ∧
    sliceLoop sqrt s ts = .exited s'

/-- A loop that goes through `ts` stops where its continuation stops. -/
theorem StopsAt.append {sqrt : ℚ → ℚ} {s s₁ s' : StatsAccumulator} {ts us : List SliceTimings}
    (h : StopsAt sqrt s₁ us s') (hrun : sliceLoop sqrt s ts = .running s₁) :
    StopsAt sqrt s (ts ++ us) s' := by
  obtain ⟨pre, x, s₂, rfl, hpre, hstop⟩ := h
  refine ⟨ts ++ pre, x, s₂, (List.append_assoc ts pre [x]).symm, ?_, ?_⟩
  · exact (loopState_append_of_running hrun pre).trans hpre
  · exact (loopState_append_of_running hrun (pre ++ [x])).trans hstop

/-- **A settled accumulator on slices of its level** stays settled as long as it runs, and
when it stops it has not failed and reports the slices measured since the rebaseline. -/
theorem Settled.run {sqrt : ℚ → ℚ} {k : StoppingKnobs} {level m : List ℚ}
    {s : StatsAccumulator} (hk : KnobsForLevels k) (h : Settled sqrt k level m s)
    (hlevel : IsLevel level) {ts : List SliceTimings}
    (hts : ∀ t ∈ ts, t.cpuWallTime ∈ level) :
    (∀ s', sliceLoop sqrt s ts = .running s' →
      Settled sqrt k level (m ++ ts.map SliceTimings.cpuWallTime) s' ∧
        s'.jitterWindow.count = min JITTER_WINDOW (s.jitterWindow.count + ts.length) ∧
        s'.levelShifts = s.levelShifts) ∧
    (∀ s', sliceLoop sqrt s ts = .exited s' →
      ∃ measured, measured ≠ [] ∧ measured <+: ts ∧ StopsAt sqrt s measured s' ∧
        s'.runFailed = false ∧
        s'.cpuWallTime.Summarises (m ++ measured.map SliceTimings.cpuWallTime)) := by
  have hcount := s.jitterWindow.count_le
  let Inv : List SliceTimings → StatsAccumulator → Prop := fun pre s' =>
    (∀ t ∈ pre, t.cpuWallTime ∈ level) →
      Settled sqrt k level (m ++ pre.map SliceTimings.cpuWallTime) s' ∧
        s'.jitterWindow.count = min JITTER_WINDOW (s.jitterWindow.count + pre.length) ∧
        s'.levelShifts = s.levelShifts
  have hstart : Inv [] s :=
    fun _ => ⟨by simpa using h, by rw [List.length_nil]; omega, rfl⟩
  have hstep : ∀ pre s₁ x, Inv pre s₁ → (s₁.sliceStep sqrt x).2 = false →
      Inv (pre ++ [x]) (s₁.sliceStep sqrt x).1 := by
    intro pre s₁ x hinv hgo hx
    obtain ⟨hsettled, hc, hlv⟩ := hinv fun t ht => hx t (List.mem_append_left _ ht)
    obtain ⟨-, -, hnext⟩ := hsettled.sliceStep hk hlevel (hx x (by simp))
    obtain ⟨hsettled', hc', hlv'⟩ := hnext hgo
    refine ⟨?_, ?_, hlv'.trans hlv⟩
    · rw [List.map_append, List.map_singleton, ← List.append_assoc]
      exact hsettled'
    · rw [hc', hc, List.length_append, List.length_singleton]
      omega
  obtain ⟨hrun, hexit⟩ := loopState_invariant (StatsAccumulator.sliceStep sqrt) Inv hstart
    hstep ts
  refine ⟨fun s' hs => hrun s' hs hts, fun s' hs => ?_⟩
  obtain ⟨pre, x, s₁, hpre, hinv, hloop, hstop, hs'⟩ := hexit s' hs
  have hx : ∀ t ∈ pre ++ [x], t.cpuWallTime ∈ level := fun t ht => hts t (hpre.subset ht)
  obtain ⟨hsettled, -, -⟩ := hinv fun t ht => hx t (List.mem_append_left _ ht)
  obtain ⟨hstats, hnf, -⟩ := hsettled.sliceStep hk hlevel (hx x (by simp))
  have hexited : sliceLoop sqrt s (pre ++ [x]) = .exited s' := by
    rw [sliceLoop, loopState_concat, hloop, LoopState.step_running_of_stop hstop, hs']
  refine ⟨pre ++ [x], by simp, hpre, ⟨pre, x, s₁, rfl, hloop, hexited⟩, hs' ▸ hnf, ?_⟩
  rw [List.map_append, List.map_singleton, ← List.append_assoc]
  exact hs' ▸ hstats

/-- **Climbing through slices of the new level**: below the cap the climb goes on, at the
cap it settles. Either way the loop keeps running. -/
theorem Climbing.run {sqrt : ℚ → ℚ} {k : StoppingKnobs} {lower level : List ℚ} {c : ℕ}
    {s : StatsAccumulator} (hk : KnobsForLevels k) (h : Climbing sqrt k lower level c s)
    (hlower : IsLevel lower) (hlevel : IsLevel level) (hbelow : Below lower level)
    {ts : List SliceTimings} (hts : ∀ t ∈ ts, t.cpuWallTime ∈ level)
    (hle : c + ts.length ≤ k.consecutiveDiscardCap.toNat) :
    ∃ s', sliceLoop sqrt s ts = .running s' ∧
      (c + ts.length < k.consecutiveDiscardCap.toNat →
        Climbing sqrt k lower level (c + ts.length) s') ∧
      (c + ts.length = k.consecutiveDiscardCap.toNat →
        Settled sqrt k level [] s' ∧ JITTER_WINDOW_MIN_SAMPLES ≤ s'.jitterWindow.count ∧
          s'.levelShifts.toNat = s.levelShifts.toNat + 1) := by
  induction ts generalizing c s with
  | nil =>
      refine ⟨s, rfl, fun _ => h, fun heq => ?_⟩
      have := h.consecutive_lt
      rw [List.length_nil] at heq
      omega
  | cons t ts ih =>
      rw [List.length_cons] at hle ⊢
      have ht := hts t List.mem_cons_self
      have hts' : ∀ u ∈ ts, u.cpuWallTime ∈ level :=
        fun u hu => hts u (List.mem_cons_of_mem t hu)
      by_cases hc : c + 1 < k.consecutiveDiscardCap.toNat
      · obtain ⟨hgo, hnext, hlv⟩ := h.sliceStep_of_lt hk hlower hbelow ht hc
        obtain ⟨s', hloop, hlt, heq⟩ := ih hnext hts' (by omega)
        refine ⟨s', ?_, fun hl => ?_, fun he => ?_⟩
        · rw [sliceLoop, loopState, List.foldl_cons, LoopState.step_running_of_continue hgo]
          exact hloop
        · rw [show c + (ts.length + 1) = c + 1 + ts.length by omega]
          exact hlt (by omega)
        · rw [← hlv]
          exact heq (by omega)
      · obtain rfl : ts = [] := List.length_eq_zero_iff.mp (by omega)
        have hc' : c + 1 = k.consecutiveDiscardCap.toNat := by
          rw [List.length_nil] at hle
          omega
        obtain ⟨hgo, hsettled⟩ := h.sliceStep_of_eq hk hlower hlevel hbelow ht hc'
        refine ⟨_, LoopState.step_running_of_continue hgo, fun hl => ?_, fun _ => hsettled⟩
        rw [List.length_nil] at hl
        omega

/-- **A level after the first.** From an accumulator settled on the level below, the run
does not fail; if it stops, it reports slices of the new level, and if it has taken a full
run of discards it is settled there. -/
theorem Settled.enterLevel {sqrt : ℚ → ℚ} {k : StoppingKnobs} {lower level m : List ℚ}
    {s : StatsAccumulator} (hk : KnobsForLevels k) (h : Settled sqrt k lower m s)
    (hcount : JITTER_WINDOW_MIN_SAMPLES ≤ s.jitterWindow.count)
    (hshifts : s.levelShifts < MAX_LEVEL_SHIFTS) (hlower : IsLevel lower)
    (hlevel : IsLevel level) (hbelow : Below lower level) {ts : List SliceTimings}
    (hts : ∀ t ∈ ts, t.cpuWallTime ∈ level) :
    (∀ s', sliceLoop sqrt s ts = .running s' → s'.runFailed = false ∧
      (k.consecutiveDiscardCap.toNat ≤ ts.length →
        (∃ m', Settled sqrt k level m' s') ∧
          JITTER_WINDOW_MIN_SAMPLES ≤ s'.jitterWindow.count ∧
          s'.levelShifts.toNat = s.levelShifts.toNat + 1)) ∧
    (∀ s', sliceLoop sqrt s ts = .exited s' →
      ∃ head measured, measured ≠ [] ∧ head ++ measured <+: ts ∧
        StopsAt sqrt s (head ++ measured) s' ∧ s'.runFailed = false ∧
        s'.cpuWallTime.Summarises (measured.map SliceTimings.cpuWallTime)) := by
  have hclimb : Climbing sqrt k lower level 0 s := h.toClimbing hk hcount hshifts
  by_cases hlen : ts.length < k.consecutiveDiscardCap.toNat
  · obtain ⟨s', hloop, hlt, -⟩ := hclimb.run hk hlower hlevel hbelow hts (by omega)
    rw [hloop]
    refine ⟨fun s₁ hs => ?_, fun s₁ hs => by cases hs⟩
    obtain rfl : s' = s₁ := LoopState.running.inj hs
    exact ⟨(hlt (by omega)).not_failed, fun hge => absurd hge (by omega)⟩
  · -- the first `consecutiveDiscardCap` slices climb, the others are measured
    obtain ⟨head, rest, rfl, hhead⟩ : ∃ head rest, ts = head ++ rest ∧
        head.length = k.consecutiveDiscardCap.toNat :=
      ⟨ts.take k.consecutiveDiscardCap.toNat, ts.drop k.consecutiveDiscardCap.toNat,
        (List.take_append_drop _ _).symm, by rw [List.length_take]; omega⟩
    obtain ⟨s₁, hloop, -, hsettle⟩ := hclimb.run hk hlower hlevel hbelow
      (fun t ht => hts t (List.mem_append_left rest ht)) (by omega)
    obtain ⟨hsettled, hcount₁, hlv₁⟩ := hsettle (by omega)
    obtain ⟨hrun, hexit⟩ := hsettled.run hk hlevel
      (fun t ht => hts t (List.mem_append_right head ht))
    rw [show sliceLoop sqrt s (head ++ rest) = sliceLoop sqrt s₁ rest from
      loopState_append_of_running hloop rest]
    refine ⟨fun s' hs => ?_, fun s' hs => ?_⟩
    · obtain ⟨hsettled', hcount', hlv'⟩ := hrun s' hs
      refine ⟨hsettled'.not_failed, fun _ => ⟨⟨_, hsettled'⟩, ?_, ?_⟩⟩
      · unfold JITTER_WINDOW_MIN_SAMPLES JITTER_WINDOW at *
        omega
      · rw [hlv', hlv₁]
    · obtain ⟨measured, hne, hpre, hstop, hnf, hstats⟩ := hexit s' hs
      exact ⟨head, measured, hne, (List.prefix_append_right_inj head).mpr hpre,
        hstop.append hloop, hnf, hstats⟩

/-! ### Whole runs -/

/-- A prefix of a concatenation ends in the first part or goes beyond it. -/
theorem prefix_append_cases {xs ys zs : List ℚ} (h : xs <+: ys ++ zs) :
    xs <+: ys ∨ ∃ rest, xs = ys ++ rest ∧ rest <+: zs := by
  obtain ⟨us, hus⟩ := h
  rcases List.append_eq_append_iff.mp hus with ⟨as, hys, -⟩ | ⟨bs, hxs, hzs⟩
  · exact Or.inl ⟨as, hys.symm⟩
  · exact Or.inr ⟨bs, hxs, us, hzs.symm⟩

/-- **Where a run over levels stops**: after `skipped` slices, which cover the earlier
levels and the climb, it stops on the last of the slices `measured` of one level, and its
statistics are those of these slices. -/
structure StopsOnLevel (sqrt : ℚ → ℚ) (s : StatsAccumulator) (levels : List (List ℚ))
    (ts : List SliceTimings) (s' : StatsAccumulator)
    (skipped measured : List SliceTimings) : Prop where
  measured_ne_nil : measured ≠ []
  isPrefix : skipped ++ measured <+: ts
  stopsAt : StopsAt sqrt s (skipped ++ measured) s'
  stats : s'.cpuWallTime.Summarises (measured.map SliceTimings.cpuWallTime)
  onLevel : ∃ earlier level later head, levels = earlier ++ level :: later ∧
    skipped.map SliceTimings.cpuWallTime = earlier.flatten ++ head ∧
    head ++ measured.map SliceTimings.cpuWallTime <+: level

/-- Levels that a run has gone through are earlier levels of the longer run. -/
theorem StopsOnLevel.cons {sqrt : ℚ → ℚ} {s s₁ s' : StatsAccumulator} {level : List ℚ}
    {levels : List (List ℚ)} {ts us skipped measured : List SliceTimings}
    (h : StopsOnLevel sqrt s₁ levels us s' skipped measured)
    (hrun : sliceLoop sqrt s ts = .running s₁)
    (hts : ts.map SliceTimings.cpuWallTime = level) :
    StopsOnLevel sqrt s (level :: levels) (ts ++ us) s' (ts ++ skipped) measured := by
  obtain ⟨earlier, stop, later, head, hlevels, hskipped, hmeasured⟩ := h.onLevel
  refine ⟨h.measured_ne_nil, ?_, ?_, h.stats, level :: earlier, stop, later, head, ?_, ?_, hmeasured⟩
  · rw [List.append_assoc]
    exact (List.prefix_append_right_inj ts).mpr h.isPrefix
  · rw [List.append_assoc]
    exact h.stopsAt.append hrun
  · rw [hlevels, List.cons_append]
  · rw [List.map_append, hts, hskipped, List.flatten_cons, List.append_assoc]

/-- The slices of a run over `level :: levels` are slices of the first level, or all of its
slices and slices of the rest. -/
theorem exists_split_of_prefix {level : List ℚ} {levels : List (List ℚ)}
    {ts : List SliceTimings}
    (h : ts.map SliceTimings.cpuWallTime <+: (level :: levels).flatten) :
    ts.map SliceTimings.cpuWallTime <+: level ∨
      ∃ us vs, ts = us ++ vs ∧ us.map SliceTimings.cpuWallTime = level ∧
        vs.map SliceTimings.cpuWallTime <+: levels.flatten := by
  rw [List.flatten_cons] at h
  rcases prefix_append_cases h with hin | ⟨rest, hrest, hpre⟩
  · exact Or.inl hin
  · obtain ⟨us, vs, rfl, hus, hvs⟩ := List.map_eq_append_iff.mp hrest
    exact Or.inr ⟨us, vs, rfl, hus, hvs ▸ hpre⟩

/-- A stop inside the first level. -/
theorem StopsAt.onFirstLevel {sqrt : ℚ → ℚ} {s s' : StatsAccumulator} {level : List ℚ}
    {levels : List (List ℚ)} {ts us head measured : List SliceTimings}
    (h : StopsAt sqrt s (head ++ measured) s') (hne : measured ≠ [])
    (hpre : head ++ measured <+: us)
    (hus : us <+: ts) (hlevel : us.map SliceTimings.cpuWallTime <+: level)
    (hstats : s'.cpuWallTime.Summarises (measured.map SliceTimings.cpuWallTime)) :
    StopsOnLevel sqrt s (level :: levels) ts s' head measured := by
  refine ⟨hne, hpre.trans hus, h, hstats, [], level, levels,
    head.map SliceTimings.cpuWallTime, rfl, by simp, ?_⟩
  rw [← List.map_append]
  exact (hpre.map SliceTimings.cpuWallTime).trans hlevel

/-- **A run over levels** does not fail, and where it stops it has measured one level. -/
def RunsOverLevels (sqrt : ℚ → ℚ) (s : StatsAccumulator) (levels : List (List ℚ))
    (ts : List SliceTimings) : Prop :=
  (sliceLoop sqrt s ts).state.runFailed = false ∧
    ∀ s', sliceLoop sqrt s ts = .exited s' →
      ∃ skipped measured, StopsOnLevel sqrt s levels ts s' skipped measured

/-- A run over no levels. -/
theorem runsOverLevels_nil {sqrt : ℚ → ℚ} {s : StatsAccumulator} (h : s.runFailed = false)
    {ts : List SliceTimings} (hts : ts.map SliceTimings.cpuWallTime <+: [].flatten) :
    RunsOverLevels sqrt s [] ts := by
  obtain rfl : ts = [] := by simpa using hts
  exact ⟨h, fun s' hs => by cases hs⟩

/-- **One more level in front**: what the run does on the first level, and what it does on
the others from where the first one ends. -/
theorem runsOverLevels_cons {sqrt : ℚ → ℚ} {s : StatsAccumulator} {level : List ℚ}
    {levels : List (List ℚ)}
    (hfirst : ∀ us : List SliceTimings, us.map SliceTimings.cpuWallTime <+: level →
      (∀ s₁, sliceLoop sqrt s us = .running s₁ → s₁.runFailed = false) ∧
      ∀ s₁, sliceLoop sqrt s us = .exited s₁ → ∃ head measured, measured ≠ [] ∧
        head ++ measured <+: us ∧ StopsAt sqrt s (head ++ measured) s₁ ∧
          s₁.runFailed = false ∧
          s₁.cpuWallTime.Summarises (measured.map SliceTimings.cpuWallTime))
    (hrest : ∀ us vs s₁, us.map SliceTimings.cpuWallTime = level →
      sliceLoop sqrt s us = .running s₁ →
      vs.map SliceTimings.cpuWallTime <+: levels.flatten → RunsOverLevels sqrt s₁ levels vs)
    {ts : List SliceTimings} (hts : ts.map SliceTimings.cpuWallTime <+: (level :: levels).flatten) :
    RunsOverLevels sqrt s (level :: levels) ts := by
  rcases exists_split_of_prefix hts with hin | ⟨us, vs, rfl, hus, hvs⟩
  · obtain ⟨hrun, hexit⟩ := hfirst ts hin
    cases hl : sliceLoop sqrt s ts with
    | running s₁ =>
        rw [RunsOverLevels, hl]
        exact ⟨hrun s₁ hl, fun s' hs => by cases hs⟩
    | exited s₁ =>
        obtain ⟨head, measured, hne, hpre, hstop, hnf, hstats⟩ := hexit s₁ hl
        rw [RunsOverLevels, hl]
        refine ⟨hnf, fun s' hs => ⟨head, measured, ?_⟩⟩
        obtain rfl := LoopState.exited.inj hs
        exact hstop.onFirstLevel hne hpre List.prefix_rfl hin hstats
  · have hall : us.map SliceTimings.cpuWallTime <+: level := by
      simp only [hus, List.prefix_rfl]
    obtain ⟨-, hexit⟩ := hfirst us hall
    cases hl : sliceLoop sqrt s us with
    | running s₁ =>
        obtain ⟨hnf, hstop⟩ := hrest us vs s₁ hus hl hvs
        rw [RunsOverLevels, show sliceLoop sqrt s (us ++ vs) = sliceLoop sqrt s₁ vs from
          loopState_append_of_running hl vs]
        refine ⟨hnf, fun s' hs => ?_⟩
        obtain ⟨skipped, measured, hon⟩ := hstop s' hs
        exact ⟨us ++ skipped, measured, hon.cons hl hus⟩
    | exited s₁ =>
        obtain ⟨head, measured, hne, hpre, hstop, hnf, hstats⟩ := hexit s₁ hl
        rw [RunsOverLevels, show sliceLoop sqrt s (us ++ vs) = .exited s₁ from
          loopState_append_of_exited hl vs]
        refine ⟨hnf, fun s' hs => ⟨head, measured, ?_⟩⟩
        obtain rfl := LoopState.exited.inj hs
        exact hstop.onFirstLevel hne hpre (List.prefix_append us vs) hall hstats

/-- **The levels after the first**, by induction on the levels: from an accumulator settled
on the level below, the run does not fail, and it stops on one level. -/
theorem Settled.runLevels {sqrt : ℚ → ℚ} {k : StoppingKnobs} {lower m : List ℚ}
    {s : StatsAccumulator} {levels : List (List ℚ)} (hk : KnobsForLevels k)
    (h : Settled sqrt k lower m s)
    (hcount : levels ≠ [] → JITTER_WINDOW_MIN_SAMPLES ≤ s.jitterWindow.count)
    (hshifts : s.levelShifts.toNat + levels.length ≤ MAX_LEVEL_SHIFTS.toNat)
    (hlevels : ∀ level ∈ lower :: levels, IsLevel level)
    (hbelow : (lower :: levels).Pairwise Below)
    (hmiddle : ∀ level ∈ levels.dropLast, k.consecutiveDiscardCap.toNat ≤ level.length)
    {ts : List SliceTimings} (hts : ts.map SliceTimings.cpuWallTime <+: levels.flatten) :
    RunsOverLevels sqrt s levels ts := by
  induction levels generalizing lower m s ts with
  | nil => exact runsOverLevels_nil h.not_failed hts
  | cons level levels ih =>
      have hlower : IsLevel lower := hlevels lower List.mem_cons_self
      have hlevel : IsLevel level := hlevels level (by simp)
      have hb : Below lower level := (List.pairwise_cons.mp hbelow).1 level List.mem_cons_self
      have hshift : s.levelShifts < MAX_LEVEL_SHIFTS := by
        rw [List.length_cons] at hshifts
        exact UInt32.lt_iff_toNat_lt.mpr (by omega)
      have henter := fun (us : List SliceTimings)
          (hus : us.map SliceTimings.cpuWallTime <+: level) =>
        h.enterLevel hk (hcount (List.cons_ne_nil level levels)) hshift hlower hlevel hb
          (fun t ht => hus.subset (List.mem_map_of_mem ht))
      refine runsOverLevels_cons (fun us hus => ?_) (fun us vs s₁ hus hl hvs => ?_) hts
      · obtain ⟨hrun, hexit⟩ := henter us hus
        exact ⟨fun s₁ hl => (hrun s₁ hl).1, hexit⟩
      · obtain ⟨hrun, -⟩ := henter us (by simp only [hus, List.prefix_rfl])
        obtain ⟨hnf, hsettle⟩ := hrun s₁ hl
        cases levels with
        | nil => exact runsOverLevels_nil hnf hvs
        | cons next levels =>
            have hlen : k.consecutiveDiscardCap.toNat ≤ us.length := by
              have := hmiddle level (by simp)
              rwa [← hus, List.length_map] at this
            obtain ⟨⟨m', hsettled⟩, hcount', hlv⟩ := hsettle hlen
            exact ih hsettled (fun _ => hcount')
              (by rw [hlv]; simp only [List.length_cons] at hshifts ⊢; omega)
              (fun l hl => hlevels l (List.mem_cons_of_mem lower hl))
              (List.pairwise_cons.mp hbelow).2
              (fun l hl => hmiddle l (by
                rw [List.dropLast_cons_cons]
                exact List.mem_cons_of_mem level hl)) hvs

/-- A fresh accumulator is settled on every level, with nothing measured. -/
theorem settled_deriveKnobs (sqrt : ℚ → ℚ) (isGpuRun : Bool) (c : ℚ)
    (configKnobs : StoppingKnobs) (level : List ℚ) :
    let s₀ := ({ isGpuRun := isGpuRun } : StatsAccumulator).deriveKnobs c configKnobs
    Settled sqrt s₀.knobs level [] s₀ := by
  intro s₀
  obtain ⟨hmin, hmax, -, -⟩ := deriveKnobs_pos { isGpuRun := isGpuRun } c configKnobs
  refine ⟨⟨rfl, rfl, rfl, rfl, hmax, fun hstop => ?_⟩, rfl, fun y hy => ?_, rfl,
    WelfordState.summarises_nil⟩
  · exact UInt32.not_le.mpr hmin hstop.1
  · cases hy

/-- **Runs from a fresh accumulator.** The first level is measured from the start, the
others are entered from the level below. -/
theorem runLevels_deriveKnobs (sqrt : ℚ → ℚ) (isGpuRun : Bool) (c : ℚ)
    (configKnobs : StoppingKnobs) {levels : List (List ℚ)} {ts : List SliceTimings} :
    let s₀ := ({ isGpuRun := isGpuRun } : StatsAccumulator).deriveKnobs c configKnobs
    KnobsForLevels s₀.knobs →
    IsLevelSequence s₀.knobs.consecutiveDiscardCap.toNat levels →
    ts.map SliceTimings.cpuWallTime <+: levels.flatten →
    RunsOverLevels sqrt s₀ levels ts := by
  intro s₀ hk hlevels hts
  have hfresh := settled_deriveKnobs sqrt isGpuRun c configKnobs
  cases levels with
  | nil => exact runsOverLevels_nil rfl hts
  | cons level levels =>
      have hlevel : IsLevel level := hlevels.isLevel level List.mem_cons_self
      have hfirst := fun (us : List SliceTimings)
          (hus : us.map SliceTimings.cpuWallTime <+: level) =>
        (hfresh level).run hk hlevel (fun t ht => hus.subset (List.mem_map_of_mem ht))
      refine runsOverLevels_cons (fun us hus => ?_) (fun us vs s₁ hus hl hvs => ?_) hts
      · obtain ⟨hrun, hexit⟩ := hfirst us hus
        refine ⟨fun s₁ hl => (hrun s₁ hl).1.not_failed, fun s₁ hl => ?_⟩
        obtain ⟨measured, hmeasured⟩ := hexit s₁ hl
        exact ⟨[], measured, hmeasured⟩
      · obtain ⟨hrun, -⟩ := hfirst us (by simp only [hus, List.prefix_rfl])
        obtain ⟨hsettled, hcount, hlv⟩ := hrun s₁ hl
        have hlen : JITTER_WINDOW_MIN_SAMPLES ≤ us.length := by
          have := hlevels.first_length level rfl
          rwa [← hus, List.length_map] at this
        have hlv₁ : s₁.levelShifts.toNat = 0 := by rw [hlv]; rfl
        refine hsettled.runLevels hk (fun _ => ?_) ?_ hlevels.isLevel hlevels.pairwise_below
          hlevels.middle_length hvs
        · unfold JITTER_WINDOW JITTER_WINDOW_MIN_SAMPLES at *
          omega
        · have := hlevels.length_le
          rw [List.length_cons] at this
          omega

/-- The slices measured are positive. -/
theorem StopsOnLevel.measured_pos {sqrt : ℚ → ℚ} {s s' : StatsAccumulator}
    {levels : List (List ℚ)} {ts skipped measured : List SliceTimings}
    (h : StopsOnLevel sqrt s levels ts s' skipped measured)
    (hlevels : ∀ level ∈ levels, IsLevel level) :
    ∀ x ∈ measured.map SliceTimings.cpuWallTime, 0 < x := by
  intro x hx
  obtain ⟨earlier, level, later, head, rfl, -, hpre⟩ := h.onLevel
  exact (hlevels level (by simp)).1 x (hpre.subset (List.mem_append_right head hx))

/-- The reported statistics are those of the slices seen, if these have a positive mean. -/
theorem assembleResult_of_summarises {sqrt : ℚ → ℚ} (s : StatsAccumulator) {times : List ℚ}
    (h : s.cpuWallTime.Summarises times) (hmean : 0 < OnlineMoments.mean times)
    (result : BenchmarkResult) (iterationsPerSlice : UInt64) :
    let reported := s.assembleResult sqrt result iterationsPerSlice
    reported.finalSliceWallTime = OnlineMoments.mean times ∧
      reported.meanThroughput = iterationsPerSlice.toNat / OnlineMoments.mean times ∧
      reported.stddev = sampleStddev sqrt times ∧
      reported.cv = sampleStddev sqrt times / OnlineMoments.mean times := by
  intro reported
  have hfields : reported.finalSliceWallTime = s.cpuWallTime.meanV ∧
      reported.meanThroughput =
        (if s.cpuWallTime.meanV > 0 then iterationsPerSlice.toNat / s.cpuWallTime.meanV
          else 0) ∧
      reported.stddev = s.cpuWallTime.stddev sqrt ∧
      reported.cv = s.internalCurrentCv sqrt := by
    simp only [reported, assembleResult]
    split <;> exact ⟨rfl, rfl, rfl, rfl⟩
  have hpos : s.cpuWallTime.meanV > 0 := by
    rw [h.meanV_eq]
    exact hmean
  obtain ⟨hfinal, hthroughput, hstddev, hcv⟩ := hfields
  rw [hfinal, hthroughput, hstddev, hcv, internalCurrentCv, if_pos hpos, if_pos hpos,
    h.stddev_eq, h.meanV_eq]
  exact ⟨rfl, rfl, rfl, rfl⟩

/-- **No run over at most `MAX_LEVEL_SHIFTS + 1` levels fails.** When it stops, it has
skipped the earlier levels and the climb to the last one, and the mean and the coefficient
of variation it reports are those of the slices of that one level. -/
theorem sliceLoop_levels (sqrt : ℚ → ℚ) (isGpuRun : Bool) (calibrationWallTime : ℚ)
    (configKnobs : StoppingKnobs) (result : BenchmarkResult) (iterationsPerSlice : UInt64)
    (levels : List (List ℚ)) (ts : List SliceTimings) :
    let s₀ := ({ isGpuRun := isGpuRun } : StatsAccumulator).deriveKnobs calibrationWallTime
      configKnobs
    3 ≤ s₀.knobs.consecutiveDiscardCap →
    s₀.knobs.consecutiveDiscardCap ≤ s₀.knobs.totalDiscardCap →
    IsLevelSequence s₀.knobs.consecutiveDiscardCap.toNat levels →
    ts.map SliceTimings.cpuWallTime <+: levels.flatten →
    (sliceLoop sqrt s₀ ts).state.runFailed = false ∧
      ∀ s', sliceLoop sqrt s₀ ts = .exited s' →
        ∃ skipped measured, StopsOnLevel sqrt s₀ levels ts s' skipped measured ∧
          let times := measured.map SliceTimings.cpuWallTime
          let reported := s'.assembleResult sqrt result iterationsPerSlice
          reported.finalSliceWallTime = OnlineMoments.mean times ∧
            reported.meanThroughput = iterationsPerSlice.toNat / OnlineMoments.mean times ∧
            reported.stddev = sampleStddev sqrt times ∧
            reported.cv = sampleStddev sqrt times / OnlineMoments.mean times := by
  intro s₀ hthree hle hlevels hts
  obtain ⟨hmin, hmax, -, -⟩ := deriveKnobs_pos { isGpuRun := isGpuRun } calibrationWallTime
    configKnobs
  obtain ⟨hnf, hstop⟩ := runLevels_deriveKnobs sqrt isGpuRun calibrationWallTime configKnobs
    ⟨hmin, hmax, hthree, hle⟩ hlevels hts
  refine ⟨hnf, fun s' hs => ?_⟩
  obtain ⟨skipped, measured, hon⟩ := hstop s' hs
  have hmean : 0 < OnlineMoments.mean (measured.map SliceTimings.cpuWallTime) :=
    OnlineMoments.mean_pos (by simpa using hon.measured_ne_nil)
      (hon.measured_pos hlevels.isLevel)
  exact ⟨skipped, measured, hon, s'.assembleResult_of_summarises hon.stats hmean result
    iterationsPerSlice⟩

/-- A run over three levels: three slices measured, then two climbs of three slices each,
the second one after two slices measured at the middle level. It stops once four slices of
the last level are measured. -/
theorem sliceLoop_levels_three :
    let s₀ := ({ isGpuRun := false } : StatsAccumulator).deriveKnobs (1 / 1000)
      { cvThreshold := 0, minSlices := 4, maxSlices := 9, consecutiveDiscardCap := 3,
        totalDiscardCap := 5 }
    let levels := [[10, 10, 10], [20, 20, 20, 20, 20], List.replicate 7 (40 : ℚ)]
    let ts := levels.flatten.map fun x => SliceTimings.mk x 0 0
    (sliceLoop id s₀ ts).isExited = true ∧
      (sliceLoop id s₀ ts).state.runFailed = false ∧
      ∀ s', sliceLoop id s₀ ts = .exited s' →
        ∃ skipped measured, StopsOnLevel id s₀ levels ts s' skipped measured ∧
          let times := measured.map SliceTimings.cpuWallTime
          let reported := s'.assembleResult id {} 100
          reported.finalSliceWallTime = OnlineMoments.mean times ∧
            reported.meanThroughput = 100 / OnlineMoments.mean times ∧
            reported.stddev = sampleStddev id times ∧
            reported.cv = sampleStddev id times / OnlineMoments.mean times := by
  intro s₀ levels ts
  refine ⟨by decide +kernel, sliceLoop_levels id false (1 / 1000) _ {} 100 levels ts ?_ ?_ ?_ ?_⟩
  · decide
  · decide
  · refine ⟨by decide, ?_, ?_, by decide, by decide⟩
    · simp only [IsLevel]
      decide +kernel
    · norm_num [levels, Below]
  · decide +kernel

end Hades.Runtime.StatsAccumulator
