import Hades.LongestRun
import Hades.SliceFates

/-!
# The Run-Wide Fields of a Report

Four fields of the result are about the whole run: the discards, the longest run of them,
the moves of the baseline and the time of the last accepted slice. A move of the baseline
takes the discards that led to it out of the total and ends the current run of discards, for
the benefit of the stop decision, and the time that is reported is the mean. This module
says when the fields have their documented meaning nevertheless (`MatchesRun`).

## Main results

* `Tally.feedSlice`: what one slice does to the counters and to what they should count.
* `levelShifts_feedAll`: the level shifts are always counted exactly.
* `matchesRun_iff`: **the exact condition** for the four fields.
-/

namespace Hades.Runtime.StatsAccumulator

open LongestRun

/-- The number of slices of a series that `feedSlice` returns false for. -/
def discards (s : StatsAccumulator) (ts : List SliceTimings) : ℕ :=
  (s.verdicts ts).count false

/-- The number of moves of the baseline. -/
def rebaselines (s : StatsAccumulator) (ts : List SliceTimings) : ℕ :=
  ((s.judged ts).map Prod.snd).count .rebaselined

/-- All accepted slices of a series, those from before a move of the baseline included. -/
def acceptedOf (s : StatsAccumulator) (ts : List SliceTimings) : List SliceTimings :=
  taken (s.judged ts)

/-- **Every update of the mean divides by a positive count.** A count that has wrapped to
zero is a division by zero, and the mean is no number from then on. -/
def MeanDefined (s : StatsAccumulator) (ts : List SliceTimings) : Prop :=
  ∀ earlier t, earlier ++ [t] <+: ts → ((s.feedAll earlier).feedSlice t).2 = true →
    (s.feedAll earlier).cpuWallTime.count + 1 ≠ 0

/-- **The documented meaning of the run-wide fields** of what is reported of a series. -/
structure MatchesRun (s : StatsAccumulator) (ts : List SliceTimings)
    (reported : BenchmarkResult) : Prop where
  totalDiscards_eq : reported.totalDiscards.toNat = s.discards ts
  levelShifts_eq : reported.levelShifts.toNat = s.rebaselines ts
  maxConsecutive_eq :
    reported.maxConsecutiveDiscards.toNat = longestRun false (s.verdicts ts)
  final_defined : MeanDefined s ts
  final_eq : ∀ t, (s.acceptedOf ts).getLast? = some t →
    reported.finalSliceWallTime = t.cpuWallTime

/-! ### One more slice -/

theorem discards_concat (s : StatsAccumulator) (ts : List SliceTimings) (t : SliceTimings) :
    s.discards (ts ++ [t]) =
      s.discards ts + if ((s.feedAll ts).feedSlice t).2 then 0 else 1 := by
  rw [discards, verdicts_concat, List.count_append, List.count_singleton]
  cases ((s.feedAll ts).feedSlice t).2 <;> rfl

theorem rebaselines_concat (s : StatsAccumulator) (ts : List SliceTimings)
    (t : SliceTimings) :
    s.rebaselines (ts ++ [t]) =
      s.rebaselines ts + if (s.feedAll ts).fate t = .rebaselined then 1 else 0 := by
  rw [rebaselines, judged_concat, List.map_append, List.count_append, List.map_singleton,
    List.count_singleton, rebaselines]
  simp only [beq_iff_eq]

theorem acceptedOf_concat (s : StatsAccumulator) (ts : List SliceTimings)
    (t : SliceTimings) :
    s.acceptedOf (ts ++ [t]) =
      if (s.feedAll ts).fate t = .accepted then s.acceptedOf ts ++ [t]
      else s.acceptedOf ts := by
  rw [acceptedOf, judged_concat, taken_concat, acceptedOf]

/-- The mean after one more slice. -/
theorem meanDefined_concat (s : StatsAccumulator) (ts : List SliceTimings)
    (t : SliceTimings) :
    MeanDefined s (ts ++ [t]) ↔ MeanDefined s ts ∧
      (((s.feedAll ts).feedSlice t).2 = true → (s.feedAll ts).cpuWallTime.count + 1 ≠ 0) := by
  constructor
  · intro h
    exact ⟨fun earlier u hpre => h earlier u (hpre.trans (List.prefix_append ts [t])),
      h ts t List.prefix_rfl⟩
  · rintro ⟨hts, ht⟩ earlier u hpre
    rcases List.prefix_concat_iff.mp hpre with heq | hpre
    · obtain ⟨rfl, hu⟩ := List.append_inj' heq rfl
      obtain rfl := (List.cons.inj hu).1
      exact ht
    · exact hts earlier u hpre

/-! ### The counters -/

/-- **The counters of a series**, whose discards the counter can hold. What the moves of the
baseline have taken out of the total is `shed`; while there were none, the counter of the
current run and its maximum are exact. -/
structure Tally (s₀ : StatsAccumulator) (ts : List SliceTimings) (s : StatsAccumulator) :
    Prop where
  total : ∃ shed, s.totalDiscards.toNat + shed = s₀.discards ts ∧
    (shed = 0 ↔ s₀.rebaselines ts = 0)
  consecutive_le : s.consecutiveDiscards.toNat ≤ s.totalDiscards.toNat
  consecutive_eq : s₀.rebaselines ts = 0 →
    s.consecutiveDiscards.toNat = endRun false (s₀.verdicts ts)
  max_eq : s₀.rebaselines ts = 0 →
    s.maxConsecutiveDiscards.toNat = longestRun false (s₀.verdicts ts)

/-- **The step lemma.** An accept ends the current run, a discard goes on with it, and a
move of the baseline sheds it. -/
theorem Tally.feedSlice {s₀ : StatsAccumulator} {ts : List SliceTimings}
    (h : Tally s₀ ts (s₀.feedAll ts)) (t : SliceTimings)
    (hlt : s₀.discards (ts ++ [t]) < 2 ^ 32) :
    Tally s₀ (ts ++ [t]) (s₀.feedAll (ts ++ [t])) := by
  obtain ⟨⟨shed, htotal, hshed⟩, hle, hconsecutive, hmax⟩ := h
  rw [discards_concat] at hlt
  have hverdicts := verdicts_concat s₀ ts t
  have hrebaselines := rebaselines_concat s₀ ts t
  have hdiscards := discards_concat s₀ ts t
  rw [feedAll_concat]
  generalize s₀.feedAll ts = s at *
  rcases feedSlice_of_fate s t with ⟨hfate, hf⟩ | ⟨hfate, hf⟩ | ⟨hfate, -, hf⟩
  · simp only [hf, hfate, reduceCtorEq, if_false, if_true, Nat.add_zero]
      at hverdicts hrebaselines hdiscards ⊢
    refine ⟨⟨shed, htotal.trans hdiscards.symm, by rw [hshed, hrebaselines]⟩, Nat.zero_le _,
      fun _ => ?_, fun hzero => ?_⟩
    · rw [hverdicts, endRun_concat, if_neg (by decide)]
      rfl
    · rw [hverdicts, longestRun_concat, endRun_concat, if_neg (by decide), Nat.max_zero]
      exact hmax (hrebaselines ▸ hzero)
  · simp only [hf, hfate, reduceCtorEq, if_false, Nat.add_zero, Bool.false_eq_true]
      at hverdicts hrebaselines hdiscards hlt ⊢
    obtain ⟨hcurrent, hcount, hlongest⟩ := counts_recordDiscard hle (by omega) t
    refine ⟨⟨shed, ?_, by rw [hshed, hrebaselines]⟩, ?_, fun hzero => ?_, fun hzero => ?_⟩
    · rw [hcount, hdiscards]
      omega
    · rw [hcount, hcurrent]
      omega
    · rw [hcurrent, hverdicts, endRun_concat, if_pos rfl, hconsecutive (hrebaselines ▸ hzero)]
    · rw [hlongest, hverdicts, longestRun_concat, endRun_concat, if_pos rfl,
        ← hconsecutive (hrebaselines ▸ hzero), ← hmax (hrebaselines ▸ hzero)]
  · simp only [hf, hfate, if_false, if_true, Bool.false_eq_true]
      at hverdicts hrebaselines hdiscards hlt ⊢
    obtain ⟨hcurrent, hcount, -⟩ := counts_recordDiscard hle (by omega) t
    have hrest := totalDiscards_internalRebaseline (s := s.recordDiscard t) (by omega)
    refine ⟨⟨shed + (s.consecutiveDiscards.toNat + 1), ?_, ?_⟩, Nat.zero_le _,
      fun hzero => ?_, fun hzero => ?_⟩
    · omega
    · rw [hrebaselines]
      omega
    · omega
    · omega

/-- **The counters of every series** from a fresh accumulator. -/
theorem tally_feedAll (isGpuRun : Bool) (knobs : StoppingKnobs) {ts : List SliceTimings} :
    let s₀ : StatsAccumulator := { isGpuRun := isGpuRun, knobs := knobs }
    s₀.discards ts < 2 ^ 32 → Tally s₀ ts (s₀.feedAll ts) := by
  intro s₀ hlt
  induction ts using List.reverseRecOn with
  | nil => exact ⟨⟨0, rfl, Iff.rfl⟩, le_rfl, fun _ => (endRun_nil false).symm, fun _ => rfl⟩
  | append_singleton ts t ih =>
      refine (ih (lt_of_le_of_lt ?_ hlt)).feedSlice t hlt
      rw [discards_concat]
      exact Nat.le_add_right _ _

/-- **The level shifts are counted exactly**, because there are at most
`MAX_LEVEL_SHIFTS`. -/
theorem levelShifts_feedAll (isGpuRun : Bool) (knobs : StoppingKnobs)
    (ts : List SliceTimings) :
    let s₀ : StatsAccumulator := { isGpuRun := isGpuRun, knobs := knobs }
    (s₀.feedAll ts).levelShifts.toNat = s₀.rebaselines ts := by
  intro s₀
  induction ts using List.reverseRecOn with
  | nil => rfl
  | append_singleton ts t ih =>
      rw [feedAll_concat, rebaselines_concat, ← ih]
      rcases feedSlice_of_fate (s₀.feedAll ts) t with ⟨hfate, hf⟩ | ⟨hfate, hf⟩ | ⟨hfate, hl, hf⟩
      · rw [hf, hfate]
        rfl
      · rw [hf, hfate]
        rfl
      · rw [hf, hfate, if_pos rfl]
        have hlt := levelShifts_lt_of_shiftsLevel hl
        exact exactSucc_of_lt hlt

/-! ### The accepted slices -/

/-- While the baseline has not moved, all accepted slices are measured. -/
theorem measured_of_rebaselines {s : StatsAccumulator} {ts : List SliceTimings}
    (h : s.rebaselines ts = 0) : s.measured ts = s.acceptedOf ts := by
  have hall : currentLevel (s.judged ts) = s.judged ts := by
    refine List.rtakeWhile_eq_self_iff.mpr fun slice hslice => ?_
    have hne := List.count_eq_zero.mp h
    rw [decide_eq_true_iff]
    exact fun heq => hne (List.mem_map.mpr ⟨slice, hslice, heq⟩)
  rw [measured, hall, acceptedOf]

/-- The stream of the wall times has seen all accepted slices, if the baseline has not
moved. -/
theorem summarises_acceptedOf (isGpuRun : Bool) (knobs : StoppingKnobs)
    {ts : List SliceTimings} :
    let s₀ : StatsAccumulator := { isGpuRun := isGpuRun, knobs := knobs }
    s₀.rebaselines ts = 0 → (s₀.acceptedOf ts).length < 2 ^ 32 →
    (s₀.feedAll ts).cpuWallTime.Summarises
      ((s₀.acceptedOf ts).map SliceTimings.cpuWallTime) := by
  intro s₀ hzero hlt
  rw [← measured_of_rebaselines hzero] at hlt ⊢
  exact (streams_feedAll (streams_nil isGpuRun knobs) hlt).cpu

/-- **The mean is defined** exactly as long as the count can hold the accepted slices, if
the baseline has not moved. -/
theorem meanDefined_iff (isGpuRun : Bool) (knobs : StoppingKnobs) {ts : List SliceTimings} :
    let s₀ : StatsAccumulator := { isGpuRun := isGpuRun, knobs := knobs }
    s₀.rebaselines ts = 0 → (MeanDefined s₀ ts ↔ (s₀.acceptedOf ts).length < 2 ^ 32) := by
  intro s₀ hzero
  induction ts using List.reverseRecOn with
  | nil =>
      refine ⟨fun _ => Nat.two_pow_pos 32, fun _ earlier t hpre => ?_⟩
      simp at hpre
  | append_singleton ts t ih =>
      rw [rebaselines_concat] at hzero
      have hzero' : s₀.rebaselines ts = 0 := Nat.eq_zero_of_add_eq_zero_right hzero
      have ih := ih hzero'
      rw [meanDefined_concat, acceptedOf_concat, ih]
      rcases feedSlice_of_fate (s₀.feedAll ts) t with ⟨hfate, hf⟩ | ⟨hfate, hf⟩ | ⟨hfate, -, hf⟩
      · rw [hf, hfate, if_pos rfl, List.length_append, List.length_singleton]
        have hcount : (s₀.acceptedOf ts).length < 2 ^ 32 →
            (s₀.feedAll ts).cpuWallTime.count.toNat = (s₀.acceptedOf ts).length := fun hlt => by
          rw [(summarises_acceptedOf isGpuRun knobs hzero' hlt).count_eq, List.length_map]
        refine ⟨fun ⟨hlt, hne⟩ => ?_, fun hlt => ⟨Nat.lt_of_succ_lt hlt, fun _ heq => ?_⟩⟩
        · have hwrap : (s₀.feedAll ts).cpuWallTime.count.toNat + 1 ≠ 2 ^ 32 := by
            intro heq
            refine hne rfl (UInt32.toNat_inj.mp ?_)
            rw [UInt32.toNat_add, UInt32.toNat_one, heq]
            rfl
          rw [hcount hlt] at hwrap
          exact lt_of_le_of_ne hlt hwrap
        · have hsucc : ExactSucc (s₀.feedAll ts).cpuWallTime.count :=
            exactSucc_of_lt_two_pow (by rwa [hcount (Nat.lt_of_succ_lt hlt)])
          rw [ExactSucc, heq] at hsucc
          exact Nat.succ_ne_zero _ hsucc.symm
      · rw [hf, hfate, if_neg (by decide)]
        simp
      · rw [hf, hfate, if_neg (by decide)]
        simp

/-! ### The report -/

/-- The run-wide fields that are reported. -/
theorem assembleResult_runWide (sqrt : ℚ → ℚ) (s : StatsAccumulator)
    (result : BenchmarkResult) (iterationsPerSlice : UInt64) :
    let reported := s.assembleResult sqrt result iterationsPerSlice
    reported.totalDiscards = s.totalDiscards ∧ reported.levelShifts = s.levelShifts ∧
      reported.maxConsecutiveDiscards = s.maxConsecutiveDiscards ∧
      reported.finalSliceWallTime = s.cpuWallTime.meanV := by
  intro reported
  simp only [reported, assembleResult]
  split
  · exact ⟨rfl, rfl, rfl, rfl⟩
  · exact ⟨rfl, rfl, rfl, rfl⟩

/-- **The run-wide fields mean what they say** exactly for the series on which the baseline
does not move, the discards and the accepted slices fit their counters, and the last
accepted slice takes as long as the mean of all of them. -/
theorem matchesRun_iff (sqrt : ℚ → ℚ) (isGpuRun : Bool) (knobs : StoppingKnobs)
    (ts : List SliceTimings) (result : BenchmarkResult) (iterationsPerSlice : UInt64) :
    let s₀ : StatsAccumulator := { isGpuRun := isGpuRun, knobs := knobs }
    MatchesRun s₀ ts ((s₀.feedAll ts).assembleResult sqrt result iterationsPerSlice) ↔
      s₀.rebaselines ts = 0 ∧ s₀.discards ts < 2 ^ 32 ∧ (s₀.acceptedOf ts).length < 2 ^ 32 ∧
        ∀ t, (s₀.acceptedOf ts).getLast? = some t →
          t.cpuWallTime = OnlineMoments.mean ((s₀.acceptedOf ts).map SliceTimings.cpuWallTime) := by
  intro s₀
  obtain ⟨htotal, hlevels, hmax, hfinal⟩ := assembleResult_runWide sqrt (s₀.feedAll ts) result
    iterationsPerSlice
  constructor
  · rintro ⟨htotalEq, -, -, hdefined, hfinalEq⟩
    rw [htotal] at htotalEq
    have hlt : s₀.discards ts < 2 ^ 32 := by
      rw [← htotalEq]
      exact UInt32.toNat_lt _
    obtain ⟨shed, hshed, hiff⟩ := (tally_feedAll isGpuRun knobs hlt).total
    have hzero : s₀.rebaselines ts = 0 :=
      hiff.mp (Nat.add_eq_left.mp (hshed.trans htotalEq.symm))
    have haccepted := (meanDefined_iff isGpuRun knobs hzero).mp hdefined
    refine ⟨hzero, hlt, haccepted, fun t ht => ?_⟩
    rw [← (summarises_acceptedOf isGpuRun knobs hzero haccepted).meanV_eq, ← hfinal]
    exact (hfinalEq t ht).symm
  · rintro ⟨hzero, hlt, haccepted, hlast⟩
    have htally := tally_feedAll isGpuRun knobs hlt
    obtain ⟨shed, hshed, hiff⟩ := htally.total
    refine ⟨?_, ?_, ?_, (meanDefined_iff isGpuRun knobs hzero).mpr haccepted, fun t ht => ?_⟩
    · rw [htotal, ← hshed, hiff.mpr hzero, Nat.add_zero]
    · rw [hlevels]
      exact levelShifts_feedAll isGpuRun knobs ts
    · rw [hmax]
      exact htally.max_eq hzero
    · rw [hfinal, (summarises_acceptedOf isGpuRun knobs hzero haccepted).meanV_eq]
      exact (hlast t ht).symm

/-- **A machine that settles at a new speed**: three discards that the report does not
count, and a last accepted slice of 22 seconds, reported as 21. -/
theorem not_matchesRun_of_rebaseline :
    let s₀ := ({ isGpuRun := false } : StatsAccumulator).deriveKnobs (1 / 1000)
      { consecutiveDiscardCap := 3 }
    let ts := [10, 10, 10, 20, 20, 20, 20, 22].map fun x => SliceTimings.mk x 0 0
    let reported := (s₀.feedAll ts).assembleResult id {} 1
    ¬ MatchesRun s₀ ts reported ∧ reported.totalDiscards = 0 ∧ s₀.discards ts = 3 ∧
      reported.finalSliceWallTime = 21 ∧ (s₀.acceptedOf ts).getLast? = some ⟨22, 0, 0⟩ := by
  intro s₀ ts reported
  have htotal : reported.totalDiscards = 0 := by decide +kernel
  have hdiscards : s₀.discards ts = 3 := by decide +kernel
  refine ⟨fun h => ?_, htotal, hdiscards, by decide +kernel, by decide +kernel⟩
  have heq := h.totalDiscards_eq
  rw [htotal, hdiscards] at heq
  cases heq

end Hades.Runtime.StatsAccumulator
