import Hades.RegressionAnalyzer

/-!
# Better Results and Their Outcome

The outcomes are ranked by severity, and a better result should not get a more severe one.
The analyzer compares the distance from the historical mean on both sides, though: a result
that is far better than its history is off it, and is called `Regressed` or `Degraded` like
one that is far worse.

A statistic is `Off` its history on either side, `Above` or `Below`. What is better moves up
in throughput and down in the divergence ratios, so it is one side of each that decides.

## Main results

* `evaluate_snd_of_trusted`: **the outcome of a trusted result** by what is off.
* `severity_le_iff`: the pairs of results, one better than the other, whose outcomes are in
  order.
* `forall_severity_le_iff`: the results that are in order with all worse ones.
-/

namespace Hades.Runtime

/-- The severity rank of an outcome, which is its exit code. -/
def TestOutcome.severity : TestOutcome → ℕ
  | .Pass => 0
  | .Regressed => 1
  | .Degraded => 3
  | .Failed => 4

namespace RegressionAnalyzer

/-- What the history says of one statistic. -/
structure Statistic where
  sampleCount : UInt32
  mean : ℚ
  stddev : ℚ

/-- The history of the throughput. -/
def throughputOf (history : HistoryStats) : Statistic :=
  ⟨history.throughputSampleCount, history.throughputMean, history.throughputStddev⟩

/-- The history of the read divergence ratio. -/
def readRatioOf (history : HistoryStats) : Statistic :=
  ⟨history.readDivergenceSampleCount, history.readDivergenceRatioMean,
    history.readDivergenceRatioStddev⟩

/-- The history of the write divergence ratio. -/
def writeRatioOf (history : HistoryStats) : Statistic :=
  ⟨history.writeDivergenceSampleCount, history.writeDivergenceRatioMean,
    history.writeDivergenceRatioStddev⟩

/-- There are enough samples to compare with, and they vary. -/
def Compared (a : RegressionAnalyzer) (h : Statistic) : Prop :=
  a.m_minHistoryFloor ≤ h.sampleCount ∧ 0 < h.stddev

/-- A value above the band of its history. -/
def Above (a : RegressionAnalyzer) (h : Statistic) (x : ℚ) : Prop :=
  a.Compared h ∧ a.m_kStddev * h.stddev < x - h.mean

/-- A value below the band of its history. -/
def Below (a : RegressionAnalyzer) (h : Statistic) (x : ℚ) : Prop :=
  a.Compared h ∧ a.m_kStddev * h.stddev < h.mean - x

/-- A value outside the band of its history. -/
def Off (a : RegressionAnalyzer) (h : Statistic) (x : ℚ) : Prop :=
  a.Above h x ∨ a.Below h x

/-- One of the ratios of a hotspot run has the property `P` of a statistic and a value. -/
def SomeRatio (history : HistoryStats) (result : BenchmarkResult)
    (P : Statistic → ℚ → Prop) : Prop :=
  result.isHotspotRun = true ∧ (P (readRatioOf history) result.readDivergenceRatio ∨
    P (writeRatioOf history) result.writeDivergenceRatio)

/-- **The second result is at least as good as the first**, and of the same kind. -/
structure AtLeastAsGood (first second : BenchmarkResult) : Prop where
  kind_eq : first.isHotspotRun = second.isHotspotRun
  throughput_le : first.meanThroughput ≤ second.meanThroughput
  read_le : first.isHotspotRun = true →
    second.readDivergenceRatio ≤ first.readDivergenceRatio
  write_le : first.isHotspotRun = true →
    second.writeDivergenceRatio ≤ first.writeDivergenceRatio

/-! ### The outcome by what is off -/

/-- The two-sided comparison. -/
theorem off_iff (a : RegressionAnalyzer) (h : Statistic) (x : ℚ) :
    a.Off h x ↔ a.Compared h ∧ |x - h.mean| > a.m_kStddev * h.stddev := by
  rw [Off, Above, Below, ← and_or_left, gt_iff_lt, lt_abs, neg_sub]

/-- Whether a ratio is called degraded. -/
theorem internalRatioDegraded_iff (a : RegressionAnalyzer) (h : Statistic) (x : ℚ) :
    a.internalRatioDegraded h.sampleCount h.mean h.stddev x = true ↔ a.Off h x := by
  have hcompared : (h.sampleCount < a.m_minHistoryFloor || decide (h.stddev ≤ 0)) = true ↔
      ¬ a.Compared h := by
    rw [Bool.or_eq_true, decide_eq_true_eq, decide_eq_true_eq, Compared, not_and_or, not_lt,
      UInt32.not_le]
  rw [off_iff, internalRatioDegraded]
  split
  next hnot => simp [hcompared.mp hnot]
  next hyes =>
    have hc : a.Compared h := not_not.mp (mt hcompared.mpr hyes)
    rw [decide_eq_true_eq]
    exact (and_iff_right hc).symm

open Classical in
/-- **The outcome of a trusted result**: a ratio that is off makes it degraded, else a
throughput that is off makes it regressed. -/
theorem evaluate_snd_of_trusted (sqrt : ℚ → ℚ) (a : RegressionAnalyzer) (testId : Text)
    {result : BenchmarkResult} (h : trusted result = true) :
    let history := a.m_history.fetchImpl sqrt testId
    (a.evaluate sqrt testId result).2 =
      if SomeRatio history result a.Off then .Degraded
      else if a.Off (throughputOf history) result.meanThroughput then .Regressed
      else .Pass := by
  intro history
  have hread := a.internalRatioDegraded_iff (readRatioOf history) result.readDivergenceRatio
  have hwrite := a.internalRatioDegraded_iff (writeRatioOf history) result.writeDivergenceRatio
  have hthroughput := a.off_iff (throughputOf history) result.meanThroughput
  have htrusted : (result.runFailed || !result.deterministic) = false := by
    rw [trusted] at h
    simpa using h
  have hratio : SomeRatio history result a.Off ↔ (result.isHotspotRun &&
      (a.internalRatioDegraded (readRatioOf history).sampleCount (readRatioOf history).mean
          (readRatioOf history).stddev result.readDivergenceRatio ||
        a.internalRatioDegraded (writeRatioOf history).sampleCount (writeRatioOf history).mean
          (writeRatioOf history).stddev result.writeDivergenceRatio)) = true := by
    rw [SomeRatio, Bool.and_eq_true, Bool.or_eq_true, hread, hwrite]
  rw [evaluate, htrusted, if_neg (by decide)]
  by_cases hr : SomeRatio history result a.Off
  · rw [if_pos hr]
    exact if_pos (hratio.mp hr)
  · rw [if_neg hr]
    refine (if_neg (mt hratio.mpr hr)).trans ?_
    by_cases ht : a.Off (throughputOf history) result.meanThroughput
    · obtain ⟨hc, hgt⟩ := hthroughput.mp ht
      rw [if_pos ht]
      exact (if_pos hc).trans (if_pos hgt)
    · rw [if_neg ht]
      by_cases hc : a.Compared (throughputOf history)
      · refine (if_pos hc).trans (if_neg fun hgt => ht (hthroughput.mpr ⟨hc, hgt⟩))
      · exact if_neg hc

/-! ### Better results -/

/-- A larger value is above the band if a smaller one is. -/
theorem Above.mono {a : RegressionAnalyzer} {h : Statistic} {x y : ℚ} (habove : a.Above h x)
    (hxy : x ≤ y) : a.Above h y := by
  obtain ⟨hc, hlt⟩ := habove
  exact ⟨hc, hlt.trans_le (sub_le_sub_right hxy _)⟩

/-- A smaller value is below the band if a larger one is. -/
theorem Below.mono {a : RegressionAnalyzer} {h : Statistic} {x y : ℚ} (hbelow : a.Below h y)
    (hxy : x ≤ y) : a.Below h x := by
  obtain ⟨hc, hlt⟩ := hbelow
  exact ⟨hc, hlt.trans_le (sub_le_sub_left hxy _)⟩

/-- A ratio of the better result above its band is one of the worse result. -/
theorem AtLeastAsGood.someRatio_above {a : RegressionAnalyzer} {history : HistoryStats}
    {first second : BenchmarkResult} (h : AtLeastAsGood first second)
    (habove : SomeRatio history second a.Above) : SomeRatio history first a.Above := by
  obtain ⟨hhot, hratio⟩ := habove
  have hfirst : first.isHotspotRun = true := h.kind_eq.trans hhot
  refine ⟨hfirst, hratio.imp (fun hr => ?_) (fun hw => ?_)⟩
  · exact hr.mono (h.read_le hfirst)
  · exact hw.mono (h.write_le hfirst)

/-- A ratio that is off is above or below its band. -/
theorem someRatio_off_iff (a : RegressionAnalyzer) (history : HistoryStats)
    (result : BenchmarkResult) : SomeRatio history result a.Off ↔
      SomeRatio history result a.Above ∨ SomeRatio history result a.Below := by
  simp only [SomeRatio, Off, ← and_or_left]
  rw [or_or_or_comm]

/-- A ratio of the better result above its band: a ratio of the worse one is off. -/
theorem AtLeastAsGood.someRatio_off {a : RegressionAnalyzer} {history : HistoryStats}
    {first second : BenchmarkResult} (h : AtLeastAsGood first second)
    (habove : SomeRatio history second a.Above) : SomeRatio history first a.Off :=
  (someRatio_off_iff a _ _).mpr (Or.inl (h.someRatio_above habove))

/-- The severity of a trusted result. -/
theorem severity_evaluate (sqrt : ℚ → ℚ) (a : RegressionAnalyzer) (testId : Text)
    {result : BenchmarkResult} (h : trusted result = true) :
    let history := a.m_history.fetchImpl sqrt testId
    let severity := (a.evaluate sqrt testId result).2.severity
    (SomeRatio history result a.Off → severity = 3) ∧
      (¬ SomeRatio history result a.Off →
        (a.Off (throughputOf history) result.meanThroughput → severity = 1) ∧
        (¬ a.Off (throughputOf history) result.meanThroughput → severity = 0)) := by
  intro history severity
  have heq : severity = _ := congrArg TestOutcome.severity
    (evaluate_snd_of_trusted sqrt a testId h)
  refine ⟨fun hr => ?_, fun hr => ⟨fun ht => ?_, fun ht => ?_⟩⟩
  · rw [heq, if_pos hr]
    rfl
  · rw [heq, if_neg hr, if_pos ht]
    rfl
  · rw [heq, if_neg hr, if_neg ht]
    rfl

/-- A trusted result is degraded at worst. -/
theorem severity_le_three (sqrt : ℚ → ℚ) (a : RegressionAnalyzer) (testId : Text)
    {result : BenchmarkResult} (h : trusted result = true) :
    (a.evaluate sqrt testId result).2.severity ≤ 3 := by
  obtain ⟨hthree, hrest⟩ := severity_evaluate sqrt a testId h
  by_contra hlt
  have hnot := mt hthree (by omega)
  have hnot' := mt (hrest hnot).1 (by omega)
  have hzero := (hrest hnot).2 hnot'
  omega

/-- **The order of two outcomes**: an off ratio is matched by an off ratio, and an off
throughput by anything that is off. -/
theorem severity_le_iff_off (sqrt : ℚ → ℚ) (a : RegressionAnalyzer) (testId : Text)
    {first second : BenchmarkResult} (hfirst : trusted first = true)
    (hsecond : trusted second = true) :
    let history := a.m_history.fetchImpl sqrt testId
    (a.evaluate sqrt testId second).2.severity ≤ (a.evaluate sqrt testId first).2.severity ↔
      (SomeRatio history second a.Off → SomeRatio history first a.Off) ∧
        (a.Off (throughputOf history) second.meanThroughput →
          SomeRatio history first a.Off ∨
            a.Off (throughputOf history) first.meanThroughput) := by
  intro history
  obtain ⟨hf3, hf⟩ := severity_evaluate sqrt a testId hfirst
  obtain ⟨hs3, hs⟩ := severity_evaluate sqrt a testId hsecond
  by_cases hr : SomeRatio history first a.Off
  · -- nothing is more severe than a degraded first result
    have hthree := hf3 hr
    have hle := severity_le_three sqrt a testId hsecond
    simp only [hr, implies_true, true_or, and_self, iff_true]
    omega
  · obtain ⟨hf1, hf0⟩ := hf hr
    by_cases hr' : SomeRatio history second a.Off
    · have hthree := hs3 hr'
      simp only [hr, hr', true_implies, false_and, iff_false, not_le]
      by_cases ht : a.Off (throughputOf history) first.meanThroughput
      · have hone := hf1 ht
        omega
      · have hzero := hf0 ht
        omega
    · obtain ⟨hs1, hs0⟩ := hs hr'
      simp only [hr, hr', false_implies, true_and, false_or]
      by_cases ht' : a.Off (throughputOf history) second.meanThroughput
      · have hone := hs1 ht'
        by_cases ht : a.Off (throughputOf history) first.meanThroughput
        · have hone' := hf1 ht
          simp only [ht, implies_true, iff_true]
          omega
        · have hzero := hf0 ht
          simp only [ht, ht', true_implies, iff_false, not_le]
          omega
      · have hzero := hs0 ht'
        simp only [ht', false_implies, iff_true]
        omega

/-- **The better of two results gets no more severe an outcome** exactly if a ratio of it
below its band comes with an off ratio of the other, and a throughput above its band with
something that is off in the other. -/
theorem severity_le_iff (sqrt : ℚ → ℚ) (a : RegressionAnalyzer) (testId : Text)
    (first second : BenchmarkResult) (hfirst : trusted first = true)
    (hsecond : trusted second = true) (hgood : AtLeastAsGood first second) :
    let history := a.m_history.fetchImpl sqrt testId
    (a.evaluate sqrt testId second).2.severity ≤ (a.evaluate sqrt testId first).2.severity ↔
      (SomeRatio history second a.Below → SomeRatio history first a.Off) ∧
        (a.Above (throughputOf history) second.meanThroughput →
          SomeRatio history first a.Off ∨
            a.Off (throughputOf history) first.meanThroughput) := by
  intro history
  refine (severity_le_iff_off sqrt a testId hfirst hsecond).trans (and_congr ?_ ?_)
  · rw [someRatio_off_iff a history second, or_imp]
    exact and_iff_right hgood.someRatio_off
  · constructor
    · exact fun h habove => h (Or.inl habove)
    · rintro h (habove | hbelow)
      · exact h habove
      · exact Or.inr (Or.inr (hbelow.mono hgood.throughput_le))

/-- The larger of a ratio and its mean is off the history only if the ratio is above it. -/
theorem above_of_off_max {a : RegressionAnalyzer} (hk : 0 ≤ a.m_kStddev) {h : Statistic}
    {x : ℚ} (hoff : a.Off h (max x h.mean)) : a.Above h x := by
  rcases hoff with ⟨hc, hlt⟩ | ⟨hc, hlt⟩
  · have hband := mul_nonneg hk hc.2.le
    refine ⟨hc, ?_⟩
    rcases le_total x h.mean with hle | hle
    · rw [max_eq_right hle, sub_self] at hlt
      exact absurd hlt (not_lt.mpr hband)
    · rwa [max_eq_left hle] at hlt
  · have hband := mul_nonneg hk hc.2.le
    have := le_max_right x h.mean
    linarith

/-- The smaller of a throughput above the band and its mean is not off the history. -/
theorem not_off_min {a : RegressionAnalyzer} (hk : 0 ≤ a.m_kStddev) {h : Statistic} {x : ℚ}
    (habove : a.Above h x) : ¬ a.Off h (min x h.mean) := by
  obtain ⟨hc, hlt⟩ := habove
  have hband := mul_nonneg hk hc.2.le
  rw [min_eq_right (by linarith)]
  rintro (⟨-, hoff⟩ | ⟨-, hoff⟩) <;> linarith

/-- **The results that are in order with all worse ones**: a ratio above its band has already
decided, or nothing is off on the better side. -/
theorem forall_severity_le_iff (sqrt : ℚ → ℚ) (a : RegressionAnalyzer)
    (hk : 0 ≤ a.m_kStddev) (testId : Text) {second : BenchmarkResult}
    (hsecond : trusted second = true) :
    let history := a.m_history.fetchImpl sqrt testId
    (∀ first, trusted first = true → AtLeastAsGood first second →
      (a.evaluate sqrt testId second).2.severity ≤ (a.evaluate sqrt testId first).2.severity) ↔
      SomeRatio history second a.Above ∨ (¬ SomeRatio history second a.Below ∧
        ¬ a.Above (throughputOf history) second.meanThroughput) := by
  intro history
  constructor
  · intro hall
    by_cases hratio : SomeRatio history second a.Above
    · exact Or.inl hratio
    -- a worse result with nothing above its band that is not above it in the second
    let first : BenchmarkResult := { second with
      meanThroughput := min second.meanThroughput (throughputOf history).mean
      readDivergenceRatio := max second.readDivergenceRatio (readRatioOf history).mean
      writeDivergenceRatio := max second.writeDivergenceRatio (writeRatioOf history).mean }
    have hgood : AtLeastAsGood first second := ⟨rfl, min_le_left _ _,
      fun _ => le_max_left _ _, fun _ => le_max_left _ _⟩
    have hnone : ¬ SomeRatio history first a.Off := fun ⟨hhot, hoff⟩ =>
      hratio ⟨hhot, hoff.imp (above_of_off_max hk) (above_of_off_max hk)⟩
    have hfirst : trusted first = true := hsecond
    obtain ⟨hratios, hthroughput⟩ :=
      (severity_le_iff_off sqrt a testId hfirst hsecond).mp (hall first hfirst hgood)
    have hsame : ¬ SomeRatio history second a.Off := mt hratios hnone
    refine Or.inr ⟨fun h => hsame ((someRatio_off_iff a _ _).mpr (Or.inr h)), fun h => ?_⟩
    exact not_off_min hk h ((hthroughput (Or.inl h)).resolve_left hnone)
  · intro hcond first hfirst hgood
    refine (severity_le_iff_off sqrt a testId hfirst hsecond).mpr ?_
    rcases hcond with habove | ⟨hbelow, habove⟩
    · have hoff : SomeRatio history first a.Off := hgood.someRatio_off habove
      exact ⟨fun _ => hoff, fun _ => Or.inl hoff⟩
    · refine ⟨fun hr => ?_, fun ht => ?_⟩
      · exact hgood.someRatio_off (((someRatio_off_iff a _ _).mp hr).resolve_right hbelow)
      · exact Or.inr (Or.inr ((ht.resolve_left habove).mono hgood.throughput_le))

/-- Five trusted results with the mean 10 and the standard deviation 1. -/
def fiveResults : List (Text × BenchmarkResult) :=
  [9, 9, 10, 11, 11].map fun throughput =>
    (['a'], { meanThroughput := throughput, deterministic := true })

/-- A slow result and a usual one. -/
theorem severity_le_iff_slow :
    let a := ({} : RegressionAnalyzer).evaluateAll id fiveResults
    let history := a.m_history.fetchImpl id ['a']
    let first : BenchmarkResult := { meanThroughput := 4, deterministic := true }
    let second : BenchmarkResult := { meanThroughput := 12, deterministic := true }
    trusted first = true ∧ trusted second = true ∧ AtLeastAsGood first second ∧
      (a.evaluate id ['a'] first).2 = .Regressed ∧ (a.evaluate id ['a'] second).2 = .Pass ∧
      ((a.evaluate id ['a'] second).2.severity ≤ (a.evaluate id ['a'] first).2.severity ↔
        (SomeRatio history second a.Below → SomeRatio history first a.Off) ∧
          (a.Above (throughputOf history) second.meanThroughput →
            SomeRatio history first a.Off ∨
              a.Off (throughputOf history) first.meanThroughput)) := by
  intro a history first second
  have hgood : AtLeastAsGood first second :=
    ⟨rfl, by decide +kernel, fun h => (by cases h), fun h => (by cases h)⟩
  exact ⟨rfl, rfl, hgood, by decide +kernel, by decide +kernel,
    severity_le_iff id a ['a'] first second rfl rfl hgood⟩

/-- **A result twice as fast as its history is called regressed**, and the usual one before it
passes. -/
theorem not_severity_le_of_fast :
    let a := ({} : RegressionAnalyzer).evaluateAll id fiveResults
    let history := a.m_history.fetchImpl id ['a']
    let first : BenchmarkResult := { meanThroughput := 10, deterministic := true }
    let second : BenchmarkResult := { meanThroughput := 20, deterministic := true }
    history.throughputMean = 10 ∧ history.throughputStddev = 1 ∧
      trusted first = true ∧ trusted second = true ∧ AtLeastAsGood first second ∧
      (a.evaluate id ['a'] first).2 = .Pass ∧ (a.evaluate id ['a'] second).2 = .Regressed ∧
      ¬ (a.evaluate id ['a'] second).2.severity ≤ (a.evaluate id ['a'] first).2.severity := by
  intro a history first second
  have hgood : AtLeastAsGood first second :=
    ⟨rfl, by decide +kernel, fun h => (by cases h), fun h => (by cases h)⟩
  exact ⟨by decide +kernel, by decide +kernel, rfl, rfl, hgood, by decide +kernel,
    by decide +kernel, by decide +kernel⟩

end RegressionAnalyzer

end Hades.Runtime
