import Mathlib.Algebra.Order.Group.Unbundled.Abs
import Hades.Configuration
import Hades.KeyedStore
import Hades.SliceLoop

/-!
# The Regression Analyzer

Every result of a test is compared with the history of the trusted results of the same test
(`RegressionAnalyzer.h`), which the in-memory backend keeps as three online accumulators for
each test id (`RegressionHistory.h`): the throughput, and for hotspot runs the two divergence
ratios. A result that failed, or whose output was not deterministic, is not trusted and
leaves the history as it is.

## Main results

* `entries_evaluateAll`: a series of calls is a series of events on a keyed store.
* `evaluate_trusted`: **what a call returns** is decided by its own result and the trusted
  results of its test before it, and the history it reads describes exactly these.
-/

namespace Hades.Runtime

/-- The outcome of a test, by severity. -/
inductive TestOutcome where
  | Pass
  | Regressed
  | Degraded
  | Failed
  deriving DecidableEq, Repr

/-- What the history of a test says. -/
structure HistoryStats where
  throughputMean : ℚ := 0
  throughputStddev : ℚ := 0
  throughputSampleCount : UInt32 := 0
  readDivergenceRatioMean : ℚ := 0
  readDivergenceRatioStddev : ℚ := 0
  readDivergenceSampleCount : UInt32 := 0
  writeDivergenceRatioMean : ℚ := 0
  writeDivergenceRatioStddev : ℚ := 0
  writeDivergenceSampleCount : UInt32 := 0
  deriving DecidableEq

/-! ### The in-memory backend -/

/-- The three accumulators of one test id. -/
structure Entry where
  throughput : WelfordState := {}
  readDivergenceRatio : WelfordState := {}
  writeDivergenceRatio : WelfordState := {}
  deriving DecidableEq

/-- The in-memory history: at most one entry for each test id. -/
structure MemoryRegressionHistoryBackend where
  m_entries : Text → Option Entry := fun _ => none

namespace MemoryRegressionHistoryBackend

/-- The history of one test id, all zero if there is none. -/
def fetchImpl (sqrt : ℚ → ℚ) (b : MemoryRegressionHistoryBackend) (testId : Text) :
    HistoryStats :=
  match b.m_entries testId with
  | none => {}
  | some entry =>
      { throughputMean := entry.throughput.meanV
        throughputStddev := entry.throughput.stddev sqrt
        throughputSampleCount := entry.throughput.count
        readDivergenceRatioMean := entry.readDivergenceRatio.meanV
        readDivergenceRatioStddev := entry.readDivergenceRatio.stddev sqrt
        readDivergenceSampleCount := entry.readDivergenceRatio.count
        writeDivergenceRatioMean := entry.writeDivergenceRatio.meanV
        writeDivergenceRatioStddev := entry.writeDivergenceRatio.stddev sqrt
        writeDivergenceSampleCount := entry.writeDivergenceRatio.count }

/-- Feed one result into the entry of a test id, which is created if there is none. -/
def updateImpl (b : MemoryRegressionHistoryBackend) (testId : Text) (throughput : ℚ)
    (hasDivergenceRatios : Bool) (readDivergenceRatio writeDivergenceRatio : ℚ) :
    MemoryRegressionHistoryBackend :=
  let entry := (b.m_entries testId).getD {}
  let entry := { entry with throughput := entry.throughput.update throughput }
  let entry :=
    if hasDivergenceRatios then
      { entry with
        readDivergenceRatio := entry.readDivergenceRatio.update readDivergenceRatio
        writeDivergenceRatio := entry.writeDivergenceRatio.update writeDivergenceRatio }
    else entry
  { b with m_entries := Function.update b.m_entries testId (some entry) }

end MemoryRegressionHistoryBackend

/-! ### The analyzer -/

/-- The analyzer over the in-memory history. -/
structure RegressionAnalyzer where
  m_history : MemoryRegressionHistoryBackend := {}
  m_kStddev : ℚ := 3
  m_minHistoryFloor : UInt32 := 5

namespace RegressionAnalyzer

/-- Whether a divergence ratio is off its history. -/
def internalRatioDegraded (a : RegressionAnalyzer) (sampleCount : UInt32)
    (histMean histStddev currentRatio : ℚ) : Bool :=
  if sampleCount < a.m_minHistoryFloor || decide (histStddev ≤ 0) then false
  else decide (|currentRatio - histMean| > a.m_kStddev * histStddev)

/-- Compare one result with the history of its test, then feed it into the history. -/
def evaluate (sqrt : ℚ → ℚ) (a : RegressionAnalyzer) (testId : Text)
    (result : BenchmarkResult) : RegressionAnalyzer × TestOutcome :=
  if result.runFailed || !result.deterministic then (a, .Failed)
  else
    let history := a.m_history.fetchImpl sqrt testId
    let outcome : TestOutcome :=
      if history.throughputSampleCount ≥ a.m_minHistoryFloor ∧ history.throughputStddev > 0 then
        let delta := |result.meanThroughput - history.throughputMean|
        if delta > a.m_kStddev * history.throughputStddev then .Regressed else .Pass
      else .Pass
    let outcome : TestOutcome :=
      if result.isHotspotRun &&
          (a.internalRatioDegraded history.readDivergenceSampleCount
              history.readDivergenceRatioMean history.readDivergenceRatioStddev
              result.readDivergenceRatio ||
            a.internalRatioDegraded history.writeDivergenceSampleCount
              history.writeDivergenceRatioMean history.writeDivergenceRatioStddev
              result.writeDivergenceRatio) then .Degraded
      else outcome
    let m_history := a.m_history.updateImpl testId result.meanThroughput result.isHotspotRun
      result.readDivergenceRatio result.writeDivergenceRatio
    ({ a with m_history := m_history }, outcome)

/-- The analyzer after a series of calls. -/
def evaluateAll (sqrt : ℚ → ℚ) (a : RegressionAnalyzer)
    (calls : List (Text × BenchmarkResult)) : RegressionAnalyzer :=
  calls.foldl (fun a call => (a.evaluate sqrt call.1 call.2).1) a

/-! ### The history as a keyed store -/

/-- A result that the history takes in. -/
def trusted (result : BenchmarkResult) : Bool :=
  !(result.runFailed || !result.deterministic)

/-- What one call does to the entry of its test. -/
def feedEntry (call : Text × BenchmarkResult) (entry : Option Entry) : Option Entry :=
  if trusted call.2 then
    let entry := entry.getD {}
    some
      { throughput := entry.throughput.update call.2.meanThroughput
        readDivergenceRatio :=
          if call.2.isHotspotRun then
            entry.readDivergenceRatio.update call.2.readDivergenceRatio
          else entry.readDivergenceRatio
        writeDivergenceRatio :=
          if call.2.isHotspotRun then
            entry.writeDivergenceRatio.update call.2.writeDivergenceRatio
          else entry.writeDivergenceRatio }
  else entry

/-- **One call is one event** on the keyed store, and leaves the parameters alone. -/
theorem evaluate_fst (sqrt : ℚ → ℚ) (a : RegressionAnalyzer) (testId : Text)
    (result : BenchmarkResult) :
    (a.evaluate sqrt testId result).1 =
      { a with m_history :=
        { m_entries :=
          KeyedStore.step Prod.fst feedEntry a.m_history.m_entries (testId, result) } } := by
  by_cases h : (result.runFailed || !result.deterministic) = true
  · have hsame : feedEntry (testId, result) (a.m_history.m_entries testId) =
        a.m_history.m_entries testId := by simp [feedEntry, trusted, h]
    rw [evaluate, if_pos h, KeyedStore.step, hsame, Function.update_eq_self]
  · rw [evaluate, if_neg h]
    simp only [MemoryRegressionHistoryBackend.updateImpl, KeyedStore.step, feedEntry, trusted,
      Bool.eq_false_iff.mpr h, Bool.not_false, if_true]
    cases result.isHotspotRun <;> rfl

/-- **A series of calls is a series of events** on the keyed store. -/
theorem entries_evaluateAll (sqrt : ℚ → ℚ) (a : RegressionAnalyzer)
    (calls : List (Text × BenchmarkResult)) :
    a.evaluateAll sqrt calls =
      { a with m_history :=
        { m_entries := KeyedStore.run Prod.fst feedEntry a.m_history.m_entries calls } } := by
  induction calls generalizing a with
  | nil => rfl
  | cons call calls ih =>
      rw [evaluateAll, List.foldl_cons]
      refine (ih _).trans ?_
      rw [evaluate_fst]
      rfl

/-- A call that is not trusted leaves the entry as it is. -/
theorem feedEntry_of_not_trusted (call : Text × BenchmarkResult) (entry : Option Entry)
    (h : trusted call.2 = false) : feedEntry call entry = entry := by
  simp [feedEntry, h]

/-- The calls of a test id with a trusted result. -/
def ownTrusted (testId : Text) (calls : List (Text × BenchmarkResult)) :
    List (Text × BenchmarkResult) :=
  calls.filter fun call => call.1 = testId && trusted call.2

/-- **What a call returns depends on the entry of its own test only.** -/
theorem evaluate_snd_congr {sqrt : ℚ → ℚ} {a a' : RegressionAnalyzer} {testId : Text}
    (hk : a.m_kStddev = a'.m_kStddev) (hfloor : a.m_minHistoryFloor = a'.m_minHistoryFloor)
    (hfetch : a.m_history.fetchImpl sqrt testId = a'.m_history.fetchImpl sqrt testId)
    (result : BenchmarkResult) :
    (a.evaluate sqrt testId result).2 = (a'.evaluate sqrt testId result).2 := by
  rw [evaluate, evaluate]
  split
  · rfl
  · simp only [hfetch, internalRatioDegraded, hk, hfloor]

/-- **No interference**: the calls of other tests, and those whose result is not trusted,
may be taken out. -/
theorem entries_ownTrusted (entries : Text → Option Entry) (testId : Text)
    (calls : List (Text × BenchmarkResult)) :
    KeyedStore.run Prod.fst feedEntry entries calls testId =
      KeyedStore.run Prod.fst feedEntry entries (ownTrusted testId calls) testId :=
  (KeyedStore.run_filter_apply feedEntry_of_not_trusted entries calls testId).symm

/-! ### What the history says -/

/-- The entry has seen the results `results`, and of their ratios those of hotspot runs. -/
structure Describes (entry : Entry) (results : List BenchmarkResult) : Prop where
  throughput : entry.throughput.Summarises (results.map BenchmarkResult.meanThroughput)
  read : entry.readDivergenceRatio.Summarises
    ((results.filter BenchmarkResult.isHotspotRun).map BenchmarkResult.readDivergenceRatio)
  write : entry.writeDivergenceRatio.Summarises
    ((results.filter BenchmarkResult.isHotspotRun).map BenchmarkResult.writeDivergenceRatio)

/-- **The step lemma**: a trusted result is one more of those that the entry has seen. -/
theorem Describes.feedEntry {entry : Option Entry} {results : List BenchmarkResult}
    (h : Describes (entry.getD {}) results) {call : Text × BenchmarkResult}
    (htrusted : trusted call.2 = true) (hlt : results.length + 1 < 2 ^ 32) :
    Describes ((RegressionAnalyzer.feedEntry call entry).getD {}) (results ++ [call.2]) := by
  have hlt' : (results.filter BenchmarkResult.isHotspotRun).length + 1 < 2 ^ 32 :=
    lt_of_le_of_lt (Nat.succ_le_succ (List.length_filter_le _ results)) hlt
  rw [RegressionAnalyzer.feedEntry, if_pos htrusted, Option.getD_some]
  cases hhot : call.2.isHotspotRun with
  | false =>
      refine ⟨h.throughput.map_concat _ call.2 hlt, ?_, ?_⟩
      · rw [List.filter_append, List.filter_cons_of_neg (by simp [hhot]), List.filter_nil,
          List.append_nil]
        exact h.read
      · rw [List.filter_append, List.filter_cons_of_neg (by simp [hhot]), List.filter_nil,
          List.append_nil]
        exact h.write
  | true =>
      refine ⟨h.throughput.map_concat _ call.2 hlt, ?_, ?_⟩
      · rw [List.filter_append, List.filter_cons_of_pos hhot, List.filter_nil]
        exact h.read.map_concat _ call.2 hlt'
      · rw [List.filter_append, List.filter_cons_of_pos hhot, List.filter_nil]
        exact h.write.map_concat _ call.2 hlt'

/-- **The run lemma**: the entry has seen the trusted results of its test, in their order. -/
theorem describes_foldl {calls : List (Text × BenchmarkResult)}
    (htrusted : ∀ call ∈ calls, trusted call.2 = true) (hlt : calls.length < 2 ^ 32) :
    Describes ((calls.foldl (fun entry call => RegressionAnalyzer.feedEntry call entry)
      none).getD {}) (calls.map Prod.snd) := by
  induction calls using List.reverseRecOn with
  | nil => exact ⟨WelfordState.summarises_nil, WelfordState.summarises_nil,
      WelfordState.summarises_nil⟩
  | append_singleton calls call ih =>
      rw [List.length_append, List.length_singleton] at hlt
      rw [List.foldl_append, List.map_append, List.map_singleton]
      refine (ih (fun c hc => htrusted c (List.mem_append_left _ hc))
        (Nat.lt_of_succ_lt hlt)).feedEntry (htrusted call (by simp)) ?_
      rwa [List.length_map]

/-- **The history describes the results `results`**: for each of the three streams the
number of samples, their mean and their standard deviation. -/
structure HistoryOf (sqrt : ℚ → ℚ) (history : HistoryStats) (results : List BenchmarkResult) :
    Prop where
  throughput : ReportsStream sqrt history.throughputMean history.throughputStddev
    (results.map BenchmarkResult.meanThroughput)
  throughputCount : history.throughputSampleCount.toNat = results.length
  read : ReportsStream sqrt history.readDivergenceRatioMean history.readDivergenceRatioStddev
    ((results.filter BenchmarkResult.isHotspotRun).map BenchmarkResult.readDivergenceRatio)
  readCount : history.readDivergenceSampleCount.toNat =
    (results.filter BenchmarkResult.isHotspotRun).length
  write : ReportsStream sqrt history.writeDivergenceRatioMean
    history.writeDivergenceRatioStddev
    ((results.filter BenchmarkResult.isHotspotRun).map BenchmarkResult.writeDivergenceRatio)
  writeCount : history.writeDivergenceSampleCount.toNat =
    (results.filter BenchmarkResult.isHotspotRun).length

/-- What is fetched is what the entry has seen; no entry has seen nothing. -/
theorem Describes.fetchImpl {b : MemoryRegressionHistoryBackend} {testId : Text}
    {results : List BenchmarkResult} (h : Describes ((b.m_entries testId).getD {}) results)
    (sqrt : ℚ → ℚ) : HistoryOf sqrt (b.fetchImpl sqrt testId) results := by
  have hthroughput := h.throughput.count_eq
  have hread := h.read.count_eq
  have hwrite := h.write.count_eq
  rw [List.length_map] at hthroughput hread hwrite
  rw [MemoryRegressionHistoryBackend.fetchImpl]
  cases hentry : b.m_entries testId with
  | none =>
      rw [hentry, Option.getD_none] at h hthroughput hread hwrite
      exact ⟨h.throughput.reportsStream sqrt, hthroughput, h.read.reportsStream sqrt, hread,
        h.write.reportsStream sqrt, hwrite⟩
  | some entry =>
      rw [hentry, Option.getD_some] at h hthroughput hread hwrite
      exact ⟨h.throughput.reportsStream sqrt, hthroughput, h.read.reportsStream sqrt, hread,
        h.write.reportsStream sqrt, hwrite⟩

/-- **What a call returns** is decided by its own result and by the trusted results of its
test before it. As long as these fit the sample counters, the history that it reads is
their number, mean and standard deviation. -/
theorem evaluate_trusted (sqrt : ℚ → ℚ) (kStddev : ℚ) (minHistoryFloor : UInt32)
    (calls : List (Text × BenchmarkResult)) (testId : Text) (result : BenchmarkResult) :
    let a : RegressionAnalyzer := { m_kStddev := kStddev, m_minHistoryFloor := minHistoryFloor }
    let own := ownTrusted testId calls
    ((a.evaluateAll sqrt calls).evaluate sqrt testId result).2 =
        ((a.evaluateAll sqrt own).evaluate sqrt testId result).2 ∧
      (own.length < 2 ^ 32 →
        HistoryOf sqrt ((a.evaluateAll sqrt calls).m_history.fetchImpl sqrt testId)
          (own.map Prod.snd)) := by
  intro a own
  rw [entries_evaluateAll, entries_evaluateAll]
  have hentry := entries_ownTrusted a.m_history.m_entries testId calls
  refine ⟨evaluate_snd_congr ?_ ?_ ?_ result, fun hlt => Describes.fetchImpl ?_ sqrt⟩
  · rfl
  · rfl
  · simp only [MemoryRegressionHistoryBackend.fetchImpl, hentry, own]
  · have hall : ∀ call ∈ own, call.1 = testId ∧ trusted call.2 = true := fun call hcall => by
      simpa using (List.mem_filter.mp hcall).2
    have hself : own.filter (·.1 = testId) = own :=
      List.filter_eq_self.mpr fun call hcall => by simpa using (hall call hcall).1
    change Describes ((KeyedStore.run Prod.fst feedEntry a.m_history.m_entries calls
      testId).getD {}) _
    rw [hentry, KeyedStore.run_apply]
    change Describes ((List.foldl _ none (own.filter (·.1 = testId))).getD {}) _
    rw [hself]
    exact describes_foldl (fun call hcall => (hall call hcall).2) hlt

/-- Two tests whose results interleave, one of them a failure. -/
theorem evaluate_trusted_interleaved :
    let good (throughput : ℚ) : BenchmarkResult :=
      { meanThroughput := throughput, deterministic := true }
    let calls : List (Text × BenchmarkResult) :=
      [(['a'], good 10), (['b'], good 7), (['a'], { good 99 with runFailed := true }),
        (['a'], good 12)]
    let own := ownTrusted ['a'] calls
    let a : RegressionAnalyzer := { m_kStddev := 3, m_minHistoryFloor := 2 }
    own = [(['a'], good 10), (['a'], good 12)] ∧
      ((a.evaluateAll id calls).evaluate id ['a'] (good 40)).2 =
        ((a.evaluateAll id own).evaluate id ['a'] (good 40)).2 ∧
      HistoryOf id ((a.evaluateAll id calls).m_history.fetchImpl id ['a'])
        (own.map Prod.snd) := by
  intro good calls own a
  have hown : own = [(['a'], good 10), (['a'], good 12)] := by decide +kernel
  obtain ⟨hsame, hhistory⟩ := evaluate_trusted id 3 2 calls ['a'] (good 40)
  refine ⟨hown, hsame, hhistory ?_⟩
  change own.length < 2 ^ 32
  rw [hown]
  exact Nat.lt_of_sub_ne_zero (by decide)

/-! ### A counter that wraps -/

/-- The sample counter after a trusted result `n` times over. -/
theorem count_foldl_replicate {call : Text × BenchmarkResult} (h : trusted call.2 = true)
    (n : ℕ) :
    (((List.replicate n call).foldl
      (fun entry call => RegressionAnalyzer.feedEntry call entry)
      none).getD {}).throughput.count = UInt32.ofNat n := by
  induction n with
  | zero => rfl
  | succ n ih =>
      rw [List.replicate_succ', List.foldl_append, List.foldl_cons, List.foldl_nil,
        RegressionAnalyzer.feedEntry, if_pos h, Option.getD_some, UInt32.ofNat_add, ← ih]
      rfl

/-- The sample count that is fetched is that of the entry, zero without one. -/
theorem throughputSampleCount_fetchImpl (sqrt : ℚ → ℚ) (b : MemoryRegressionHistoryBackend)
    (testId : Text) : (b.fetchImpl sqrt testId).throughputSampleCount =
      ((b.m_entries testId).getD {}).throughput.count := by
  rw [MemoryRegressionHistoryBackend.fetchImpl]
  cases b.m_entries testId with
  | none => rfl
  | some entry => rfl

/-- The same trusted result `n` times over: what is fetched, and what was fed. -/
theorem sampleCount_replicate (result : BenchmarkResult) (h : trusted result = true)
    (testId : Text) (n : ℕ) :
    let calls := List.replicate n (testId, result)
    let history := (({} : RegressionAnalyzer).evaluateAll id calls).m_history
    (history.fetchImpl id testId).throughputSampleCount = UInt32.ofNat n ∧
      (ownTrusted testId calls).length = n := by
  intro calls history
  have hall : ∀ call ∈ calls, call = (testId, result) := fun call => List.eq_of_mem_replicate
  have hown : ownTrusted testId calls = calls :=
    List.filter_eq_self.mpr fun call hcall => by simp [hall call hcall, h]
  have hself : calls.filter (·.1 = testId) = calls :=
    List.filter_eq_self.mpr fun call hcall => by simp [hall call hcall]
  refine ⟨?_, by rw [hown, List.length_replicate]⟩
  rw [throughputSampleCount_fetchImpl]
  simp only [history, entries_evaluateAll]
  rw [KeyedStore.run_apply, hself]
  exact count_foldl_replicate h n

/-- **After `2 ^ 32` trusted results the history counts none of them.** -/
theorem throughputSampleCount_wraps :
    let calls := List.replicate (2 ^ 32) (['a'], ({ deterministic := true } : BenchmarkResult))
    let history := (({} : RegressionAnalyzer).evaluateAll id calls).m_history
    (history.fetchImpl id ['a']).throughputSampleCount.toNat ≠ (ownTrusted ['a'] calls).length := by
  intro calls history
  obtain ⟨hcount, hlength⟩ := sampleCount_replicate { deterministic := true } rfl ['a'] (2 ^ 32)
  rw [hcount, hlength, UInt32.toNat_ofNat']
  norm_num

end RegressionAnalyzer

end Hades.Runtime
