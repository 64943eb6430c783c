import Hades.GeneratedProgram
import Hades.RegressionOrder

/-!
# The Regression Listener

The listener hands every completed test to the analyzer and keeps the most severe outcome
(`RegressionListener` in `HadesListeners.h`). The analyzer compares a result with the history of
its own test only, so it does not matter how the tests of different ids are interleaved; and it
calls a result failed exactly if the listener of the exit code does.

## Main results

* `isGreatest_foldl_complete`: the worst outcome behind some tests is the most severe of theirs.
* `foldl_handle_interleaved`: **every interleaving** of the tests ends with the same listener.
* `worstOutcome_run_eq_failed_iff`: the worst outcome of a suite and its exit code.
-/

namespace Hades.Runtime

/-- The listener, with the analyzer that it asks. -/
structure RegressionListener where
  m_analyzer : RegressionAnalyzer := {}
  m_worstOutcome : TestOutcome := .Pass

namespace RegressionListener

variable (sqrt : ℚ → ℚ)

/-- A completed test. -/
def complete (listener : RegressionListener) (call : Text × BenchmarkResult) :
    RegressionListener :=
  let (m_analyzer, outcome) := listener.m_analyzer.evaluate sqrt call.1 call.2
  { m_analyzer
    m_worstOutcome := if listener.m_worstOutcome.severity < outcome.severity then outcome
      else listener.m_worstOutcome }

/-- A call of the listener. -/
def handle (listener : RegressionListener) : ListenerEvent → RegressionListener
  | .onTestComplete v_Id ro_Result => listener.complete sqrt (v_Id, ro_Result)
  | _ => listener

/-- The tests that some calls complete, with their results. -/
def completed (events : List ListenerEvent) : List (Text × BenchmarkResult) :=
  events.filterMap fun event =>
    match event with
    | .onTestComplete id result => some (id, result)
    | _ => none

end RegressionListener

namespace RegressionAnalyzer

variable (sqrt : ℚ → ℚ)

/-- The outcome of a result, from the entry of its test. -/
def outcomeOf (a : RegressionAnalyzer) (call : Text × BenchmarkResult) (entry : Option Entry) :
    TestOutcome :=
  (({ a with m_history := { m_entries := fun _ => entry } } : RegressionAnalyzer).evaluate sqrt
    call.1 call.2).2

/-- The outcomes of some results, one after another. -/
def outcomes (a : RegressionAnalyzer) (calls : List (Text × BenchmarkResult)) :
    List TestOutcome :=
  KeyedStore.answers Prod.fst feedEntry (a.outcomeOf sqrt) a.m_history.m_entries calls

/-- **The outcome of a result** is decided by the entry of its test. -/
theorem evaluate_snd_eq (a : RegressionAnalyzer) (call : Text × BenchmarkResult) :
    (a.evaluate sqrt call.1 call.2).2 = a.outcomeOf sqrt call (a.m_history.m_entries call.1) := by
  rw [outcomeOf]
  apply evaluate_snd_congr
  · rfl
  · rfl
  · rfl

/-- The outcomes behind one more result at the front. -/
theorem outcomes_cons (a : RegressionAnalyzer) (call : Text × BenchmarkResult)
    (calls : List (Text × BenchmarkResult)) :
    a.outcomes sqrt (call :: calls) =
      (a.evaluate sqrt call.1 call.2).2 ::
        (a.evaluate sqrt call.1 call.2).1.outcomes sqrt calls := by
  rw [evaluate_snd_eq, evaluate_fst]
  rfl

/-- A result is called failed exactly if it is not trusted. -/
theorem evaluate_snd_eq_failed_iff (a : RegressionAnalyzer) (testId : Text)
    (result : BenchmarkResult) :
    (a.evaluate sqrt testId result).2 = .Failed ↔ result.passed = false := by
  have hpassed : result.passed = trusted result := by
    rw [BenchmarkResult.passed, trusted, Bool.not_or, Bool.not_not]
  rw [hpassed]
  cases htrusted : trusted result with
  | false =>
      have hbad : (result.runFailed || !result.deterministic) = true := by
        rwa [trusted, Bool.not_eq_false'] at htrusted
      rw [evaluate, if_pos hbad]
      exact iff_of_true rfl rfl
  | true =>
      have hle := severity_le_three sqrt a testId htrusted
      refine iff_of_false (fun hfailed => ?_) Bool.noConfusion
      rw [hfailed] at hle
      exact absurd hle (by decide)

end RegressionAnalyzer

/-- The severities of different outcomes are different. -/
theorem TestOutcome.severity_injective : Function.Injective TestOutcome.severity := by
  intro a b h
  cases a <;> cases b <;> first | rfl | cases h

namespace RegressionListener

variable (sqrt : ℚ → ℚ)

/-- The calls of the listener, as completed tests. -/
theorem foldl_handle_eq (listener : RegressionListener) (events : List ListenerEvent) :
    events.foldl (handle sqrt) listener = (completed events).foldl (complete sqrt) listener := by
  induction events generalizing listener with
  | nil => rfl
  | cons event events ih =>
      rw [List.foldl_cons, ih]
      cases event <;> rfl

/-- The history behind some completed tests. -/
theorem m_analyzer_foldl_complete (listener : RegressionListener)
    (calls : List (Text × BenchmarkResult)) :
    (calls.foldl (complete sqrt) listener).m_analyzer =
      listener.m_analyzer.evaluateAll sqrt calls := by
  induction calls generalizing listener with
  | nil => rfl
  | cons call calls ih => exact ih _

/-- The more severe one of two outcomes is kept. -/
theorem worstOutcome_complete (listener : RegressionListener) (call : Text × BenchmarkResult) :
    let outcome := (listener.m_analyzer.evaluate sqrt call.1 call.2).2
    let worst := (listener.complete sqrt call).m_worstOutcome
    (worst = listener.m_worstOutcome ∨ worst = outcome) ∧
      listener.m_worstOutcome.severity ≤ worst.severity ∧ outcome.severity ≤ worst.severity := by
  intro outcome worst
  have hworst : worst = if listener.m_worstOutcome.severity < outcome.severity then outcome
      else listener.m_worstOutcome := rfl
  split at hworst
  next hlt =>
    rw [hworst]
    exact ⟨Or.inr rfl, hlt.le, le_refl _⟩
  next hle =>
    rw [hworst]
    exact ⟨Or.inl rfl, le_refl _, not_lt.mp hle⟩

/-- **The worst outcome** behind some completed tests is the most severe of the one before and
of theirs. -/
theorem isGreatest_foldl_complete (listener : RegressionListener)
    (calls : List (Text × BenchmarkResult)) :
    IsGreatest
      (TestOutcome.severity '' {outcome | outcome = listener.m_worstOutcome ∨
        outcome ∈ listener.m_analyzer.outcomes sqrt calls})
      (calls.foldl (complete sqrt) listener).m_worstOutcome.severity := by
  induction calls generalizing listener with
  | nil =>
      refine ⟨⟨_, Or.inl rfl, rfl⟩, ?_⟩
      rintro _ ⟨outcome, rfl | hmem, rfl⟩
      · exact le_refl _
      · cases hmem
  | cons call calls ih =>
      obtain ⟨hone, hbefore, houtcome⟩ := worstOutcome_complete sqrt listener call
      obtain ⟨⟨worst, hworst, heq⟩, hupper⟩ := ih (listener.complete sqrt call)
      have hfirst := hupper ⟨_, Or.inl rfl, rfl⟩
      rw [RegressionAnalyzer.outcomes_cons]
      refine ⟨⟨worst, ?_, heq⟩, ?_⟩
      · rcases hworst with rfl | hmem
        · refine hone.imp id fun h => ?_
          rw [h]
          exact List.mem_cons_self
        · exact Or.inr (List.mem_cons_of_mem _ hmem)
      · rintro _ ⟨outcome, rfl | hmem, rfl⟩
        · exact hbefore.trans hfirst
        · rcases List.mem_cons.mp hmem with rfl | hmem
          · exact houtcome.trans hfirst
          · exact hupper ⟨outcome, Or.inr hmem, rfl⟩

/-- **Every interleaving** of the tests of different ids ends with the same listener: the same
history, and the same worst outcome. -/
theorem foldl_handle_interleaved (listener : RegressionListener)
    (events events' : List ListenerEvent)
    (h : ∀ id, (completed events).filter (·.1 = id) = (completed events').filter (·.1 = id)) :
    events.foldl (handle sqrt) listener = events'.foldl (handle sqrt) listener := by
  rw [foldl_handle_eq, foldl_handle_eq]
  have hanalyzer : ((completed events).foldl (complete sqrt) listener).m_analyzer =
      ((completed events').foldl (complete sqrt) listener).m_analyzer := by
    rw [m_analyzer_foldl_complete, m_analyzer_foldl_complete,
      RegressionAnalyzer.entries_evaluateAll, RegressionAnalyzer.entries_evaluateAll,
      KeyedStore.run_congr h]
  have houtcomes : {outcome | outcome = listener.m_worstOutcome ∨
        outcome ∈ listener.m_analyzer.outcomes sqrt (completed events)} =
      {outcome | outcome = listener.m_worstOutcome ∨
        outcome ∈ listener.m_analyzer.outcomes sqrt (completed events')} := by
    ext outcome
    exact or_congr_right (KeyedStore.mem_answers_congr h _ outcome)
  have hgreatest := isGreatest_foldl_complete sqrt listener (completed events)
  rw [houtcomes] at hgreatest
  have hworst := TestOutcome.severity_injective
    (hgreatest.unique (isGreatest_foldl_complete sqrt listener (completed events')))
  obtain ⟨first, hfirst⟩ : ∃ first, (completed events).foldl (complete sqrt) listener = first :=
    ⟨_, rfl⟩
  rw [hfirst] at hanalyzer hworst ⊢
  cases first
  congr

/-- Two tests of one id, around one of another id. -/
def completedABA (first second third : BenchmarkResult) : List ListenerEvent :=
  [.onTestStart ['a'], .onTestComplete ['a'] first, .onTestStart ['b'],
    .onTestComplete ['b'] second, .onTestStart ['a'], .onTestComplete ['a'] third]

/-- The same behind the test of the other id. -/
def completedBAA (first second third : BenchmarkResult) : List ListenerEvent :=
  [.onTestStart ['b'], .onTestComplete ['b'] second, .onTestStart ['a'],
    .onTestComplete ['a'] first, .onTestStart ['a'], .onTestComplete ['a'] third]

/-- Both orders end with the same listener. -/
theorem foldl_handle_interleaved_baa :
    let result : BenchmarkResult := { meanThroughput := 9, deterministic := true }
    let events := completedABA result {} result
    let events' := completedBAA result {} result
    (∀ id, (completed events).filter (·.1 = id) = (completed events').filter (·.1 = id)) ∧
      events.foldl (handle id) {} = events'.foldl (handle id) {} := by
  intro result events events'
  have hids : ∀ id, (completed events).filter (·.1 = id) =
      (completed events').filter (·.1 = id) := by
    intro id
    have hevents : completed events = [(['a'], result), (['b'], {}), (['a'], result)] := rfl
    have hevents' : completed events' = [(['b'], {}), (['a'], result), (['a'], result)] := rfl
    rw [hevents, hevents']
    by_cases ha : ['a'] = id
    · subst ha
      rfl
    · simp [List.filter_cons, ha]
  exact ⟨hids, foldl_handle_interleaved id {} events events' hids⟩

/-! ### The exit code -/

/-- Nothing is more severe than a failure. -/
theorem worstOutcome_complete_eq_failed_iff (listener : RegressionListener)
    (call : Text × BenchmarkResult) :
    (listener.complete sqrt call).m_worstOutcome = .Failed ↔
      listener.m_worstOutcome = .Failed ∨ call.2.passed = false := by
  have hworst := worstOutcome_complete sqrt listener call
  have hle : ∀ outcome : TestOutcome, outcome.severity ≤ 4 := by
    intro outcome
    cases outcome <;> decide
  rw [← RegressionAnalyzer.evaluate_snd_eq_failed_iff sqrt listener.m_analyzer call.1]
  obtain ⟨hone, hbefore, houtcome⟩ := hworst
  constructor
  · intro hfailed
    rw [hfailed] at hone
    exact hone.imp Eq.symm Eq.symm
  · rintro (h | h)
    · rw [h] at hbefore
      exact TestOutcome.severity_injective (le_antisymm (hle _) hbefore)
    · rw [h] at houtcome
      exact TestOutcome.severity_injective (le_antisymm (hle _) houtcome)

/-- The worst outcome and the listener of the exit code, side by side. -/
theorem worstOutcome_foldl_handle_eq_failed_iff (listener : RegressionListener)
    (tracker : ExitCodeListener)
    (h : listener.m_worstOutcome = .Failed ↔ tracker.m_anyFailed = true)
    (events : List ListenerEvent) :
    (events.foldl (handle sqrt) listener).m_worstOutcome = .Failed ↔
      (events.foldl ExitCodeListener.handle tracker).m_anyFailed = true := by
  induction events generalizing listener tracker with
  | nil => exact h
  | cons event events ih =>
      refine ih _ _ ?_
      cases event with
      | onTestStart id => exact h
      | onSuiteComplete => exact h
      | onTestComplete id result =>
          have hfailed : (result.runFailed || !result.deterministic) = !result.passed := by
            rw [BenchmarkResult.passed, Bool.not_and, Bool.not_not]
          rw [handle, worstOutcome_complete_eq_failed_iff, ExitCodeListener.handle, hfailed, h]
          cases result.passed <;> simp

/-- **The worst outcome of a suite is a failure** exactly if its exit code says so, whatever the
history was before, and whichever listeners hear it. -/
theorem worstOutcome_run_eq_failed_iff (driver : SuiteDriver) (analyzer : RegressionAnalyzer)
    {listeners : ℕ} (listener tracker : Fin listeners) :
    ((eventsFor listener (driver.run listeners)).foldl (handle sqrt)
        { m_analyzer := analyzer }).m_worstOutcome = .Failed ↔
      ((eventsFor tracker (driver.run listeners)).foldl ExitCodeListener.handle {}).m_anyFailed =
        true := by
  rw [driver.eventsFor_run listener.isLt, driver.eventsFor_run tracker.isLt]
  refine worstOutcome_foldl_handle_eq_failed_iff sqrt _ _ ?_ _
  exact iff_of_false TestOutcome.noConfusion Bool.noConfusion

end RegressionListener

end Hades.Runtime
