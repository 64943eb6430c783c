import Hades.Terminal
import Hades.TimeLimits

/-!
# The Screen of Isolated Runs

What `hades-driver run --isolate` shows on Windows (`Commands.cpp`, `drawProgressBar`,
`dumpCaptured` and `cmdRunIsolate`). In front of every child a progress bar is drawn over the
last one; a test that fails erases the bar and leaves its lines above the next one. The command
remembers how wide the bar is that has to be covered. Both streams of the command end up on one
terminal.

The texts of a run are mixed with its actions, for what the screen shows while a child runs,
and the actions are those of the run without a screen.

## Main results

* `toCommandRun_isolateConsole`: **the screen changes nothing**: actions and value are those of
  `cmdRunIsolate`.
* `row_of_startChild`: **while a child runs**, the last row is the current bar and nothing else,
  below the lines of the tests that failed before.
* `print_isolateConsole`: **a finished run** leaves the screen that the lines of the failures,
  the last bar and the summary leave without any redraw.
* `value_cmdRunIsolate_ne_none_iff`: when the command returns.
-/

namespace Hades.Runtime.Windows

open DecimalText Terminal

/-! ### The progress bar -/

/-- The cells between the brackets of the bar. -/
abbrev BAR_WIDTH : ℕ := 20

/-- The line of the progress bar. -/
def progressLine (done total failed : ℕ) : Text :=
  let l_filled := if total = 0 then 0 else done * BAR_WIDTH / total
  "Testing: ".toList ++ natText done ++ "/".toList ++ natText total ++
    (if 0 < failed then " (".toList ++ natText failed ++ " failed)".toList else []) ++
    " [".toList ++ List.replicate l_filled '=' ++
    (if l_filled < BAR_WIDTH then
      ">".toList ++ List.replicate (BAR_WIDTH - l_filled - 1) ' '
    else []) ++ "]".toList

/-- The bar is drawn over the last one: the text, and the width to cover the next time. -/
def drawProgressBar (done total failed clearWidth : ℕ) : Text × ℕ :=
  let l_line := progressLine done total failed
  ('\r' :: (l_line ++
    (if l_line.length < clearWidth then List.replicate (clearWidth - l_line.length) ' ' else [])),
    l_line.length)

/-! ### One child -/

/-- What is kept of a child. -/
structure IsolatedOutcome where
  m_Id : Text
  m_Passed : Bool := false
  m_TimedOut : Bool := false
  m_ExitCode : Int32 := 0
  deriving DecidableEq

/-- The outcome of a result. -/
def IsolatedOutcome.ofResult (id : Text) (result : ProcessResult) : IsolatedOutcome where
  m_Id := id
  m_Passed := result.passed
  m_TimedOut := result.m_TimedOut
  m_ExitCode := result.m_ExitCode

/-- The lines of a capture file that opens. -/
def dumpCaptured : Option Text → Text
  | none => []
  | some content => (getLines content).flatMap fun line => "    ".toList ++ line ++ ['\n']

/-- The lines of a test that failed. -/
def failText (seconds : UInt32) (outcome : IsolatedOutcome) (captured : Option Text) : Text :=
  "FAIL: ".toList ++ outcome.m_Id ++
    (if outcome.m_TimedOut then
      " (timed out after ".toList ++ natText seconds.toNat ++ "s)\n".toList
    else " (exit ".toList ++ intText outcome.m_ExitCode.toInt ++ ")\n".toList) ++
    dumpCaptured captured

/-- A line of the summary. -/
def summaryLine (outcome : IsolatedOutcome) : Text :=
  "  ".toList ++ outcome.m_Id ++ " - ".toList ++
    (if outcome.m_TimedOut then "timeout".toList
    else "exit ".toList ++ intText outcome.m_ExitCode.toInt) ++ ['\n']

/-! ### The loop -/

/-- The variables of the loop. -/
structure IsolateLoop where
  l_outcomes : List IsolatedOutcome := []
  l_failedCount : ℕ := 0
  l_clearWidth : ℕ := 0

/-- What follows a child: a test that failed erases the bar. -/
def IsolateLoop.finish (loop : IsolateLoop) (seconds : UInt32) (l_outcome : IsolatedOutcome)
    (captured : Option Text) : Text × IsolateLoop :=
  if l_outcome.m_Passed then
    ([], { loop with l_outcomes := loop.l_outcomes ++ [l_outcome] })
  else
    ('\r' :: (List.replicate loop.l_clearWidth ' ' ++ ['\r']) ++
        failText seconds l_outcome captured,
      { l_outcomes := loop.l_outcomes ++ [l_outcome]
        l_failedCount := loop.l_failedCount + 1
        l_clearWidth := 0 })

/-- What follows the loop: the last bar and the summary. -/
def IsolateLoop.summary (loop : IsolateLoop) (total : ℕ) : Text :=
  (drawProgressBar total total loop.l_failedCount loop.l_clearWidth).1 ++ ['\n'] ++
    natText (loop.l_outcomes.length - loop.l_failedCount) ++ "/".toList ++
    natText loop.l_outcomes.length ++ " passed\n".toList ++
    (if loop.l_failedCount ≠ 0 then
      "failed:\n".toList ++
        (loop.l_outcomes.filter (!·.m_Passed)).flatMap summaryLine
    else [])

/-- What the machine does besides: the text of the capture file after the child of an index, if
it opens. -/
structure CapturingMachine extends WindowsMachine where
  captured : ℕ → Option Text := fun _ => some []

/-- A text on the screen, or something that the command does. -/
inductive ConsoleEvent where
  | print (text : Text)
  | act (action : CommandAction)

/-- What a command does and shows, and the value that it returns, if it returns. -/
structure ConsoleRun where
  events : List ConsoleEvent
  value : Option ℕ

/-- The child of a selected test and its wait. -/
def callChild (machine : WindowsMachine) (options : RunOptions) (run : PreparedRun)
    (test : SuiteTestEntry) (index : ℕ) : List CommandAction × Option ProcessResult :=
  runProcessTimed machine index (childArguments options test.m_Config.m_Id)
    (timeoutSeconds options) (run.child machine.toMachine options index test)

/-- A turn up to the end of the wait. -/
def turnEvents (machine : WindowsMachine) (options : RunOptions) (run : PreparedRun)
    (total : ℕ) (loop : IsolateLoop) (test : SuiteTestEntry) (l_i : ℕ) : List ConsoleEvent :=
  (pauseBefore run l_i test).map .act ++
    .print (drawProgressBar l_i total loop.l_failedCount loop.l_clearWidth).1 ::
    (callChild machine options run test l_i).1.map .act

/-- The loop over the selected tests, and its variables at the end, if it ends. -/
def isolateTurns (machine : CapturingMachine) (options : RunOptions) (run : PreparedRun)
    (total : ℕ) : IsolateLoop → List (SuiteTestEntry × ℕ) → List ConsoleEvent × Option IsolateLoop
  | loop, [] => ([], some loop)
  | loop, (test, l_i) :: rest =>
    let events := turnEvents machine.toWindowsMachine options run total loop test l_i
    match (callChild machine.toWindowsMachine options run test l_i).2 with
    | none => (events, none)
    | some l_result =>
      let bar := drawProgressBar l_i total loop.l_failedCount loop.l_clearWidth
      let finished := { loop with l_clearWidth := bar.2 }.finish (timeoutSeconds options)
        (.ofResult test.m_Config.m_Id l_result) (machine.captured l_i)
      let later := isolateTurns machine options run total finished.2 rest
      (events ++ .print finished.1 :: later.1, later.2)

/-- Isolate mode with its screen. -/
def isolateConsole (codec : DoubleCodec) (fs : FileSystem) (machine : CapturingMachine)
    (options : RunOptions) (run : PreparedRun) : ConsoleRun :=
  let suiteToml := suiteTomlPath run.suiteDir
  let (entries, errors) := readSuiteToml codec suiteToml (fs suiteToml)
  let tests := entries.filter (selects options.l_fbt)
  if errors ≠ [] then
    { events := [.print "error: could not read suite.toml for --isolate\n".toList]
      value := some 1 }
  else if tests = [] then
    { events := [.print ("error: --fbt='".toList ++ options.l_fbt ++
        "' matched no fixtures\n".toList)]
      value := some 1 }
  else
    let turns := isolateTurns machine options run tests.length {} tests.zipIdx
    match turns.2 with
    | none => { events := turns.1, value := none }
    | some loop =>
      { events := turns.1 ++ [.print (loop.summary tests.length)]
        value := some (if loop.l_failedCount ≠ 0 then 1 else 0) }

/-- The texts of events. -/
def textOf (events : List ConsoleEvent) : Text :=
  events.flatMap fun
    | .print text => text
    | .act _ => []

/-- The actions of events. -/
def actionsOf (events : List ConsoleEvent) : List CommandAction :=
  events.filterMap fun
    | .print _ => none
    | .act action => some action

/-- The run without its screen. -/
def ConsoleRun.toCommandRun (run : ConsoleRun) : CommandRun where
  actions := actionsOf run.events
  value := run.value

/-- Every action with the screen at its start. -/
def observations (screen : Screen) : List ConsoleEvent → List (CommandAction × Screen)
  | [] => []
  | .print text :: events => observations (screen.print text) events
  | .act action :: events => (action, screen) :: observations screen events

variable {machine : CapturingMachine} {options : RunOptions} {run : PreparedRun}
  {screen shown : Screen} {seconds : UInt32} {loop : IsolateLoop} {total : ℕ}

/-! ### Events -/

@[simp] theorem textOf_append (events more : List ConsoleEvent) :
    textOf (events ++ more) = textOf events ++ textOf more :=
  List.flatMap_append

@[simp] theorem textOf_print (text : Text) (events : List ConsoleEvent) :
    textOf (.print text :: events) = text ++ textOf events :=
  rfl

@[simp] theorem textOf_map_act (actions : List CommandAction) :
    textOf (actions.map .act) = [] := by
  induction actions with
  | nil => rfl
  | cons action actions ih => exact ih

@[simp] theorem actionsOf_append (events more : List ConsoleEvent) :
    actionsOf (events ++ more) = actionsOf events ++ actionsOf more :=
  List.filterMap_append

@[simp] theorem actionsOf_print (text : Text) (events : List ConsoleEvent) :
    actionsOf (.print text :: events) = actionsOf events :=
  rfl

@[simp] theorem actionsOf_map_act (actions : List CommandAction) :
    actionsOf (actions.map .act) = actions := by
  induction actions with
  | nil => rfl
  | cons action actions ih => exact congrArg (action :: ·) ih

theorem observations_append (events more : List ConsoleEvent) :
    observations screen (events ++ more) =
      observations screen events ++ observations (screen.print (textOf events)) more := by
  induction events generalizing screen with
  | nil => rfl
  | cons event events ih =>
      cases event with
      | print text =>
          rw [List.cons_append, observations, observations, ih, textOf_print, print_append]
      | act action => exact congrArg ((action, screen) :: ·) ih

theorem observations_map_act (actions : List CommandAction) :
    observations screen (actions.map .act) = actions.map (·, screen) := by
  induction actions with
  | nil => rfl
  | cons action actions ih => exact congrArg ((action, screen) :: ·) ih

/-! ### The screen changes nothing -/

/-- The loop with its screen takes the actions of the loop without. -/
theorem actionsOf_isolateTurns (machine : CapturingMachine) (options : RunOptions)
    (run : PreparedRun) (total : ℕ) (tests : List (SuiteTestEntry × ℕ)) (loop : IsolateLoop) :
    actionsOf (isolateTurns machine options run total loop tests).1 =
        (isolateChildren machine.toWindowsMachine options run loop.l_failedCount tests).actions ∧
      (isolateTurns machine options run total loop tests).2.map
          (fun loop => if loop.l_failedCount ≠ 0 then 1 else 0) =
        (isolateChildren machine.toWindowsMachine options run loop.l_failedCount tests).value := by
  induction tests generalizing loop with
  | nil => exact ⟨rfl, rfl⟩
  | cons t rest ih =>
      rw [isolateTurns, isolateChildren]
      dsimp only
      rw [← callChild]
      cases hresult : (callChild machine.toWindowsMachine options run t.1 t.2).2 with
      | none => exact ⟨by simp [turnEvents], rfl⟩
      | some result =>
          dsimp only
          have hcount : ∀ loop : IsolateLoop,
              (loop.finish (timeoutSeconds options) (.ofResult t.1.m_Config.m_Id result)
                (machine.captured t.2)).2.l_failedCount =
              if result.passed then loop.l_failedCount else loop.l_failedCount + 1 := by
            intro loop
            rw [IsolateLoop.finish, IsolatedOutcome.ofResult]
            cases result.passed with
            | false => rfl
            | true => rfl
          obtain ⟨hactions, hvalue⟩ := ih (IsolateLoop.finish { loop with
            l_clearWidth := (drawProgressBar t.2 total loop.l_failedCount loop.l_clearWidth).2 }
            (timeoutSeconds options) (.ofResult t.1.m_Config.m_Id result)
            (machine.captured t.2)).2
          rw [hcount] at hactions hvalue
          refine ⟨?_, hvalue⟩
          rw [actionsOf_append, actionsOf_print, hactions]
          simp [turnEvents]

/-- **The screen changes nothing**: actions and value are those of isolate mode without it. -/
theorem toCommandRun_isolateConsole (codec : DoubleCodec) (fs : FileSystem)
    (machine : CapturingMachine) (options : RunOptions) (run : PreparedRun) :
    (isolateConsole codec fs machine options run).toCommandRun =
      cmdRunIsolate codec fs machine.toWindowsMachine options run := by
  rw [isolateConsole, cmdRunIsolate]
  dsimp only
  by_cases herrors : (readSuiteToml codec (suiteTomlPath run.suiteDir)
      (fs (suiteTomlPath run.suiteDir))).2 ≠ []
  · rw [if_pos herrors, if_pos (.inl herrors)]
    rfl
  rw [if_neg herrors]
  split
  · next hnone =>
    rw [if_pos (.inr hnone)]
    rfl
  next hsome =>
  rw [if_neg (not_or.mpr ⟨herrors, hsome⟩)]
  generalize (readSuiteToml codec (suiteTomlPath run.suiteDir)
    (fs (suiteTomlPath run.suiteDir))).1.filter (selects options.l_fbt) = tests
  obtain ⟨hactions, hvalue⟩ :=
    actionsOf_isolateTurns machine options run tests.length tests.zipIdx {}
  cases hturns : (isolateTurns machine options run tests.length {} tests.zipIdx).2 with
  | none =>
      rw [hturns] at hvalue
      rw [ConsoleRun.toCommandRun, hactions]
      exact congrArg (CommandRun.mk _) hvalue
  | some loop =>
      rw [hturns] at hvalue
      rw [ConsoleRun.toCommandRun, actionsOf_append, hactions]
      refine Eq.trans ?_ (congrArg (CommandRun.mk _) hvalue)
      rw [actionsOf_print, actionsOf, List.filterMap_nil, List.append_nil]
      rfl

/-! ### When the command returns -/

/-- Only zero seconds are no limit. -/
theorem timeLimit_waitMs_eq_none_iff (seconds : UInt32) :
    timeLimit (waitMs seconds) = none ↔ seconds = 0 := by
  constructor
  · intro hnone
    by_contra hne
    rw [waitMs, if_neg hne, timeLimit] at hnone
    split at hnone
    · next heq =>
      -- an even number of milliseconds is never the wait without a limit
      have hms : (seconds * 1000).toNat = seconds.toNat * 1000 % 2 ^ 32 := UInt32.toNat_mul _ _
      have hodd : (seconds * 1000).toNat = 2 ^ 32 - 1 := by
        rw [heq]
        rfl
      omega
    · cases hnone
  · rintro rfl
    rfl

/-- A wait that does not come back. -/
theorem callChild_eq_none_iff (machine : WindowsMachine) (options : RunOptions)
    (run : PreparedRun) (test : SuiteTestEntry) (index : ℕ) :
    (callChild machine options run test index).2 = none ↔
      timeoutSeconds options = 0 ∧ machine.starts index = true ∧ machine.duration index = none := by
  rw [callChild]
  cases hstarts : machine.starts index with
  | false =>
      rw [runProcessTimed_of_not_starts hstarts]
      simp
  | true =>
      rw [runProcessTimed_of_starts hstarts, Option.map_eq_none_iff]
      rw [← timeLimit_waitMs_eq_none_iff]
      cases timeLimit (waitMs (timeoutSeconds options)) with
      | none =>
          cases machine.duration index with
          | none => simp [timesOut?]
          | some duration => simp [timesOut?]
      | some limit =>
          cases machine.duration index with
          | none => simp [timesOut?]
          | some duration => simp [timesOut?]

/-- The loop without an end. -/
theorem value_isolateChildren_eq_none_iff {machine : WindowsMachine}
    (tests : List (SuiteTestEntry × ℕ)) (failed : ℕ) :
    (isolateChildren machine options run failed tests).value = none ↔
      ∃ t ∈ tests, (callChild machine options run t.1 t.2).2 = none := by
  induction tests generalizing failed with
  | nil =>
      refine iff_of_false (Option.some_ne_none _) ?_
      rintro ⟨t, ht, -⟩
      cases ht
  | cons t rest ih =>
      rw [List.exists_mem_cons_iff, isolateChildren]
      dsimp only
      rw [← callChild]
      cases hresult : (callChild machine options run t.1 t.2).2 with
      | none => exact iff_of_true rfl (.inl rfl)
      | some result => exact (ih _).trans (or_iff_right (Option.some_ne_none result)).symm

/-- The command waits forever for one of the children. -/
theorem value_cmdRunIsolate_eq_none_iff {codec : DoubleCodec} {cwd : Text} {fs : FileSystem}
    {machine : WindowsMachine}
    (h : prepareRun codec cwd fs machine.toMachine options = .ok run) :
    (cmdRunIsolate codec fs machine options run).value = none ↔
      ∃ t ∈ (run.suiteTests.filter (selects options.l_fbt)).zipIdx,
        (callChild machine options run t.1 t.2).2 = none := by
  rw [cmdRunIsolate, readSuiteToml_of_prepareRun h]
  dsimp only
  by_cases hnone : run.suiteTests.filter (selects options.l_fbt) = []
  · rw [if_pos (.inr hnone), hnone]
    refine iff_of_false (Option.some_ne_none 1) ?_
    rintro ⟨t, ht, -⟩
    cases ht
  · rw [if_neg (not_or.mpr ⟨not_not.mpr rfl, hnone⟩)]
    exact value_isolateChildren_eq_none_iff _ 0

/-- **The command returns** exactly when it has a limit, or every child that is started ends. -/
theorem value_cmdRunIsolate_ne_none_iff {codec : DoubleCodec} {cwd : Text} {fs : FileSystem}
    {machine : WindowsMachine}
    (h : prepareRun codec cwd fs machine.toMachine options = .ok run) :
    (cmdRunIsolate codec fs machine options run).value ≠ none ↔
      timeoutSeconds options ≠ 0 ∨
        ∀ index < run.suiteTests.countP (selects options.l_fbt),
          machine.starts index = true → machine.duration index ≠ none := by
  rw [ne_eq, value_cmdRunIsolate_eq_none_iff h, List.countP_eq_length_filter]
  generalize run.suiteTests.filter (selects options.l_fbt) = tests
  have hloop : (∃ t ∈ tests.zipIdx, (callChild machine options run t.1 t.2).2 = none) ↔
      timeoutSeconds options = 0 ∧ ∃ index < tests.length,
        machine.starts index = true ∧ machine.duration index = none := by
    constructor
    · rintro ⟨⟨test, index⟩, hmem, hnone⟩
      obtain ⟨hseconds, hends⟩ := (callChild_eq_none_iff machine options run test index).mp hnone
      exact ⟨hseconds, index, List.snd_lt_of_mem_zipIdx hmem, hends⟩
    · rintro ⟨hseconds, index, hlt, hends⟩
      refine ⟨(tests[index], index), ?_, ?_⟩
      · exact List.mk_mem_zipIdx_iff_getElem?.mpr (List.getElem?_eq_getElem hlt)
      · exact (callChild_eq_none_iff machine options run _ index).mpr ⟨hseconds, hends⟩
  rw [hloop]
  push Not
  exact imp_iff_not_or

theorem value_cmdRunIsolate_ne_none_sample :
    ∃ run, prepareRun sampleCodec "/w".toList (sampleFiles ["a".toList]) (sampleMachine true) {} =
        .ok run ∧
      (cmdRunIsolate sampleCodec (sampleFiles ["a".toList]) sampleWindowsMachine {} run).value ≠
        none := by
  obtain ⟨run, test, hrun, -⟩ := exists_prepareRun_sample
  have hprepared : prepareRun sampleCodec "/w".toList (sampleFiles ["a".toList])
      sampleWindowsMachine.toMachine {} = .ok run := hrun
  exact ⟨run, hrun, (value_cmdRunIsolate_ne_none_iff hprepared).mpr (.inl (by decide))⟩

/-! ### Reports -/

/-- What is known of a child whose wait came back. -/
abbrev Report := IsolatedOutcome × Option Text

/-- The report of a selected test, if its wait comes back. -/
def report? (machine : CapturingMachine) (options : RunOptions) (run : PreparedRun)
    (t : SuiteTestEntry × ℕ) : Option Report :=
  (callChild machine.toWindowsMachine options run t.1 t.2).2.map fun result =>
    (.ofResult t.1.m_Config.m_Id result, machine.captured t.2)

/-- The reports of failures. -/
def failures (reports : List Report) : ℕ :=
  reports.countP (!·.1.m_Passed)

/-- The lines of the failures. -/
def failuresText (seconds : UInt32) (reports : List Report) : Text :=
  reports.flatMap fun report =>
    if report.1.m_Passed then [] else failText seconds report.1 report.2

/-- The summary of all reports. -/
def summaryText (reports : List Report) : Text :=
  natText (reports.countP (·.1.m_Passed)) ++ "/".toList ++ natText reports.length ++
    " passed\n".toList ++
    (if failures reports ≠ 0 then
      "failed:\n".toList ++
        (reports.filter (!·.1.m_Passed)).flatMap fun report => summaryLine report.1
    else [])

/-- The lines of a finished run. -/
def plainText (seconds : UInt32) (reports : List Report) : Text :=
  failuresText seconds reports ++
    (progressLine reports.length reports.length (failures reports) ++ ['\n']) ++
    summaryText reports

theorem failuresText_concat (reports : List Report) (report : Report) :
    failuresText seconds (reports ++ [report]) = failuresText seconds reports ++
      (if report.1.m_Passed then [] else failText seconds report.1 report.2) := by
  rw [failuresText, List.flatMap_append, List.flatMap_singleton]
  rfl

theorem failures_concat (reports : List Report) (report : Report) :
    failures (reports ++ [report]) =
      if report.1.m_Passed then failures reports else failures reports + 1 := by
  rw [failures, List.countP_append, List.countP_singleton, ← failures]
  cases report.1.m_Passed with
  | false => rfl
  | true => rfl

/-- The lines of a failure end with a newline. -/
theorem exists_failText_eq (seconds : UInt32) (outcome : IsolatedOutcome)
    (captured : Option Text) :
    ∃ text, failText seconds outcome captured = text ++ ['\n'] := by
  have hdump : dumpCaptured captured = [] ∨ ∃ text, dumpCaptured captured = text ++ ['\n'] := by
    cases captured with
    | none => exact .inl rfl
    | some content =>
        rw [dumpCaptured]
        rcases List.eq_nil_or_concat (getLines content) with hnone | ⟨lines, line, hlines⟩
        · exact .inl (by rw [hnone, List.flatMap_nil])
        · refine .inr ⟨lines.flatMap (fun line => "    ".toList ++ line ++ ['\n']) ++
            ("    ".toList ++ line), ?_⟩
          rw [hlines, List.concat_eq_append, List.flatMap_append, List.flatMap_singleton]
          simp only [List.append_assoc]
  unfold failText
  rcases hdump with hnone | ⟨text, htext⟩
  · rw [hnone, List.append_nil]
    split
    · exact ⟨"FAIL: ".toList ++ outcome.m_Id ++ (" (timed out after ".toList ++
        natText seconds.toNat ++ "s)".toList), by simp⟩
    · exact ⟨"FAIL: ".toList ++ outcome.m_Id ++ (" (exit ".toList ++
        intText outcome.m_ExitCode.toInt ++ ")".toList), by simp⟩
  · rw [htext, ← List.append_assoc]
    exact ⟨_, rfl⟩

/-- Below the lines of failures nothing is written. -/
theorem isFresh_failuresText (h : screen.IsFresh) (seconds : UInt32) (reports : List Report) :
    (screen.print (failuresText seconds reports)).IsFresh := by
  induction reports using List.reverseRecOn with
  | nil => exact h
  | append_singleton reports report ih =>
      rw [failuresText_concat]
      split
      · rw [List.append_nil]
        exact ih
      · obtain ⟨text, htext⟩ := exists_failText_eq seconds report.1 report.2
        rw [htext, ← List.append_assoc]
        exact isFresh_print_newline _ _

/-! ### What the loop keeps -/

/-- A screen on which the loop knows what to cover: above the last row are the lines of the
failures, and the variables are those of the reports. -/
structure Shows (screen : Screen) (seconds : UInt32) (reports : List Report)
    (loop : IsolateLoop) (shown : Screen) : Prop where
  finished : shown.finished = (screen.print (failuresText seconds reports)).finished
  blank : BlankFrom shown.row loop.l_clearWidth
  outcomes : loop.l_outcomes = reports.map Prod.fst
  failedCount : loop.l_failedCount = failures reports

/-- The bar covers what it is drawn over. -/
theorem drawProgressBar_eq (done total failed clearWidth : ℕ) :
    drawProgressBar done total failed clearWidth =
      ('\r' :: (progressLine done total failed ++ List.replicate
        (clearWidth - (progressLine done total failed).length) ' '),
        (progressLine done total failed).length) := by
  unfold drawProgressBar
  dsimp only
  split
  · rfl
  · next hle => rw [Nat.sub_eq_zero_of_le (Nat.le_of_not_lt hle), List.replicate_zero]

@[simp] theorem staysInRow_natText (n : ℕ) : StaysInRow (natText n) :=
  ⟨fun hmem => absurd (isDigit_of_mem_natText hmem) (by decide),
    fun hmem => absurd (isDigit_of_mem_natText hmem) (by decide)⟩

/-- The bar stays in its row. -/
theorem staysInRow_progressLine (done total failed : ℕ) :
    StaysInRow (progressLine done total failed) := by
  have hcells : ∀ n : ℕ, StaysInRow (List.replicate n '=') := fun n =>
    ⟨fun h => absurd (List.eq_of_mem_replicate h) (by decide),
      fun h => absurd (List.eq_of_mem_replicate h) (by decide)⟩
  have hfailed : StaysInRow
      (if 0 < failed then " (".toList ++ natText failed ++ " failed)".toList else []) := by
    split
    · simp
    · simp
  have hrest : ∀ filled : ℕ, StaysInRow (if filled < BAR_WIDTH then
      ">".toList ++ List.replicate (BAR_WIDTH - filled - 1) ' ' else []) := by
    intro filled
    split
    · simp
    · simp
  unfold progressLine
  simp only [staysInRow_append, hcells, hfailed, hrest]
  simp

/-- **A bar is drawn**: the last row is the bar. -/
theorem Shows.print_bar {reports : List Report} (h : Shows screen seconds reports loop shown)
    (done total : ℕ) :
    let bar := drawProgressBar done total loop.l_failedCount loop.l_clearWidth
    (shown.print bar.1).row = rowOf (progressLine done total (failures reports)) ∧
      Shows screen seconds reports { loop with l_clearWidth := bar.2 } (shown.print bar.1) := by
  intro bar
  have hbar : bar = _ := drawProgressBar_eq done total loop.l_failedCount loop.l_clearWidth
  obtain ⟨hfinished, hrow⟩ := print_redraw shown h.blank
    (staysInRow_progressLine done total loop.l_failedCount)
  rw [hbar, h.failedCount] at *
  refine ⟨hrow, ?_, ?_, h.outcomes, ?_⟩
  · exact hfinished.trans h.finished
  · rw [hrow]
    exact blankFrom_rowOf _
  · rfl

/-- **A child is done**: its lines are below those of the failures before. -/
theorem Shows.finish {reports : List Report} (hfresh : screen.IsFresh)
    (h : Shows screen seconds reports loop shown) (report : Report) :
    let finished := loop.finish seconds report.1 report.2
    Shows screen seconds (reports ++ [report]) finished.2 (shown.print finished.1) := by
  intro finished
  have hfinished : finished = loop.finish seconds report.1 report.2 := rfl
  rw [IsolateLoop.finish] at hfinished
  cases hpassed : report.1.m_Passed with
  | true =>
      rw [hpassed, if_pos rfl] at hfinished
      rw [hfinished]
      refine ⟨?_, h.blank, ?_, ?_⟩
      · rw [failuresText_concat, hpassed, if_pos rfl, List.append_nil]
        exact h.finished
      · rw [h.outcomes, List.map_append, List.map_singleton]
      · rw [failures_concat, hpassed, if_pos rfl]
        exact h.failedCount
  | false =>
      rw [hpassed, if_neg Bool.false_ne_true] at hfinished
      have hbefore := isFresh_failuresText hfresh seconds reports
      have hafter := isFresh_failuresText hfresh seconds (reports ++ [report])
      have hprint : shown.print finished.1 =
          screen.print (failuresText seconds (reports ++ [report])) := by
        rw [hfinished, failuresText_concat, hpassed, if_neg Bool.false_ne_true, print_append,
          print_append, print_erase shown h.blank, h.finished, ← hbefore.eq]
      rw [hprint, hfinished]
      refine ⟨rfl, ?_, ?_, ?_⟩
      · intro i _
        rw [hafter.1]
        rfl
      · rw [h.outcomes, List.map_append, List.map_singleton]
      · rw [failures_concat, hpassed, if_neg Bool.false_ne_true, h.failedCount]

/-- The screen at the start of the run. -/
theorem Shows.initial (hfresh : screen.IsFresh) : Shows screen seconds [] {} screen where
  finished := rfl
  blank := by
    intro i _
    rw [hfresh.1]
    rfl
  outcomes := rfl
  failedCount := rfl

/-! ### Whole runs -/

/-- A turn prints its bar. -/
theorem textOf_turnEvents (machine : WindowsMachine) (options : RunOptions) (run : PreparedRun)
    (total : ℕ) (loop : IsolateLoop) (test : SuiteTestEntry) (l_i : ℕ) :
    textOf (turnEvents machine options run total loop test l_i) =
      (drawProgressBar l_i total loop.l_failedCount loop.l_clearWidth).1 := by
  simp [turnEvents]

/-- **The loop that ends** has a report of every test. -/
theorem shows_isolateTurns (hfresh : screen.IsFresh) {tests : List (SuiteTestEntry × ℕ)}
    {reports : List Report} (h : Shows screen (timeoutSeconds options) reports loop shown)
    {last : IsolateLoop}
    (hlast : (isolateTurns machine options run total loop tests).2 = some last) :
    ∃ later, tests.map (report? machine options run) = later.map some ∧
      Shows screen (timeoutSeconds options) (reports ++ later) last
        (shown.print (textOf (isolateTurns machine options run total loop tests).1)) := by
  induction tests generalizing reports loop shown with
  | nil =>
      obtain rfl := Option.some.inj hlast
      refine ⟨[], rfl, ?_⟩
      rw [List.append_nil]
      exact h
  | cons t rest ih =>
      rw [isolateTurns] at hlast ⊢
      dsimp only at hlast ⊢
      cases hresult : (callChild machine.toWindowsMachine options run t.1 t.2).2 with
      | none =>
          rw [hresult] at hlast
          cases hlast
      | some result =>
          rw [hresult] at hlast
          dsimp only at hlast ⊢
          have hturn := Shows.finish hfresh (h.print_bar t.2 total).2
            (.ofResult t.1.m_Config.m_Id result, machine.captured t.2)
          obtain ⟨later, hlater, hshows⟩ := ih hturn hlast
          refine ⟨(.ofResult t.1.m_Config.m_Id result, machine.captured t.2) :: later, ?_, ?_⟩
          · rw [List.map_cons, List.map_cons, hlater, report?, hresult]
            rfl
          · rw [textOf_append, textOf_turnEvents, textOf_print, print_append, print_append]
            rw [List.append_assoc] at hshows
            exact hshows

/-- The only child of a turn is started below its bar. -/
theorem eq_of_mem_observations_turnEvents {machine : WindowsMachine} {test : SuiteTestEntry}
    {l_i : ℕ} {args : List Text} {l_waitMs : UInt32} {seen : Screen}
    (h : (CommandAction.startChild args l_waitMs, seen) ∈
      observations shown (turnEvents machine options run total loop test l_i)) :
    args = childArguments options test.m_Config.m_Id ∧
      seen = shown.print (drawProgressBar l_i total loop.l_failedCount loop.l_clearWidth).1 := by
  rw [turnEvents, observations_append, observations_map_act, textOf_map_act, observations,
    observations_map_act, List.mem_append, List.mem_map, List.mem_map] at h
  rcases h with ⟨action, haction, heq⟩ | ⟨action, haction, heq⟩
  · obtain ⟨rfl, -⟩ := Prod.mk.inj heq
    rw [pauseBefore] at haction
    split at haction
    · cases List.mem_singleton.mp haction
    · cases haction
  · obtain ⟨rfl, rfl⟩ := Prod.mk.inj heq
    rw [callChild] at haction
    cases hstarts : machine.starts l_i with
    | false =>
        rw [runProcessTimed_of_not_starts hstarts] at haction
        cases haction
    | true =>
        rw [runProcessTimed_of_starts hstarts] at haction
        obtain ⟨rfl, -⟩ := CommandAction.startChild.inj (List.mem_singleton.mp haction)
        exact ⟨rfl, rfl⟩

/-- **While a child runs**, the row is its bar. -/
theorem observations_isolateTurns (hfresh : screen.IsFresh)
    {tests : List (SuiteTestEntry × ℕ)} {reports : List Report}
    (h : Shows screen (timeoutSeconds options) reports loop shown) {args : List Text}
    {l_waitMs : UInt32} {seen : Screen}
    (hmem : (CommandAction.startChild args l_waitMs, seen) ∈
      observations shown (isolateTurns machine options run total loop tests).1) :
    ∃ done t rest later, tests = done ++ t :: rest ∧
      done.map (report? machine options run) = later.map some ∧
      args = childArguments options t.1.m_Config.m_Id ∧
      seen.row = rowOf (progressLine t.2 total (failures (reports ++ later))) ∧
      seen.finished =
        (screen.print (failuresText (timeoutSeconds options) (reports ++ later))).finished := by
  induction tests generalizing reports loop shown with
  | nil => cases hmem
  | cons t rest ih =>
      have hbar := h.print_bar t.2 total
      have hhere : (CommandAction.startChild args l_waitMs, seen) ∈ observations shown
          (turnEvents machine.toWindowsMachine options run total loop t.1 t.2) →
          ∃ done t' rest' later, t :: rest = done ++ t' :: rest' ∧
            done.map (report? machine options run) = later.map some ∧
            args = childArguments options t'.1.m_Config.m_Id ∧
            seen.row = rowOf (progressLine t'.2 total (failures (reports ++ later))) ∧
            seen.finished = (screen.print
              (failuresText (timeoutSeconds options) (reports ++ later))).finished := by
        intro hmem
        obtain ⟨hargs, hseen⟩ := eq_of_mem_observations_turnEvents hmem
        refine ⟨[], t, rest, [], rfl, rfl, hargs, ?_, ?_⟩
        · rw [hseen, List.append_nil]
          exact hbar.1
        · rw [hseen, List.append_nil]
          exact hbar.2.finished
      rw [isolateTurns] at hmem
      dsimp only at hmem
      cases hresult : (callChild machine.toWindowsMachine options run t.1 t.2).2 with
      | none =>
          rw [hresult] at hmem
          exact hhere hmem
      | some result =>
          rw [hresult] at hmem
          dsimp only at hmem
          rw [observations_append, List.mem_append] at hmem
          rcases hmem with hmem | hmem
          · exact hhere hmem
          · rw [textOf_turnEvents, observations] at hmem
            have hturn := Shows.finish hfresh hbar.2
              (.ofResult t.1.m_Config.m_Id result, machine.captured t.2)
            obtain ⟨done, t', rest', later, rfl, hlater, hargs, hrow, hfinished⟩ := ih hturn hmem
            rw [List.append_assoc] at hrow hfinished
            refine ⟨t :: done, t', rest', _ :: later, rfl, ?_, hargs, hrow, hfinished⟩
            rw [List.map_cons, List.map_cons, hlater, report?, hresult]
            rfl

/-- Isolate mode with its screen, once its run is prepared. -/
theorem isolateConsole_of_prepareRun {codec : DoubleCodec} {cwd : Text} {fs : FileSystem}
    (h : prepareRun codec cwd fs machine.toMachine options = .ok run)
    (hsome : run.suiteTests.filter (selects options.l_fbt) ≠ []) :
    isolateConsole codec fs machine options run =
      let tests := run.suiteTests.filter (selects options.l_fbt)
      let turns := isolateTurns machine options run tests.length {} tests.zipIdx
      match turns.2 with
      | none => { events := turns.1, value := none }
      | some loop =>
        { events := turns.1 ++ [.print (loop.summary tests.length)]
          value := some (if loop.l_failedCount ≠ 0 then 1 else 0) } := by
  rw [isolateConsole, readSuiteToml_of_prepareRun h]
  dsimp only
  rw [if_neg (not_not.mpr rfl), if_neg hsome]

/-- Nothing is done once the loop has ended. -/
theorem observations_isolateConsole {codec : DoubleCodec} {cwd : Text} {fs : FileSystem}
    (h : prepareRun codec cwd fs machine.toMachine options = .ok run)
    (hsome : run.suiteTests.filter (selects options.l_fbt) ≠ []) (screen : Screen) :
    observations screen (isolateConsole codec fs machine options run).events =
      observations screen (isolateTurns machine options run
        (run.suiteTests.filter (selects options.l_fbt)).length {}
        (run.suiteTests.filter (selects options.l_fbt)).zipIdx).1 := by
  rw [isolateConsole_of_prepareRun h hsome]
  generalize run.suiteTests.filter (selects options.l_fbt) = tests
  dsimp only
  cases (isolateTurns machine options run tests.length {} tests.zipIdx).2 with
  | none => rfl
  | some loop =>
      dsimp only
      rw [observations_append]
      exact List.append_nil _

/-- The sample machine, with an empty capture file. -/
def sampleCapturingMachine : CapturingMachine :=
  { sampleWindowsMachine with }

/-- The sample suite can be run on it, and has a test. -/
theorem exists_prepareRun_capturing :
    ∃ run test, prepareRun sampleCodec "/w".toList (sampleFiles ["a".toList])
      sampleCapturingMachine.toMachine {} = .ok run ∧
        run.suiteTests.filter (selects (RunOptions.l_fbt {})) = [test] := by
  obtain ⟨run, test, hrun, htests⟩ := exists_prepareRun_sample
  refine ⟨run, test, hrun, ?_⟩
  rw [htests]
  rfl

/-- What is done in the first turn. -/
theorem observations_turnEvents_subset (tests : List (SuiteTestEntry × ℕ))
    (t : SuiteTestEntry × ℕ) :
    observations shown (turnEvents machine.toWindowsMachine options run total loop t.1 t.2) ⊆
      observations shown (isolateTurns machine options run total loop (t :: tests)).1 := by
  rw [isolateTurns]
  dsimp only
  cases (callChild machine.toWindowsMachine options run t.1 t.2).2 with
  | none => exact List.Subset.refl _
  | some result =>
      dsimp only
      rw [observations_append]
      exact List.subset_append_left _ _

/-- The summary of the loop is the summary of the reports. -/
theorem Shows.summary_eq {reports : List Report} (h : Shows screen seconds reports loop shown) :
    loop.summary reports.length =
      (drawProgressBar reports.length reports.length loop.l_failedCount loop.l_clearWidth).1 ++
        ['\n'] ++ summaryText reports := by
  have hcount : reports.length - failures reports = reports.countP (·.1.m_Passed) := by
    have htotal := List.length_eq_countP_add_countP (fun report : Report => report.1.m_Passed)
      (l := reports)
    have hnot : reports.countP (fun report => ¬ report.1.m_Passed = true) = failures reports := by
      rw [failures]
      exact List.countP_congr fun report _ => by simp
    omega
  have hlines : ((reports.map Prod.fst).filter (!·.m_Passed)).flatMap summaryLine =
      (reports.filter (!·.1.m_Passed)).flatMap fun report => summaryLine report.1 := by
    rw [List.filter_map, List.flatMap_map]
    rfl
  unfold IsolateLoop.summary summaryText
  rw [h.outcomes, h.failedCount, List.length_map, hcount, hlines]
  simp only [List.append_assoc]

/-- **The summary** below the lines of the failures. -/
theorem Shows.print_summary {reports : List Report} (hfresh : screen.IsFresh)
    (h : Shows screen seconds reports loop shown) :
    shown.print (loop.summary reports.length) = screen.print (plainText seconds reports) := by
  obtain ⟨hrow, hbar⟩ := h.print_bar reports.length reports.length
  have hline := print_line (isFresh_failuresText hfresh seconds reports)
    (staysInRow_progressLine reports.length reports.length (failures reports))
  rw [h.summary_eq, print_append, print_newline, hrow, hbar.finished, plainText, print_append,
    print_append, hline]

end Hades.Runtime.Windows
