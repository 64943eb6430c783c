import Hades.ArgumentVector
import Hades.TimeLimits

/-!
# Command Lines of Isolated Runs

Windows has no argument lists. `cmdRunIsolate` writes a line for every child, the quoted path of
the program and the two flags behind it (`Commands.cpp`, `ProcessExec.cpp`), and the runtime of
the child cuts it into the arguments of `main` again. Only the path is quoted: the id comes from
`suite.toml`, where it may be any text, and the format from the command's own arguments.

`cmdRunIsolateLines` is isolate mode down to the lines, `cmdRunIsolate` isolate mode with the
arguments that the lines are meant to be.

## Main results

* `lineArguments_eq_iff`: a child gets its two flags exactly when id and format are plain.
* `cmdRunIsolateLines_eq_iff`: **the runs are the same on every machine** exactly when all
  selected ids and the format are plain.
-/

namespace Hades.Runtime.Windows

open ArgumentVector

/-! ### The lines -/

/-- What the child gets of its line behind the name of the program. -/
def lineArguments (options : RunOptions) (v_ExePath r_id : Text) : List Text :=
  (arguments (childCommand options v_ExePath r_id)).tail

/-- The loop of isolate mode with the arguments that the child with an id gets. -/
def isolateSpawned (machine : WindowsMachine) (options : RunOptions) (run : PreparedRun)
    (argsOf : Text → List Text) : ℕ → List (SuiteTestEntry × ℕ) → CommandRun
  | l_failedCount, [] => { value := some (if l_failedCount ≠ 0 then 1 else 0) }
  | l_failedCount, (test, index) :: rest =>
    let args := argsOf test.m_Config.m_Id
    let call := runProcessTimed machine index args (timeoutSeconds options)
      (run.program.main (machine.compiled index) args)
    let actions := pauseBefore run index test ++ call.1
    match call.2 with
    | none => { actions, value := none }
    | some result =>
      let later := isolateSpawned machine options run argsOf
        (if result.passed then l_failedCount else l_failedCount + 1) rest
      { actions := actions ++ later.actions, value := later.value }

/-- Isolate mode down to the command lines. -/
def cmdRunIsolateLines (codec : DoubleCodec) (fs : FileSystem) (machine : WindowsMachine)
    (options : RunOptions) (run : PreparedRun) (v_ExePath : Text) : CommandRun :=
  let suiteToml := suiteTomlPath run.suiteDir
  let (entries, errors) := readSuiteToml codec suiteToml (fs suiteToml)
  let tests := entries.filter (selects options.l_fbt)
  if errors ≠ [] ∨ tests = [] then { value := some 1 }
  else isolateSpawned machine options run (lineArguments options v_ExePath) 0 tests.zipIdx

/-- The arguments of a child that is started. -/
def CommandAction.childArguments? : CommandAction → Option (List Text)
  | .sleepFor _ => none
  | .startProcess _ => none
  | .startChild args _ => some args

variable {machine : WindowsMachine} {options : RunOptions} {run : PreparedRun}
  {argsOf other : Text → List Text} {tests : List (SuiteTestEntry × ℕ)} {exePath id : Text}

/-! ### One line -/

theorem plain_append {text more : Text} (htext : Plain text) :
    Plain (text ++ more) ↔ Plain more := by
  constructor
  · exact fun h c hc => h c (List.mem_append_right text hc)
  · intro h c hc
    rcases List.mem_append.mp hc with hc | hc
    · exact htext c hc
    · exact h c hc

/-- **A child gets its flags** exactly when id and format are plain. -/
theorem lineArguments_eq_iff (hquote : '"' ∉ exePath) (hnul : '\x00' ∉ exePath)
    (options : RunOptions) (id : Text) :
    lineArguments options exePath id = childArguments options id ↔
      Plain id ∧ Plain options.l_format := by
  have hne : ∀ arg ∈ childArguments options id, arg ≠ [] := by
    intro arg harg
    rcases List.mem_pair.mp harg with rfl | rfl
    · exact List.cons_ne_nil _ _
    · exact List.cons_ne_nil _ _
  have hflags : (∀ arg ∈ childArguments options id, Plain arg) ↔
      Plain id ∧ Plain options.l_format := by
    have hfbt : Plain ("--".toList ++ "fbt".toList ++ "=".toList) := by decide
    have hformat : Plain ("--".toList ++ "format".toList ++ "=".toList) := by decide
    rw [childArguments, List.forall_mem_cons, List.forall_mem_singleton, flagArgument,
      plain_append hfbt, flagArgument, plain_append hformat]
  rw [← hflags, ← argumentsFrom_spaced_iff hne, lineArguments, childCommand_eq hquote,
    arguments_quoted hquote hnul, List.tail_cons]

/-! ### The loop -/

/-- With the arguments that are meant, the loop is that of isolate mode. -/
theorem isolateSpawned_childArguments (machine : WindowsMachine) (options : RunOptions)
    (run : PreparedRun) (failed : ℕ) (tests : List (SuiteTestEntry × ℕ)) :
    isolateSpawned machine options run (childArguments options) failed tests =
      isolateChildren machine options run failed tests := by
  induction tests generalizing failed with
  | nil => rfl
  | cons t tests ih =>
      rw [isolateSpawned, isolateChildren]
      dsimp only
      cases hcall : (runProcessTimed machine t.2 (childArguments options t.1.m_Config.m_Id)
          (timeoutSeconds options) (run.child machine.toMachine options t.2 t.1)).2 with
      | none =>
          rw [PreparedRun.child] at hcall ⊢
          rw [hcall]
      | some result =>
          rw [PreparedRun.child] at hcall ⊢
          rw [hcall]
          dsimp only
          rw [ih]

/-- Only the ids of the tests matter. -/
theorem isolateSpawned_congr (h : ∀ t ∈ tests, argsOf t.1.m_Config.m_Id = other t.1.m_Config.m_Id)
    (failed : ℕ) :
    isolateSpawned machine options run argsOf failed tests =
      isolateSpawned machine options run other failed tests := by
  induction tests generalizing failed with
  | nil => rfl
  | cons t tests ih =>
      rw [isolateSpawned, isolateSpawned]
      dsimp only
      rw [h t List.mem_cons_self]
      cases (runProcessTimed machine t.2 (other t.1.m_Config.m_Id) (timeoutSeconds options)
          (run.program.main (machine.compiled t.2) (other t.1.m_Config.m_Id))).2 with
      | none => rfl
      | some result =>
          dsimp only
          rw [ih fun t' ht' => h t' (List.mem_cons_of_mem t ht')]

/-- Where every child is started and ends at once, every test has its child. -/
theorem childArguments?_isolateSpawned (hstarts : ∀ index, machine.starts index = true)
    (hends : ∀ index, machine.duration index = some 0) (options : RunOptions)
    (run : PreparedRun) (argsOf : Text → List Text) (tests : List (SuiteTestEntry × ℕ))
    (failed : ℕ) :
    (isolateSpawned machine options run argsOf failed tests).actions.filterMap
        CommandAction.childArguments? =
      tests.map fun t => argsOf t.1.m_Config.m_Id := by
  induction tests generalizing failed with
  | nil => rfl
  | cons t tests ih =>
      have hpause : (pauseBefore run t.2 t.1).filterMap CommandAction.childArguments? = [] := by
        rw [pauseBefore]
        split
        · rfl
        · rfl
      obtain ⟨timedOut, hwait⟩ : ∃ timedOut,
          timesOut? (timeLimit (waitMs (timeoutSeconds options))) (some 0) = some timedOut := by
        cases timeLimit (waitMs (timeoutSeconds options)) with
        | none => exact ⟨_, rfl⟩
        | some limit => exact ⟨_, rfl⟩
      rw [isolateSpawned, List.map_cons]
      dsimp only
      rw [runProcessTimed_of_starts (hstarts t.2), hends, hwait, Option.map_some]
      dsimp only
      rw [List.filterMap_append, List.filterMap_append, hpause, ih]
      rfl

/-- **Two ways to give arguments** make the same run on every machine exactly when they agree
on the ids. -/
theorem isolateSpawned_eq_iff (setup : Machine) :
    (∀ machine : WindowsMachine, isolateSpawned machine options run argsOf 0 tests =
        isolateSpawned machine options run other 0 tests) ↔
      ∀ t ∈ tests, argsOf t.1.m_Config.m_Id = other t.1.m_Config.m_Id := by
  constructor
  · intro h t ht
    let quick : WindowsMachine := { toMachine := setup, duration := fun _ => some 0 }
    have hstarts : ∀ index, quick.starts index = true := fun _ => rfl
    have hends : ∀ index, quick.duration index = some 0 := fun _ => rfl
    have hactions := childArguments?_isolateSpawned hstarts hends options run argsOf tests 0
    rw [h quick, childArguments?_isolateSpawned hstarts hends] at hactions
    exact (List.map_inj_left.mp hactions t ht).symm
  · exact fun h machine => isolateSpawned_congr h 0

/-! ### The command -/

theorem forall_mem_zipIdx (tests : List SuiteTestEntry) (p : SuiteTestEntry → Prop) :
    (∀ t ∈ tests.zipIdx, p t.1) ↔ ∀ test ∈ tests, p test := by
  rw [← List.forall_mem_map (f := Prod.fst) (P := p), List.zipIdx_map_fst]

/-- **Command lines change nothing**, on any machine, exactly when the ids of all selected tests
and the format are plain. -/
theorem cmdRunIsolateLines_eq_iff {codec : DoubleCodec} {cwd : Text} {fs : FileSystem}
    {setup : Machine} (h : prepareRun codec cwd fs setup options = .ok run)
    (hquote : '"' ∉ exePath) (hnul : '\x00' ∉ exePath) :
    (∀ machine, cmdRunIsolateLines codec fs machine options run exePath =
        cmdRunIsolate codec fs machine options run) ↔
      ∀ test ∈ run.suiteTests.filter (selects options.l_fbt),
        Plain test.m_Config.m_Id ∧ Plain options.l_format := by
  have hlines : ∀ test : SuiteTestEntry, Plain test.m_Config.m_Id ∧ Plain options.l_format ↔
      lineArguments options exePath test.m_Config.m_Id =
        childArguments options test.m_Config.m_Id := fun test =>
    (lineArguments_eq_iff hquote hnul options test.m_Config.m_Id).symm
  simp only [hlines, cmdRunIsolateLines, cmdRunIsolate, readSuiteToml_of_prepareRun h]
  by_cases hnone : run.suiteTests.filter (selects options.l_fbt) = []
  · rw [hnone]
    exact iff_of_true (fun _ => rfl) (fun test htest => absurd htest List.not_mem_nil)
  · simp only [if_neg (not_or.mpr ⟨not_not.mpr rfl, hnone⟩), ← isolateSpawned_childArguments]
    rw [isolateSpawned_eq_iff setup]
    exact forall_mem_zipIdx _ fun test => lineArguments options exePath test.m_Config.m_Id =
      childArguments options test.m_Config.m_Id

theorem cmdRunIsolateLines_eq_sample :
    ∃ run, prepareRun sampleCodec "/w".toList (sampleFiles ["a".toList]) (sampleMachine true) {} =
        .ok run ∧
      ∀ machine, cmdRunIsolateLines sampleCodec (sampleFiles ["a".toList]) machine {} run
          "C:/my suites/a.exe".toList =
        cmdRunIsolate sampleCodec (sampleFiles ["a".toList]) machine {} run := by
  have hids : ((prepareRun sampleCodec "/w".toList (sampleFiles ["a".toList])
      (sampleMachine true) {}).toOption.map fun run =>
        run.suiteTests.all fun test => test.m_Config.m_Id.all isPlain) = some true := by
    decide +kernel
  obtain ⟨run, -, hrun, -⟩ := exists_prepareRun_sample
  rw [hrun] at hids
  have hplain := List.all_eq_true.mp (Option.some.inj hids)
  refine ⟨run, hrun, (cmdRunIsolateLines_eq_iff hrun (by decide) (by decide)).mpr ?_⟩
  intro test htest
  have hid := hplain test (List.mem_filter.mp htest).1
  exact ⟨List.all_eq_true.mp hid, by decide⟩

end Hades.Runtime.Windows
