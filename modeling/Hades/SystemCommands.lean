import Hades.RunModes
import Hades.ShellWords

/-!
# Commands That Go Through the Shell

Outside Windows both modes of `hades-driver run` write a line and hand it to `std::system`
(`Commands.cpp`, `ProcessExec.cpp`). Only the path in it is quoted; the pattern, the ids and the
format are cut into words by `sh` like anything else. A line that is nothing but the program and
its arguments is a call of the program, whatever these are; what the shell makes of any other
line is up to the shell.

A test may end its process, by a signal or in other ways, with any wait status. Isolate mode
turns the statuses into zero or one; native mode returns the one status as it is, and a multiple
of 256 is a successful exit status.

## Main results

* `exitStatus_run_iff`: when **the exit status tells whether every executed test passed**, with
  every shell that reads calls as calls.
* `cmdRun_eq_of_handsOn`: with plain ids, patterns and formats, and tests that let their process
  end, a run is that of `Hades.RunCommand`.
-/

namespace Hades.Runtime.Posix

/-! ### Processes -/

/-- How a test ends its process: its place among the executions of the process, and the wait
status. -/
structure BrokenOff where
  execution : ℕ
  status : ℕ

/-- What the machine does besides: where the program is found, which words match files of the
working directory, and in which processes a test ends the process. -/
structure PosixMachine extends Machine where
  l_exePath : Text
  expands : ShellWords.Word → Bool := fun _ => false
  brokenOff : ℕ → Option BrokenOff := fun _ => none

/-- What came of a line: the tests that were executed, with their results if they got to one,
and the wait status. -/
structure SystemResult where
  executed : List (SuiteTestEntry × Option BenchmarkResult) := []
  status : ℕ

/-- What the shell makes of a line. -/
inductive ShellReading where
  | call (args : List Text)
  | other (result : SystemResult)

/-- The arguments of a line that is a call of the program. -/
def PosixMachine.arguments? (machine : PosixMachine) (v_Command : Text) : Option (List Text) :=
  match ShellWords.words? machine.expands (cString v_Command) with
  | some (name :: args) => if name = machine.l_exePath then some args else none
  | _ => none

/-- A shell that reads calls as calls. -/
def ReadsCalls (machine : PosixMachine) (sh : Text → ShellReading) : Prop :=
  ∀ (v_Command : Text) (args : List Text), machine.arguments? v_Command = some args →
    sh (cString v_Command) = .call args

/-- The test that ends the process of an index, if it is among the first ones. -/
def PosixMachine.breaks? (machine : PosixMachine) (index tests : ℕ) : Option BrokenOff :=
  (machine.brokenOff index).filter fun broken => broken.execution < tests

/-- A process of the program. -/
def PosixMachine.startProgram (machine : PosixMachine) (program : GeneratedProgram) (index : ℕ)
    (args : List Text) : SystemResult :=
  let process := program.main (machine.compiled index) args
  let executed := executions process.actions
  match machine.breaks? index executed.length with
  | none => { executed := executed.map fun e => (e.1, some e.2), status := waitStatus process }
  | some broken =>
    { executed := (executed.take broken.execution).map (fun e => (e.1, some e.2)) ++
        (executed[broken.execution]?.map fun e => (e.1, none)).toList
      status := broken.status }

/-- `std::system` with a line for the process of an index. -/
def runProcess (sh : Text → ShellReading) (machine : PosixMachine) (program : GeneratedProgram)
    (index : ℕ) (v_Command : Text) : SystemResult :=
  match sh (cString v_Command) with
  | .call args => machine.startProgram program index args
  | .other result => result

/-! ### The command -/

/-- The processes of a run, and the value that it returns. -/
structure CommandRun where
  processes : List SystemResult := []
  value : ℕ

/-- Everything that was executed. -/
def CommandRun.executed (run : CommandRun) : List (SuiteTestEntry × Option BenchmarkResult) :=
  run.processes.flatMap SystemResult.executed

/-- Native mode: the status of the one process is returned. -/
def runNative (sh : Text → ShellReading) (machine : PosixMachine) (options : RunOptions)
    (run : PreparedRun) : CommandRun :=
  let result := runProcess sh machine run.program 0
    (nativeCommand options machine.l_exePath run.cooldownSeconds)
  { processes := [result], value := result.status }

/-- The line of the child for a test. -/
def childLine (machine : PosixMachine) (options : RunOptions) (test : SuiteTestEntry) : Text :=
  childCommand options machine.l_exePath test.m_Config.m_Id

/-- Isolate mode: a line for every selected test. -/
def cmdRunIsolate (codec : DoubleCodec) (fs : FileSystem) (sh : Text → ShellReading)
    (machine : PosixMachine) (options : RunOptions) (run : PreparedRun) : CommandRun :=
  let suiteToml := suiteTomlPath run.suiteDir
  let (entries, errors) := readSuiteToml codec suiteToml (fs suiteToml)
  let tests := entries.filter (selects options.l_fbt)
  if errors ≠ [] ∨ tests = [] then { value := 1 }
  else
    let children := tests.zipIdx.map fun t =>
      runProcess sh machine run.program t.2 (childLine machine options t.1)
    { processes := children
      value := if children.countP (·.status ≠ 0) = 0 then 0 else 1 }

/-- The command; the pauses of isolate mode are left out. -/
def cmdRun (codec : DoubleCodec) (cwd : Text) (fs : FileSystem) (sh : Text → ShellReading)
    (machine : PosixMachine) (args : List Text) : CommandRun :=
  let options := args.foldl RunOptions.parse {}
  match prepareRun codec cwd fs machine.toMachine options with
  | .error value => { value }
  | .ok run =>
    if options.l_isolate then cmdRunIsolate codec fs sh machine options run
    else runNative sh machine options run

/-! ### One process -/

/-- An executed test passed: it got to a result, and that one passed. -/
def Passed (e : SuiteTestEntry × Option BenchmarkResult) : Prop :=
  ∃ result, e.2 = some result ∧ result.passed = true

instance (e : SuiteTestEntry × Option BenchmarkResult) : Decidable (Passed e) :=
  decidable_of_iff (e.2.any BenchmarkResult.passed = true) (Option.any_eq_true _ _)

/-- The tests that a process with these arguments is to execute. -/
def selectedBy (program : GeneratedProgram) (args : List Text) : List SuiteTestEntry :=
  program.tests.filter (selects (args.foldl MainArguments.parse {}).l_fbtPattern)

/-- The test that ends a process with these arguments. -/
def PosixMachine.breaksOff? (machine : PosixMachine) (program : GeneratedProgram) (index : ℕ)
    (args : List Text) : Option BrokenOff :=
  machine.breaks? index (selectedBy program args).length

/-- No test ends the process, and the runner of every selected one reports that it passed. -/
def PosixMachine.Passes (machine : PosixMachine) (program : GeneratedProgram) (index : ℕ)
    (args : List Text) : Prop :=
  machine.breaksOff? program index args = none ∧
    ∀ t ∈ (selectedBy program args).zipIdx, ∀ fixture, program.fixtureOf t.1 = some fixture →
      (machine.compiled index fixture t.2 t.1.m_Config).passed = true

/-- A test ends the process with wait status zero. -/
def PosixMachine.EndsQuietly (machine : PosixMachine) (program : GeneratedProgram) (index : ℕ)
    (args : List Text) : Prop :=
  ∃ broken, machine.breaksOff? program index args = some broken ∧ broken.status = 0

variable {codec : DoubleCodec} {cwd : Text} {fs : FileSystem} {machine : PosixMachine}
  {sh : Text → ShellReading} {program : GeneratedProgram} {index : ℕ} {args : List Text}
  {options : RunOptions} {run : PreparedRun}

theorem length_executions_main (program : GeneratedProgram)
    (compiled : FixtureEntry → FactoryFn) (args : List Text) :
    (executions (program.main compiled args).actions).length =
      (selectedBy program args).length := by
  rw [selectedBy, ← program.executedTests_main compiled, executedTests, List.length_map]

/-- The executions of a process pass when the runners of the selected tests say so. -/
theorem executions_main_passed_iff (program : GeneratedProgram)
    (compiled : FixtureEntry → FactoryFn) (args : List Text) :
    (∀ e ∈ executions (program.main compiled args).actions, e.2.passed = true) ↔
      ∀ t ∈ (selectedBy program args).zipIdx, ∀ fixture, program.fixtureOf t.1 = some fixture →
        (compiled fixture t.2 t.1.m_Config).passed = true := by
  rw [program.executions_main compiled args, ← selectedBy]
  constructor
  · intro hpassed t ht fixture hfixture
    have h := hpassed _ (List.mem_map_of_mem ht)
    rwa [program.testResult_driver _ hfixture] at h
  · intro hall e he
    obtain ⟨t, ht, rfl⟩ := List.mem_map.mp he
    have hmem : t.1 ∈ program.tests :=
      (List.mem_filter.mp (List.fst_mem_of_mem_zipIdx ht)).1
    obtain ⟨fixture, hfixture⟩ := program.exists_fixtureOf hmem
    rw [program.testResult_driver _ hfixture]
    exact hall t ht fixture hfixture

/-- The wait status of a process that ends by itself is zero exactly when its tests passed. -/
theorem waitStatus_main_eq_zero_iff (program : GeneratedProgram)
    (compiled : FixtureEntry → FactoryFn) (args : List Text) :
    waitStatus (program.main compiled args) = 0 ↔
      ∀ e ∈ executions (program.main compiled args).actions, e.2.passed = true := by
  have hle := program.exitCode_main_le compiled args
  rw [← program.exitCode_main_eq_zero_iff, waitStatus, exitStatus]
  omega

/-- A process that no test ends. -/
theorem startProgram_of_none (h : machine.breaksOff? program index args = none) :
    machine.startProgram program index args =
      { executed := (executions (program.main (machine.compiled index) args).actions).map
          fun e => (e.1, some e.2)
        status := waitStatus (program.main (machine.compiled index) args) } := by
  rw [PosixMachine.startProgram, length_executions_main, ← PosixMachine.breaksOff?, h]

/-- The status of a process that a test ends, and that test has no result. -/
theorem startProgram_of_some {broken : BrokenOff}
    (h : machine.breaksOff? program index args = some broken) :
    (machine.startProgram program index args).status = broken.status ∧
      ∃ test, (test, none) ∈ (machine.startProgram program index args).executed := by
  have hlt : broken.execution <
      (executions (program.main (machine.compiled index) args).actions).length := by
    rw [PosixMachine.breaksOff?, PosixMachine.breaks?, Option.filter_eq_some_iff] at h
    rw [length_executions_main]
    exact of_decide_eq_true h.2
  rw [PosixMachine.startProgram, length_executions_main, ← PosixMachine.breaksOff?, h]
  refine ⟨rfl, (executions (program.main (machine.compiled index) args).actions)[
    broken.execution].1, List.mem_append_right _ ?_⟩
  rw [List.getElem?_eq_getElem hlt]
  exact List.mem_singleton_self _

/-- **The tests of a process pass** exactly when no test ends it and the runners say so. -/
theorem passed_startProgram_iff :
    (∀ e ∈ (machine.startProgram program index args).executed, Passed e) ↔
      machine.Passes program index args := by
  rw [PosixMachine.Passes, ← executions_main_passed_iff program (machine.compiled index)]
  cases hbreaks : machine.breaksOff? program index args with
  | none =>
      rw [startProgram_of_none hbreaks, List.forall_mem_map]
      constructor
      · intro hpassed
        refine ⟨rfl, fun e he => ?_⟩
        obtain ⟨result, hresult, hpass⟩ := hpassed e he
        obtain rfl := Option.some.inj hresult
        exact hpass
      · exact fun hpassed e he => ⟨e.2, rfl, hpassed.2 e he⟩
  | some broken =>
      obtain ⟨-, test, hmem⟩ := startProgram_of_some hbreaks
      constructor
      · intro hpassed
        obtain ⟨result, hresult, -⟩ := hpassed _ hmem
        cases hresult
      · rintro ⟨hnone, -⟩
        cases hnone

/-- **The status of a process** is zero exactly when its tests pass or one ends it quietly. -/
theorem status_startProgram_iff :
    (machine.startProgram program index args).status = 0 ↔
      machine.Passes program index args ∨ machine.EndsQuietly program index args := by
  rw [PosixMachine.Passes, PosixMachine.EndsQuietly]
  cases hbreaks : machine.breaksOff? program index args with
  | none =>
      rw [startProgram_of_none hbreaks]
      dsimp only
      rw [waitStatus_main_eq_zero_iff, executions_main_passed_iff]
      constructor
      · exact fun hpassed => .inl ⟨rfl, hpassed⟩
      · rintro (hpassed | ⟨broken, hbroken, -⟩)
        · exact hpassed.2
        · cases hbroken
  | some broken =>
      rw [(startProgram_of_some hbreaks).1]
      constructor
      · exact fun hzero => .inr ⟨broken, rfl, hzero⟩
      · rintro (⟨hnone, -⟩ | ⟨other, hother, hzero⟩)
        · cases hnone
        · obtain rfl := Option.some.inj hother
          exact hzero

theorem not_endsQuietly_of_passes (h : machine.Passes program index args) :
    ¬ machine.EndsQuietly program index args := by
  rintro ⟨broken, hbroken, -⟩
  rw [h.1] at hbroken
  cases hbroken

/-! ### Shells -/

/-- A shell that makes the same of every line that is no call. -/
def simpleShell (machine : PosixMachine) (other : SystemResult) (line : Text) : ShellReading :=
  match machine.arguments? line with
  | some args => .call args
  | none => .other other

theorem arguments?_cString (machine : PosixMachine) (line : Text) :
    machine.arguments? (cString line) = machine.arguments? line := by
  rw [PosixMachine.arguments?, cString_eq_self (nul_notMem_cString line),
    PosixMachine.arguments?]

theorem readsCalls_simpleShell (machine : PosixMachine) (other : SystemResult) :
    ReadsCalls machine (simpleShell machine other) := by
  intro line args h
  rw [simpleShell, arguments?_cString, h]

/-- A call. -/
theorem runProcess_of_call {line : Text} (hsh : ReadsCalls machine sh)
    (h : machine.arguments? line = some args) (program : GeneratedProgram) (index : ℕ) :
    runProcess sh machine program index line = machine.startProgram program index args := by
  rw [runProcess, hsh line args h]

theorem runProcess_simpleShell_of_none {line : Text} (h : machine.arguments? line = none)
    (other : SystemResult) (program : GeneratedProgram) (index : ℕ) :
    runProcess (simpleShell machine other) machine program index line = other := by
  rw [runProcess, simpleShell, arguments?_cString, h]

/-! ### Children -/

/-- The status of a line is sure to tell whether its tests passed. -/
def Tells (machine : PosixMachine) (program : GeneratedProgram) (index : ℕ) (line : Text) : Prop :=
  ∃ args, machine.arguments? line = some args ∧ ¬ machine.EndsQuietly program index args

/-- The status of a line is sure to tell that a test failed. -/
def TellsFailure (machine : PosixMachine) (program : GeneratedProgram) (index : ℕ) (line : Text) :
    Prop :=
  ∃ args, machine.arguments? line = some args ∧ ¬ machine.EndsQuietly program index args ∧
    ¬ machine.Passes program index args

theorem status_runProcess_of_tells {line : Text} (hsh : ReadsCalls machine sh)
    (h : Tells machine program index line) :
    (runProcess sh machine program index line).status = 0 ↔
      ∀ e ∈ (runProcess sh machine program index line).executed, Passed e := by
  obtain ⟨args, hargs, hquiet⟩ := h
  rw [runProcess_of_call hsh hargs, status_startProgram_iff, passed_startProgram_iff]
  exact or_iff_left hquiet

theorem status_runProcess_of_tellsFailure {line : Text} (hsh : ReadsCalls machine sh)
    (h : TellsFailure machine program index line) :
    (runProcess sh machine program index line).status ≠ 0 ∧
      ¬ ∀ e ∈ (runProcess sh machine program index line).executed, Passed e := by
  obtain ⟨args, hargs, hquiet, hfails⟩ := h
  rw [runProcess_of_call hsh hargs, ne_eq, status_startProgram_iff, passed_startProgram_iff]
  exact ⟨not_or.mpr ⟨hfails, hquiet⟩, hfails⟩

/-- A line that does not tell of a failure: no call, one whose tests pass, or one that ends
quietly. -/
theorem line_cases {line : Text} (h : ¬ TellsFailure machine program index line) :
    machine.arguments? line = none ∨
      ∃ args, machine.arguments? line = some args ∧
        (machine.Passes program index args ∨ machine.EndsQuietly program index args) := by
  cases hargs : machine.arguments? line with
  | none => exact .inl rfl
  | some args =>
      refine .inr ⟨args, rfl, ?_⟩
      by_contra hneither
      obtain ⟨hfails, hquiet⟩ := not_or.mp hneither
      exact h ⟨args, hargs, hquiet, hfails⟩

/-- **The statuses of some lines tell** whether all their tests passed, with every shell,
exactly when all of them tell, or one of them tells of a failure. -/
theorem statuses_tell_iff (lines : List (ℕ × Text)) :
    (∀ sh, ReadsCalls machine sh →
        ((∀ t ∈ lines, (runProcess sh machine program t.1 t.2).status = 0) ↔
          ∀ t ∈ lines, ∀ e ∈ (runProcess sh machine program t.1 t.2).executed, Passed e)) ↔
      (∀ t ∈ lines, Tells machine program t.1 t.2) ∨
        ∃ t ∈ lines, TellsFailure machine program t.1 t.2 := by
  constructor
  · intro h
    by_contra hneither
    push Not at hneither
    obtain ⟨⟨t, ht, hsilent⟩, hnofailure⟩ := hneither
    by_cases hquiet : ∃ t ∈ lines, ∃ args, machine.arguments? t.2 = some args ∧
        machine.EndsQuietly program t.1 args
    · -- a shell that reports success for the other lines hides the test that broke off
      obtain ⟨quiet, hmem, args, hargs, hends⟩ := hquiet
      have hsh := readsCalls_simpleShell machine { status := 0 }
      have hpassed := (h _ hsh).mp ?_ quiet hmem
      · rw [runProcess_of_call hsh hargs, passed_startProgram_iff] at hpassed
        exact not_endsQuietly_of_passes hpassed hends
      · intro t ht
        rcases line_cases (hnofailure t ht) with hnone | ⟨args, hargs, hzero⟩
        · rw [runProcess_simpleShell_of_none hnone]
        · rw [runProcess_of_call hsh hargs]
          exact status_startProgram_iff.mpr hzero
    · -- a shell that reports a failure for the other lines accuses tests that never ran
      have hsh := readsCalls_simpleShell machine { status := 1 }
      have hzero := (h _ hsh).mpr ?_ t ht
      · cases hargs : machine.arguments? t.2 with
        | none =>
            rw [runProcess_simpleShell_of_none hargs] at hzero
            exact Nat.one_ne_zero hzero
        | some args => exact hsilent ⟨args, hargs, fun hends => hquiet ⟨t, ht, args, hargs, hends⟩⟩
      · intro t ht
        rcases line_cases (hnofailure t ht) with hnone | ⟨args, hargs, hpasses | hends⟩
        · rw [runProcess_simpleShell_of_none hnone]
          exact fun e he => absurd he List.not_mem_nil
        · rw [runProcess_of_call hsh hargs]
          exact passed_startProgram_iff.mpr hpasses
        · exact absurd ⟨t, ht, args, hargs, hends⟩ hquiet
  · rintro (htells | ⟨t, ht, hfails⟩) sh hsh
    · exact forall₂_congr fun t ht => status_runProcess_of_tells hsh (htells t ht)
    · obtain ⟨hstatus, hpassed⟩ := status_runProcess_of_tellsFailure hsh hfails
      exact iff_of_false (fun h => hstatus (h t ht)) fun h => hpassed (h t ht)

/-! ### The exit status -/

/-- The lines of isolate mode, with the indices of their processes. -/
def childLines (machine : PosixMachine) (options : RunOptions) (run : PreparedRun) :
    List (ℕ × Text) :=
  (run.suiteTests.filter (selects options.l_fbt)).zipIdx.map fun t =>
    (t.2, childLine machine options t.1)

/-- Isolate mode: a test is selected, and all lines tell, or one of them tells of a failure. -/
def IsolateTells (machine : PosixMachine) (options : RunOptions) (run : PreparedRun) : Prop :=
  (∃ test ∈ run.suiteTests, selects options.l_fbt test = true) ∧
    ((∀ t ∈ childLines machine options run, Tells machine run.program t.1 t.2) ∨
      ∃ t ∈ childLines machine options run, TellsFailure machine run.program t.1 t.2)

/-- Native mode: the line is a call, and its tests pass or one ends the process with a status
that is no multiple of 256. -/
def NativeTells (machine : PosixMachine) (options : RunOptions) (run : PreparedRun) : Prop :=
  ∃ args,
    machine.arguments? (nativeCommand options machine.l_exePath run.cooldownSeconds) =
        some args ∧
      (machine.Passes run.program 0 args ∨
        ∃ broken, machine.breaksOff? run.program 0 args = some broken ∧
          broken.status % 256 ≠ 0)

/-- What isolate mode returns and executes, when tests are selected. -/
theorem cmdRunIsolate_eq (h : prepareRun codec cwd fs machine.toMachine options = .ok run)
    (hsome : run.suiteTests.filter (selects options.l_fbt) ≠ [])
    (sh : Text → ShellReading) :
    cmdRunIsolate codec fs sh machine options run =
      { processes := (childLines machine options run).map fun t =>
          runProcess sh machine run.program t.1 t.2
        value := if ∀ t ∈ childLines machine options run,
          (runProcess sh machine run.program t.1 t.2).status = 0 then 0 else 1 } := by
  rw [cmdRunIsolate, readSuiteToml_of_prepareRun h]
  dsimp only
  rw [if_neg (not_or.mpr ⟨not_not.mpr rfl, hsome⟩), childLines, List.map_map]
  congr 1
  refine if_congr ?_ rfl rfl
  rw [List.countP_eq_zero, List.forall_mem_map, List.forall_mem_map]
  exact forall₂_congr fun t _ => by rw [decide_eq_true_eq, not_not]

theorem exitStatus_cmdRunIsolate_iff
    (h : prepareRun codec cwd fs machine.toMachine options = .ok run) :
    (∀ sh, ReadsCalls machine sh →
        (exitStatus (cmdRunIsolate codec fs sh machine options run).value = 0 ↔
          ∀ e ∈ (cmdRunIsolate codec fs sh machine options run).executed, Passed e)) ↔
      IsolateTells machine options run := by
  by_cases hnone : run.suiteTests.filter (selects options.l_fbt) = []
  · -- nothing is selected: the value is one, and nothing is executed
    have hrun : ∀ sh, cmdRunIsolate codec fs sh machine options run = { value := 1 } := by
      intro sh
      rw [cmdRunIsolate, readSuiteToml_of_prepareRun h]
      exact if_pos (.inr hnone)
    refine iff_of_false ?_ ?_
    · intro htold
      have hstatus := (htold _ (readsCalls_simpleShell machine { status := 0 })).mpr
      rw [hrun] at hstatus
      exact Nat.one_ne_zero (hstatus fun e he => absurd he List.not_mem_nil)
    · rintro ⟨⟨test, hmem, hselected⟩, -⟩
      exact List.filter_eq_nil_iff.mp hnone test hmem hselected
  · have hselected : ∃ test ∈ run.suiteTests, selects options.l_fbt test = true := by
      obtain ⟨test, hmem⟩ := List.exists_mem_of_ne_nil _ hnone
      exact ⟨test, List.mem_filter.mp hmem⟩
    rw [IsolateTells, and_iff_right hselected, ← statuses_tell_iff]
    refine forall₂_congr fun sh _ => ?_
    rw [cmdRunIsolate_eq h hnone]
    dsimp only [CommandRun.executed]
    simp only [List.flatMap_map, List.mem_flatMap]
    have hvalue : ∀ p : Prop, [Decidable p] → (exitStatus (if p then 0 else 1) = 0 ↔ p) := by
      intro p _
      split <;> simp_all [exitStatus]
    rw [hvalue]
    refine iff_congr Iff.rfl ?_
    constructor
    · exact fun hall t ht e he => hall e ⟨t, ht, he⟩
    · rintro hall e ⟨t, ht, he⟩
      exact hall t ht e he

theorem exitStatus_waitStatus (process : ProcessRun) : exitStatus (waitStatus process) = 0 :=
  Nat.mul_mod_left _ 256

theorem exitStatus_runNative_iff :
    (∀ sh, ReadsCalls machine sh →
        (exitStatus (runNative sh machine options run).value = 0 ↔
          ∀ e ∈ (runNative sh machine options run).executed, Passed e)) ↔
      NativeTells machine options run := by
  obtain ⟨line, hline⟩ :
    ∃ line, nativeCommand options machine.l_exePath run.cooldownSeconds = line := ⟨_, rfl⟩
  simp only [NativeTells, runNative, CommandRun.executed, List.flatMap_cons, List.flatMap_nil,
    List.append_nil, hline]
  cases hargs : machine.arguments? line with
  | none =>
      -- a shell that reports a failure for the line accuses tests that never ran
      refine iff_of_false ?_ ?_
      · intro htold
        have hstatus := (htold _ (readsCalls_simpleShell machine { status := 1 })).mpr
        rw [runProcess_simpleShell_of_none hargs] at hstatus
        exact Nat.one_ne_zero (hstatus fun e he => absurd he List.not_mem_nil)
      · rintro ⟨args, hsome, -⟩
        cases hsome
  | some args =>
      have hone : (∀ sh, ReadsCalls machine sh →
          (exitStatus (runProcess sh machine run.program 0 line).status = 0 ↔
            ∀ e ∈ (runProcess sh machine run.program 0 line).executed, Passed e)) ↔
          (exitStatus (machine.startProgram run.program 0 args).status = 0 ↔
            machine.Passes run.program 0 args) := by
        rw [← passed_startProgram_iff]
        constructor
        · intro htold
          have hsh := readsCalls_simpleShell machine { status := 0 }
          have htells := htold _ hsh
          rwa [runProcess_of_call hsh hargs] at htells
        · intro htells sh hsh
          rwa [runProcess_of_call hsh hargs]
      rw [hone]
      simp only [Option.some.injEq, exists_eq_left']
      cases hbreaks : machine.breaksOff? run.program 0 args with
      | none =>
          have hzero : exitStatus (machine.startProgram run.program 0 args).status = 0 := by
            rw [startProgram_of_none hbreaks]
            exact exitStatus_waitStatus _
          rw [iff_true_left hzero]
          constructor
          · exact .inl
          · rintro (hpasses | ⟨broken, hbroken, -⟩)
            · exact hpasses
            · cases hbroken
      | some broken =>
          have hfails : ¬ machine.Passes run.program 0 args := by
            rintro ⟨hnone, -⟩
            rw [hbreaks] at hnone
            cases hnone
          rw [iff_false_right hfails, or_iff_right hfails, (startProgram_of_some hbreaks).1]
          simp only [Option.some.injEq, exists_eq_left']
          rfl

/-- **The exit status tells whether every executed test passed**, with every shell that reads
calls as calls: when it does, in both modes. -/
theorem exitStatus_run_iff {args : List Text} {run : PreparedRun}
    (h : prepareRun codec cwd fs machine.toMachine (args.foldl RunOptions.parse {}) = .ok run) :
    (∀ sh, ReadsCalls machine sh →
        (exitStatus (cmdRun codec cwd fs sh machine args).value = 0 ↔
          ∀ e ∈ (cmdRun codec cwd fs sh machine args).executed, Passed e)) ↔
      if (args.foldl RunOptions.parse {}).l_isolate then
        IsolateTells machine (args.foldl RunOptions.parse {}) run
      else NativeTells machine (args.foldl RunOptions.parse {}) run := by
  obtain ⟨options, hoptions⟩ : ∃ options, args.foldl RunOptions.parse {} = options := ⟨_, rfl⟩
  unfold cmdRun
  rw [hoptions] at h ⊢
  dsimp only
  rw [h]
  dsimp only
  cases options.l_isolate with
  | false => exact exitStatus_runNative_iff
  | true => exact exitStatus_cmdRunIsolate_iff h

/-- The sample suite's program, behind a path with a blank. -/
def samplePosixMachine (passes : Bool) : PosixMachine :=
  { toMachine := sampleMachine passes, l_exePath := "/s/generated/build/a suite".toList }

/-- A suite whose only test fails, in isolate mode. -/
theorem exitStatus_isolate_failure :
    ∃ run, prepareRun sampleCodec "/w".toList (sampleFiles ["a".toList])
        (samplePosixMachine false).toMachine { l_isolate := true } = .ok run ∧
      ((∀ sh, ReadsCalls (samplePosixMachine false) sh →
          (exitStatus (cmdRun sampleCodec "/w".toList (sampleFiles ["a".toList]) sh
              (samplePosixMachine false) ["--isolate".toList]).value = 0 ↔
            ∀ e ∈ (cmdRun sampleCodec "/w".toList (sampleFiles ["a".toList]) sh
              (samplePosixMachine false) ["--isolate".toList]).executed, Passed e)) ↔
        IsolateTells (samplePosixMachine false) { l_isolate := true } run) := by
  obtain ⟨run, hrun⟩ := exists_prepareRun_of_isOk
    (by decide +kernel : (prepareRun sampleCodec "/w".toList (sampleFiles ["a".toList])
      (sampleMachine false) { l_isolate := true }).isOk = true)
  exact ⟨run, hrun, @exitStatus_run_iff _ _ _ _ ["--isolate".toList] run hrun⟩

/-- The same suite in native mode: the test fails, and the exit status is zero. -/
theorem exitStatus_native_failure :
    let machine := samplePosixMachine false
    let run := cmdRun sampleCodec "/w".toList (sampleFiles ["a".toList])
      (simpleShell machine { status := 1 }) machine ["--native".toList]
    ReadsCalls machine (simpleShell machine { status := 1 }) ∧ exitStatus run.value = 0 ∧
      ¬ ∀ e ∈ run.executed, Passed e := by
  refine ⟨readsCalls_simpleShell _ _, ?_⟩
  decide +kernel

/-! ### Lines that are handed on as they are -/

/-- A text that the shell takes as it is. -/
def IsPlain (text : Text) : Prop :=
  ∀ c ∈ text, ShellWords.isPlain c = true ∧ c ≠ '\x00'

/-- A path that the shell takes as it is between double quotes. -/
def IsPlainPath (path : Text) : Prop :=
  ∀ c ∈ path, ShellWords.isPlainQuoted c = true ∧ c ≠ '\x00'

instance (text : Text) : Decidable (IsPlain text) :=
  inferInstanceAs (Decidable (∀ c ∈ text, _))

instance (path : Text) : Decidable (IsPlainPath path) :=
  inferInstanceAs (Decidable (∀ c ∈ path, _))

theorem isPlain_append {text more : Text} (htext : IsPlain text) (hmore : IsPlain more) :
    IsPlain (text ++ more) := by
  intro c hc
  rcases List.mem_append.mp hc with hc | hc
  · exact htext c hc
  · exact hmore c hc

/-- A flag with a plain name and a plain value. -/
theorem isPlain_flagArgument {flag value : Text} (hflag : IsPlain flag) (hvalue : IsPlain value) :
    (flagArgument flag value).head? = some '-' ∧ IsPlain (flagArgument flag value) := by
  have hdashes : IsPlain "--".toList := by decide
  have hequals : IsPlain "=".toList := by decide
  exact ⟨rfl, isPlain_append (isPlain_append (isPlain_append hdashes hflag) hequals) hvalue⟩

/-- **A line of plain arguments** is a call with these arguments. -/
theorem arguments?_spaced {args : List Text} (hpath : IsPlainPath machine.l_exePath)
    (hargs : ∀ arg ∈ args, arg.head? = some '-' ∧ IsPlain arg) :
    machine.arguments? ('"' :: machine.l_exePath ++ '"' :: ArgumentVector.spaced args) =
      some args := by
  have hnul : '\x00' ∉ '"' :: machine.l_exePath ++ '"' :: ArgumentVector.spaced args := by
    intro hmem
    rcases List.mem_append.mp hmem with hmem | hmem
    · rcases List.mem_cons.mp hmem with hmem | hmem
      · exact absurd hmem (by decide)
      · exact (hpath _ hmem).2 rfl
    · rcases List.mem_cons.mp hmem with hmem | hmem
      · exact absurd hmem (by decide)
      · obtain ⟨arg, harg, hmem⟩ := List.mem_flatMap.mp hmem
        rcases List.mem_cons.mp hmem with hmem | hmem
        · exact absurd hmem (by decide)
        · exact ((hargs arg harg).2 _ hmem).2 rfl
  rw [PosixMachine.arguments?, cString_eq_self hnul,
    ShellWords.words?_quoted_spaced (fun c hc => (hpath c hc).1)
      fun arg harg => ⟨(hargs arg harg).1, fun c hc => ((hargs arg harg).2 c hc).1⟩]
  exact if_pos rfl

theorem quote_notMem_of_isPlainPath {path : Text} (h : IsPlainPath path) : '"' ∉ path :=
  fun hmem => absurd (h _ hmem).1 (by decide)

/-- The child of a plain id gets that id. -/
theorem arguments?_childCommand (hpath : IsPlainPath machine.l_exePath) {id : Text}
    (hid : IsPlain id) (hformat : IsPlain options.l_format) :
    machine.arguments? (childCommand options machine.l_exePath id) =
      some (childArguments options id) := by
  rw [childCommand_eq (quote_notMem_of_isPlainPath hpath)]
  refine arguments?_spaced hpath fun arg harg => ?_
  rcases List.mem_pair.mp harg with rfl | rfl
  · exact isPlain_flagArgument (by decide) hid
  · exact isPlain_flagArgument (by decide) hformat

theorem isPlain_natText (n : ℕ) : IsPlain (DecimalText.natText n) := by
  intro c hc
  have hdigit := DecimalText.isDigit_of_mem_natText hc
  refine ⟨ShellWords.isPlain_of_isDigit hdigit, ?_⟩
  rintro rfl
  cases hdigit

/-- The program of native mode gets a plain pattern. -/
theorem arguments?_nativeCommand (hpath : IsPlainPath machine.l_exePath)
    (hpattern : IsPlain options.l_fbt) (hformat : IsPlain options.l_format)
    (cooldownSeconds : UInt16) :
    machine.arguments? (nativeCommand options machine.l_exePath cooldownSeconds) =
      some (nativeArguments options cooldownSeconds) := by
  rw [nativeCommand_eq (quote_notMem_of_isPlainPath hpath)]
  refine arguments?_spaced hpath fun arg harg => ?_
  rw [nativeArguments, List.mem_append, List.mem_append] at harg
  rcases harg with (harg | harg) | harg
  · split at harg
    · cases harg
    · rw [List.mem_singleton.mp harg]
      exact isPlain_flagArgument (by decide) hpattern
  · rw [List.mem_singleton.mp harg]
    exact isPlain_flagArgument (by decide) hformat
  · split at harg
    · cases harg
    · rw [List.mem_singleton.mp harg]
      exact isPlain_flagArgument (by decide) (isPlain_natText _)

/-- Nothing that the run hands to the shell has a meaning of its own there. -/
structure HandsOn (machine : PosixMachine) (options : RunOptions) (run : PreparedRun) : Prop where
  path : IsPlainPath machine.l_exePath
  pattern : IsPlain options.l_fbt
  format : IsPlain options.l_format
  ids : options.l_isolate = true → ∀ test ∈ run.suiteTests.filter (selects options.l_fbt),
    IsPlain test.m_Config.m_Id

/-- The process of native mode. -/
theorem HandsOn.runProcess_native (h : HandsOn machine options run) (hsh : ReadsCalls machine sh) :
    runProcess sh machine run.program 0
        (nativeCommand options machine.l_exePath run.cooldownSeconds) =
      machine.startProgram run.program 0 (nativeArguments options run.cooldownSeconds) :=
  runProcess_of_call hsh
    (arguments?_nativeCommand h.path h.pattern h.format run.cooldownSeconds) _ _

/-- The children of isolate mode. -/
theorem HandsOn.runProcess_child (h : HandsOn machine options run) (hsh : ReadsCalls machine sh)
    (hisolate : options.l_isolate = true) {t : SuiteTestEntry × ℕ}
    (ht : t ∈ (run.suiteTests.filter (selects options.l_fbt)).zipIdx) :
    runProcess sh machine run.program t.2 (childLine machine options t.1) =
      machine.startProgram run.program t.2 (childArguments options t.1.m_Config.m_Id) :=
  runProcess_of_call hsh (arguments?_childCommand h.path
    (h.ids hisolate t.1 (List.fst_mem_of_mem_zipIdx ht)) h.format) _ _

theorem startProgram_of_brokenOff (h : machine.brokenOff index = none) :
    machine.startProgram program index args =
      { executed := (executions (program.main (machine.compiled index) args).actions).map
          fun e => (e.1, some e.2)
        status := waitStatus (program.main (machine.compiled index) args) } :=
  startProgram_of_none (by rw [PosixMachine.breaksOff?, PosixMachine.breaks?, h]; rfl)

/-- The executions of one child. -/
theorem executions_runChild (machine : Machine) (options : RunOptions) (run : PreparedRun)
    (index : ℕ) (test : SuiteTestEntry) :
    (run.runChild machine options index test).flatMap CommandAction.executions =
      executions (run.child machine options index test).actions := by
  rw [PreparedRun.runChild, List.flatMap_append, List.flatMap_cons, List.flatMap_nil,
    List.append_nil]
  split
  · rfl
  · rfl

/-- **A run as it is written** executes and returns what it does with argument lists. -/
theorem cmdRun_eq_of_handsOn (hsh : ReadsCalls machine sh) {args : List Text}
    (h : prepareRun codec cwd fs machine.toMachine (args.foldl RunOptions.parse {}) = .ok run)
    (hplain : HandsOn machine (args.foldl RunOptions.parse {}) run)
    (hlasts : ∀ index, machine.brokenOff index = none) :
    (cmdRun codec cwd fs sh machine args).value =
        (Runtime.cmdRun codec cwd fs machine.toMachine args).value ∧
      (cmdRun codec cwd fs sh machine args).executed =
        (Runtime.cmdRun codec cwd fs machine.toMachine args).executions.map
          fun e => (e.1, some e.2) := by
  obtain ⟨options, hoptions⟩ : ∃ options, args.foldl RunOptions.parse {} = options := ⟨_, rfl⟩
  unfold cmdRun Runtime.cmdRun
  rw [hoptions] at h hplain ⊢
  dsimp only
  rw [h]
  dsimp only
  cases hisolate : options.l_isolate with
  | false =>
      rw [if_neg Bool.false_ne_true, if_neg Bool.false_ne_true, runNative,
        hplain.runProcess_native hsh, startProgram_of_brokenOff (hlasts 0)]
      exact ⟨rfl, by simp [CommandRun.executed, Runtime.CommandRun.executions, Runtime.runNative,
        CommandAction.executions]⟩
  | true =>
      rw [if_pos rfl, if_pos rfl, cmdRunIsolate, Runtime.cmdRunIsolate,
        readSuiteToml_of_prepareRun h]
      dsimp only
      by_cases hnone : run.suiteTests.filter (selects options.l_fbt) = []
      · rw [if_pos (.inr hnone), if_pos (.inr hnone)]
        exact ⟨rfl, rfl⟩
      · have hchild : ∀ t ∈ (run.suiteTests.filter (selects options.l_fbt)).zipIdx,
            runProcess sh machine run.program t.2 (childLine machine options t.1) =
              { executed := (executions
                  (run.child machine.toMachine options t.2 t.1).actions).map
                    fun e => (e.1, some e.2)
                status := waitStatus (run.child machine.toMachine options t.2 t.1) } := by
          intro t ht
          rw [hplain.runProcess_child hsh hisolate ht, startProgram_of_brokenOff (hlasts t.2),
            PreparedRun.child]
        have hselected := not_or.mpr ⟨not_not.mpr (rfl : ([] : List TomlParseError) = []), hnone⟩
        rw [if_neg hselected, if_neg hselected, List.map_congr_left hchild]
        constructor
        · simp only [List.countP_map]
          rfl
        · simp only [CommandRun.executed, Runtime.CommandRun.executions, List.flatMap_map,
            List.flatMap_assoc, executions_runChild, List.map_flatMap]

/-- A process that a test ends executes no other tests. -/
theorem mem_executedTests_of_mem_startProgram {e : SuiteTestEntry × Option BenchmarkResult}
    (he : e ∈ (machine.startProgram program index args).executed) :
    e.1 ∈ executedTests (program.main (machine.compiled index) args).actions := by
  rw [PosixMachine.startProgram] at he
  split at he
  · obtain ⟨x, hx, rfl⟩ := List.mem_map.mp he
    exact List.mem_map_of_mem hx
  · rcases List.mem_append.mp he with he | he
    · obtain ⟨x, hx, rfl⟩ := List.mem_map.mp he
      exact List.mem_map_of_mem (List.mem_of_mem_take hx)
    · rw [Option.mem_toList, Option.map_eq_some_iff] at he
      obtain ⟨x, hx, rfl⟩ := he
      exact List.mem_map_of_mem (List.mem_of_getElem? hx)

/-- **A run as it is written** executes no other tests, also where tests end their processes. -/
theorem mem_executedTests_of_handsOn (hsh : ReadsCalls machine sh) {args : List Text}
    (h : prepareRun codec cwd fs machine.toMachine (args.foldl RunOptions.parse {}) = .ok run)
    (hplain : HandsOn machine (args.foldl RunOptions.parse {}) run)
    {e : SuiteTestEntry × Option BenchmarkResult}
    (he : e ∈ (cmdRun codec cwd fs sh machine args).executed) :
    e.1 ∈ (Runtime.cmdRun codec cwd fs machine.toMachine args).executedTests := by
  obtain ⟨options, hoptions⟩ : ∃ options, args.foldl RunOptions.parse {} = options := ⟨_, rfl⟩
  unfold cmdRun at he
  unfold Runtime.cmdRun
  rw [hoptions] at h hplain he ⊢
  dsimp only at he ⊢
  rw [h] at he ⊢
  dsimp only at he ⊢
  cases hisolate : options.l_isolate with
  | false =>
      rw [hisolate, if_neg Bool.false_ne_true, runNative, hplain.runProcess_native hsh,
        CommandRun.executed, List.flatMap_singleton] at he
      rw [if_neg Bool.false_ne_true, executedTests_runNative]
      have hmem := mem_executedTests_of_mem_startProgram he
      rwa [GeneratedProgram.executedTests_main, l_fbtPattern_nativeArguments] at hmem
  | true =>
      rw [hisolate, if_pos rfl] at he
      rw [if_pos rfl, executedTests_cmdRunIsolate h]
      by_cases hnone : run.suiteTests.filter (selects options.l_fbt) = []
      · rw [cmdRunIsolate, readSuiteToml_of_prepareRun h] at he
        dsimp only at he
        rw [if_pos (.inr hnone)] at he
        cases he
      · rw [cmdRunIsolate_eq h hnone, CommandRun.executed, childLines, List.map_map,
          List.flatMap_map] at he
        obtain ⟨t, ht, he⟩ := List.mem_flatMap.mp he
        dsimp only [Function.comp_apply] at he
        rw [hplain.runProcess_child hsh hisolate ht] at he
        have hmem := mem_executedTests_of_mem_startProgram he
        rw [GeneratedProgram.executedTests_main, l_fbtPattern_childArguments] at hmem
        exact List.mem_flatMap.mpr ⟨t.1, List.fst_mem_of_mem_zipIdx ht, hmem⟩

end Hades.Runtime.Posix
