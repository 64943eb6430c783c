import Hades.ArgumentVector
import Hades.GeneratedProgram
import Hades.SuiteContext

/-!
# The Run Command

`hades-driver run` (`Commands.cpp`): the current suite is resolved and built, and then its
program is run, either once (native mode) or once for every selected test (isolate mode).

A wait status is 256 times the exit code of a process that ends by itself, and a process's exit
status is what its `main` returns, modulo 256. The machine says how the build steps end and what
each test of each process measures. Here the arguments reach a process as they were written and
its tests let it end; `Hades.SystemCommands` has the lines that `std::system` is given.

## Main results

* `l_fbtPattern_childArguments`: a child of isolate mode selects by the id it was given.
* `l_fbtPattern_nativeArguments`: the program of native mode selects by the pattern of the
  command.
-/

namespace Hades.Runtime

/-! ### Options -/

/-- The options of `run`. -/
structure RunOptions where
  l_build : Text := "cmake".toList
  l_fbt : Text := []
  l_format : Text := "console".toList
  l_timeoutStr : Text := []
  l_config : Text := "Debug".toList
  l_cooldownStr : Text := []
  l_isolate : Bool := false
  deriving DecidableEq

/-- The options with a value. -/
def RunOptions.setters : List (Text × (RunOptions → Text → RunOptions)) :=
  [("build".toList, fun o value => { o with l_build := value }),
    ("cooldown".toList, fun o value => { o with l_cooldownStr := value }),
    ("fbt".toList, fun o value => { o with l_fbt := value }),
    ("format".toList, fun o value => { o with l_format := value }),
    ("timeout".toList, fun o value => { o with l_timeoutStr := value }),
    ("config".toList, fun o value => { o with l_config := value })]

/-- One more argument; an unknown one is skipped with a warning. -/
def RunOptions.parse (options : RunOptions) (arg : Text) : RunOptions :=
  match RunOptions.setters.findSome? fun s => (flagValue? s.1 arg).map (s.2 options) with
  | some options => options
  | none =>
    if arg = "--isolate".toList then { options with l_isolate := true }
    else if arg = "--native".toList then { options with l_isolate := false }
    else options

/-- The configurations that the generated build knows. -/
def isKnownCMakeConfig (config : Text) : Bool :=
  config == "Debug".toList || config == "Release".toList || config == "RelWithDebInfo".toList

/-- The time limit of a child in seconds; zero is none. -/
def RunOptions.timeoutSeconds (options : RunOptions) : UInt32 :=
  if options.l_timeoutStr = [] then 15
  else UInt32.ofNat (strtoul ULONG_MAX options.l_timeoutStr)

/-- The pause between tests; a text must be a whole number that fits 16 bits. -/
def RunOptions.cooldownSeconds? (options : RunOptions) : Option UInt16 :=
  if options.l_cooldownStr = [] then some 0
  else
    (DecimalText.natOfText? options.l_cooldownStr).bind fun n =>
      if n ≤ 65535 then some (UInt16.ofNat n) else none

/-! ### Processes -/

/-- What the machine does: how the build steps end, whether the built program is found, and
the runners of the fixtures in every process that is started. -/
structure Machine where
  configureStatus : ℤ := 0
  buildStatus : ℤ := 0
  findsExecutable : Bool := true
  compiled : ℕ → FixtureEntry → FactoryFn

/-- The exit status of a process, as its parent sees it. -/
def exitStatus (value : ℕ) : ℕ :=
  value % 256

/-- The wait status of a process that ends by itself. -/
def waitStatus (process : ProcessRun) : ℕ :=
  exitStatus process.exitCode * 256

/-- What `run` does once the program is built. -/
inductive CommandAction where
  | sleepFor (seconds : UInt16)
  | startProcess (args : List Text) (timeoutSeconds : UInt32) (process : ProcessRun)

/-- What `run` does, and the value that it returns. -/
structure CommandRun where
  actions : List CommandAction := []
  value : ℕ

/-- The executions of a process that was started. -/
def CommandAction.executions : CommandAction → List (SuiteTestEntry × BenchmarkResult)
  | .sleepFor _ => []
  | .startProcess _ _ process => Hades.Runtime.executions process.actions

/-- Every execution of a test, by any process. -/
def CommandRun.executions (run : CommandRun) : List (SuiteTestEntry × BenchmarkResult) :=
  run.actions.flatMap CommandAction.executions

/-- The executed tests. -/
def CommandRun.executedTests (run : CommandRun) : List SuiteTestEntry :=
  run.executions.map Prod.fst

/-- A suite that is ready to run: its directory, its tests and its program. -/
structure PreparedRun where
  cooldownSeconds : UInt16
  suiteDir : Text
  suiteTests : List SuiteTestEntry
  program : GeneratedProgram
  tests_program : program.tests = suiteTests.map SuiteTestEntry.compiled

/-- A path in quotes, which it may have already. -/
def quotePath (v_Path : Text) : Text :=
  if v_Path.head? = some '"' then v_Path else '"' :: v_Path ++ ['"']

/-! ### The command -/

/-- The arguments of the one process of native mode. -/
def nativeArguments (options : RunOptions) (cooldownSeconds : UInt16) : List Text :=
  (if options.l_fbt = [] then [] else [flagArgument "fbt".toList options.l_fbt]) ++
  [flagArgument "format".toList options.l_format] ++
  (if cooldownSeconds = 0 then []
    else [flagArgument "cooldown".toList (DecimalText.natText cooldownSeconds.toNat)])

/-- The command line of the one process of native mode. -/
def nativeCommand (options : RunOptions) (v_ExePath : Text) (cooldownSeconds : UInt16) : Text :=
  quotePath v_ExePath ++ (if options.l_fbt = [] then [] else " --fbt=".toList ++ options.l_fbt) ++
    " --format=".toList ++ options.l_format ++
    (if cooldownSeconds = 0 then []
      else " --cooldown=".toList ++ DecimalText.natText cooldownSeconds.toNat)

/-- Native mode: one process runs every selected test, and its status is returned. -/
def runNative (machine : Machine) (options : RunOptions) (run : PreparedRun) : CommandRun :=
  let args := nativeArguments options run.cooldownSeconds
  let process := run.program.main (machine.compiled 0) args
  { actions := [.startProcess args 0 process], value := waitStatus process }

/-- The arguments of the child for a test. -/
def childArguments (options : RunOptions) (id : Text) : List Text :=
  [flagArgument "fbt".toList id, flagArgument "format".toList options.l_format]

/-- The command line of the child with an id. -/
def childCommand (options : RunOptions) (v_ExePath r_id : Text) : Text :=
  quotePath v_ExePath ++ " --fbt=".toList ++ r_id ++ " --format=".toList ++ options.l_format

/-- The child for a selected test. -/
def PreparedRun.child (run : PreparedRun) (machine : Machine) (options : RunOptions)
    (index : ℕ) (test : SuiteTestEntry) : ProcessRun :=
  run.program.main (machine.compiled index) (childArguments options test.m_Config.m_Id)

/-- Isolate mode, one selected test: the pause, which no first and no correctness test has,
and the child. -/
def PreparedRun.runChild (run : PreparedRun) (machine : Machine) (options : RunOptions)
    (index : ℕ) (test : SuiteTestEntry) : List CommandAction :=
  (if 0 < run.cooldownSeconds ∧ 0 < index ∧ test.m_Config.m_Kind = .Performance then
    [.sleepFor run.cooldownSeconds] else []) ++
  [.startProcess (childArguments options test.m_Config.m_Id) options.timeoutSeconds
    (run.child machine options index test)]

/-- Isolate mode: one process for every test of the manifest that the pattern selects.
Outside Windows no child times out. -/
def cmdRunIsolate (codec : DoubleCodec) (fs : FileSystem) (machine : Machine)
    (options : RunOptions) (run : PreparedRun) : CommandRun :=
  let suiteToml := suiteTomlPath run.suiteDir
  let (entries, errors) := readSuiteToml codec suiteToml (fs suiteToml)
  let tests := entries.filter (selects options.l_fbt)
  if errors ≠ [] ∨ tests = [] then { value := 1 }
  else
    let children := tests.zipIdx.map fun t => run.child machine options t.2 t.1
    { actions := tests.zipIdx.flatMap fun t => run.runChild machine options t.2 t.1
      value := if children.countP (waitStatus · ≠ 0) = 0 then 0 else 1 }

/-- The steps before the program is started; or the value returned. -/
def prepareRun (codec : DoubleCodec) (cwd : Text) (fs : FileSystem) (machine : Machine)
    (options : RunOptions) : Except ℕ PreparedRun :=
  if options.l_build ≠ "cmake".toList then .error 2
  else if !isKnownCMakeConfig options.l_config then .error 2
  else
    match options.cooldownSeconds?, loadCurrentSuite cwd fs with
    | none, _ => .error 2
    | _, none => .error 1
    | some cooldownSeconds, some suiteDir =>
      match regenerateSuite codec fs suiteDir with
      | .error _ => .error 1
      | .ok request =>
        if machine.configureStatus ≠ 0 ∨ machine.buildStatus ≠ 0 ∨ !machine.findsExecutable then
          .error 1
        else
          -- a program that does not compile is a build that fails
          match hprogram : GeneratedProgram.generate request with
          | none => .error 1
          | some program =>
            .ok
              { cooldownSeconds, suiteDir, program
                suiteTests := request.m_Tests
                tests_program := GeneratedProgram.tests_of_generate hprogram }

/-- The command. -/
def cmdRun (codec : DoubleCodec) (cwd : Text) (fs : FileSystem) (machine : Machine)
    (args : List Text) : CommandRun :=
  let options := args.foldl RunOptions.parse {}
  match prepareRun codec cwd fs machine options with
  | .error value => { value }
  | .ok run =>
    if options.l_isolate then cmdRunIsolate codec fs machine options run
    else runNative machine options run

/-! ### Arguments that are passed on -/

/-- Other arguments leave the pattern alone. -/
theorem l_fbtPattern_parse {arg : Text} (h : flagValue? "fbt".toList arg = none)
    (arguments : MainArguments) : (arguments.parse arg).l_fbtPattern = arguments.l_fbtPattern := by
  rw [MainArguments.parse, h]
  dsimp only
  split
  · rfl
  · split
    · rfl
    · rfl

/-- The pattern of a child is the id of its test. -/
theorem l_fbtPattern_childArguments (options : RunOptions) (id : Text) :
    ((childArguments options id).foldl MainArguments.parse {}).l_fbtPattern = id := by
  have hformat : flagValue? "fbt".toList (flagArgument "format".toList options.l_format) = none :=
    rfl
  rw [childArguments, List.foldl_cons, List.foldl_cons, List.foldl_nil,
    l_fbtPattern_parse hformat, MainArguments.parse, flagValue?_flagArgument]

/-- The pattern of native mode's process is the pattern of the command. -/
theorem l_fbtPattern_nativeArguments (options : RunOptions) (cooldownSeconds : UInt16) :
    ((nativeArguments options cooldownSeconds).foldl MainArguments.parse {}).l_fbtPattern =
      options.l_fbt := by
  have hother : ∀ (args : List Text), (∀ arg ∈ args, flagValue? "fbt".toList arg = none) →
      ∀ arguments : MainArguments,
        (args.foldl MainArguments.parse arguments).l_fbtPattern = arguments.l_fbtPattern := by
    intro args
    induction args with
    | nil => exact fun _ _ => rfl
    | cons arg args ih =>
        intro h arguments
        rw [List.foldl_cons, ih (fun arg harg => h arg (List.mem_cons_of_mem _ harg)),
          l_fbtPattern_parse (h arg List.mem_cons_self)]
  rw [nativeArguments, List.append_assoc, List.foldl_append, hother]
  · split
    · next hnone => rw [hnone]; rfl
    · rw [List.foldl_cons, List.foldl_nil, MainArguments.parse, flagValue?_flagArgument]
  · intro arg harg
    rcases List.mem_append.mp harg with harg | harg
    · rw [List.mem_singleton.mp harg]
      rfl
    · split at harg
      · cases harg
      · rw [List.mem_singleton.mp harg]
        rfl

/-! ### The lines -/

open ArgumentVector (spaced spaced_nil spaced_cons)

theorem quotePath_eq {path : Text} (hquote : '"' ∉ path) :
    quotePath path = '"' :: path ++ ['"'] :=
  if_neg fun h => hquote (List.mem_of_mem_head? h)

/-- The line is the quoted path with the flags behind blanks. -/
theorem childCommand_eq {exePath : Text} (hquote : '"' ∉ exePath) (options : RunOptions)
    (id : Text) :
    childCommand options exePath id =
      '"' :: exePath ++ '"' :: spaced (childArguments options id) := by
  have hfbt : " --fbt=".toList = ' ' :: ("--".toList ++ "fbt".toList ++ "=".toList) := rfl
  have hformat : " --format=".toList = ' ' :: ("--".toList ++ "format".toList ++ "=".toList) :=
    rfl
  rw [childCommand, quotePath_eq hquote, hfbt, hformat, childArguments, spaced_cons, spaced_cons,
    flagArgument, flagArgument]
  simp only [List.append_assoc, List.cons_append, List.nil_append, spaced_nil, List.append_nil]

theorem spaced_append (args more : List Text) :
    spaced (args ++ more) = spaced args ++ spaced more :=
  List.flatMap_append

/-- So is the line of native mode. -/
theorem nativeCommand_eq {exePath : Text} (hquote : '"' ∉ exePath) (options : RunOptions)
    (cooldownSeconds : UInt16) :
    nativeCommand options exePath cooldownSeconds =
      '"' :: exePath ++ '"' :: spaced (nativeArguments options cooldownSeconds) := by
  have hfbt : spaced (if options.l_fbt = [] then [] else
      [flagArgument "fbt".toList options.l_fbt]) =
        if options.l_fbt = [] then [] else " --fbt=".toList ++ options.l_fbt := by
    split
    · rfl
    · rw [spaced_cons, spaced_nil, List.append_nil]
      rfl
  have hcooldown : spaced (if cooldownSeconds = 0 then [] else
      [flagArgument "cooldown".toList (DecimalText.natText cooldownSeconds.toNat)]) =
        if cooldownSeconds = 0 then []
        else " --cooldown=".toList ++ DecimalText.natText cooldownSeconds.toNat := by
    split
    · rfl
    · rw [spaced_cons, spaced_nil, List.append_nil]
      rfl
  have hformat : spaced [flagArgument "format".toList options.l_format] =
      " --format=".toList ++ options.l_format := by
    rw [spaced_cons, spaced_nil, List.append_nil]
    rfl
  rw [nativeCommand, quotePath_eq hquote, nativeArguments, spaced_append, spaced_append, hfbt,
    hformat, hcooldown]
  simp only [List.append_assoc, List.cons_append, List.nil_append]

end Hades.Runtime
