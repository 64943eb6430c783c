import Hades.NewTestPlan
import Hades.SuiteDirectories

/-!
# The Driver without its Files

What the driver is for, without a file: there are suites in some directories, each with the
fixtures and tests that it was told, and one of them may be the current one (`DriverState`). A
command makes a suite, chooses one, deletes those in a directory, tells the current one of a
test, or runs its tests.

`Holds` relates the files to it: the marker names the current suite, and the files of a suite
contain its log.

## Main results

* `Holds.loadCurrentSuite_eq`: the current suite is the one that the marker names.
* `Holds.cmdRun_eq`, `Holds.cmdValidate_eq`: a run and a validation are those of what the
  current suite was told.
-/

namespace Hades.Runtime

variable {T : Type*}

/-! ### The abstract driver -/

/-- The suites, each with what it was told, and the current one. -/
structure DriverState where
  suites : Directory → Option SuiteLog := fun _ => none
  current : Option Directory := none

/-- What the generator is asked for. -/
def SuiteLog.request (log : SuiteLog) (dir : Directory) : ResolveRequest where
  m_SuiteDir := directoryPath dir
  m_Fixtures := log.fixtures
  m_Tests := log.tests

/-- The steps before the program of a suite is started; or the value returned. -/
def prepareLog (active : Option (Directory × SuiteLog)) (machine : Machine)
    (options : RunOptions) : Except ℕ PreparedRun :=
  if options.l_build ≠ "cmake".toList then .error 2
  else if !isKnownCMakeConfig options.l_config then .error 2
  else
    match options.cooldownSeconds?, active with
    | none, _ => .error 2
    | _, none => .error 1
    | some cooldownSeconds, some (dir, log) =>
      if machine.configureStatus ≠ 0 ∨ machine.buildStatus ≠ 0 ∨ !machine.findsExecutable then
        .error 1
      else
        match hprogram : GeneratedProgram.generate (log.request dir) with
        | none => .error 1
        | some program =>
          .ok
            { cooldownSeconds, program
              suiteDir := directoryPath dir
              suiteTests := log.tests
              tests_program := GeneratedProgram.tests_of_generate hprogram }

/-- Run the selected tests, each in its own process. -/
def runIsolate (machine : Machine) (options : RunOptions) (run : PreparedRun) : CommandRun :=
  let tests := run.suiteTests.filter (selects options.l_fbt)
  if tests = [] then { value := 1 }
  else
    let children := tests.zipIdx.map fun t => run.child machine options t.2 t.1
    { actions := tests.zipIdx.flatMap fun t => run.runChild machine options t.2 t.1
      value := if children.countP (waitStatus · ≠ 0) = 0 then 0 else 1 }

/-- Run the tests of the current suite. -/
def runLog (active : Option (Directory × SuiteLog)) (machine : Machine) (args : List Text) :
    CommandRun :=
  let options := args.foldl RunOptions.parse {}
  match prepareLog active machine options with
  | .error value => { value }
  | .ok run =>
    if options.l_isolate then runIsolate machine options run
    else runNative machine options run

/-- Build the current suite, or not; the value returned. -/
def validateLog (active : Option (Directory × SuiteLog)) (steps : ValidateSteps T)
    (trees : BuildTrees T) (args : List Text) : ℕ :=
  let options := args.foldl ValidateOptions.parse {}
  if options.l_build ≠ "cmake".toList ∨ !isKnownCMakeConfig options.l_config then 2
  else if active.isNone ∨ !steps.writesGenerated then 1
  else (steps.validateBuild trees).2

namespace DriverState

/-- The current suite, if it is still there. -/
def active (state : DriverState) : Option (Directory × SuiteLog) :=
  state.current.bind fun dir => (state.suites dir).map fun log => (dir, log)

theorem active_eq_some_iff {state : DriverState} {dir : Directory} {log : SuiteLog} :
    state.active = some (dir, log) ↔ state.current = some dir ∧ state.suites dir = some log := by
  rw [active, Option.bind_eq_some_iff]
  constructor
  · rintro ⟨dir', hcurrent, hlog⟩
    obtain ⟨log', hsuite, heq⟩ := Option.map_eq_some_iff.mp hlog
    obtain ⟨rfl, rfl⟩ := Prod.mk.inj heq
    exact ⟨hcurrent, hsuite⟩
  · rintro ⟨hcurrent, hsuite⟩
    exact ⟨dir, hcurrent, Option.map_eq_some_iff.mpr ⟨log, hsuite, rfl⟩⟩

/-- Put a suite into a directory. -/
def setSuite (state : DriverState) (dir : Directory) (log : SuiteLog) : DriverState :=
  { state with suites := Function.update state.suites dir (some log) }

theorem suites_setSuite_self (state : DriverState) (dir : Directory) (log : SuiteLog) :
    (state.setSuite dir log).suites dir = some log :=
  Function.update_self _ _ _

theorem suites_setSuite_of_ne (state : DriverState) {dir other : Directory} (h : other ≠ dir)
    (log : SuiteLog) : (state.setSuite dir log).suites other = state.suites other :=
  Function.update_of_ne h _ _

/-- Make a suite, or keep the one that is there, and make it the current one. -/
def initSuite (state : DriverState) (cwd : Text) (args : List Text) : DriverState × ℕ :=
  match args with
  | [] => (state, 2)
  | arg :: _ =>
    let dir := denotedDirectory (absolutePath cwd arg)
    ({ state.setSuite dir ((state.suites dir).getD {}) with current := some dir }, 0)

/-- Make a suite the current one. -/
def findSuite (state : DriverState) (cwd : Text) (args : List Text) : DriverState × ℕ :=
  match args with
  | [] => (state, 2)
  | arg :: _ =>
    let dir := denotedDirectory (absolutePath cwd arg)
    if (state.suites dir).isNone then (state, 1) else ({ state with current := some dir }, 0)

/-- Delete a suite, and all suites below it. If it was the current one, none is. -/
def removeSuite (state : DriverState) (cwd : Text) (args : List Text) : DriverState × ℕ :=
  match args with
  | [] => (state, 2)
  | arg :: _ =>
    let dir := denotedDirectory (absolutePath cwd arg)
    if (state.suites dir).isNone then (state, 1)
    else
      ({ suites := fun other => if dir <+: other then none else state.suites other
         current := if state.current = some dir then none else state.current }, 0)

/-- Tell the current suite of a test, and of its fixture if that is new and acceptable. -/
def newTest (state : DriverState) (fates : NewTestFates) (args : List Text) :
    DriverState × ℕ :=
  match args with
  | fixtureName :: _ :: rest =>
    match state.active with
    | none => (state, 1)
    | some (dir, log) =>
      let fixture := (rest.foldl NewTestFlags.parse {}).fixture fixtureName
      if log.knows fixtureName = false ∧ checkNewFixture fixture ≠ none then (state, 2)
      else if fates.stub ≠ .written ∨ fates.appendSuite ≠ .written then (state, 1)
      else (state.setSuite dir (log.record args), 0)
  | _ => (state, 2)

/-- The answer of a command that starts no program. -/
def withoutProgram (result : DriverState × ℕ) : DriverState × CommandRun :=
  (result.1, { value := result.2 })

/-- One call of the abstract driver. -/
def step (cwd : Text) (state : DriverState) (call : DriverCall T) : DriverState × CommandRun :=
  match call.command with
  | .printUsage => (state, { value := 0 })
  | .printVersion => (state, { value := 0 })
  | .initSuite args =>
    if args ≠ [] ∧ !call.surroundings.createsDirectories then (state, { value := 1 })
    else withoutProgram (state.initSuite cwd args)
  | .findSuite args => withoutProgram (state.findSuite cwd args)
  | .removeSuite args => withoutProgram (state.removeSuite cwd args)
  | .newTest args => withoutProgram (state.newTest call.surroundings.fates args)
  | .run args => (state, runLog state.active call.surroundings.machine args)
  | .validate args =>
    let value := validateLog state.active call.surroundings.steps call.surroundings.trees args
    (state, { value })
  | .unknown => (state, { value := 2 })

end DriverState

/-! ### Files and suites -/

/-- The files of a suite contain a log and end with a line end. -/
structure SuiteLog.IsStored (log : SuiteLog) (codec : DoubleCodec) (dir : Text)
    (fs : FileSystem) : Prop where
  registry : ∃ content, fs (registryIniPath dir) = some content ∧
    readRegistryIni (registryIniPath dir) (some content) = (log.fixtures, []) ∧
      Lines.lastLine '\n' content = []
  suite : ∃ content, fs (suiteTomlPath dir) = some content ∧
    readSuiteToml codec (suiteTomlPath dir) (some content) = (log.tests, []) ∧
      Lines.lastLine '\n' content = []
  resolved : log.IsResolved

/-- The files of a directory are those of its suite, if there is one. -/
def HoldsSuite (codec : DoubleCodec) (fs : FileSystem) (dir : Directory) :
    Option SuiteLog → Prop
  | none => fs (registryIniPath (directoryPath dir)) = none ∧
      fs (suiteTomlPath (directoryPath dir)) = none
  | some log => log.IsStored codec (directoryPath dir) fs

/-- **The files are in step with the abstract driver.** -/
structure Holds (codec : DoubleCodec) (cwd : Text) (fs : FileSystem) (state : DriverState) :
    Prop where
  marker : fs (markerPath cwd) = state.current.map fun dir => directoryPath dir ++ ['\n']
  isPlain_current : ∀ dir ∈ state.current, IsPlainDirectory dir
  suites : ∀ dir, IsPlainDirectory dir → HoldsSuite codec fs dir (state.suites dir)

variable {codec : DoubleCodec} {cwd : Text} {fs fs' : FileSystem} {state : DriverState}

/-! ### What the files say -/

/-- The files of a directory are those of its suite as long as they are the same. -/
theorem HoldsSuite.congr {dir : Directory} {suite : Option SuiteLog}
    (h : HoldsSuite codec fs dir suite)
    (hregistry : fs' (registryIniPath (directoryPath dir)) =
      fs (registryIniPath (directoryPath dir)))
    (hsuite : fs' (suiteTomlPath (directoryPath dir)) = fs (suiteTomlPath (directoryPath dir))) :
    HoldsSuite codec fs' dir suite := by
  cases suite with
  | none => exact ⟨hregistry.trans h.1, hsuite.trans h.2⟩
  | some log =>
      obtain ⟨⟨registry, hread⟩, ⟨tests, hreadTests⟩, hresolved⟩ := h
      exact ⟨⟨registry, hregistry.trans hread.1, hread.2⟩,
        ⟨tests, hsuite.trans hreadTests.1, hreadTests.2⟩, hresolved⟩

/-- A directory has a manifest exactly if there is a suite. -/
theorem HoldsSuite.suiteToml_eq_none_iff {dir : Directory} {suite : Option SuiteLog}
    (h : HoldsSuite codec fs dir suite) :
    fs (suiteTomlPath (directoryPath dir)) = none ↔ suite.isNone = true := by
  cases suite with
  | none => exact iff_of_true h.2 rfl
  | some log =>
      obtain ⟨content, hcontent, -⟩ := h.suite
      rw [hcontent]
      exact iff_of_false (Option.some_ne_none _) Bool.false_ne_true

/-- The marker of a plain directory is read back. -/
theorem IsPlainDirectory.popLineEnds_marker {dir : Directory} (h : IsPlainDirectory dir) :
    popLineEnds (directoryPath dir ++ ['\n']) = directoryPath dir :=
  (List.rdropWhile_concat_pos _ _ _ rfl).trans h.popLineEnds_eq

namespace Holds

/-- **The current suite** is the one that the marker names. -/
theorem loadCurrentSuite_eq (h : Holds codec cwd fs state) :
    loadCurrentSuite cwd fs = state.active.map fun active => directoryPath active.1 := by
  rw [loadCurrentSuite, h.marker, DriverState.active]
  cases hcurrent : state.current with
  | none => rfl
  | some dir =>
      have hplain := h.isPlain_current dir hcurrent
      have hnone := (h.suites dir hplain).suiteToml_eq_none_iff
      rw [Option.map_some, Option.bind_some, Option.bind_some]
      dsimp only
      rw [hplain.popLineEnds_marker]
      cases hsuite : state.suites dir with
      | none =>
          rw [hsuite] at hnone
          rw [if_pos (Or.inr (hnone.mpr rfl))]
          rfl
      | some log =>
          rw [hsuite] at hnone
          refine (if_neg (not_or.mpr ⟨hplain.path_ne_nil, fun hnil => ?_⟩)).trans rfl
          exact Bool.false_ne_true (hnone.mp hnil)

/-- What the current suite was told is in its files. -/
theorem isHeldBy (h : Holds codec cwd fs state) {dir : Directory} {log : SuiteLog}
    (hactive : state.active = some (dir, log)) :
    IsPlainDirectory dir ∧ log.IsHeldBy codec cwd (directoryPath dir) fs := by
  obtain ⟨hcurrent, hsuite⟩ := DriverState.active_eq_some_iff.mp hactive
  have hplain := h.isPlain_current dir hcurrent
  have hstored := h.suites dir hplain
  rw [hsuite] at hstored
  refine ⟨hplain, ?_, hstored.registry, hstored.suite, hstored.resolved⟩
  rw [h.marker, hcurrent, Option.map_some]

end Holds

/-! ### Runs -/

/-- The program that is started is that of the current suite. -/
theorem Holds.prepareRun_eq (h : Holds codec cwd fs state) (machine : Machine)
    (options : RunOptions) :
    prepareRun codec cwd fs machine options = prepareLog state.active machine options := by
  unfold prepareRun prepareLog
  rw [h.loadCurrentSuite_eq]
  cases hactive : state.active with
  | none => cases options.cooldownSeconds? <;> rfl
  | some active =>
      obtain ⟨dir, log⟩ := active
      have hregenerates := (h.isHeldBy hactive).2.readsBack.regenerates
      rw [Option.map_some]
      cases options.cooldownSeconds? with
      | none => rfl
      | some cooldownSeconds =>
          dsimp only
          rw [hregenerates]
          rfl

/-- Isolate mode reads the manifest once more, and finds the tests of the program. -/
theorem cmdRunIsolate_eq {machine : Machine} {options : RunOptions} {run : PreparedRun}
    (h : prepareRun codec cwd fs machine options = .ok run) :
    cmdRunIsolate codec fs machine options run = runIsolate machine options run := by
  rw [cmdRunIsolate, runIsolate, readSuiteToml_of_prepareRun h]
  simp

/-- **A run** is that of the tests that the current suite was told. -/
theorem Holds.cmdRun_eq (h : Holds codec cwd fs state) (machine : Machine) (args : List Text) :
    cmdRun codec cwd fs machine args = runLog state.active machine args := by
  have hprepare := h.prepareRun_eq machine (args.foldl RunOptions.parse {})
  rw [cmdRun, runLog, ← hprepare]
  cases hrun : prepareRun codec cwd fs machine (args.foldl RunOptions.parse {}) with
  | error value => rfl
  | ok run =>
      dsimp only
      rw [cmdRunIsolate_eq hrun]

/-- **A validation** looks at the current suite. -/
theorem Holds.cmdValidate_eq (h : Holds codec cwd fs state) (steps : ValidateSteps T)
    (trees : BuildTrees T) (args : List Text) :
    (cmdValidate codec cwd fs steps args trees).2 =
      validateLog state.active steps trees args := by
  obtain ⟨options, hoptions⟩ : ∃ options, args.foldl ValidateOptions.parse {} = options :=
    ⟨_, rfl⟩
  rw [cmdValidate, validateChecks, validateLog, hoptions, h.loadCurrentSuite_eq]
  by_cases hbuild : options.l_build ≠ "cmake".toList
  · rw [if_pos hbuild, if_pos (Or.inl hbuild)]
  by_cases hconfig : (!isKnownCMakeConfig options.l_config) = true
  · rw [if_neg hbuild, if_pos hconfig, if_pos (Or.inr hconfig)]
  rw [if_neg hbuild, if_neg hconfig, if_neg (not_or.mpr ⟨hbuild, hconfig⟩)]
  cases hactive : state.active with
  | none => rfl
  | some active =>
      obtain ⟨dir, log⟩ := active
      have hregenerates := (h.isHeldBy hactive).2.readsBack.regenerates
      rw [Option.map_some]
      dsimp only
      rw [hregenerates]
      cases steps.writesGenerated <;> rfl

end Hades.Runtime
