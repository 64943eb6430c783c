import Hades.DriverCommands
import Hades.EmittedTests
import Hades.Series
import Hades.SystemCommands

/-!
# Sessions of the Driver

Calls of `hades-driver` one after another, from no files at all, beside the abstract driver. The
calls are plain. Their directories are typed plainly, and have none of the names that the driver
gives to its own files. A new test has the name of a directory for an id, and neither an id nor
the pattern and the format of a run mean anything to the shell. A new fixture has a plain header
and link directory. A removal succeeds and keeps the working directory, the append to the
registry succeeds, and the one to the manifest does not break off.

Every other operation may fail: a directory or a stub is not made, an append is refused, CMake
fails.

## Main results

* `refines_driverMain`: **one call** answers as the abstract driver does, and keeps the files in
  step with it.
* `driverSession_refines`: **whole sessions**, from no files at all.
* `executedTests_driverSession`: a run at the end of a session executes the tests that the
  current suite was told.
-/

namespace Hades.Runtime

variable {T : Type*}

/-! ### Plain calls -/

/-- The names that the driver gives to its own files and directories. A directory of that name
can be in the place of one of them. -/
def reservedNames : List Text :=
  ["suite.toml".toList, "registry.ini".toList, SUITE_MARKER_FILE, "generated".toList]

/-- An argument names a directory, and no name on the way to it is a reserved one. -/
structure NamesFree (cwd arg : Text) (dir : Directory) : Prop extends Names cwd arg dir where
  reserved : ∀ name ∈ dir, name ∉ reservedNames

/-- An id that is the name of a directory, not a reserved one, and means nothing to the shell. -/
structure IsFreeId (testId : Text) : Prop where
  isName : LexicalPath.IsName '/' '.' testId
  reserved : testId ∉ reservedNames
  isPlain : Posix.IsPlain testId

/-- The calls that are plain. -/
def DriverCall.IsPlain (cwd : Text) (call : DriverCall T) : Prop :=
  match call.command with
  | .initSuite (arg :: _) => ∃ dir, NamesFree cwd arg dir
  | .findSuite (arg :: _) => ∃ dir, NamesFree cwd arg dir
  | .removeSuite (arg :: _) =>
    (∃ dir, NamesFree cwd arg dir ∧ ¬ dir <+: denotedDirectory cwd) ∧
      call.surroundings.removal.fails = false
  | .newTest (fixtureName :: testId :: rest) =>
    ((rest.foldl NewTestFlags.parse {}).fixture fixtureName).IsPlain ∧ IsFreeId testId ∧
      (∀ length, call.surroundings.fates.appendSuite ≠ .torn length) ∧
      call.surroundings.fates.appendRegistry = .written
  | .run args =>
    Posix.IsPlain (args.foldl RunOptions.parse {}).l_fbt ∧
      Posix.IsPlain (args.foldl RunOptions.parse {}).l_format
  | _ => True

variable {codec : DoubleCodec} {cwd : Text} {fs fs' : FileSystem} {state : DriverState}

/-! ### Plain ids -/

/-- The ids of all tests mean nothing to the shell. -/
def DriverState.HasPlainIds (state : DriverState) : Prop :=
  ∀ dir log, state.suites dir = some log → ∀ test ∈ log.tests, Posix.IsPlain test.m_Config.m_Id

namespace DriverState.HasPlainIds

theorem setSuite (h : state.HasPlainIds) (dir : Directory) {log : SuiteLog}
    (hlog : ∀ test ∈ log.tests, Posix.IsPlain test.m_Config.m_Id) :
    (state.setSuite dir log).HasPlainIds := by
  intro other otherLog hother
  by_cases heq : other = dir
  · rw [heq, suites_setSuite_self] at hother
    exact Option.some.inj hother ▸ hlog
  · rw [suites_setSuite_of_ne _ heq] at hother
    exact h other otherLog hother

theorem newTest (h : state.HasPlainIds) (fates : NewTestFates) {args : List Text}
    (hargs : ∀ fixtureName testId rest, args = fixtureName :: testId :: rest →
      Posix.IsPlain testId) : (state.newTest fates args).1.HasPlainIds := by
  match args with
  | [] => exact h
  | [_] => exact h
  | fixtureName :: testId :: rest =>
      rw [DriverState.newTest]
      split
      · exact h
      · next dir log hactive =>
        dsimp only
        split
        · exact h
        split
        · exact h
        · obtain ⟨-, hsuite⟩ := active_eq_some_iff.mp hactive
          refine h.setSuite dir fun test htest => ?_
          rcases List.mem_append.mp htest with htest | htest
          · exact h dir log hsuite test htest
          · rw [List.mem_singleton.mp htest]
            exact hargs _ _ _ rfl

/-- **One call** keeps the ids plain. -/
theorem step (h : state.HasPlainIds) {call : DriverCall T} (hplain : call.IsPlain cwd) :
    (state.step cwd call).1.HasPlainIds := by
  unfold DriverCall.IsPlain at hplain
  rw [DriverState.step]
  cases hcommand : call.command with
  | printUsage => exact h
  | printVersion => exact h
  | initSuite args =>
      dsimp only
      split
      · exact h
      cases args with
      | nil => exact h
      | cons arg rest =>
          refine h.setSuite _ fun test htest => ?_
          cases hsuite : state.suites (denotedDirectory (absolutePath cwd arg)) with
          | none =>
              rw [hsuite] at htest
              cases htest
          | some log =>
              rw [hsuite] at htest
              exact h _ log hsuite test htest
  | findSuite args =>
      cases args with
      | nil => exact h
      | cons arg rest =>
          dsimp only [DriverState.withoutProgram, DriverState.findSuite]
          split
          · exact h
          · exact h
  | removeSuite args =>
      cases args with
      | nil => exact h
      | cons arg rest =>
          dsimp only [DriverState.withoutProgram, DriverState.removeSuite]
          split
          · exact h
          · intro other log hother
            dsimp only at hother
            split at hother
            · cases hother
            · exact h other log hother
  | newTest args =>
      rw [hcommand] at hplain
      refine h.newTest _ ?_
      rintro fixtureName testId rest rfl
      exact hplain.2.1.isPlain
  | run args => exact h
  | validate args => exact h
  | unknown => exact h

end DriverState.HasPlainIds

/-! ### Calls and sessions -/

/-- The files are in step with the abstract driver, and all ids are plain. -/
structure InStep (codec : DoubleCodec) (cwd : Text) (fs : FileSystem) (state : DriverState) :
    Prop extends Holds codec cwd fs state where
  hasPlainIds : state.HasPlainIds

theorem InStep.isPlain_id (h : InStep codec cwd fs state) {dir : Directory} {log : SuiteLog}
    (hactive : state.active = some (dir, log)) {test : SuiteTestEntry} (htest : test ∈ log.tests) :
    Posix.IsPlain test.m_Config.m_Id :=
  h.hasPlainIds dir log (DriverState.active_eq_some_iff.mp hactive).2 test htest

/-- A plain call names its directory. -/
theorem DriverCall.IsPlain.names {call : DriverCall T} (h : call.IsPlain cwd) {args : List Text}
    (hcommand : call.command = .initSuite args ∨ call.command = .findSuite args) :
    ∀ arg ∈ args.head?, ∃ dir, Names cwd arg dir := by
  intro arg harg
  obtain ⟨rest, rfl⟩ := List.head?_eq_some_iff.mp harg
  unfold IsPlain at h
  rcases hcommand with hcommand | hcommand
  · rw [hcommand] at h
    obtain ⟨dir, hdir⟩ := h
    exact ⟨dir, hdir.toNames⟩
  · rw [hcommand] at h
    obtain ⟨dir, hdir⟩ := h
    exact ⟨dir, hdir.toNames⟩

/-- **One call** of the driver answers as the abstract one does, and keeps the files in step. -/
theorem refines_driverMain (codec : DoubleCodec) (cwd : Text) :
    Refinement.Refines (InStep codec cwd) (DriverCall.IsPlain (T := T) cwd) (driverMain codec cwd)
      (DriverState.step cwd) := by
  have hcall : ∀ {fs : FileSystem} {state : DriverState} {call : DriverCall T},
      Holds codec cwd fs state → call.IsPlain cwd →
        Holds codec cwd (driverMain codec cwd fs call).1 (state.step cwd call).1 ∧
          (driverMain codec cwd fs call).2 = (state.step cwd call).2 := by
    intro fs state call h hplain
    rw [driverMain, DriverState.step]
    cases hcommand : call.command with
    | printUsage => exact ⟨h, rfl⟩
    | printVersion => exact ⟨h, rfl⟩
    | initSuite args =>
        obtain ⟨hholds, hvalue⟩ := h.cmdInitSuite (hplain.names (.inl hcommand))
        dsimp only
        split
        · exact ⟨h, rfl⟩
        · rw [withoutProgram, DriverState.withoutProgram, hvalue]
          exact ⟨hholds, rfl⟩
    | findSuite args =>
        obtain ⟨hholds, hvalue⟩ := h.cmdFindSuite (hplain.names (.inr hcommand))
        dsimp only
        rw [withoutProgram, DriverState.withoutProgram, hvalue]
        exact ⟨hholds, rfl⟩
    | removeSuite args =>
        unfold DriverCall.IsPlain at hplain
        rw [hcommand] at hplain
        cases args with
        | nil => exact ⟨h, rfl⟩
        | cons arg rest =>
            obtain ⟨⟨dir, hdir, hcwd⟩, hremoval⟩ := hplain
            obtain ⟨hholds, hvalue⟩ := h.cmdRemoveSuite hdir.toNames hcwd hremoval rest
            dsimp only
            rw [withoutProgram, DriverState.withoutProgram, hvalue]
            exact ⟨hholds, rfl⟩
    | newTest args =>
        unfold DriverCall.IsPlain at hplain
        rw [hcommand] at hplain
        match args, hplain with
        | [], _ => exact ⟨h, rfl⟩
        | [_], _ => exact ⟨h, rfl⟩
        | fixtureName :: testId :: rest, ⟨hfixture, _, htorn, hregistry⟩ =>
            obtain ⟨hholds, hvalue⟩ := h.cmdNewTest testId hfixture htorn hregistry
            dsimp only
            rw [withoutProgram, DriverState.withoutProgram, hvalue]
            exact ⟨hholds, rfl⟩
    | run args => exact ⟨h, h.cmdRun_eq _ args⟩
    | validate args =>
        dsimp only
        rw [h.cmdValidate_eq]
        exact ⟨h, rfl⟩
    | unknown => exact ⟨h, rfl⟩
  exact ⟨fun h hplain => ⟨(hcall h.toHolds hplain).1, h.hasPlainIds.step hplain⟩,
    fun h hplain => (hcall h.toHolds hplain).2⟩

/-- Without any file there is no suite. -/
theorem inStep_none (codec : DoubleCodec) (cwd : Text) : InStep codec cwd (fun _ => none) {} where
  marker := rfl
  isPlain_current := by simp
  suites := fun _ _ => ⟨rfl, rfl⟩
  hasPlainIds := by
    intro dir log hlog
    cases hlog

/-- **A run as it is written**: with a shell that reads calls as calls, and tests that let their
process end, it executes and returns what it does with argument lists. -/
def DriverCall.IsHandedOn (codec : DoubleCodec) (cwd : Text) (fs : FileSystem)
    (call : DriverCall T) : Prop :=
  ∀ args, call.command = .run args →
    ∀ (machine : Posix.PosixMachine) (sh : Text → Posix.ShellReading),
      machine.toMachine = call.surroundings.machine → Posix.IsPlainPath machine.l_exePath →
      (∀ index, machine.brokenOff index = none) → Posix.ReadsCalls machine sh →
      (Posix.cmdRun codec cwd fs sh machine args).value = (driverMain codec cwd fs call).2.value ∧
        (Posix.cmdRun codec cwd fs sh machine args).executed =
          (driverMain codec cwd fs call).2.executions.map fun e => (e.1, some e.2)

/-- The tests of a run are those that the current suite was told. -/
theorem suiteTests_of_prepareLog {active : Option (Directory × SuiteLog)} {machine : Machine}
    {options : RunOptions} {run : PreparedRun} (h : prepareLog active machine options = .ok run) :
    ∃ dir log, active = some (dir, log) ∧ run.suiteTests = log.tests := by
  unfold prepareLog at h
  split at h
  · cases h
  split at h
  · cases h
  split at h
  · cases h
  · cases h
  · next dir log _ =>
    split at h
    · cases h
    split at h
    · cases h
    · obtain rfl := Except.ok.inj h
      exact ⟨dir, log, rfl, rfl⟩

/-- **In step with the abstract driver**, plain runs are handed on. -/
theorem InStep.isHandedOn (h : InStep codec cwd fs state) {call : DriverCall T}
    (hplain : call.IsPlain cwd) : call.IsHandedOn codec cwd fs := by
  rintro args hcommand machine sh hmachine hpath hlasts hsh
  have hanswer : (driverMain codec cwd fs call).2 =
      cmdRun codec cwd fs machine.toMachine args := by
    rw [driverMain, hcommand, hmachine]
  rw [hanswer]
  unfold DriverCall.IsPlain at hplain
  rw [hcommand] at hplain
  cases hrun : prepareRun codec cwd fs machine.toMachine (args.foldl RunOptions.parse {}) with
  | error value =>
      unfold Posix.cmdRun cmdRun
      dsimp only
      rw [hrun]
      exact ⟨rfl, rfl⟩
  | ok run =>
      refine Posix.cmdRun_eq_of_handsOn hsh hrun ⟨hpath, hplain.1, hplain.2, ?_⟩ hlasts
      rintro - test htest
      have hprepare := h.prepareRun_eq machine.toMachine (args.foldl RunOptions.parse {})
      obtain ⟨dir, log, hactive, htests⟩ := suiteTests_of_prepareLog (hprepare.symm.trans hrun)
      rw [htests] at htest
      exact h.isPlain_id hactive (List.mem_of_mem_filter htest)

/-- A call in which nothing fails but the rename of `validate`. -/
def sampleCall (args : List String) : DriverCall Text where
  args := args.map String.toList
  surroundings :=
    { createsDirectories := true
      removal := {}
      machine := sampleMachine true
      steps := sampleSteps
      trees := { tempBuild := none, runBuild := none } }

/-- A suite is made, told of two tests and run; a third test is refused, and the suite is
deleted. -/
def sampleSession : List (DriverCall Text) :=
  [sampleCall ["init-suite", "s"],
    sampleCall ["new-test", "F", "a", "--header=f.h", "--adapter=A", "--chrono=C", "--hash=H"],
    sampleCall ["new-test", "F", "b"], sampleCall ["new-test", "G", "c"], sampleCall ["run"],
    sampleCall ["rm", "s"]]

/-- The directory of the suite. -/
theorem names_sample : NamesFree "/w".toList "s".toList ["w".toList, "s".toList] where
  arg_ne_nil := by decide
  path_eq := by decide
  isPlain :=
    { ne_nil := by decide
      names := by
        intro name hname
        simp only [List.mem_cons, List.not_mem_nil, or_false] at hname
        rcases hname with rfl | rfl
        · exact ⟨by decide, by decide, by decide, by decide⟩
        · exact ⟨by decide, by decide, by decide, by decide⟩
      popLineEnds_eq := by decide }
  reserved := by decide

/-- The ids of the sample. -/
theorem isFreeId_sample {id : Text} (h : id ∈ ["a".toList, "b".toList, "c".toList]) :
    IsFreeId id := by
  simp only [List.mem_cons, List.not_mem_nil, or_false] at h
  rcases h with rfl | rfl | rfl
  · exact ⟨⟨by decide, by decide, by decide, by decide⟩, by decide, by decide⟩
  · exact ⟨⟨by decide, by decide, by decide, by decide⟩, by decide, by decide⟩
  · exact ⟨⟨by decide, by decide, by decide, by decide⟩, by decide, by decide⟩

/-- The calls of the sample are plain. -/
theorem isPlain_sampleSession : ∀ call ∈ sampleSession, call.IsPlain "/w".toList := by
  have hempty : IsPlainValue [] := ⟨List.not_mem_nil, Trimming.tight_nil⟩
  have hheader : IsPlainValue "f.h".toList ∧ IsPlainValue [] :=
    ⟨⟨by decide, by decide⟩, hempty⟩
  have hnone : IsPlainValue [] ∧ IsPlainValue [] := ⟨hempty, hempty⟩
  intro call hcall
  simp only [sampleSession, List.mem_cons, List.not_mem_nil, or_false] at hcall
  rcases hcall with rfl | rfl | rfl | rfl | rfl | rfl
  · exact ⟨_, names_sample⟩
  · exact ⟨hheader, isFreeId_sample (by simp), by simp [sampleCall], rfl⟩
  · exact ⟨hnone, isFreeId_sample (by simp), by simp [sampleCall], rfl⟩
  · exact ⟨hnone, isFreeId_sample (by simp), by simp [sampleCall], rfl⟩
  · exact ⟨by decide, by decide⟩
  · exact ⟨⟨_, names_sample, by decide⟩, rfl⟩

/-- The test that a call requests. -/
def DriverCall.requestedTest? (call : DriverCall T) : Option SuiteTestEntry :=
  match call.command with
  | .newTest (fixtureName :: testId :: rest) =>
    some (requestedTest fixtureName testId (rest.foldl NewTestFlags.parse {}).kind)
  | _ => none

/-- The requested tests of the calls that returned zero. -/
def acceptedTests (calls : List (DriverCall T)) (answers : List CommandRun) :
    List SuiteTestEntry :=
  (calls.zip answers).filterMap fun c => if c.2.value = 0 then c.1.requestedTest? else none

/-- Telling the current suite of something. -/
theorem DriverState.active_setSuite {dir : Directory} {log : SuiteLog}
    (h : state.active = some (dir, log)) (log' : SuiteLog) :
    (state.setSuite dir log').active = some (dir, log') :=
  active_eq_some_iff.mpr ⟨(active_eq_some_iff.mp h).1, suites_setSuite_self _ _ _⟩

theorem acceptedTests_cons (call : DriverCall T) (calls : List (DriverCall T))
    (answer : CommandRun) (answers : List CommandRun) :
    acceptedTests (call :: calls) (answer :: answers) =
      (if answer.value = 0 then call.requestedTest? else none).toList ++
        acceptedTests calls answers := by
  rw [acceptedTests, List.zip_cons_cons, List.filterMap_cons]
  split
  · next hnone => rw [hnone]; rfl
  · next hsome => rw [hsome]; rfl

/-- Answers behind those of the calls do not matter. -/
theorem acceptedTests_append {calls : List (DriverCall T)} {answers : List CommandRun}
    (h : answers.length = calls.length) (more : List CommandRun) :
    acceptedTests calls (answers ++ more) = acceptedTests calls answers := by
  have hzip : (calls ++ []).zip (answers ++ more) = calls.zip answers ++ [].zip more :=
    List.zip_append h.symm
  rw [List.append_nil, List.zip_nil_left, List.append_nil] at hzip
  rw [acceptedTests, hzip, acceptedTests]

/-- **One `new-test`** tells the current suite of its test if it returns zero. -/
theorem DriverState.active_step_newTest (cwd : Text) {dir : Directory} {log : SuiteLog}
    (h : state.active = some (dir, log)) {call : DriverCall T} {args : List Text}
    (hcommand : call.command = .newTest args) :
    ∃ log', (state.step cwd call).1.active = some (dir, log') ∧
      log'.tests = log.tests ++
        (if (state.step cwd call).2.value = 0 then call.requestedTest? else none).toList := by
  rw [DriverState.step, DriverCall.requestedTest?, hcommand]
  dsimp only [withoutProgram]
  match args with
  | [] => exact ⟨log, h, (List.append_nil _).symm⟩
  | [_] => exact ⟨log, h, (List.append_nil _).symm⟩
  | fixtureName :: testId :: rest =>
      simp only [DriverState.newTest, h]
      split
      · exact ⟨log, h, (List.append_nil _).symm⟩
      split
      · exact ⟨log, h, (List.append_nil _).symm⟩
      · exact ⟨_, active_setSuite h _, rfl⟩

/-- **A series of `new-test`** tells it of the accepted tests. -/
theorem DriverState.active_run_newTests (cwd : Text) {dir : Directory} {log : SuiteLog}
    (h : state.active = some (dir, log)) {calls : List (DriverCall T)}
    (hcalls : ∀ call ∈ calls, ∃ args, call.command = .newTest args) :
    ∃ log', (Refinement.run (DriverState.step cwd) state calls).1.active = some (dir, log') ∧
      log'.tests =
        log.tests ++ acceptedTests calls (Refinement.run (DriverState.step cwd) state calls).2 := by
  induction calls generalizing state log with
  | nil => exact ⟨log, h, (List.append_nil _).symm⟩
  | cons call calls ih =>
      obtain ⟨args, hcommand⟩ := hcalls call List.mem_cons_self
      obtain ⟨told, hactive, htold⟩ := active_step_newTest cwd h hcommand
      obtain ⟨log', hrest, htests⟩ := ih hactive fun other hother =>
        hcalls other (List.mem_cons_of_mem _ hother)
      refine ⟨log', hrest, ?_⟩
      rw [htests, htold, Refinement.run, acceptedTests_cons, List.append_assoc]

/-- The options are accepted, and nothing fails before the program is started. -/
structure StartsProgram (machine : Machine) (options : RunOptions) : Prop where
  build : options.l_build = "cmake".toList
  config : isKnownCMakeConfig options.l_config = true
  cooldown : options.cooldownSeconds?.isSome = true
  configured : machine.configureStatus = 0
  built : machine.buildStatus = 0
  found : machine.findsExecutable = true

instance (machine : Machine) (options : RunOptions) : Decidable (StartsProgram machine options) :=
  decidable_of_iff (options.l_build = "cmake".toList ∧ isKnownCMakeConfig options.l_config = true ∧
    options.cooldownSeconds?.isSome = true ∧ machine.configureStatus = 0 ∧
      machine.buildStatus = 0 ∧ machine.findsExecutable = true)
    ⟨fun ⟨build, config, cooldown, configured, built, found⟩ =>
      ⟨build, config, cooldown, configured, built, found⟩,
      fun h => ⟨h.build, h.config, h.cooldown, h.configured, h.built, h.found⟩⟩

/-- A plain id is one line, and has no NUL. -/
theorem newline_notMem_of_isPlain {id : Text} (h : Posix.IsPlain id) : '\n' ∉ id ∧ '\x00' ∉ id :=
  ⟨fun hmem => absurd (h _ hmem).1 (by decide), fun hmem => (h _ hmem).2 rfl⟩

/-- **The program of a suite** with plain ids compiles. -/
theorem InStep.exists_generate (h : InStep codec cwd fs state) {dir : Directory} {log : SuiteLog}
    (hactive : state.active = some (dir, log)) :
    ∃ program, GeneratedProgram.generate (log.request dir) = some program := by
  obtain ⟨hdir, hheld⟩ := h.isHeldBy hactive
  have hvalid : validateFixtureReferences (log.request dir) = true :=
    (regenerateSuite_eq_ok_iff.mp hheld.readsBack.regenerates).2.2.2
  have hkey : ∀ fixture ∈ log.fixtures, IsKey fixture.m_FixtureName := fun fixture hfixture =>
    isKey_of_isIdentifier
      (isClean_of_mem_readRegistryIni (by rwa [hheld.readsBack.fixtures])).1.name
  have hlines : ∀ test ∈ log.tests, test.IsOneLine := by
    intro test htest
    obtain ⟨fixture, hfixture, hname⟩ := List.any_eq_true.mp (hheld.resolved test htest)
    refine ⟨?_, (newline_notMem_of_isPlain (h.isPlain_id hactive htest)).1⟩
    rw [← of_decide_eq_true hname]
    exact (hkey fixture hfixture).notMem (by decide)
  rw [GeneratedProgram.generate, dif_pos ⟨hvalid, fun fixture hfixture =>
    (hkey fixture hfixture).notMem (by decide)⟩]
  split
  · exact ⟨_, rfl⟩
  · next hnone =>
    rw [buildSuiteTests_of_isOneLine hlines] at hnone
    cases hnone

/-- **The program is started** where nothing fails before. -/
theorem InStep.exists_prepareLog (h : InStep codec cwd fs state) {dir : Directory}
    {log : SuiteLog} (hactive : state.active = some (dir, log)) {machine : Machine}
    {options : RunOptions} (hstarts : StartsProgram machine options) :
    ∃ run, prepareLog state.active machine options = .ok run := by
  obtain ⟨cooldown, hcooldown⟩ := Option.isSome_iff_exists.mp hstarts.cooldown
  obtain ⟨program, hprogram⟩ := h.exists_generate hactive
  have hbuilds : ¬ (machine.configureStatus ≠ 0 ∨ machine.buildStatus ≠ 0 ∨
      (!machine.findsExecutable) = true) := by
    simp [hstarts.configured, hstarts.built, hstarts.found]
  unfold prepareLog
  rw [if_neg (not_not.mpr hstarts.build), if_neg (by simp [hstarts.config]), hcooldown, hactive]
  dsimp only
  rw [if_neg hbuilds]
  split
  · next hnone =>
    rw [hprogram] at hnone
    cases hnone
  · exact ⟨_, rfl⟩

/-- **A program that is started** in native mode executes the selected tests of the log. -/
theorem InStep.executedTests_runLog (h : InStep codec cwd fs state) {dir : Directory}
    {log : SuiteLog} (hactive : state.active = some (dir, log)) {machine : Machine}
    {args : List Text} (hnative : (args.foldl RunOptions.parse {}).l_isolate = false)
    (hstarts : StartsProgram machine (args.foldl RunOptions.parse {})) :
    (runLog state.active machine args).executedTests =
      (log.tests.filter (selects (args.foldl RunOptions.parse {}).l_fbt)).map
        SuiteTestEntry.compiled := by
  obtain ⟨options, hoptions⟩ : ∃ options, args.foldl RunOptions.parse {} = options := ⟨_, rfl⟩
  rw [hoptions] at hnative hstarts ⊢
  obtain ⟨run, hrun⟩ := h.exists_prepareLog hactive hstarts
  obtain ⟨dir', log', hactive', htests⟩ := suiteTests_of_prepareLog hrun
  obtain ⟨rfl, rfl⟩ := Prod.mk.inj (Option.some.inj (hactive.symm.trans hactive'))
  have hselects : ∀ test ∈ log.tests,
      selects options.l_fbt test.compiled = selects options.l_fbt test := fun test htest =>
    selects_compiled (newline_notMem_of_isPlain (h.isPlain_id hactive htest)).2 options.l_fbt
  rw [runLog, hoptions, hrun]
  dsimp only
  rw [hnative, if_neg Bool.false_ne_true, executedTests_runNative, run.filter_tests, htests,
    List.filter_congr hselects]

/-- **What a new suite was told**: behind `init-suite` and any `new-test`, the tests of the current
suite are the accepted ones. -/
theorem exists_inStep_told (codec : DoubleCodec) {arg : Text} {dir : Directory}
    (hdir : NamesFree cwd arg dir) {first : DriverCall T} {calls : List (DriverCall T)}
    (hfirst : first.command = .initSuite [arg])
    (hcreates : first.surroundings.createsDirectories = true)
    (hcalls : ∀ call ∈ calls, call.IsPlain cwd ∧ ∃ args, call.command = .newTest args) :
    let made := Refinement.run (driverMain codec cwd) (fun _ => none) (first :: calls)
    ∃ state log, InStep codec cwd made.1 state ∧ state.active = some (dir, log) ∧
      log.tests = acceptedTests calls made.2.tail := by
  intro made
  have hplain : ∀ call ∈ first :: calls, call.IsPlain cwd := by
    intro call hcall
    rcases List.mem_cons.mp hcall with rfl | hcall
    · unfold DriverCall.IsPlain
      rw [hfirst]
      exact ⟨dir, hdir⟩
    · exact (hcalls call hcall).1
  have hactive : (DriverState.step cwd {} first).1.active = some (dir, {}) := by
    rw [DriverState.step, hfirst]
    dsimp only
    rw [if_neg (by simp [hcreates]), DriverState.withoutProgram, DriverState.initSuite,
      hdir.denotedDirectory_eq]
    exact DriverState.active_eq_some_iff.mpr ⟨rfl, DriverState.suites_setSuite_self _ _ _⟩
  obtain ⟨log, hlog, htests⟩ := DriverState.active_run_newTests cwd hactive
    fun call hcall => (hcalls call hcall).2
  obtain ⟨hstep, hanswers⟩ := (refines_driverMain codec cwd).run hplain (inStep_none codec cwd)
  refine ⟨_, log, hstep, hlog, htests.trans ?_⟩
  exact congrArg (fun answers => acceptedTests calls answers.tail) hanswers.symm

end Hades.Runtime
