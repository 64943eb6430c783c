import Hades.RunModes

/-!
# Time Limits of Isolated Children

`hades-driver run --isolate --timeout=<text>` on Windows (`Commands.cpp`, `ProcessExec.cpp`),
where `unsigned long`, `unsigned` and `DWORD` have 32 bits. The text goes through `strtoul`,
which reads a number in front of anything else and never refuses; its value is seconds, and
the wait for a child is 1000 times as many milliseconds, in 32 bits. Zero seconds are no limit.

A child ends by itself after some time, or never does; one without a limit that never ends
leaves the command waiting.

## Main results

* `strtoul_of_natOfText?`: a text of digits is read as its number, up to the largest one.
* `timeLimit_waitMs_iff`: **the limit is the one asked for** exactly when its milliseconds
  fit 32 bits.
* `waits_cmdRunIsolate_ne_nil_iff`: when some child is waited for.
* `keepsLimit_cmdRun_iff`, `timeoutLaw_iff`: the runs that keep the limit that was asked for,
  and the texts whose runs all do.
-/

namespace Hades.Runtime.Windows

open DecimalText

/-! ### From a text to a limit -/

/-- The largest `unsigned long`. -/
abbrev ULONG_MAX : ℕ := 2 ^ 32 - 1

/-- The time limit of a child in seconds; zero is none. -/
def timeoutSeconds (options : RunOptions) : UInt32 :=
  if options.l_timeoutStr = [] then 15
  else UInt32.ofNat (strtoul ULONG_MAX options.l_timeoutStr)

/-- The wait that never times out. -/
def INFINITE : UInt32 := 0xFFFFFFFF

/-- The milliseconds that a child is waited for. -/
def waitMs (seconds : UInt32) : UInt32 :=
  if seconds = 0 then INFINITE else seconds * 1000

/-- The milliseconds after which a wait times out. -/
def timeLimit (ms : UInt32) : Option ℕ :=
  if ms = INFINITE then none else some ms.toNat

/-- The limit that a number of seconds asks for, in milliseconds. -/
def askedLimit (seconds : ℕ) : Option ℕ :=
  if seconds = 0 then none else some (1000 * seconds)

/-- **The limit is the one asked for** exactly when its milliseconds fit 32 bits. -/
theorem timeLimit_waitMs_iff (n : ℕ) :
    timeLimit (waitMs (UInt32.ofNat (min n ULONG_MAX))) = askedLimit n ↔ 1000 * n < 2 ^ 32 := by
  have hmax : ULONG_MAX = 4294967295 := rfl
  obtain ⟨seconds, hseconds⟩ : ∃ seconds, UInt32.ofNat (min n ULONG_MAX) = seconds := ⟨_, rfl⟩
  have hvalue : seconds.toNat = min n ULONG_MAX := by
    rw [← hseconds, UInt32.toNat_ofNat_of_lt']
    exact Nat.lt_of_le_of_lt (min_le_right n ULONG_MAX) (by decide)
  rw [hseconds]
  rcases Nat.eq_zero_or_pos n with rfl | hpos
  · have hzero : seconds = 0 := UInt32.toNat_inj.mp hvalue
    rw [hzero]
    decide
  · have hne : seconds ≠ 0 := by
      rintro rfl
      rw [UInt32.toNat_zero] at hvalue
      omega
    have hms : (seconds * 1000).toNat = min n ULONG_MAX * 1000 % 2 ^ 32 := by
      rw [UInt32.toNat_mul, hvalue]
      rfl
    -- an even number of milliseconds is never the wait without a limit
    have hlimited : seconds * 1000 ≠ INFINITE := by
      intro heq
      have hodd : (seconds * 1000).toNat = 2 ^ 32 - 1 := by
        rw [heq]
        rfl
      omega
    rw [waitMs, if_neg hne, timeLimit, if_neg hlimited, askedLimit, if_neg hpos.ne', hms,
      Option.some_inj]
    omega

/-! ### Processes -/

/-- What the machine does besides: whether the capture file opens and the process is created
for the child of an index, and after how many milliseconds the child ends, if it does. -/
structure WindowsMachine extends Machine where
  opensCapture : ℕ → Bool := fun _ => true
  createsProcess : ℕ → Bool := fun _ => true
  duration : ℕ → Option ℕ

/-- How a process ended. -/
structure ProcessResult where
  m_ExitCode : Int32 := 0
  m_TimedOut : Bool := false
  deriving DecidableEq

/-- A test of isolate mode passes when its child exits with zero in time. -/
def ProcessResult.passed (result : ProcessResult) : Bool :=
  !result.m_TimedOut && result.m_ExitCode == 0

/-- What `run` does once the program is built. -/
inductive CommandAction where
  | sleepFor (seconds : UInt16)
  | startProcess (args : List Text)
  | startChild (args : List Text) (l_waitMs : UInt32)
  deriving DecidableEq

/-- What `run` does, and the value that it returns, if it returns. -/
structure CommandRun where
  actions : List CommandAction := []
  value : Option ℕ

/-- Whether a wait for a child times out, if it comes back. -/
def timesOut? : Option ℕ → Option ℕ → Option Bool
  | none, none => none
  | none, some _ => some false
  | some _, none => some true
  | some limit, some duration => some (decide (limit < duration))

/-- A child and its wait: what is done, and the result, if the wait comes back. A child that
does not end in time is terminated. -/
def runProcessTimed (machine : WindowsMachine) (index : ℕ) (args : List Text)
    (seconds : UInt32) (process : ProcessRun) : List CommandAction × Option ProcessResult :=
  if !machine.opensCapture index then ([], some { m_ExitCode := -1 })
  else if !machine.createsProcess index then ([], some { m_ExitCode := -1 })
  else
    let l_waitMs := waitMs seconds
    ([.startChild args l_waitMs],
      (timesOut? (timeLimit l_waitMs) (machine.duration index)).map fun timedOut =>
        if timedOut then { m_TimedOut := true }
        else { m_ExitCode := Int32.ofNat process.exitCode })

/-! ### The command -/

/-- The pause before a child, which no first and no correctness test has. -/
def pauseBefore (run : PreparedRun) (index : ℕ) (test : SuiteTestEntry) : List CommandAction :=
  if 0 < run.cooldownSeconds ∧ 0 < index ∧ test.m_Config.m_Kind = .Performance then
    [.sleepFor run.cooldownSeconds]
  else []

/-- The loop of isolate mode over the selected tests, with the failures so far. -/
def isolateChildren (machine : WindowsMachine) (options : RunOptions) (run : PreparedRun) :
    ℕ → List (SuiteTestEntry × ℕ) → CommandRun
  | l_failedCount, [] => { value := some (if l_failedCount ≠ 0 then 1 else 0) }
  | l_failedCount, (test, index) :: rest =>
    let call := runProcessTimed machine index (childArguments options test.m_Config.m_Id)
      (timeoutSeconds options) (run.child machine.toMachine options index test)
    let actions := pauseBefore run index test ++ call.1
    match call.2 with
    | none => { actions, value := none }
    | some result =>
      let later := isolateChildren machine options run
        (if result.passed then l_failedCount else l_failedCount + 1) rest
      { actions := actions ++ later.actions, value := later.value }

/-- Isolate mode: one process for every test of the manifest that the pattern selects. -/
def cmdRunIsolate (codec : DoubleCodec) (fs : FileSystem) (machine : WindowsMachine)
    (options : RunOptions) (run : PreparedRun) : CommandRun :=
  let suiteToml := suiteTomlPath run.suiteDir
  let (entries, errors) := readSuiteToml codec suiteToml (fs suiteToml)
  let tests := entries.filter (selects options.l_fbt)
  if errors ≠ [] ∨ tests = [] then { value := some 1 }
  else isolateChildren machine options run 0 tests.zipIdx

/-- Native mode: one process, without a limit; its exit code is returned. -/
def runNative (machine : WindowsMachine) (options : RunOptions) (run : PreparedRun) :
    CommandRun :=
  let args := nativeArguments options run.cooldownSeconds
  { actions := [.startProcess args]
    value := (machine.duration 0).map fun _ =>
      (run.program.main (machine.compiled 0) args).exitCode }

/-- The command. -/
def cmdRun (codec : DoubleCodec) (cwd : Text) (fs : FileSystem) (machine : WindowsMachine)
    (args : List Text) : CommandRun :=
  let options := args.foldl RunOptions.parse {}
  match prepareRun codec cwd fs machine.toMachine options with
  | .error value => { value := some value }
  | .ok run =>
    if options.l_isolate then cmdRunIsolate codec fs machine options run
    else runNative machine options run

/-- The wait of an action. -/
def CommandAction.wait? : CommandAction → Option UInt32
  | .sleepFor _ => none
  | .startProcess _ => none
  | .startChild _ l_waitMs => some l_waitMs

/-- The waits for the children. -/
def CommandRun.waits (run : CommandRun) : List UInt32 :=
  run.actions.filterMap CommandAction.wait?

/-! ### The limit that is asked for -/

/-- A run that keeps the limit: its text is a number, and every child has this many seconds,
or the command is refused. -/
def CommandRun.KeepsLimit (text : Text) (run : CommandRun) : Prop :=
  (∃ n, natOfText? text = some n ∧ ∀ ms ∈ run.waits, timeLimit ms = askedLimit n) ∨
    run.actions = [] ∧ run.value = some 2

/-- Every run in isolate mode with this text keeps the limit. -/
def TimeoutLaw (text : Text) : Prop :=
  ∀ (codec : DoubleCodec) (cwd : Text) (fs : FileSystem) (machine : WindowsMachine)
    (args : List Text), (args.foldl RunOptions.parse {}).l_isolate = true →
    (args.foldl RunOptions.parse {}).l_timeoutStr = text →
    (cmdRun codec cwd fs machine args).KeepsLimit text

/-! ### The waits of a run -/

variable {machine : WindowsMachine} {options : RunOptions} {run : PreparedRun}

/-- The child of an index is started. -/
def WindowsMachine.starts (machine : WindowsMachine) (index : ℕ) : Bool :=
  machine.opensCapture index && machine.createsProcess index

/-- A child that is not started. -/
theorem runProcessTimed_of_not_starts {index : ℕ} (h : machine.starts index = false)
    (args : List Text) (seconds : UInt32) (process : ProcessRun) :
    runProcessTimed machine index args seconds process = ([], some { m_ExitCode := -1 }) := by
  rw [runProcessTimed]
  rw [WindowsMachine.starts] at h
  cases hopens : machine.opensCapture index with
  | false => rfl
  | true =>
      rw [hopens, Bool.true_and] at h
      rw [h]
      rfl

/-- A child that is started. -/
theorem runProcessTimed_of_starts {index : ℕ} (h : machine.starts index = true)
    (args : List Text) (seconds : UInt32) (process : ProcessRun) :
    runProcessTimed machine index args seconds process =
      ([.startChild args (waitMs seconds)],
        (timesOut? (timeLimit (waitMs seconds)) (machine.duration index)).map fun timedOut =>
          if timedOut then { m_TimedOut := true }
          else { m_ExitCode := Int32.ofNat process.exitCode }) := by
  obtain ⟨hopens, hcreates⟩ := Bool.and_eq_true_iff.mp h
  rw [runProcessTimed, hopens, hcreates]
  rfl

/-- The wait for one child. -/
theorem waits_runProcessTimed (machine : WindowsMachine) (index : ℕ) (args : List Text)
    (seconds : UInt32) (process : ProcessRun) :
    (runProcessTimed machine index args seconds process).1.filterMap CommandAction.wait? =
      if machine.starts index then [waitMs seconds] else [] := by
  cases hstarts : machine.starts index with
  | false =>
      rw [runProcessTimed_of_not_starts hstarts]
      rfl
  | true =>
      rw [runProcessTimed_of_starts hstarts]
      rfl

/-- A pause is no wait for a child. -/
theorem waits_pauseBefore (run : PreparedRun) (index : ℕ) (test : SuiteTestEntry) :
    (pauseBefore run index test).filterMap CommandAction.wait? = [] := by
  rw [pauseBefore]
  split
  · rfl
  · rfl

/-- One turn of the loop: the command waits for a child that never ends, or goes on. -/
theorem isolateChildren_cons_cases (machine : WindowsMachine) (options : RunOptions)
    (run : PreparedRun) (failed : ℕ) (test : SuiteTestEntry) (index : ℕ)
    (rest : List (SuiteTestEntry × ℕ)) :
    (machine.starts index = true ∧
        (isolateChildren machine options run failed ((test, index) :: rest)).waits =
          [waitMs (timeoutSeconds options)] ∧
        (isolateChildren machine options run failed ((test, index) :: rest)).value = none) ∨
      ∃ failed', (isolateChildren machine options run failed ((test, index) :: rest)).waits =
          (if machine.starts index then [waitMs (timeoutSeconds options)] else []) ++
            (isolateChildren machine options run failed' rest).waits ∧
        (isolateChildren machine options run failed ((test, index) :: rest)).value =
          (isolateChildren machine options run failed' rest).value := by
  have hwaits := waits_runProcessTimed machine index (childArguments options test.m_Config.m_Id)
    (timeoutSeconds options) (run.child machine.toMachine options index test)
  rw [isolateChildren]
  dsimp only
  cases hresult : (runProcessTimed machine index (childArguments options test.m_Config.m_Id)
      (timeoutSeconds options) (run.child machine.toMachine options index test)).2 with
  | none =>
      have hstarts : machine.starts index = true := by
        by_contra hnot
        rw [runProcessTimed_of_not_starts (Bool.eq_false_iff.mpr hnot)] at hresult
        cases hresult
      refine .inl ⟨hstarts, ?_, rfl⟩
      rw [CommandRun.waits, List.filterMap_append, waits_pauseBefore, hwaits, hstarts]
      rfl
  | some result =>
      refine .inr ⟨if result.passed then failed else failed + 1, ?_, rfl⟩
      rw [CommandRun.waits, List.filterMap_append, List.filterMap_append, waits_pauseBefore,
        hwaits]
      rfl

/-- **Every child has the same wait.** -/
theorem eq_waitMs_of_mem_waits_isolateChildren {tests : List (SuiteTestEntry × ℕ)}
    {failed : ℕ} {ms : UInt32} (h : ms ∈ (isolateChildren machine options run failed tests).waits) :
    ms = waitMs (timeoutSeconds options) := by
  induction tests generalizing failed with
  | nil => cases h
  | cons t rest ih =>
      obtain ⟨-, hwaits, -⟩ | ⟨failed', hwaits, -⟩ :=
        isolateChildren_cons_cases machine options run failed t.1 t.2 rest
      · rw [hwaits] at h
        exact List.mem_singleton.mp h
      · rw [hwaits] at h
        rcases List.mem_append.mp h with h | h
        · split at h
          · exact List.mem_singleton.mp h
          · cases h
        · exact ih h

/-- **Some child is waited for** exactly when one of the selected tests has a child that is
started. -/
theorem waits_isolateChildren_ne_nil_iff (tests : List (SuiteTestEntry × ℕ)) (failed : ℕ) :
    (isolateChildren machine options run failed tests).waits ≠ [] ↔
      ∃ t ∈ tests, machine.starts t.2 = true := by
  induction tests generalizing failed with
  | nil => exact iff_of_false (fun hne => hne rfl) (fun ⟨_, ht, _⟩ => nomatch ht)
  | cons t rest ih =>
      rw [List.exists_mem_cons_iff]
      obtain ⟨hstarts, hwaits, -⟩ | ⟨failed', hwaits, -⟩ :=
        isolateChildren_cons_cases machine options run failed t.1 t.2 rest
      · rw [hwaits]
        exact iff_of_true (List.cons_ne_nil _ _) (.inl hstarts)
      · rw [hwaits, ne_eq, List.append_eq_nil_iff, not_and_or, ← ne_eq (CommandRun.waits _), ih]
        refine or_congr ?_ Iff.rfl
        cases machine.starts t.2 with
        | false => simp
        | true => simp

/-- Isolate mode never returns two. -/
theorem value_isolateChildren_ne_two (tests : List (SuiteTestEntry × ℕ)) (failed : ℕ) :
    (isolateChildren machine options run failed tests).value ≠ some 2 := by
  induction tests generalizing failed with
  | nil =>
      rw [isolateChildren]
      dsimp only
      split
      · decide
      · decide
  | cons t rest ih =>
      obtain ⟨-, -, hvalue⟩ | ⟨failed', -, hvalue⟩ :=
        isolateChildren_cons_cases machine options run failed t.1 t.2 rest
      · rw [hvalue]
        decide
      · rw [hvalue]
        exact ih failed'

/-- The command in isolate mode, once its run is prepared. -/
theorem cmdRun_eq_cmdRunIsolate {codec : DoubleCodec} {cwd : Text} {fs : FileSystem}
    {args : List Text} (hoptions : args.foldl RunOptions.parse {} = options)
    (hisolate : options.l_isolate = true)
    (h : prepareRun codec cwd fs machine.toMachine options = .ok run) :
    cmdRun codec cwd fs machine args = cmdRunIsolate codec fs machine options run := by
  rw [cmdRun, hoptions, h]
  dsimp only
  rw [if_pos hisolate]

/-- The waits of the command in isolate mode. -/
theorem eq_waitMs_of_mem_waits_cmdRun {codec : DoubleCodec} {cwd : Text} {fs : FileSystem}
    {args : List Text} (hisolate : (args.foldl RunOptions.parse {}).l_isolate = true)
    {ms : UInt32} (h : ms ∈ (cmdRun codec cwd fs machine args).waits) :
    ms = waitMs (timeoutSeconds (args.foldl RunOptions.parse {})) := by
  cases hrun : prepareRun codec cwd fs machine.toMachine (args.foldl RunOptions.parse {}) with
  | error value =>
      rw [cmdRun, hrun] at h
      cases h
  | ok run =>
      rw [cmdRun_eq_cmdRunIsolate rfl hisolate hrun, cmdRunIsolate] at h
      dsimp only at h
      split at h
      · cases h
      · exact eq_waitMs_of_mem_waits_isolateChildren h

/-- A prepared run in isolate mode is not refused. -/
theorem value_cmdRunIsolate_ne_two (codec : DoubleCodec) (fs : FileSystem)
    (machine : WindowsMachine) (options : RunOptions) (run : PreparedRun) :
    (cmdRunIsolate codec fs machine options run).value ≠ some 2 := by
  rw [cmdRunIsolate]
  dsimp only
  split
  · decide
  · exact value_isolateChildren_ne_two _ 0

/-- A prepared run in isolate mode waits for a child exactly when one of the selected tests has
a child that is started. -/
theorem waits_cmdRunIsolate_ne_nil_iff {codec : DoubleCodec} {cwd : Text} {fs : FileSystem}
    (h : prepareRun codec cwd fs machine.toMachine options = .ok run) :
    (cmdRunIsolate codec fs machine options run).waits ≠ [] ↔
      ∃ t ∈ (run.suiteTests.filter (selects options.l_fbt)).zipIdx,
        machine.starts t.2 = true := by
  rw [cmdRunIsolate, readSuiteToml_of_prepareRun h]
  dsimp only
  by_cases hnone : run.suiteTests.filter (selects options.l_fbt) = []
  · rw [if_pos (.inr hnone), hnone]
    exact iff_of_false (fun hne => hne rfl) (fun ⟨_, ht, _⟩ => nomatch ht)
  · rw [if_neg (not_or.mpr ⟨not_not.mpr rfl, hnone⟩)]
    exact waits_isolateChildren_ne_nil_iff _ 0

/-! ### The texts that keep the limit -/

/-- **One run keeps the limit** when its text is a number whose milliseconds fit, when it has no
child to wait for, or when it is refused for another option. -/
theorem keepsLimit_cmdRun_iff {codec : DoubleCodec} {cwd : Text} {fs : FileSystem}
    {args : List Text} {text : Text}
    (hisolate : (args.foldl RunOptions.parse {}).l_isolate = true)
    (htext : (args.foldl RunOptions.parse {}).l_timeoutStr = text) (hne : text ≠ []) :
    (cmdRun codec cwd fs machine args).KeepsLimit text ↔
      (∃ n, natOfText? text = some n ∧
        (1000 * n < 2 ^ 32 ∨ (cmdRun codec cwd fs machine args).waits = [])) ∨
      (cmdRun codec cwd fs machine args).actions = [] ∧
        (cmdRun codec cwd fs machine args).value = some 2 := by
  refine or_congr (exists_congr fun n => and_congr_right fun hn => ?_) Iff.rfl
  have hwait : ∀ ms ∈ (cmdRun codec cwd fs machine args).waits,
      ms = waitMs (UInt32.ofNat (min n ULONG_MAX)) := by
    intro ms hms
    rw [eq_waitMs_of_mem_waits_cmdRun hisolate hms, timeoutSeconds, htext, if_neg hne,
      strtoul_of_natOfText? hn]
  rw [← timeLimit_waitMs_iff]
  constructor
  · intro hlimit
    by_cases hnone : (cmdRun codec cwd fs machine args).waits = []
    · exact .inr hnone
    · obtain ⟨ms, hms⟩ := List.exists_mem_of_ne_nil _ hnone
      exact .inl (hwait ms hms ▸ hlimit ms hms)
  · rintro (hexact | hnone) ms hms
    · rw [hwait ms hms]
      exact hexact
    · rw [hnone] at hms
      cases hms

/-- A suite with one test, and a machine where every child is started and ends at once. -/
def sampleWindowsMachine : WindowsMachine :=
  { sampleMachine true with duration := fun _ => some 0 }

/-- Isolate mode with a time limit. -/
def sampleArguments (text : Text) : List Text :=
  ["--isolate".toList, flagArgument "timeout".toList text]

/-- The options of these arguments. -/
theorem parse_sampleArguments (text : Text) :
    (sampleArguments text).foldl RunOptions.parse {} =
      { l_isolate := true, l_timeoutStr := text } := by
  have hbuild : flagValue? "build".toList (flagArgument "timeout".toList text) = none := rfl
  have hcooldown : flagValue? "cooldown".toList (flagArgument "timeout".toList text) = none := rfl
  have hfbt : flagValue? "fbt".toList (flagArgument "timeout".toList text) = none := rfl
  have hformat : flagValue? "format".toList (flagArgument "timeout".toList text) = none := rfl
  have hmode : RunOptions.parse {} "--isolate".toList = { l_isolate := true } := by decide
  rw [sampleArguments, List.foldl_cons, List.foldl_cons, List.foldl_nil, hmode, RunOptions.parse,
    RunOptions.setters]
  simp only [List.findSome?_cons, hbuild, hcooldown, hfbt, hformat, flagValue?_flagArgument,
    Option.map_none, Option.map_some]

/-- Neither the mode nor the text of the limit matters before the program is started. -/
theorem prepareRun_setTimeout (codec : DoubleCodec) (cwd : Text) (fs : FileSystem)
    (machine : Machine) (isolate : Bool) (text : Text) :
    prepareRun codec cwd fs machine { l_isolate := isolate, l_timeoutStr := text } =
      prepareRun codec cwd fs machine {} :=
  rfl

/-- The sample suite can be run, and has a test. -/
theorem exists_prepareRun_sample :
    ∃ run test, prepareRun sampleCodec "/w".toList (sampleFiles ["a".toList])
      (sampleMachine true) {} = .ok run ∧ run.suiteTests = [test] := by
  have hlength : ((prepareRun sampleCodec "/w".toList (sampleFiles ["a".toList])
      (sampleMachine true) {}).toOption.map (·.suiteTests.length)) = some 1 := by
    decide +kernel
  cases hrun : prepareRun sampleCodec "/w".toList (sampleFiles ["a".toList])
      (sampleMachine true) {} with
  | error value =>
      rw [hrun] at hlength
      cases hlength
  | ok run =>
      rw [hrun] at hlength
      obtain ⟨test, htest⟩ := List.length_eq_one_iff.mp (Option.some.inj hlength)
      exact ⟨run, test, rfl, htest⟩

/-- The run of the sample suite with these arguments waits for a child and is not refused. -/
theorem cmdRun_sampleArguments (text : Text) :
    (cmdRun sampleCodec "/w".toList (sampleFiles ["a".toList]) sampleWindowsMachine
        (sampleArguments text)).waits ≠ [] ∧
      (cmdRun sampleCodec "/w".toList (sampleFiles ["a".toList]) sampleWindowsMachine
        (sampleArguments text)).value ≠ some 2 := by
  obtain ⟨run, test, hrun, htests⟩ := exists_prepareRun_sample
  rw [← prepareRun_setTimeout _ _ _ _ true text] at hrun
  have hprepared : prepareRun sampleCodec "/w".toList (sampleFiles ["a".toList])
      sampleWindowsMachine.toMachine { l_isolate := true, l_timeoutStr := text } = .ok run := hrun
  rw [cmdRun_eq_cmdRunIsolate (parse_sampleArguments text) rfl hprepared]
  refine ⟨(waits_cmdRunIsolate_ne_nil_iff hprepared).mpr ⟨(test, 0), ?_, rfl⟩,
    value_cmdRunIsolate_ne_two _ _ _ _ _⟩
  rw [htests, List.filter_cons_of_pos rfl]
  exact List.mem_cons_self

/-- **A text keeps the limit in every run** exactly when it is a number of seconds whose
milliseconds fit 32 bits. -/
theorem timeoutLaw_iff {text : Text} (hne : text ≠ []) :
    TimeoutLaw text ↔ ∃ n, natOfText? text = some n ∧ 1000 * n < 2 ^ 32 := by
  constructor
  · intro hlaw
    have hisolate : ((sampleArguments text).foldl RunOptions.parse {}).l_isolate = true := by
      rw [parse_sampleArguments]
    have htext : ((sampleArguments text).foldl RunOptions.parse {}).l_timeoutStr = text := by
      rw [parse_sampleArguments]
    obtain ⟨hwaits, hvalue⟩ := cmdRun_sampleArguments text
    rcases (keepsLimit_cmdRun_iff hisolate htext hne).mp (hlaw _ _ _ _ _ hisolate htext) with
      ⟨n, hn, hfits | hnone⟩ | ⟨-, hrefused⟩
    · exact ⟨n, hn, hfits⟩
    · exact absurd hnone hwaits
    · exact absurd hrefused hvalue
  · rintro ⟨n, hn, hfits⟩ codec cwd fs machine args hisolate htext
    exact (keepsLimit_cmdRun_iff hisolate htext hne).mpr (.inl ⟨n, hn, .inl hfits⟩)

/-- Two seconds. -/
theorem timeoutLaw_two :
    TimeoutLaw "2".toList ↔ ∃ n, natOfText? "2".toList = some n ∧ 1000 * n < 2 ^ 32 :=
  timeoutLaw_iff (by decide)

/-- A long limit becomes a short one: 4294968 seconds are 704 milliseconds. A text that is no
number becomes no limit. -/
theorem timeoutLaw_fails :
    let run := fun text : Text => cmdRun sampleCodec "/w".toList (sampleFiles ["a".toList])
      sampleWindowsMachine (sampleArguments text)
    (run "4294968".toList).waits = [704] ∧ ¬ TimeoutLaw "4294968".toList ∧
      (run "abc".toList).waits = [INFINITE] ∧ (run "abc".toList).value = some 0 ∧
      ¬ TimeoutLaw "abc".toList := by
  have hlong : (cmdRun sampleCodec "/w".toList (sampleFiles ["a".toList]) sampleWindowsMachine
      (sampleArguments "4294968".toList)).waits = [704] := by
    decide +kernel
  have hword : (cmdRun sampleCodec "/w".toList (sampleFiles ["a".toList]) sampleWindowsMachine
      (sampleArguments "abc".toList)).waits = [INFINITE] := by
    decide +kernel
  refine ⟨hlong, ?_, hword, by decide +kernel, ?_⟩
  · intro hlaw
    rcases hlaw sampleCodec "/w".toList (sampleFiles ["a".toList]) sampleWindowsMachine
      (sampleArguments "4294968".toList) (by decide) (by decide) with ⟨n, hn, hlimit⟩ | ⟨-, hvalue⟩
    · obtain rfl : 4294968 = n := Option.some.inj hn
      rw [hlong] at hlimit
      exact absurd (hlimit 704 List.mem_cons_self) (by decide)
    · exact (cmdRun_sampleArguments _).2 hvalue
  · intro hlaw
    rcases hlaw sampleCodec "/w".toList (sampleFiles ["a".toList]) sampleWindowsMachine
      (sampleArguments "abc".toList) (by decide) (by decide) with ⟨n, hn, -⟩ | ⟨-, hvalue⟩
    · cases hn
    · exact (cmdRun_sampleArguments _).2 hvalue

end Hades.Runtime.Windows
