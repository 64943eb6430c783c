import Hades.RunCommand
import Hades.Reselection

/-!
# The Two Modes of a Run

What native and isolate mode of `hades-driver run` execute.

Isolate mode selects tests by the pattern, and starts a child for each of them with the id as
the pattern. The child selects from the whole suite again: an id with a star may match other
ids, an id may occur twice, and the empty id selects every test.

## Main results

* `executedTests_runNative`, `executedTests_cmdRunIsolate`: **the tests that each mode
  executes**.
* `executedTests_isolate_perm_native_iff`: when both modes execute the same tests.
-/

namespace Hades.Runtime

variable {codec : DoubleCodec} {cwd : Text} {fs : FileSystem} {machine : Machine}

/-! ### Before the program is started -/

/-- The tests of a prepared run are those that the manifest's reader accepts. -/
theorem readSuiteToml_of_prepareRun {options : RunOptions} {run : PreparedRun}
    (h : prepareRun codec cwd fs machine options = .ok run) :
    readSuiteToml codec (suiteTomlPath run.suiteDir) (fs (suiteTomlPath run.suiteDir)) =
      (run.suiteTests, []) := by
  rw [prepareRun] at h
  split at h
  · cases h
  split at h
  · cases h
  split at h
  · cases h
  · cases h
  split at h
  · cases h
  · next request hrequest =>
    split at h
    · cases h
    split at h
    · cases h
    · obtain rfl := Except.ok.inj h
      exact (regenerateSuite_eq_ok_iff.mp hrequest).2.1

/-- The options with a mode. -/
def RunOptions.setMode (options : RunOptions) (isolate : Bool) : RunOptions :=
  { options with l_isolate := isolate }

/-- The mode matters only once the program is built. -/
theorem prepareRun_setMode (options : RunOptions) (isolate : Bool) :
    prepareRun codec cwd fs machine (options.setMode isolate) =
      prepareRun codec cwd fs machine options :=
  rfl

/-- A mode flag at the end is the mode. -/
theorem foldl_parse_append_mode (args : List Text) (isolate : Bool) :
    (args ++ [if isolate then "--isolate".toList else "--native".toList]).foldl
        RunOptions.parse {} = (args.foldl RunOptions.parse {}).setMode isolate := by
  rw [List.foldl_append]
  cases isolate with
  | true => rfl
  | false => rfl

/-- A run whose last argument is a mode flag. -/
theorem cmdRun_append_mode {args : List Text} {run : PreparedRun}
    (h : prepareRun codec cwd fs machine (args.foldl RunOptions.parse {}) = .ok run)
    (isolate : Bool) :
    cmdRun codec cwd fs machine
        (args ++ [if isolate then "--isolate".toList else "--native".toList]) =
      if isolate then
        cmdRunIsolate codec fs machine ((args.foldl RunOptions.parse {}).setMode true) run
      else runNative machine ((args.foldl RunOptions.parse {}).setMode false) run := by
  unfold cmdRun
  rw [foldl_parse_append_mode]
  dsimp only
  rw [prepareRun_setMode, h]
  cases isolate with
  | true => rfl
  | false => rfl

/-! ### What is executed -/

/-- **Native mode** executes the tests of the program that the pattern selects. -/
theorem executedTests_runNative (machine : Machine) (options : RunOptions) (run : PreparedRun) :
    (runNative machine options run).executedTests =
      run.program.tests.filter (selects options.l_fbt) := by
  have hmain := run.program.executedTests_main (machine.compiled 0)
    (nativeArguments options run.cooldownSeconds)
  rw [l_fbtPattern_nativeArguments] at hmain
  rw [← hmain, CommandRun.executedTests, CommandRun.executions, runNative]
  simp only [List.flatMap_cons, List.flatMap_nil, List.append_nil]
  rfl

/-- One selected test of isolate mode: its child executes what the id selects. -/
theorem executedTests_runChild (machine : Machine) (options : RunOptions) (run : PreparedRun)
    (index : ℕ) (test : SuiteTestEntry) :
    ((run.runChild machine options index test).flatMap CommandAction.executions).map Prod.fst =
      run.program.tests.filter (selects test.m_Config.m_Id) := by
  have hmain := run.program.executedTests_main (machine.compiled index)
    (childArguments options test.m_Config.m_Id)
  rw [l_fbtPattern_childArguments] at hmain
  rw [← hmain, PreparedRun.runChild]
  split
  · simp only [List.flatMap_append, List.flatMap_cons, List.flatMap_nil, List.append_nil,
      CommandAction.executions, List.nil_append]
    rfl
  · simp only [List.nil_append, List.flatMap_cons, List.flatMap_nil, List.append_nil]
    rfl

/-- **Isolate mode** executes, for every selected test of the manifest, the tests of the
program that its id selects. -/
theorem executedTests_cmdRunIsolate {options : RunOptions} {run : PreparedRun}
    (h : prepareRun codec cwd fs machine options = .ok run) (machine' : Machine) :
    (cmdRunIsolate codec fs machine' options run).executedTests =
      (run.suiteTests.filter (selects options.l_fbt)).flatMap fun test =>
        run.program.tests.filter (selects test.m_Config.m_Id) := by
  rw [cmdRunIsolate, readSuiteToml_of_prepareRun h]
  by_cases hnone : run.suiteTests.filter (selects options.l_fbt) = []
  · simp only [hnone]
    rfl
  · simp only [ne_eq, not_true_eq_false, false_or, hnone, if_false, CommandRun.executedTests,
      CommandRun.executions]
    rw [List.flatMap_assoc, List.map_flatMap]
    simp only [executedTests_runChild]
    rw [← List.flatMap_map Prod.fst
      (fun test : SuiteTestEntry => run.program.tests.filter (selects test.m_Config.m_Id)),
      List.zipIdx_map_fst]

/-- An id selects its own test. -/
theorem selects_self (test : SuiteTestEntry) : selects test.m_Config.m_Id test = true := by
  rw [selects, wildcardMatch_self, Bool.or_true]

/-- What a pattern does not select. -/
theorem selects_eq_false_iff {pattern : Text} {test : SuiteTestEntry} :
    selects pattern test = false ↔
      pattern ≠ [] ∧ wildcardMatch pattern test.m_Config.m_Id = false := by
  rw [selects, Bool.or_eq_false_iff]
  constructor
  · rintro ⟨hempty, hmatch⟩
    refine ⟨?_, hmatch⟩
    rintro rfl
    cases hempty
  · rintro ⟨hne, hmatch⟩
    exact ⟨List.isEmpty_eq_false_iff.mpr hne, hmatch⟩

/-- A suite with one fixture and a test for each id, adopted in the directory `/w`. -/
def sampleFiles (ids : List Text) : FileSystem :=
  let none : FileSystem := fun _ => none
  let adopted := none.write (markerPath "/w".toList) "/s\n".toList
  let registered := adopted.write (registryIniPath "/s".toList) (registryText [sampleFixture])
  registered.write (suiteTomlPath "/s".toList) (suiteText sampleCodec (ids.map fun id =>
    { m_FixtureName := "F".toList, m_Config := { m_Id := id } }))

/-- A machine whose builds succeed and whose tests all pass, or all fail. -/
def sampleMachine (passes : Bool) : Machine where
  compiled _ _ _ _ := { deterministic := passes }

/-- The run of a sample suite can start. -/
theorem exists_prepareRun_of_isOk {options : RunOptions}
    (h : (prepareRun codec cwd fs machine options).isOk = true) :
    ∃ run, prepareRun codec cwd fs machine options = .ok run := by
  cases hrun : prepareRun codec cwd fs machine options with
  | error value =>
      rw [hrun] at h
      cases h
  | ok run => exact ⟨run, rfl⟩

/-- The tests of the program that satisfy a condition. -/
theorem PreparedRun.filter_tests (run : PreparedRun) (p : SuiteTestEntry → Bool) :
    run.program.tests.filter p =
      (run.suiteTests.filter fun test => p test.compiled).map SuiteTestEntry.compiled := by
  rw [run.tests_program, List.filter_map]
  rfl

/-- An id without NULs is an id of the program, too. -/
theorem selects_compiled {test : SuiteTestEntry} (h : '\x00' ∉ test.m_Config.m_Id)
    (pattern : Text) : selects pattern test.compiled = selects pattern test := by
  have hid : test.compiled.m_Config.m_Id = test.m_Config.m_Id := cString_eq_self h
  rw [selects, selects, hid]

/-- The command in native mode executes the tests that the pattern selects. -/
theorem executedTests_cmdRun_native {args : List Text} {run : PreparedRun}
    (h : prepareRun codec cwd fs machine (args.foldl RunOptions.parse {}) = .ok run) :
    (cmdRun codec cwd fs machine (args ++ ["--native".toList])).executedTests =
      run.program.tests.filter (selects (args.foldl RunOptions.parse {}).l_fbt) := by
  have hmode : cmdRun codec cwd fs machine (args ++ ["--native".toList]) =
      runNative machine ((args.foldl RunOptions.parse {}).setMode false) run :=
    cmdRun_append_mode h false
  rw [hmode, executedTests_runNative]
  rfl

/-- The command in isolate mode executes, for each test of the manifest that the pattern selects,
what its id selects in the program. -/
theorem executedTests_cmdRun_isolate {args : List Text} {run : PreparedRun}
    (h : prepareRun codec cwd fs machine (args.foldl RunOptions.parse {}) = .ok run) :
    (cmdRun codec cwd fs machine (args ++ ["--isolate".toList])).executedTests =
      (run.suiteTests.filter (selects (args.foldl RunOptions.parse {}).l_fbt)).flatMap
        fun test => run.program.tests.filter (selects test.m_Config.m_Id) := by
  have hmode : cmdRun codec cwd fs machine (args ++ ["--isolate".toList]) =
      cmdRunIsolate codec fs machine ((args.foldl RunOptions.parse {}).setMode true) run :=
    cmdRun_append_mode h true
  have hprepared : prepareRun codec cwd fs machine
      ((args.foldl RunOptions.parse {}).setMode true) = .ok run := h
  rw [hmode, executedTests_cmdRunIsolate hprepared]
  rfl

/-- One test of the manifest: its entry in the program comes up as often as the pattern wants
it. Only an id with a NUL is another one in the program. -/
def PreparedRun.OnceSelected (run : PreparedRun) (pattern : Text) (i : ℕ)
    (other : SuiteTestEntry) : Prop :=
  if '\x00' ∈ other.m_Config.m_Id then
    (run.suiteTests.filter (selects pattern)).countP
        (fun test => selects test.m_Config.m_Id other.compiled) =
      if selects pattern other.compiled then 1 else 0
  else
    ∀ (j : ℕ) (test : SuiteTestEntry), run.suiteTests[j]? = some test → j ≠ i →
      selects pattern test = true →
        test.m_Config.m_Id ≠ [] ∧ wildcardMatch test.m_Config.m_Id other.m_Config.m_Id = false

/-- What the condition counts. -/
theorem PreparedRun.onceSelected_iff {run : PreparedRun} {pattern : Text} {i : ℕ}
    {other : SuiteTestEntry} (hi : run.suiteTests[i]? = some other) :
    run.OnceSelected pattern i other ↔
      (run.suiteTests.filter (selects pattern)).countP
          (fun test => selects test.m_Config.m_Id other.compiled) =
        if selects pattern other.compiled then 1 else 0 := by
  rw [PreparedRun.OnceSelected]
  by_cases hnul : '\x00' ∈ other.m_Config.m_Id
  · rw [if_pos hnul]
  · have hself : (selects other.m_Config.m_Id other && selects pattern other) =
        selects pattern other := by
      rw [selects_self, Bool.true_and]
    rw [if_neg hnul, List.countP_filter]
    simp only [selects_compiled hnul]
    rw [← hself, Reselection.countP_eq_ite_iff hi]
    constructor
    · intro hother j test hne hj
      cases hselected : selects pattern test with
      | false => exact Bool.and_false _
      | true =>
          rw [Bool.and_true]
          exact selects_eq_false_iff.mpr (hother j test hj hne hselected)
    · intro hother j test hj hne hselected
      have hnone := hother j test hne hj
      rw [hselected, Bool.and_true] at hnone
      exact selects_eq_false_iff.mp hnone

/-- **Both modes execute the same tests** exactly when no selected test has an id that is
empty or matches the id of another test of the manifest; a test whose id has a NUL counts with
what the program keeps of its id. -/
theorem executedTests_isolate_perm_native_iff {args : List Text} {run : PreparedRun}
    (h : prepareRun codec cwd fs machine (args.foldl RunOptions.parse {}) = .ok run) :
    (cmdRun codec cwd fs machine (args ++ ["--isolate".toList])).executedTests.Perm
        (cmdRun codec cwd fs machine (args ++ ["--native".toList])).executedTests ↔
      ∀ (i : ℕ) (other : SuiteTestEntry), run.suiteTests[i]? = some other →
        run.OnceSelected (args.foldl RunOptions.parse {}).l_fbt i other := by
  rw [executedTests_cmdRun_isolate h, executedTests_cmdRun_native h,
    Reselection.flatMap_filter_perm_iff, run.tests_program, List.forall_mem_map]
  constructor
  · intro hcount i other hi
    exact (PreparedRun.onceSelected_iff hi).mpr (hcount other (List.mem_of_getElem? hi))
  · intro honce other hmem
    obtain ⟨i, hi⟩ := List.mem_iff_getElem?.mp hmem
    exact (PreparedRun.onceSelected_iff hi).mp (honce i other hi)

/-- The ids `a` and `b` are no patterns for each other. -/
theorem executedTests_isolate_perm_native_ab :
    ∃ run, prepareRun sampleCodec "/w".toList (sampleFiles ["a".toList, "b".toList])
        (sampleMachine true) {} = .ok run ∧
      ((cmdRun sampleCodec "/w".toList (sampleFiles ["a".toList, "b".toList])
            (sampleMachine true) ["--isolate".toList]).executedTests.Perm
          (cmdRun sampleCodec "/w".toList (sampleFiles ["a".toList, "b".toList])
            (sampleMachine true) ["--native".toList]).executedTests ↔
        ∀ (i : ℕ) (other : SuiteTestEntry), run.suiteTests[i]? = some other →
          run.OnceSelected [] i other) := by
  obtain ⟨run, hrun⟩ := exists_prepareRun_of_isOk
    (by decide +kernel : (prepareRun sampleCodec "/w".toList
      (sampleFiles ["a".toList, "b".toList]) (sampleMachine true) {}).isOk = true)
  exact ⟨run, hrun, @executedTests_isolate_perm_native_iff _ _ _ _ [] run hrun⟩

/-- With the ids `a*` and `ab`, the child of the first test executes both. -/
theorem executedTests_isolate_star :
    let run := fun mode : Text => cmdRun sampleCodec "/w".toList
      (sampleFiles ["a*".toList, "ab".toList]) (sampleMachine true) [mode]
    (run "--native".toList).executedTests.map (·.m_Config.m_Id) = ["a*".toList, "ab".toList] ∧
      (run "--isolate".toList).executedTests.map (·.m_Config.m_Id) =
        ["a*".toList, "ab".toList, "ab".toList] ∧
      ¬ (run "--isolate".toList).executedTests.Perm (run "--native".toList).executedTests := by
  decide +kernel

end Hades.Runtime
