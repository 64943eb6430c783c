import Hades.RunModes
import Hades.SuiteHistory

/-!
# What a New Test Writes

`new-test` first checks, and then writes: the stub, the test in the manifest, and a new
fixture in the registry, with an error exit after each. This module takes the two halves
apart: the plan that the checks settle, and the writes that it comes to, depending on how the
file operations end.

A command that fails has changed the manifest if a part of the test is in it: the append broke
off, or it was complete and the registry could not be appended to.

## Main results

* `cmdNewTest_eq`: **the command is its writes**.
* `failsCleanly_iff`: when a command that fails leaves the files of the suites alone.
-/

namespace Hades.Runtime

variable {codec : DoubleCodec} {cwd : Text} {fates : NewTestFates}

/-- What the checks of `new-test` settle. -/
structure NewTestPlan where
  dir : Text
  fixtureName : Text
  testId : Text
  fixture : FixtureEntry
  isNew : Bool
  kind : TestKind

/-- The checks, none of which writes; or the value returned. -/
def newTestPlan (cwd : Text) (args : List Text) (fs : FileSystem) : Except ℕ NewTestPlan :=
  match args with
  | fixtureName :: testId :: rest =>
    let flags := rest.foldl NewTestFlags.parse {}
    match loadCurrentSuite cwd fs with
    | none => .error 1
    | some dir =>
      let (fixtures, errors) := readRegistryIni (registryIniPath dir) (fs (registryIniPath dir))
      if errors ≠ [] then .error 1
      else
        match chooseFixture fixtures flags fixtureName with
        | .error _ => .error 2
        | .ok (fixture, isNew) =>
          .ok { dir, fixtureName, testId, fixture, isNew, kind := flags.kind }
  | _ => .error 2

/-- A path, and what is written there. -/
abbrev FileWrite := Text × Text

/-- A series of writes. -/
def FileSystem.writeAll (fs : FileSystem) (writes : List FileWrite) : FileSystem :=
  writes.foldl (fun fs w => fs.write w.1 w.2) fs

/-- What the end of a write leaves of it. -/
def WriteFate.left? (w : FileWrite) : WriteFate → Option FileWrite
  | .written => some w
  | .torn length => some (w.1, w.2.take length)
  | .refused => none

/-- Writes, up to the first one that fails, and the value returned. -/
def attemptAll : List (WriteFate × FileWrite) → List FileWrite × ℕ
  | [] => ([], 0)
  | (fate, w) :: attempts =>
    let rest := if fate = .written then attemptAll attempts else ([], 1)
    ((fate.left? w).toList ++ rest.1, rest.2)

namespace NewTestPlan

variable (plan : NewTestPlan)

/-- The stub. -/
def stubWrite : FileWrite :=
  (stubPath plan.dir plan.testId plan.fixtureName, buildFixtureStub plan.fixture)

/-- The manifest with the test behind it. -/
def suiteWrite (codec : DoubleCodec) (fs : FileSystem) : FileWrite :=
  (suiteTomlPath plan.dir, (fs (suiteTomlPath plan.dir)).getD [] ++
    suiteText codec [requestedTest plan.fixture.m_FixtureName plan.testId plan.kind])

/-- The registry with the fixture behind it. -/
def registryWrite (fs : FileSystem) : FileWrite :=
  (registryIniPath plan.dir, (fs (registryIniPath plan.dir)).getD [] ++
    registryText [plan.fixture])

/-- The writes of a plan, and how each of them ends. -/
def attempts (codec : DoubleCodec) (fates : NewTestFates) (fs : FileSystem) :
    List (WriteFate × FileWrite) :=
  [(fates.stub, plan.stubWrite),
    (fates.appendSuite.behind ((fs (suiteTomlPath plan.dir)).getD []), plan.suiteWrite codec fs)] ++
  if plan.isNew then
    [(fates.appendRegistry.behind ((fs (registryIniPath plan.dir)).getD []),
      plan.registryWrite fs)]
  else []

/-- The writes of a plan up to the one that fails, and the value returned. -/
def writes (codec : DoubleCodec) (fates : NewTestFates) (fs : FileSystem) : List FileWrite × ℕ :=
  attemptAll (plan.attempts codec fates fs)

end NewTestPlan

/-- The writes of a command, and the value that it returns. -/
def newTestWrites (codec : DoubleCodec) (cwd : Text) (fates : NewTestFates)
    (args : List Text) (fs : FileSystem) : List FileWrite × ℕ :=
  match newTestPlan cwd args fs with
  | .error value => ([], value)
  | .ok plan => plan.writes codec fates fs

/-! ### The command and its writes -/

/-- Writes behind one that may fail. -/
theorem writeAll_attemptAll_cons (fate : WriteFate) (w : FileWrite)
    (attempts : List (WriteFate × FileWrite)) (fs : FileSystem) :
    (fs.writeAll (attemptAll ((fate, w) :: attempts)).1, (attemptAll ((fate, w) :: attempts)).2) =
      match writeTextFile fate w.1 w.2 fs with
      | (fs, false) => (fs, 1)
      | (fs, true) => (fs.writeAll (attemptAll attempts).1, (attemptAll attempts).2) := by
  cases fate with
  | written => rfl
  | torn length => rfl
  | refused => rfl

/-- The part of the command behind its checks. -/
theorem execute_eq (plan : NewTestPlan) (fs : FileSystem) :
    (match scaffold codec fates
        { m_SuiteDir := plan.dir, m_TestId := plan.testId, m_Fixture := plan.fixture,
          m_Kind := plan.kind }
        (stubPath plan.dir plan.testId plan.fixtureName) (suiteTomlPath plan.dir) fs with
      | (fs, false) => (fs, 1)
      | (fs, true) =>
        if plan.isNew then registerNewFixture fates.appendRegistry plan.dir plan.fixture fs
        else (fs, 0)) =
      (fs.writeAll (plan.writes codec fates fs).1, (plan.writes codec fates fs).2) := by
  have hsuite := suiteTomlPath_ne_stubPath plan.dir plan.dir plan.testId plan.fixtureName
  have hstub := registryIniPath_ne_stubPath plan.dir plan.dir plan.testId plan.fixtureName
  have hfiles := registryIniPath_ne_suiteTomlPath plan.dir plan.dir
  rw [NewTestPlan.writes, NewTestPlan.attempts, List.cons_append, writeAll_attemptAll_cons,
    scaffold]
  cases fates.stub with
  | torn length => rfl
  | refused => rfl
  | written =>
      dsimp only [writeTextFile]
      rw [List.cons_append, writeAll_attemptAll_cons, appendFile_eq rfl,
        FileSystem.write_of_ne fs hsuite]
      cases fates.appendSuite with
      | torn length => rfl
      | refused => rfl
      | written =>
          cases plan.isNew with
          | false => rfl
          | true =>
              dsimp only [WriteFate.behind, writeTextFile]
              rw [if_pos rfl, if_pos rfl, List.nil_append, writeAll_attemptAll_cons,
                registerNewFixture, appendFile_eq rfl, FileSystem.write_of_ne _ hfiles,
                FileSystem.write_of_ne _ hstub]
              cases fates.appendRegistry with
              | written => rfl
              | torn length => rfl
              | refused => rfl

/-- **The command is its writes.** -/
theorem cmdNewTest_eq (codec : DoubleCodec) (cwd : Text) (fates : NewTestFates)
    (args : List Text) (fs : FileSystem) :
    cmdNewTest codec cwd fates args fs =
      (fs.writeAll (newTestWrites codec cwd fates args fs).1,
        (newTestWrites codec cwd fates args fs).2) := by
  unfold cmdNewTest newTestWrites newTestPlan
  match args with
  | [] => rfl
  | [_] => rfl
  | fixtureName :: testId :: rest =>
      dsimp only
      cases loadCurrentSuite cwd fs with
      | none => rfl
      | some dir =>
          dsimp only
          by_cases herrors :
              (readRegistryIni (registryIniPath dir) (fs (registryIniPath dir))).2 ≠ []
          · rw [if_pos herrors, if_pos herrors]
            rfl
          rw [if_neg herrors, if_neg herrors]
          cases chooseFixture (readRegistryIni (registryIniPath dir) (fs (registryIniPath dir))).1
              (rest.foldl NewTestFlags.parse {}) fixtureName with
          | error message => rfl
          | ok chosen =>
              obtain ⟨fixture, isNew⟩ := chosen
              exact execute_eq ⟨dir, fixtureName, testId, fixture, isNew, _⟩ fs

/-! ### The writes of a plan -/

theorem mem_attemptAll_cons {fate : WriteFate} {w whole : FileWrite}
    {attempts : List (WriteFate × FileWrite)} (h : w ∈ (attemptAll ((fate, whole) :: attempts)).1) :
    fate.left? whole = some w ∨ fate = .written ∧ w ∈ (attemptAll attempts).1 := by
  rw [attemptAll] at h
  rcases List.mem_append.mp h with h | h
  · exact .inl (Option.mem_toList.mp h)
  · split at h
    · next hfate => exact .inr ⟨hfate, h⟩
    · cases h

/-- All writes are complete, or the value is one. -/
theorem attemptAll_value (attempts : List (WriteFate × FileWrite)) :
    (attemptAll attempts).2 = if ∀ a ∈ attempts, a.1 = .written then 0 else 1 := by
  induction attempts with
  | nil => rfl
  | cons a attempts ih =>
      obtain ⟨fate, w⟩ := a
      rw [attemptAll]
      cases fate with
      | written => exact ih.trans (if_congr (by simp) rfl rfl)
      | torn length => exact (if_neg fun h => by simpa using h _ List.mem_cons_self).symm
      | refused => exact (if_neg fun h => by simpa using h _ List.mem_cons_self).symm

theorem behind_eq_written_iff {fate : WriteFate} {old : Text} :
    fate.behind old = .written ↔ fate = .written := by
  cases fate with
  | written => rfl
  | torn length => exact iff_of_false (by simp [WriteFate.behind]) (by simp)
  | refused => rfl

/-- What an append leaves: the old text and a part of the new one. -/
theorem left?_behind {fate : WriteFate} {w : FileWrite} {path old added : Text}
    (h : (fate.behind old).left? (path, old ++ added) = some w) :
    fate ≠ .refused ∧ ∃ n, w = (path, old ++ added.take n) := by
  cases fate with
  | written =>
      obtain rfl := Option.some.inj h
      exact ⟨by simp, added.length, by rw [List.take_length]⟩
  | torn length =>
      obtain rfl := Option.some.inj h
      exact ⟨by simp, length, by rw [List.take_length_add_append]⟩
  | refused => cases h

/-- What a write leaves is at its path, and it is the whole write if that is complete. -/
theorem left?_eq_some {fate : WriteFate} {w whole : FileWrite} (h : fate.left? whole = some w) :
    fate ≠ .refused ∧ w.1 = whole.1 ∧ (fate = .written → w = whole) := by
  cases fate with
  | written =>
      obtain rfl := Option.some.inj h
      exact ⟨by simp, rfl, fun _ => rfl⟩
  | torn length =>
      obtain rfl := Option.some.inj h
      exact ⟨by simp, rfl, by simp⟩
  | refused => cases h

/-- **What a plan writes**: the stub, a part of the test behind the manifest, or something to
the registry. -/
theorem NewTestPlan.mem_writes {plan : NewTestPlan} {fs : FileSystem} {w : FileWrite}
    (h : w ∈ (plan.writes codec fates fs).1) :
    (fates.stub ≠ .refused ∧ w.1 = plan.stubWrite.1 ∧
        (fates.stub = .written → w = plan.stubWrite)) ∨
      (fates.stub = .written ∧ fates.appendSuite ≠ .refused ∧
        ∃ n, w = (suiteTomlPath plan.dir, (fs (suiteTomlPath plan.dir)).getD [] ++
          (suiteText codec
            [requestedTest plan.fixture.m_FixtureName plan.testId plan.kind]).take n)) ∨
      (fates.stub = .written ∧ fates.appendSuite = .written ∧ w.1 = registryIniPath plan.dir) := by
  rw [writes, attempts, List.cons_append, List.singleton_append] at h
  rcases mem_attemptAll_cons h with h | ⟨hstub, h⟩
  · exact .inl (left?_eq_some h)
  rcases mem_attemptAll_cons h with h | ⟨hsuite, h⟩
  · exact .inr (.inl ⟨hstub, left?_behind h⟩)
  refine .inr (.inr ⟨hstub, behind_eq_written_iff.mp hsuite, ?_⟩)
  split at h
  · rcases mem_attemptAll_cons h with h | ⟨-, h⟩
    · exact (left?_eq_some h).2.1
    · cases h
  · cases h

/-- The value of a plan. -/
theorem NewTestPlan.writes_value (plan : NewTestPlan) (fs : FileSystem) :
    (plan.writes codec fates fs).2 =
      if fates.stub = .written ∧ fates.appendSuite = .written ∧
          (plan.isNew = true → fates.appendRegistry = .written) then 0 else 1 := by
  rw [writes, attemptAll_value, attempts]
  refine if_congr ?_ rfl rfl
  cases plan.isNew with
  | false => simp [behind_eq_written_iff]
  | true => simp [behind_eq_written_iff]

/-! ### A command that fails -/

/-- The files of the suites are as they were, and a suite that resolved still does. -/
structure KeepsSuites (codec : DoubleCodec) (fs fs' : FileSystem) : Prop where
  manifest : ∀ dir, fs' (suiteTomlPath dir) = fs (suiteTomlPath dir)
  registry : ∀ dir, fs' (registryIniPath dir) = fs (registryIniPath dir)
  resolves : ∀ dir, (regenerateSuite codec fs dir).isOk = true →
    (regenerateSuite codec fs' dir).isOk = true

/-- A suite resolves by its two files alone. -/
theorem keepsSuites_of_files {fs fs' : FileSystem}
    (hmanifest : ∀ dir, fs' (suiteTomlPath dir) = fs (suiteTomlPath dir))
    (hregistry : ∀ dir, fs' (registryIniPath dir) = fs (registryIniPath dir)) :
    KeepsSuites codec fs fs' := by
  refine ⟨hmanifest, hregistry, fun dir h => ?_⟩
  have hsame : regenerateSuite codec fs' dir = regenerateSuite codec fs dir := by
    simp only [regenerateSuite, hmanifest, hregistry]
  rwa [hsame]

/-- **A command that fails leaves the suites alone.** -/
def FailsCleanly (codec : DoubleCodec) (fs : FileSystem) (result : FileSystem × ℕ) : Prop :=
  result.2 ≠ 0 → KeepsSuites codec fs result.1

/-- A part of the test stays in the manifest though the command fails: the append breaks off
behind it, or it is complete and the registry cannot be appended to. -/
def NewTestPlan.LeavesEntry (plan : NewTestPlan) (fates : NewTestFates) : Prop :=
  fates.stub = .written ∧
    ((∃ length, fates.appendSuite = .torn length ∧ length ≠ 0) ∨
      fates.appendSuite = .written ∧ plan.isNew = true ∧ fates.appendRegistry ≠ .written)

/-- The suite of a plan is the current one. -/
theorem loadCurrentSuite_of_newTestPlan {args : List Text} {fs : FileSystem}
    {plan : NewTestPlan} (h : newTestPlan cwd args fs = .ok plan) :
    loadCurrentSuite cwd fs = some plan.dir := by
  rw [newTestPlan.eq_def] at h
  split at h
  · dsimp only at h
    split at h
    · cases h
    · next dir hdir =>
      split at h
      · cases h
      split at h
      · cases h
      · obtain rfl := Except.ok.inj h
        exact hdir
  · cases h

namespace NewTestPlan

variable (plan : NewTestPlan) (fs : FileSystem)

/-- The stub is no file of a suite that the generator reads. -/
theorem keepsSuites_stub (content : Text) :
    KeepsSuites codec fs
      (fs.writeAll [(stubPath plan.dir plan.testId plan.fixtureName, content)]) :=
  keepsSuites_of_files
    (fun dir => FileSystem.write_of_ne fs (suiteTomlPath_ne_stubPath dir plan.dir _ _) _)
    (fun dir => FileSystem.write_of_ne fs (registryIniPath_ne_stubPath dir plan.dir _ _) _)

/-- What is behind the old text changes the manifest. -/
theorem not_keepsSuites_append {fs' : FileSystem} {old added : Text} (hadded : added ≠ [])
    (hold : fs (suiteTomlPath plan.dir) = some old)
    (h : fs' (suiteTomlPath plan.dir) = some (old ++ added)) : ¬ KeepsSuites codec fs fs' := by
  intro hkeeps
  have hsame := hkeeps.manifest plan.dir
  rw [h, hold, Option.some_inj] at hsame
  exact hadded (List.append_right_eq_self.mp hsame)

theorem suiteText_requestedTest_ne_nil (codec : DoubleCodec) (fixtureName testId : Text)
    (kind : TestKind) : suiteText codec [requestedTest fixtureName testId kind] ≠ [] := by
  simp [suiteText, tomlText, tableText]

/-- An append that breaks off at once leaves the manifest as it was. -/
theorem keepsSuites_tornAtOnce {old added : Text} (hold : fs (suiteTomlPath plan.dir) = some old) :
    KeepsSuites codec fs (fs.writeAll
      [plan.stubWrite, (suiteTomlPath plan.dir, (old ++ added).take (old.length + 0))]) := by
  have hsame : fs.writeAll [plan.stubWrite] (suiteTomlPath plan.dir) = some old :=
    (FileSystem.write_of_ne fs (suiteTomlPath_ne_stubPath _ _ _ _) _).trans hold
  have hwrite : fs.writeAll [plan.stubWrite, (suiteTomlPath plan.dir, old)] =
      fs.writeAll [plan.stubWrite] := Function.update_eq_self_iff.mpr hsame.symm
  rw [List.take_length_add_append, List.take_zero, List.append_nil, hwrite]
  exact plan.keepsSuites_stub fs _

/-- **The writes of a plan**, when it fails. -/
theorem failsCleanly_writes_iff (hfile : fs (suiteTomlPath plan.dir) ≠ none) :
    FailsCleanly codec fs
        (fs.writeAll (plan.writes codec fates fs).1, (plan.writes codec fates fs).2) ↔
      ¬ plan.LeavesEntry fates := by
  have hne := suiteText_requestedTest_ne_nil codec plan.fixture.m_FixtureName plan.testId plan.kind
  have hrefl : KeepsSuites codec fs (fs.writeAll []) :=
    keepsSuites_of_files (fun _ => rfl) fun _ => rfl
  obtain ⟨old, hold⟩ := Option.ne_none_iff_exists'.mp hfile
  rw [FailsCleanly, LeavesEntry, writes, attempts, suiteWrite, hold, Option.getD_some]
  cases fates.stub with
  | refused => exact iff_of_true (fun _ => hrefl) (by simp)
  | torn length => exact iff_of_true (fun _ => plan.keepsSuites_stub fs _) (by simp)
  | written =>
  cases fates.appendSuite with
  | refused => exact iff_of_true (fun _ => plan.keepsSuites_stub fs _) (by simp)
  | torn length =>
      cases length with
      | zero => exact iff_of_true (fun _ => plan.keepsSuites_tornAtOnce fs hold) (by simp)
      | succ length =>
          have hleft : (suiteText codec [requestedTest plan.fixture.m_FixtureName plan.testId
              plan.kind]).take (length + 1) ≠ [] := by simpa using hne
          refine iff_of_false (fun hclean => ?_) (by simp)
          refine plan.not_keepsSuites_append fs hleft hold ?_ (hclean Nat.one_ne_zero)
          rw [← List.take_length_add_append]
          exact FileSystem.write_self _ _ _
  | written =>
  cases plan.isNew with
  | false => exact iff_of_true (fun hvalue => absurd rfl hvalue) (by simp)
  | true =>
  cases fates.appendRegistry with
  | written => exact iff_of_true (fun hvalue => absurd rfl hvalue) (by simp)
  | refused =>
      refine iff_of_false (fun hclean => ?_) (by simp)
      refine plan.not_keepsSuites_append fs hne hold ?_ (hclean Nat.one_ne_zero)
      exact FileSystem.write_self _ _ _
  | torn length =>
      have hfiles := registryIniPath_ne_suiteTomlPath plan.dir plan.dir
      refine iff_of_false (fun hclean => ?_) (by simp)
      refine plan.not_keepsSuites_append fs hne hold ?_ (hclean Nat.one_ne_zero)
      exact (FileSystem.write_of_ne _ hfiles.symm _).trans (FileSystem.write_self _ _ _)

end NewTestPlan

/-- **Which commands fail cleanly**, for every state of the files, all arguments and all ends of
the file operations: all but those that leave a part of their test in the manifest. -/
theorem failsCleanly_iff (codec : DoubleCodec) (cwd : Text) (fates : NewTestFates)
    (args : List Text) (fs : FileSystem) :
    FailsCleanly codec fs (cmdNewTest codec cwd fates args fs) ↔
      ¬ ∃ plan, newTestPlan cwd args fs = .ok plan ∧ plan.LeavesEntry fates := by
  rw [cmdNewTest_eq, newTestWrites]
  cases hplan : newTestPlan cwd args fs with
  | error value =>
      refine iff_of_true (fun _ => keepsSuites_of_files (fun _ => rfl) fun _ => rfl) ?_
      rintro ⟨plan, hok, -⟩
      cases hok
  | ok plan =>
      have hfile := (loadCurrentSuite_eq_some_iff.mp (loadCurrentSuite_of_newTestPlan hplan)).2.2
      dsimp only
      rw [plan.failsCleanly_writes_iff fs hfile]
      simp only [Except.ok.injEq, exists_eq_left']

/-- The flags of a fixture that is not registered yet. -/
def sampleFlags : List Text :=
  ["--header=g.h", "--adapter=A", "--chrono=C", "--hash=H"].map String.toList

/-- **A registry that cannot be appended to**: the new test names a fixture that nobody has
registered, and the suite no longer resolves. -/
theorem not_failsCleanly_registry :
    let fs := sampleFiles []
    let result := cmdNewTest sampleCodec "/w".toList { appendRegistry := .refused }
      ("G".toList :: "a".toList :: sampleFlags) fs
    (regenerateSuite sampleCodec fs "/s".toList).isOk = true ∧ result.2 = 1 ∧
      (regenerateSuite sampleCodec result.1 "/s".toList).isOk = false ∧
      ¬ FailsCleanly sampleCodec fs result := by
  intro fs result
  have hbefore : (regenerateSuite sampleCodec fs "/s".toList).isOk = true := by decide +kernel
  have hvalue : result.2 = 1 := by decide +kernel
  have hafter : (regenerateSuite sampleCodec result.1 "/s".toList).isOk = false := by
    decide +kernel
  refine ⟨hbefore, hvalue, hafter, fun h => ?_⟩
  have hkeeps := h (by rw [hvalue]; decide)
  rw [hkeeps.resolves "/s".toList hbefore] at hafter
  cases hafter

end Hades.Runtime
