import Hades.ManifestIds
import Hades.NewTestPlan
import Hades.SuiteMarker

/-!
# Histories of Commands and Edits

The id of a new test is part of the path of its stub, and an id such as `../../t/tests/x`
leads to the stubs of another suite. So a file is known here by its place, the lexical normal
form of its path, and not by its path. Between the commands a person may edit any stub.

`new-test` looks neither for the stub nor for the id before it writes: a second command for
one test overwrites the stub, and puts the id into the manifest twice. A history keeps every
file and all ids if no command of it meets its stub or its id.

## Main results

* `newTest_cases`: what a command does to a file.
* `keepsHistory_of_isFresh`: **a history whose commands are all fresh** keeps the files and the ids.
-/

namespace Hades.Runtime

variable {codec : DoubleCodec} {cwd : Text}

/-! ### Places -/

/-- The place of a file: the directories that lead to it, and its name. -/
abbrev Place := List Text

/-- The place that a path names in a working directory. -/
def placeOf (cwd path : Text) : Place :=
  denotedDirectory (absolutePath cwd path)

/-- The content of the file at every place. -/
abbrev FileTree := Place → Option Text

/-- What a working directory makes of the files. -/
def FileTree.view (cwd : Text) (tree : FileTree) : FileSystem :=
  fun path => tree (placeOf cwd path)

/-- A series of writes, each at the place of its path. -/
def FileTree.writeAll (cwd : Text) (tree : FileTree) (writes : List FileWrite) : FileTree :=
  writes.foldl (fun tree w => Function.update tree (placeOf cwd w.1) (some w.2)) tree

/-- Paths that end with different plain characters name different places. -/
theorem placeOf_ne {path path' : Text} {c c' : Char} (h : path.getLast? = some c)
    (h' : path'.getLast? = some c') (hplain : c ≠ '/' ∧ c ≠ '.') (hplain' : c' ≠ '/' ∧ c' ≠ '.')
    (hne : c ≠ c') (cwd cwd' : Text) : placeOf cwd path ≠ placeOf cwd' path' := by
  intro heq
  obtain ⟨name, hname, hc⟩ := LexicalPath.getLast?_normalForm
    (getLast?_absolutePath cwd h) hplain.1 hplain.2
  obtain ⟨name', hname', hc'⟩ := LexicalPath.getLast?_normalForm
    (getLast?_absolutePath cwd' h') hplain'.1 hplain'.2
  rw [placeOf, placeOf, denotedDirectory, denotedDirectory] at heq
  rw [heq, hname'] at hname
  obtain rfl := Option.some.inj hname
  exact hne (Option.some.inj (hc.symm.trans hc'))

theorem getLast?_suiteTomlPath (dir : Text) : (suiteTomlPath dir).getLast? = some 'l' :=
  getLast?_inDirectory dir getLast?_names.1

theorem getLast?_registryIniPath (dir : Text) : (registryIniPath dir).getLast? = some 'i' :=
  getLast?_inDirectory dir getLast?_names.2.1

theorem getLast?_stubPath (dir testId fixtureName : Text) :
    (stubPath dir testId fixtureName).getLast? = some 'h' :=
  getLast?_inDirectory _ (getLast?_stubName fixtureName)

/-- A stub is never the manifest of a suite. -/
theorem placeOf_suiteTomlPath_ne_stubPath (cwd cwd' dir dir' testId fixtureName : Text) :
    placeOf cwd (suiteTomlPath dir) ≠ placeOf cwd' (stubPath dir' testId fixtureName) :=
  placeOf_ne (getLast?_suiteTomlPath dir) (getLast?_stubPath dir' testId fixtureName) (by decide)
    (by decide) (by decide) cwd cwd'

/-- A registry is never the manifest of a suite. -/
theorem placeOf_suiteTomlPath_ne_registryIniPath (cwd cwd' dir dir' : Text) :
    placeOf cwd (suiteTomlPath dir) ≠ placeOf cwd' (registryIniPath dir') :=
  placeOf_ne (getLast?_suiteTomlPath dir) (getLast?_registryIniPath dir') (by decide)
    (by decide) (by decide) cwd cwd'

theorem FileTree.writeAll_concat (cwd : Text) (tree : FileTree) (writes : List FileWrite)
    (w : FileWrite) : tree.writeAll cwd (writes ++ [w]) =
      Function.update (tree.writeAll cwd writes) (placeOf cwd w.1) (some w.2) := by
  rw [FileTree.writeAll, List.foldl_append]
  rfl

/-- Every file is as it was, or it is one of those that were written. -/
theorem writeAll_cases (cwd : Text) (tree : FileTree) (writes : List FileWrite) (place : Place) :
    tree.writeAll cwd writes place = tree place ∨
      ∃ w ∈ writes, placeOf cwd w.1 = place ∧ tree.writeAll cwd writes place = some w.2 := by
  induction writes using List.reverseRecOn with
  | nil => exact .inl rfl
  | append_singleton writes w ih =>
      rw [FileTree.writeAll_concat]
      by_cases hplace : placeOf cwd w.1 = place
      · right
        refine ⟨w, List.mem_concat_self, hplace, ?_⟩
        rw [← hplace, Function.update_self]
      · rw [Function.update_of_ne (Ne.symm hplace)]
        rcases ih with hsame | ⟨w', hw', hplace', hcontent⟩
        · exact .inl hsame
        · exact .inr ⟨w', List.mem_append_left _ hw', hplace', hcontent⟩

/-! ### One command -/

/-- `new-test` on places. The writes are worked out before the first one: none of them is at
the place of a file that the command still reads. -/
def FileTree.newTest (codec : DoubleCodec) (cwd : Text) (command : NewTestCommand)
    (tree : FileTree) : FileTree :=
  tree.writeAll cwd
    (newTestWrites codec cwd command.fates command.args (tree.view cwd)).1

/-- **A fresh command**: where it opens its stub there is no file yet, or the very stub, which is
then written completely, and the id that it adds to the manifest is not there. -/
def IsFresh (codec : DoubleCodec) (cwd : Text) (command : NewTestCommand) (tree : FileTree) :
    Prop :=
  ∀ plan ∈ (newTestPlan cwd command.args (tree.view cwd)).toOption,
    (command.fates.stub ≠ .refused →
      tree (placeOf cwd (stubPath plan.dir plan.testId plan.fixtureName)) = none ∨
        command.fates.stub = .written ∧
          tree (placeOf cwd (stubPath plan.dir plan.testId plan.fixtureName)) =
            some (buildFixtureStub plan.fixture)) ∧
      (command.fates.stub = .written ∧ command.fates.appendSuite ≠ .refused →
        plan.testId ∉ testIds codec ((tree (placeOf cwd (suiteTomlPath plan.dir))).getD []))

instance (codec : DoubleCodec) (cwd : Text) (command : NewTestCommand) (tree : FileTree) :
    Decidable (IsFresh codec cwd command tree) :=
  inferInstanceAs (Decidable (∀ plan ∈ _, _))

/-- The two files that a command may change: the manifest and the registry of the current
suite. -/
def MayChange (cwd : Text) (tree : FileTree) (place : Place) : Prop :=
  ∃ dir, loadCurrentSuite cwd (tree.view cwd) = some dir ∧
    (place = placeOf cwd (suiteTomlPath dir) ∨ place = placeOf cwd (registryIniPath dir))

/-- Every file is there with the content that it had, but for those that may change. -/
def KeepsFiles (cwd : Text) (tree tree' : FileTree) : Prop :=
  ∀ place content, tree place = some content → ¬ MayChange cwd tree place →
    tree' place = some content

/-- The distinct ids of a manifest are still distinct. -/
def KeepsDistinct (codec : DoubleCodec) (tree tree' : FileTree) : Prop :=
  ∀ cwd dir, (testIds codec ((tree (placeOf cwd (suiteTomlPath dir))).getD [])).Nodup →
    (testIds codec ((tree' (placeOf cwd (suiteTomlPath dir))).getD [])).Nodup

/-- **What a command does to a file**: nothing, or the file is one that its plan writes. -/
theorem newTest_cases (codec : DoubleCodec) (cwd : Text) (command : NewTestCommand)
    (tree : FileTree) (place : Place) :
    tree.newTest codec cwd command place = tree place ∨
      ∃ plan w, newTestPlan cwd command.args (tree.view cwd) = .ok plan ∧
        w ∈ (plan.writes codec command.fates (tree.view cwd)).1 ∧
        placeOf cwd w.1 = place ∧ tree.newTest codec cwd command place = some w.2 := by
  rw [FileTree.newTest]
  rcases writeAll_cases cwd tree
    (newTestWrites codec cwd command.fates command.args (tree.view cwd)).1 place with
    hsame | ⟨w, hw, hplace, hcontent⟩
  · exact .inl hsame
  cases hplan : newTestPlan cwd command.args (tree.view cwd) with
  | error value =>
      rw [newTestWrites, hplan] at hw
      cases hw
  | ok plan =>
      refine .inr ⟨plan, w, rfl, ?_, hplace, hcontent⟩
      rwa [newTestWrites, hplan] at hw

/-- A plan is what the checks come to. -/
theorem mem_toOption_of_eq_ok {args : List Text} {fs : FileSystem} {plan : NewTestPlan}
    (h : newTestPlan cwd args fs = .ok plan) : plan ∈ (newTestPlan cwd args fs).toOption := by
  rw [h]
  rfl

/-- **A fresh command keeps the files.** -/
theorem IsFresh.keepsFiles {command : NewTestCommand} {tree : FileTree}
    (h : IsFresh codec cwd command tree) :
    KeepsFiles cwd tree (tree.newTest codec cwd command) := by
  intro place content hplace hother
  rcases newTest_cases codec cwd command tree place with
    hsame | ⟨plan, w, hplan, hw, rfl, hcontent⟩
  · rw [hsame, hplace]
  have hdir := loadCurrentSuite_of_newTestPlan hplan
  rw [hcontent]
  rcases NewTestPlan.mem_writes hw with ⟨hopens, hpath, hwhole⟩ | ⟨-, -, n, rfl⟩ | ⟨-, -, hpath⟩
  · rw [hpath] at hplace
    rcases (h plan (mem_toOption_of_eq_ok hplan)).1 hopens with hnone | ⟨hwritten, hstub⟩
    · exact absurd (hplace.symm.trans hnone) (Option.some_ne_none content)
    · rw [hwhole hwritten]
      exact hstub.symm.trans hplace
  · exact absurd ⟨plan.dir, hdir, .inl rfl⟩ hother
  · exact absurd ⟨plan.dir, hdir, .inr (congrArg _ hpath)⟩ hother

/-- **A fresh command keeps distinct ids distinct**, in every manifest. -/
theorem IsFresh.keepsDistinct {command : NewTestCommand} {tree : FileTree}
    (h : IsFresh codec cwd command tree) :
    KeepsDistinct codec tree (tree.newTest codec cwd command) := by
  intro cwd' dir hnodup
  rcases newTest_cases codec cwd command tree (placeOf cwd' (suiteTomlPath dir)) with
    hsame | ⟨plan, w, hplan, hw, hplace, hcontent⟩
  · rwa [hsame]
  rw [hcontent]
  rcases NewTestPlan.mem_writes hw with ⟨-, hpath, -⟩ | ⟨hstub, hsuite, n, rfl⟩ | ⟨-, -, hpath⟩
  · rw [hpath] at hplace
    exact absurd hplace.symm (placeOf_suiteTomlPath_ne_stubPath _ _ _ _ _ _)
  · have hnew := (h plan (mem_toOption_of_eq_ok hplan)).2 ⟨hstub, hsuite⟩
    have hbefore : tree (placeOf cwd (suiteTomlPath plan.dir)) =
        tree (placeOf cwd' (suiteTomlPath dir)) := congrArg tree hplace
    rw [FileTree.view, hbefore]
    rw [hbefore] at hnew
    exact nodup_testIds_append hnodup hnew _ _ n
  · rw [hpath] at hplace
    exact absurd hplace.symm (placeOf_suiteTomlPath_ne_registryIniPath _ _ _ _)

/-! ### Histories -/

/-- What happens to the files: a command, or a stub that a person edits. -/
inductive HistoryStep where
  | newTest (cwd : Text) (command : NewTestCommand)
  | editStub (cwd dir testId fixtureName content : Text)

namespace HistoryStep

/-- The files behind a step. -/
def apply (codec : DoubleCodec) : HistoryStep → FileTree → FileTree
  | .newTest cwd command, tree => tree.newTest codec cwd command
  | .editStub cwd dir testId fixtureName content, tree =>
    tree.writeAll cwd [(stubPath dir testId fixtureName, content)]

/-- A step is fresh if its command is. -/
def IsFresh (codec : DoubleCodec) : HistoryStep → FileTree → Prop
  | .newTest cwd command, tree => Hades.Runtime.IsFresh codec cwd command tree
  | .editStub .., _ => True

instance (codec : DoubleCodec) (step : HistoryStep) (tree : FileTree) :
    Decidable (step.IsFresh codec tree) :=
  match step with
  | .newTest cwd command =>
    inferInstanceAs (Decidable (Hades.Runtime.IsFresh codec cwd command tree))
  | .editStub .. => inferInstanceAs (Decidable True)

/-- A command keeps the files; a person may change them. -/
def KeepsFiles (codec : DoubleCodec) : HistoryStep → FileTree → Prop
  | .newTest cwd command, tree =>
    Hades.Runtime.KeepsFiles cwd tree (tree.newTest codec cwd command)
  | .editStub .., _ => True

theorem IsFresh.keepsFiles {step : HistoryStep} {tree : FileTree}
    (h : step.IsFresh codec tree) : step.KeepsFiles codec tree := by
  cases step with
  | newTest cwd command => exact Hades.Runtime.IsFresh.keepsFiles h
  | editStub => exact trivial

/-- **One step** keeps distinct ids distinct. -/
theorem IsFresh.keepsDistinct {step : HistoryStep} {tree : FileTree}
    (h : step.IsFresh codec tree) : KeepsDistinct codec tree (step.apply codec tree) := by
  cases step with
  | newTest cwd command => exact Hades.Runtime.IsFresh.keepsDistinct h
  | editStub cwd dir testId fixtureName content =>
      intro cwd' dir' hnodup
      have hne := placeOf_suiteTomlPath_ne_stubPath cwd' cwd dir' dir testId fixtureName
      have hsame : HistoryStep.apply codec (.editStub cwd dir testId fixtureName content) tree
          (placeOf cwd' (suiteTomlPath dir')) = tree (placeOf cwd' (suiteTomlPath dir')) :=
        Function.update_of_ne hne _ _
      rwa [hsame]

end HistoryStep

/-- The steps of a history, each with the files that it finds. -/
def visits (codec : DoubleCodec) : List HistoryStep → FileTree → List (FileTree × HistoryStep)
  | [], _ => []
  | step :: steps, tree => (tree, step) :: visits codec steps (step.apply codec tree)

/-- **Histories of fresh commands**: no command changes a file other than the manifest and
the registry of its suite, and in every state the ids are distinct where they were at the
start. -/
theorem keepsHistory_of_isFresh (codec : DoubleCodec) (history : List HistoryStep)
    (tree : FileTree) (h : ∀ v ∈ visits codec history tree, v.2.IsFresh codec v.1) :
    ∀ v ∈ visits codec history tree,
      v.2.KeepsFiles codec v.1 ∧ KeepsDistinct codec tree (v.2.apply codec v.1) := by
  induction history generalizing tree with
  | nil => exact fun v hv => absurd hv List.not_mem_nil
  | cons step steps ih =>
      rw [visits, List.forall_mem_cons] at h ⊢
      obtain ⟨hstep, hsteps⟩ := h
      refine ⟨⟨hstep.keepsFiles, hstep.keepsDistinct⟩, fun v hv => ?_⟩
      obtain ⟨hfiles, hdistinct⟩ := ih _ hsteps v hv
      exact ⟨hfiles, fun cwd dir hnodup => hdistinct cwd dir (hstep.keepsDistinct cwd dir hnodup)⟩

/-- A suite `/s` with one fixture and no test, adopted in `/w`. -/
def sampleTree : FileTree :=
  FileTree.writeAll "/w".toList (fun _ => none)
    [(markerPath "/w".toList, "/s\n".toList),
      (registryIniPath "/s".toList, registryText [sampleFixture]),
      (suiteTomlPath "/s".toList, [])]

/-- A command for a test of the fixture of the sample suite. -/
def sampleNewTest (testId : Text) : HistoryStep :=
  .newTest "/w".toList { args := ["F".toList, testId] }

/-- A person edits a stub of the sample suite. -/
def sampleEdit (testId : Text) : HistoryStep :=
  .editStub "/w".toList "/s".toList testId "F".toList "// mine".toList

/-- Two tests, the first of which a person edits before the second comes. -/
def sampleHistory : List HistoryStep :=
  [sampleNewTest "a".toList, sampleEdit "a".toList, sampleNewTest "b".toList]

/-- The two commands are fresh. -/
theorem keepsHistory_of_isFresh_two :
    (∀ v ∈ visits sampleCodec sampleHistory sampleTree, v.2.IsFresh sampleCodec v.1) ∧
      ∀ v ∈ visits sampleCodec sampleHistory sampleTree, v.2.KeepsFiles sampleCodec v.1 ∧
        KeepsDistinct sampleCodec sampleTree (v.2.apply sampleCodec v.1) := by
  have hfresh : ∀ v ∈ visits sampleCodec sampleHistory sampleTree,
      v.2.IsFresh sampleCodec v.1 := by decide +kernel
  exact ⟨hfresh, keepsHistory_of_isFresh sampleCodec sampleHistory sampleTree hfresh⟩

/-- **A second command for one test**: what the person wrote is lost, and the id is in the
manifest twice. -/
theorem not_keepsHistory_again :
    ∃ v ∈ visits sampleCodec
        [sampleNewTest "a".toList, sampleEdit "a".toList, sampleNewTest "a".toList] sampleTree,
      ¬ v.2.KeepsFiles sampleCodec v.1 ∧
        ¬ KeepsDistinct sampleCodec sampleTree (v.2.apply sampleCodec v.1) := by
  let edited := (sampleEdit "a".toList).apply sampleCodec
    ((sampleNewTest "a".toList).apply sampleCodec sampleTree)
  have hvisited : (edited, sampleNewTest "a".toList) ∈ visits sampleCodec
      [sampleNewTest "a".toList, sampleEdit "a".toList, sampleNewTest "a".toList] sampleTree := by
    simp [visits, edited]
  refine ⟨_, hvisited, fun hfiles => ?_, fun hdistinct => ?_⟩
  · have hstub := hfiles (placeOf "/w".toList (stubPath "/s".toList "a".toList "F".toList))
      "// mine".toList (by decide +kernel) ?_
    · exact absurd hstub (by decide +kernel)
    · rintro ⟨dir, -, hplace | hplace⟩
      · exact placeOf_suiteTomlPath_ne_stubPath _ _ _ _ _ _ hplace.symm
      · exact placeOf_ne (getLast?_stubPath _ _ _) (getLast?_registryIniPath dir) (by decide)
          (by decide) (by decide) _ _ hplace
  · exact absurd (hdistinct "/w".toList "/s".toList (by decide +kernel)) (by decide +kernel)

end Hades.Runtime
