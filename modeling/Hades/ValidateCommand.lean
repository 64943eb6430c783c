import Hades.RunModes

/-!
# The Validate Command

`hades-driver validate` (`Commands.cpp`): the current suite is resolved and built in a scratch
directory next to the build directory of `run`. If that goes well, the build directory is
removed and the scratch directory is renamed to it.

A directory is a tree of an arbitrary type, or it does not exist. What the file system and
CMake make of the trees is a parameter (`ValidateSteps`): a removal that fails leaves
something, and it is never looked at. CMake is given the scratch directory and leaves the
build directory alone.

## Main results

* `validateBuild_cases`: what the command has done with the build directory.
* `promotesOnSuccess_iff`: when it is replaced on success only.
-/

namespace Hades.Runtime

/-! ### Options -/

/-- The options of `validate`. -/
structure ValidateOptions where
  l_build : Text := "cmake".toList
  l_config : Text := "Debug".toList

/-- One more argument; an unknown one is skipped. -/
def ValidateOptions.parse (options : ValidateOptions) (arg : Text) : ValidateOptions where
  l_build := (flagValue? "build".toList arg).getD options.l_build
  l_config := (flagValue? "config".toList arg).getD options.l_config

/-! ### The directories -/

variable {T : Type*}

/-- The two directories that `validate` writes, in the directory of the generated files. -/
structure BuildTrees (T : Type*) where
  /-- `.validate_tmp` -/
  tempBuild : Option T
  /-- `build` -/
  runBuild : Option T

/-- What the file system and CMake do, step by step: what a removal leaves of a directory,
what a build step makes of it, and the status of the step. -/
structure ValidateSteps (T : Type*) where
  writesGenerated : Bool
  removeStale : Option T → Option T
  configure : Option T → Option T × ℤ
  build : Option T → Option T × ℤ
  removeFailed : Option T → Option T
  removeBuild : Option T → Option T
  renames : Bool

namespace ValidateSteps

variable (steps : ValidateSteps T)

/-- Configure and build in the scratch directory; the second step needs the first one. -/
def buildTemp (temp : Option T) : Option T × Bool :=
  let configured := steps.configure (steps.removeStale temp)
  if configured.2 ≠ 0 then (configured.1, false)
  else
    let built := steps.build configured.1
    (built.1, built.2 = 0)

/-- Rename the scratch directory, which has to exist. -/
def rename (trees : BuildTrees T) : Option (BuildTrees T) :=
  if steps.renames ∧ trees.tempBuild.isSome then
    some { tempBuild := none, runBuild := trees.tempBuild }
  else none

/-- The part of the command that works on the directories. -/
def validateBuild (trees : BuildTrees T) : BuildTrees T × ℕ :=
  match steps.buildTemp trees.tempBuild with
  | (temp, false) => ({ trees with tempBuild := steps.removeFailed temp }, 1)
  | (temp, true) =>
    let trees := { tempBuild := temp, runBuild := steps.removeBuild trees.runBuild }
    match steps.rename trees with
    | none => (trees, 1)
    | some trees => (trees, 0)

end ValidateSteps

/-- The checks before the directories are touched: the options, the current suite and its
generated files. `none` if they pass; or the value returned. -/
def validateChecks (codec : DoubleCodec) (cwd : Text) (fs : FileSystem) (writesGenerated : Bool)
    (args : List Text) : Option ℕ :=
  let options := args.foldl ValidateOptions.parse {}
  if options.l_build ≠ "cmake".toList then some 2
  else if !isKnownCMakeConfig options.l_config then some 2
  else
    match loadCurrentSuite cwd fs with
    | none => some 1
    | some suiteDir =>
      match regenerateSuite codec fs suiteDir with
      | .error _ => some 1
      | .ok _ => if writesGenerated then none else some 1

/-- The command: the directories, and the value returned. -/
def cmdValidate (codec : DoubleCodec) (cwd : Text) (fs : FileSystem) (steps : ValidateSteps T)
    (args : List Text) (trees : BuildTrees T) : BuildTrees T × ℕ :=
  match validateChecks codec cwd fs steps.writesGenerated args with
  | some value => (trees, value)
  | none => steps.validateBuild trees

/-! ### What becomes of the build directory -/

variable {steps : ValidateSteps T} {trees : BuildTrees T}

/-- The rename goes through: it does not fail, and there is something to rename. -/
def ValidateSteps.Renames (steps : ValidateSteps T) (temp : Option T) : Prop :=
  steps.renames = true ∧ temp.isSome = true

/-- **What the command has done**: a build that fails leaves the build directory alone, and
one that succeeds has it removed, and replaced if the rename goes through. -/
theorem validateBuild_cases (steps : ValidateSteps T) (trees : BuildTrees T) :
    (steps.buildTemp trees.tempBuild).2 = false ∧ (steps.validateBuild trees).2 = 1 ∧
        (steps.validateBuild trees).1.runBuild = trees.runBuild ∨
      (steps.buildTemp trees.tempBuild).2 = true ∧
        ¬ steps.Renames (steps.buildTemp trees.tempBuild).1 ∧
        (steps.validateBuild trees).2 = 1 ∧
        (steps.validateBuild trees).1.runBuild = steps.removeBuild trees.runBuild ∨
      (steps.buildTemp trees.tempBuild).2 = true ∧
        steps.Renames (steps.buildTemp trees.tempBuild).1 ∧
        (steps.validateBuild trees).2 = 0 ∧
        (steps.validateBuild trees).1.runBuild = (steps.buildTemp trees.tempBuild).1 := by
  rw [ValidateSteps.validateBuild]
  obtain ⟨temp, succeeds⟩ := steps.buildTemp trees.tempBuild
  cases succeeds with
  | false => exact .inl ⟨rfl, rfl, rfl⟩
  | true =>
      dsimp only [ValidateSteps.rename]
      by_cases hrename : steps.renames = true ∧ temp.isSome = true
      · rw [if_pos hrename]
        exact .inr (.inr ⟨rfl, hrename, rfl, rfl⟩)
      · rw [if_neg hrename]
        exact .inr (.inl ⟨rfl, hrename, rfl, rfl⟩)

/-- **The build directory is replaced on success only**: a command that fails leaves it as it
was, and behind one that succeeds it is the tree that was built. -/
structure PromotesOnSuccess (steps : ValidateSteps T) (trees : BuildTrees T)
    (result : BuildTrees T × ℕ) : Prop where
  fails : result.2 ≠ 0 → result.1.runBuild = trees.runBuild
  succeeds : result.2 = 0 → ∃ built, steps.buildTemp trees.tempBuild = (some built, true) ∧
    result.1.runBuild = some built

/-- The command gets to the directories, the build succeeds, and the rename fails. -/
def FailsToPromote (codec : DoubleCodec) (cwd : Text) (fs : FileSystem)
    (steps : ValidateSteps T) (args : List Text) (trees : BuildTrees T) : Prop :=
  validateChecks codec cwd fs steps.writesGenerated args = none ∧
    (steps.buildTemp trees.tempBuild).2 = true ∧
    ¬ steps.Renames (steps.buildTemp trees.tempBuild).1

/-- A check that fails returns no zero. -/
theorem ne_zero_of_validateChecks {codec : DoubleCodec} {cwd : Text} {fs : FileSystem}
    {writesGenerated : Bool} {args : List Text} {value : ℕ}
    (h : validateChecks codec cwd fs writesGenerated args = some value) : value ≠ 0 := by
  dsimp only [validateChecks] at h
  split at h
  · cases h
    decide
  split at h
  · cases h
    decide
  split at h
  · cases h
    decide
  split at h
  · cases h
    decide
  split at h
  · cases h
  · cases h
    decide

/-- Behind checks that pass the directories are worked on. -/
theorem cmdValidate_of_checks {codec : DoubleCodec} {cwd : Text} {fs : FileSystem}
    {args : List Text} (h : validateChecks codec cwd fs steps.writesGenerated args = none) :
    cmdValidate codec cwd fs steps args trees = steps.validateBuild trees := by
  rw [cmdValidate, h]

/-- **When the build directory is replaced on success only**: exactly if the rename does not
fail behind a build that succeeds, or if it does and the removal before it has left the
directory as it was. -/
theorem promotesOnSuccess_iff (codec : DoubleCodec) (cwd : Text) (fs : FileSystem)
    (steps : ValidateSteps T) (args : List Text) (trees : BuildTrees T) :
    PromotesOnSuccess steps trees (cmdValidate codec cwd fs steps args trees) ↔
      (FailsToPromote codec cwd fs steps args trees →
        steps.removeBuild trees.runBuild = trees.runBuild) := by
  rw [FailsToPromote]
  cases hchecks : validateChecks codec cwd fs steps.writesGenerated args with
  | some value =>
      rw [cmdValidate, hchecks]
      have hvalue := ne_zero_of_validateChecks hchecks
      refine iff_of_true ⟨fun _ => rfl, fun hzero => absurd hzero hvalue⟩ ?_
      rintro ⟨hnone, -, -⟩
      cases hnone
  | none =>
      rw [cmdValidate_of_checks hchecks]
      rcases validateBuild_cases steps trees with ⟨hbuild, hvalue, htree⟩ |
        ⟨hbuild, hrename, hvalue, htree⟩ | ⟨hbuild, hrename, hvalue, htree⟩
      · refine iff_of_true ⟨fun _ => htree, fun hzero => ?_⟩ ?_
        · rw [hvalue] at hzero
          cases hzero
        · rintro ⟨-, htrue, -⟩
          rw [hbuild] at htrue
          cases htrue
      · constructor
        · intro h _
          rw [← htree]
          exact h.fails (by rw [hvalue]; decide)
        · intro h
          refine ⟨fun _ => htree.trans (h ⟨rfl, hbuild, hrename⟩), fun hzero => ?_⟩
          rw [hvalue] at hzero
          cases hzero
      · refine iff_of_true ⟨fun hne => absurd hvalue hne, fun _ => ?_⟩ ?_
        · obtain ⟨built, htemp⟩ := Option.isSome_iff_exists.mp hrename.2
          exact ⟨built, Prod.ext htemp hbuild, htree.trans htemp⟩
        · rintro ⟨-, -, hnot⟩
          exact absurd hrename hnot

/-- Steps that all succeed but for the rename. -/
def sampleSteps : ValidateSteps Text where
  writesGenerated := true
  removeStale _ := none
  configure _ := (some "configured".toList, 0)
  build _ := (some "built".toList, 0)
  removeFailed _ := none
  removeBuild _ := none
  renames := false

/-- **A rename that fails**: the build succeeds and is not promoted, and the build directory
of `run` is gone. -/
theorem not_promotesOnSuccess_rename :
    let result := cmdValidate sampleCodec "/w".toList (sampleFiles ["a".toList]) sampleSteps []
      { tempBuild := none, runBuild := some "old".toList }
    result.2 = 1 ∧ result.1.runBuild = none ∧
      ¬ PromotesOnSuccess sampleSteps { tempBuild := none, runBuild := some "old".toList }
        result := by
  intro result
  have hchecks : validateChecks sampleCodec "/w".toList (sampleFiles ["a".toList])
      sampleSteps.writesGenerated [] = none := by decide +kernel
  have hresult : result = ({ tempBuild := some "built".toList, runBuild := none }, 1) :=
    cmdValidate_of_checks hchecks
  rw [hresult]
  refine ⟨rfl, rfl, fun h => ?_⟩
  have hkept := h.fails Nat.one_ne_zero
  cases hkept

end Hades.Runtime
