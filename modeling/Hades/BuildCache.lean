import Hades.ValidateCommand

/-!
# The Executable that a Run Finds

`run` builds the suite and looks for its executable below the build directory
(`findGeneratedExecutable` in `Commands.cpp`). Where a build puts it depends on the CMake
generator, so several places are tried, that of the chosen configuration first, and the first
one that exists is started. The build directory is kept: it holds what earlier runs have built
with other configurations, and what `validate` has promoted.

A build directory is what is built at each path, by the number of the command that built it.
CMake is a parameter. A build that succeeds has written the executable of its configuration at
the place of the generator, a step that fails may have removed what was there, and nothing else
writes a place that is looked at.

## Main results

* `onlyOutputs_apply`: a command leaves nothing but outputs of the generator.
* `neverStale_iff`: **no session starts an old executable** exactly if no configuration's output
  is tried in front of another's.
* `ranked_const`, `ranked_configFolder`: the generators with one output, and with one folder for
  each configuration.
-/

namespace Hades.Runtime

/-! ### Build directories -/

/-- What is built at each path: the number of the command that built it. -/
abbrev BuildTree := Text → Option ℕ

/-- What is built at a path of a directory, if the directory exists. -/
def builtAt (tree : Option BuildTree) (path : Text) : Option ℕ :=
  tree.bind fun tree => tree path

/-- The places below the build directory, in the order in which they are tried. -/
def executableCandidates (v_Name v_Config : Text) : List Text :=
  [v_Config ++ "/".toList ++ v_Name ++ ".exe".toList,
    v_Name ++ ".exe".toList,
    v_Name,
    "Debug/".toList ++ v_Name ++ ".exe".toList,
    "Release/".toList ++ v_Name ++ ".exe".toList,
    "RelWithDebInfo/".toList ++ v_Name ++ ".exe".toList]

/-- The first place where something exists. -/
def findGeneratedExecutable (tree : Option BuildTree) (v_Name v_Config : Text) : Option Text :=
  (executableCandidates v_Name v_Config).find? fun path => (builtAt tree path).isSome

/-! ### Commands -/

/-- What CMake does for a run: what a step makes of the build directory, and its status. -/
structure RunSteps where
  configure : Option BuildTree → Option BuildTree × ℤ
  build : Option BuildTree → Option BuildTree × ℤ

/-- Configure and build; the second step needs the first one. -/
def RunSteps.buildRun (steps : RunSteps) (tree : Option BuildTree) : Option BuildTree × Bool :=
  let configured := steps.configure tree
  if configured.2 ≠ 0 then (configured.1, false)
  else
    let built := steps.build configured.1
    (built.1, built.2 = 0)

/-- A command that passes its checks, with what CMake and the file system do for it. -/
inductive BuildCommand where
  | run (l_config : Text) (steps : RunSteps)
  | validate (l_config : Text) (steps : ValidateSteps BuildTree)

/-- The directories after a command, and the executable that it starts, if it starts one: its
place, and the number of the command that built it. -/
def BuildCommand.apply (name : Text) (trees : BuildTrees BuildTree) :
    BuildCommand → BuildTrees BuildTree × Option (Text × ℕ)
  | .run l_config steps =>
    let (tree, succeeds) := steps.buildRun trees.runBuild
    let found := if succeeds then findGeneratedExecutable tree name l_config else none
    ({ trees with runBuild := tree },
      found.bind fun path => (builtAt tree path).map fun builder => (path, builder))
  | .validate _ steps => ((steps.validateBuild trees).1, none)

/-- A session: the executables that are started, with the numbers of the commands that start
them. -/
def startedExecutables (name : Text) : BuildTrees BuildTree → ℕ → List BuildCommand →
    List (ℕ × Text × ℕ)
  | _, _, [] => []
  | trees, number, command :: commands =>
    let (trees, started) := command.apply name trees
    started.toList.map (number, ·) ++ startedExecutables name trees (number + 1) commands

/-! ### What CMake is trusted with -/

/-- A step that keeps what is built, or removes it. -/
def OnlyRemoves (step : Option BuildTree → Option BuildTree) : Prop :=
  ∀ tree path, builtAt (step tree) path = none ∨ builtAt (step tree) path = builtAt tree path

/-- **A build** with the given output, by the command of a number. -/
structure WritesOutput (output : Text) (number : ℕ)
    (step : Option BuildTree → Option BuildTree × ℤ) : Prop where
  others : ∀ tree path, path ≠ output →
    builtAt (step tree).1 path = none ∨ builtAt (step tree).1 path = builtAt tree path
  succeeds : ∀ tree, (step tree).2 = 0 → builtAt (step tree).1 output = some number

/-- A command with a generator that puts the executable of a configuration at `output`. -/
def BuildCommand.IsLawful (output : Text → Text) (number : ℕ) : BuildCommand → Prop
  | .run l_config steps =>
    isKnownCMakeConfig l_config = true ∧ OnlyRemoves (fun tree => (steps.configure tree).1) ∧
      WritesOutput (output l_config) number steps.build
  | .validate l_config steps =>
    isKnownCMakeConfig l_config = true ∧ OnlyRemoves steps.removeStale ∧
      OnlyRemoves (fun tree => (steps.configure tree).1) ∧
      WritesOutput (output l_config) number steps.build ∧
      OnlyRemoves steps.removeFailed ∧ OnlyRemoves steps.removeBuild

/-- Every command of a session is lawful. -/
def IsLawfulSession (output : Text → Text) : ℕ → List BuildCommand → Prop
  | _, [] => True
  | number, command :: commands =>
    command.IsLawful output number ∧ IsLawfulSession output (number + 1) commands

/-- **No session starts an old executable**: what a command starts it has built itself. -/
def NeverStale (name : Text) (output : Text → Text) : Prop :=
  ∀ commands, IsLawfulSession output 0 commands →
    ∀ started ∈ startedExecutables name ⟨none, none⟩ 0 commands, started.2.2 = started.1

/-- No configuration's output is tried in front of another's. -/
def Ranked (name : Text) (output : Text → Text) : Prop :=
  ∀ config other, isKnownCMakeConfig config = true → isKnownCMakeConfig other = true →
    output other ∉ (executableCandidates name config).takeWhile (· ≠ output config)

/-! ### First places -/

/-- The first place that exists is a place that exists, or it is tried in front of it. -/
theorem eq_or_mem_takeWhile_of_find? {paths : List Text} {found : Text → Bool} {path first : Text}
    (h : paths.find? found = some first) (hpath : found path = true) :
    first = path ∨ first ∈ paths.takeWhile (· ≠ path) := by
  induction paths with
  | nil => cases h
  | cons p paths ih =>
      by_cases hp : p = path
      · rw [hp, List.find?_cons_of_pos hpath] at h
        exact .inl (Option.some.inj h).symm
      · rw [List.takeWhile_cons_of_pos (by simpa using hp), List.mem_cons]
        cases hfound : found p with
        | true =>
            rw [List.find?_cons_of_pos hfound] at h
            exact .inr (.inl (Option.some.inj h).symm)
        | false =>
            rw [List.find?_cons_of_neg (by rw [hfound]; exact Bool.false_ne_true)] at h
            exact (ih h).imp_right .inr

/-- Of two places that exist, the one that is tried in front of the other is first. -/
theorem find?_eq_of_mem_takeWhile {paths : List Text} {path first : Text}
    (h : first ∈ paths.takeWhile (· ≠ path)) :
    paths.find? (fun p => p = path ∨ p = first) = some first := by
  induction paths with
  | nil => cases h
  | cons p paths ih =>
      by_cases hp : p = path
      · rw [List.takeWhile_cons_of_neg (by simpa using hp)] at h
        cases h
      · rw [List.takeWhile_cons_of_pos (by simpa using hp), List.mem_cons] at h
        by_cases hfirst : p = first
        · rw [hfirst, List.find?_cons_of_pos (by simp)]
        · rw [List.find?_cons_of_neg (by simpa using ⟨hp, hfirst⟩)]
          exact ih (h.resolve_left (Ne.symm hfirst))

/-! ### Outputs of the generator -/

/-- Nothing is built but outputs of the generator. -/
def OnlyOutputs (output : Text → Text) (tree : Option BuildTree) : Prop :=
  ∀ path, builtAt tree path ≠ none →
    ∃ config, isKnownCMakeConfig config = true ∧ path = output config

variable {name : Text} {output : Text → Text} {number : ℕ}

theorem onlyOutputs_none : OnlyOutputs output none := fun _ h => absurd rfl h

theorem OnlyOutputs.remove {tree : Option BuildTree} (h : OnlyOutputs output tree)
    {step : Option BuildTree → Option BuildTree} (hstep : OnlyRemoves step) :
    OnlyOutputs output (step tree) := by
  intro path hbuilt
  rcases hstep tree path with hnone | hkept
  · exact absurd hnone hbuilt
  · exact h path (hkept ▸ hbuilt)

theorem OnlyOutputs.write {tree : Option BuildTree} (h : OnlyOutputs output tree)
    {config : Text} (hknown : isKnownCMakeConfig config = true)
    {step : Option BuildTree → Option BuildTree × ℤ}
    (hstep : WritesOutput (output config) number step) : OnlyOutputs output (step tree).1 := by
  intro path hbuilt
  by_cases hpath : path = output config
  · exact ⟨config, hknown, hpath⟩
  · rcases hstep.others tree path hpath with hnone | hkept
    · exact absurd hnone hbuilt
    · exact h path (hkept ▸ hbuilt)

/-- **The build of a run**: one that succeeds has written its output. -/
theorem OnlyOutputs.buildRun {tree : Option BuildTree} (h : OnlyOutputs output tree)
    {config : Text} {steps : RunSteps}
    (hlawful : (BuildCommand.run config steps).IsLawful output number) :
    OnlyOutputs output (steps.buildRun tree).1 ∧ ((steps.buildRun tree).2 = true →
      builtAt (steps.buildRun tree).1 (output config) = some number) := by
  obtain ⟨hknown, hconfigure, hbuild⟩ := hlawful
  have hconfigured := h.remove hconfigure
  rw [RunSteps.buildRun]
  dsimp only
  split
  · exact ⟨hconfigured, fun htrue => absurd htrue Bool.false_ne_true⟩
  · exact ⟨hconfigured.write hknown hbuild,
      fun hstatus => hbuild.succeeds _ (of_decide_eq_true hstatus)⟩

/-- The build of `validate`, and what becomes of the two directories. -/
theorem OnlyOutputs.validateBuild {trees : BuildTrees BuildTree}
    (htemp : OnlyOutputs output trees.tempBuild) (hrun : OnlyOutputs output trees.runBuild)
    {config : Text} {steps : ValidateSteps BuildTree}
    (hlawful : (BuildCommand.validate config steps).IsLawful output number) :
    OnlyOutputs output (steps.validateBuild trees).1.tempBuild ∧
      OnlyOutputs output (steps.validateBuild trees).1.runBuild := by
  obtain ⟨hknown, hstale, hconfigure, hbuild, hfailed, hremove⟩ := hlawful
  have hbuilt : OnlyOutputs output (steps.buildTemp trees.tempBuild).1 := by
    rw [ValidateSteps.buildTemp]
    dsimp only
    split
    · exact (htemp.remove hstale).remove hconfigure
    · exact ((htemp.remove hstale).remove hconfigure).write hknown hbuild
  rw [ValidateSteps.validateBuild]
  generalize steps.buildTemp trees.tempBuild = built at hbuilt ⊢
  obtain ⟨temp, succeeds⟩ := built
  cases succeeds with
  | false => exact ⟨hbuilt.remove hfailed, hrun⟩
  | true =>
      dsimp only [ValidateSteps.rename]
      by_cases hrename : steps.renames = true ∧ temp.isSome = true
      · rw [if_pos hrename]
        exact ⟨onlyOutputs_none, hbuilt⟩
      · rw [if_neg hrename]
        exact ⟨hbuilt, hrun.remove hremove⟩

/-- **A command leaves nothing but outputs** in the two directories. -/
theorem onlyOutputs_apply (name : Text) {trees : BuildTrees BuildTree}
    (htemp : OnlyOutputs output trees.tempBuild) (hrun : OnlyOutputs output trees.runBuild)
    {command : BuildCommand} (hlawful : command.IsLawful output number) :
    OnlyOutputs output (command.apply name trees).1.tempBuild ∧
      OnlyOutputs output (command.apply name trees).1.runBuild := by
  cases command with
  | run config steps => exact ⟨htemp, (hrun.buildRun hlawful).1⟩
  | validate config steps => exact OnlyOutputs.validateBuild htemp hrun hlawful

/-- **A run starts what it has built**, if no other output is tried in front of its own. -/
theorem Ranked.started (hranked : Ranked name output) {trees : BuildTrees BuildTree}
    (hrun : OnlyOutputs output trees.runBuild) {command : BuildCommand}
    (hlawful : command.IsLawful output number) {path : Text} {builder : ℕ}
    (hstarted : (command.apply name trees).2 = some (path, builder)) : builder = number := by
  cases command with
  | validate config steps => cases hstarted
  | run config steps =>
      obtain ⟨honly, hwritten⟩ := hrun.buildRun hlawful
      rw [BuildCommand.apply] at hstarted
      generalize steps.buildRun trees.runBuild = built at honly hwritten hstarted
      obtain ⟨tree, succeeds⟩ := built
      cases succeeds with
      | false => cases hstarted
      | true =>
          dsimp only at honly hwritten hstarted
          rw [if_pos rfl, Option.bind_eq_some_iff] at hstarted
          obtain ⟨first, hfound, hbuilder⟩ := hstarted
          obtain ⟨number', hbuilt, heq⟩ := Option.map_eq_some_iff.mp hbuilder
          obtain ⟨rfl, rfl⟩ := Prod.mk.inj heq
          have hexists : (builtAt tree (output config)).isSome = true := by
            rw [hwritten rfl]
            rfl
          rcases eq_or_mem_takeWhile_of_find? hfound hexists with rfl | hbefore
          · rw [hwritten rfl] at hbuilt
            exact (Option.some.inj hbuilt).symm
          · obtain ⟨other, hknown, rfl⟩ := honly first (by rw [hbuilt]; exact Option.some_ne_none _)
            exact absurd hbefore (hranked config other hlawful.1 hknown)

/-- The executables of a session. -/
theorem Ranked.startedExecutables (hranked : Ranked name output) {commands : List BuildCommand}
    {trees : BuildTrees BuildTree} (htemp : OnlyOutputs output trees.tempBuild)
    (hrun : OnlyOutputs output trees.runBuild) (hlawful : IsLawfulSession output number commands) :
    ∀ started ∈ startedExecutables name trees number commands, started.2.2 = started.1 := by
  induction commands generalizing trees number with
  | nil =>
      intro started hstarted
      cases hstarted
  | cons command commands ih =>
      obtain ⟨hcommand, hrest⟩ := hlawful
      obtain ⟨htemp', hrun'⟩ := onlyOutputs_apply name htemp hrun hcommand
      intro started hstarted
      rw [Hades.Runtime.startedExecutables] at hstarted
      dsimp only at hstarted
      rcases List.mem_append.mp hstarted with hhere | hlater
      · obtain ⟨⟨path, builder⟩, hmem, rfl⟩ := List.mem_map.mp hhere
        exact hranked.started hrun hcommand (Option.mem_toList.mp hmem)
      · exact ih htemp' hrun' hrest started hlater

/-! ### When no session starts an old executable -/

/-- Steps that succeed and write an output. -/
def writingSteps (output : Text) (number : ℕ) : RunSteps where
  configure tree := (tree, 0)
  build tree := (some fun path => if path = output then some number else builtAt tree path, 0)

theorem isLawful_writingSteps {config : Text} (hknown : isKnownCMakeConfig config = true) :
    (BuildCommand.run config (writingSteps (output config) number)).IsLawful output number := by
  refine ⟨hknown, fun tree path => .inr rfl, fun tree path hpath => .inr ?_, fun tree _ => ?_⟩
  · exact if_neg hpath
  · exact if_pos rfl

/-- A run with another configuration, and then a run that tries the other's output first. -/
theorem mem_startedExecutables_of_mem_takeWhile {config other : Text}
    (h : output other ∈ (executableCandidates name config).takeWhile (· ≠ output config)) :
    (1, output other, 0) ∈ startedExecutables name ⟨none, none⟩ 0
      [.run other (writingSteps (output other) 0), .run config (writingSteps (output config) 1)] := by
  have hne : output other ≠ output config := by
    simpa using List.mem_takeWhile_imp h
  let built : BuildTree := fun path =>
    if path = output config then some 1 else if path = output other then some 0 else none
  have hbuilt : ((writingSteps (output config) 1).buildRun
      ((writingSteps (output other) 0).buildRun none).1) = (some built, true) := rfl
  have hfound : findGeneratedExecutable (some built) name config = some (output other) := by
    rw [findGeneratedExecutable, ← find?_eq_of_mem_takeWhile h]
    congr 1
    funext path
    by_cases hconfig : path = output config
    · simp [builtAt, built, hconfig]
    · by_cases hother : path = output other
      · simp [builtAt, built, hother, hne]
      · simp [builtAt, built, hconfig, hother]
  have hbuilder : builtAt (some built) (output other) = some 0 :=
    (if_neg hne).trans (if_pos rfl)
  have hstarted : ((BuildCommand.run config (writingSteps (output config) 1)).apply name
      { tempBuild := none, runBuild := ((writingSteps (output other) 0).buildRun none).1 }).2 =
        some (output other, 0) := by
    rw [BuildCommand.apply]
    dsimp only
    rw [hbuilt]
    dsimp only
    rw [if_pos rfl, hfound, Option.bind_some, hbuilder, Option.map_some]
  refine List.mem_append_right _ (List.mem_append_left _ (List.mem_map.mpr ⟨_, ?_, rfl⟩))
  exact Option.mem_toList.mpr hstarted

/-- **No session starts an old executable** exactly if no configuration's output is tried in
front of another's. -/
theorem neverStale_iff (name : Text) (output : Text → Text) :
    NeverStale name output ↔ Ranked name output := by
  constructor
  · intro hnever config other hconfig hother hmem
    have hlawful : IsLawfulSession output 0 [.run other (writingSteps (output other) 0),
        .run config (writingSteps (output config) 1)] :=
      ⟨isLawful_writingSteps hother, isLawful_writingSteps hconfig, trivial⟩
    have hstale := hnever _ hlawful _ (mem_startedExecutables_of_mem_takeWhile hmem)
    cases hstale
  · intro hranked commands hlawful
    exact hranked.startedExecutables onlyOutputs_none onlyOutputs_none hlawful

/-- A generator with one output for every configuration. -/
theorem ranked_const (name path : Text) : Ranked name fun _ => path := by
  intro config other _ _ hmem
  have hne := List.mem_takeWhile_imp hmem
  simp at hne

/-- A generator with a folder for each configuration, where executables end in `.exe`. -/
theorem ranked_configFolder (name : Text) :
    Ranked name fun config => config ++ "/".toList ++ name ++ ".exe".toList := by
  intro config other _ _ hmem
  rw [executableCandidates, List.takeWhile_cons_of_neg (by simp)] at hmem
  cases hmem

end Hades.Runtime
