import Hades.AbstractDriver

/-!
# The Commands that Change a Suite

`init-suite`, `find-suite`, `rm` and `new-test` do to the files what the abstract driver does to
its suites: they keep `Holds`, and return the same value. The directories are typed plainly, a
removal succeeds, and the append to a manifest does not break off.

## Main results

* `Holds.cmdInitSuite`, `Holds.cmdFindSuite`, `Holds.cmdRemoveSuite`, `Holds.cmdNewTest`: **one
  command** keeps the files in step.
-/

namespace Hades.Runtime

variable {codec : DoubleCodec} {cwd : Text} {fs fs' : FileSystem} {state : DriverState}

/-! ### Making, choosing and deleting a suite -/

/-- Writing a missing file leaves the others alone. -/
theorem FileSystem.writeIfMissing_of_ne (fs : FileSystem) {path path' : Text} (h : path' ≠ path)
    (content : Text) : fs.writeIfMissing path content path' = fs path' := by
  rw [FileSystem.writeIfMissing]
  split
  · rfl
  · exact fs.write_of_ne h content

theorem FileSystem.writeIfMissing_of_some {fs : FileSystem} {path content : Text}
    (h : fs path = some content) (other : Text) : fs.writeIfMissing path other = fs := by
  rw [FileSystem.writeIfMissing, h]
  rfl

/-- The files that `init-suite` writes if they are missing. -/
def suiteFiles (dir : Text) (fs : FileSystem) : FileSystem :=
  (fs.writeIfMissing (suiteTomlPath dir) newSuiteToml).writeIfMissing (registryIniPath dir)
    newRegistryIni

/-- They are no files of another suite. -/
theorem suiteFiles_of_ne {dir : Text} {path : Text} (hsuite : path ≠ suiteTomlPath dir)
    (hregistry : path ≠ registryIniPath dir) (fs : FileSystem) :
    suiteFiles dir fs path = fs path := by
  rw [suiteFiles, FileSystem.writeIfMissing_of_ne _ hregistry,
    FileSystem.writeIfMissing_of_ne _ hsuite]

/-- **A suite that was missing** has not been told anything; another one stays as it is. -/
theorem HoldsSuite.suiteFiles {dir : Directory} {suite : Option SuiteLog}
    (h : HoldsSuite codec fs dir suite) :
    HoldsSuite codec (suiteFiles (directoryPath dir) fs) dir (some (suite.getD {})) := by
  have hfiles := registryIniPath_ne_suiteTomlPath (directoryPath dir) (directoryPath dir)
  rw [Hades.Runtime.suiteFiles]
  cases suite with
  | none =>
      obtain ⟨hregistry, hsuite⟩ := h
      have hmissing : fs.write (suiteTomlPath (directoryPath dir)) newSuiteToml
          (registryIniPath (directoryPath dir)) = none := by
        rw [FileSystem.write_of_ne _ hfiles, hregistry]
      rw [FileSystem.writeIfMissing_of_none hsuite, FileSystem.writeIfMissing_of_none hmissing]
      refine ⟨⟨newRegistryIni, FileSystem.write_self _ _ _, readRegistryIni_newRegistryIni _,
        lastLine_new.1⟩, ⟨newSuiteToml, ?_, readSuiteToml_newSuiteToml _, lastLine_new.2⟩,
        fun test ht => by cases ht⟩
      rw [FileSystem.write_of_ne _ hfiles.symm, FileSystem.write_self]
  | some log =>
      obtain ⟨registry, hregistry, -⟩ := h.registry
      obtain ⟨suite, hsuite, -⟩ := h.suite
      rw [FileSystem.writeIfMissing_of_some hsuite, FileSystem.writeIfMissing_of_some hregistry]
      exact h

/-- **Adopting a suite**: the marker names it. -/
theorem Holds.adopt (h : Holds codec cwd fs state) {dir : Directory}
    (hplain : IsPlainDirectory dir) :
    Holds codec cwd (fs.write (markerPath cwd) (directoryPath dir ++ ['\n']))
      { state with current := some dir } where
  marker := FileSystem.write_self _ _ _
  isPlain_current := fun _ hother => Option.some.inj hother ▸ hplain
  suites := fun other hother => (h.suites other hother).congr
    (FileSystem.write_of_ne _ (markerPath_ne_registryIniPath cwd _).symm _)
    (FileSystem.write_of_ne _ (markerPath_ne_suiteTomlPath cwd _).symm _)

/-- A suite is put into a directory. -/
theorem Holds.setSuite (h : Holds codec cwd fs state) {dir : Directory}
    (hplain : IsPlainDirectory dir) {log : SuiteLog}
    (hmarker : fs' (markerPath cwd) = fs (markerPath cwd))
    (hothers : ∀ other, IsPlainDirectory other → other ≠ dir →
      fs' (registryIniPath (directoryPath other)) = fs (registryIniPath (directoryPath other)) ∧
        fs' (suiteTomlPath (directoryPath other)) = fs (suiteTomlPath (directoryPath other)))
    (hlog : log.IsStored codec (directoryPath dir) fs') :
    Holds codec cwd fs' (state.setSuite dir log) where
  marker := hmarker.trans h.marker
  isPlain_current := h.isPlain_current
  suites := by
    intro other hother
    by_cases heq : other = dir
    · subst heq
      rw [DriverState.suites_setSuite_self]
      exact hlog
    · obtain ⟨hregistry, hsuite⟩ := hothers other hother heq
      rw [DriverState.suites_setSuite_of_ne _ heq]
      exact (h.suites other hother).congr hregistry hsuite

/-- **Making a suite.** -/
theorem Holds.cmdInitSuite (h : Holds codec cwd fs state) {args : List Text}
    (hargs : ∀ arg ∈ args.head?, ∃ dir, Names cwd arg dir) :
    Holds codec cwd (Hades.Runtime.cmdInitSuite codec cwd args fs).1
        (state.initSuite cwd args).1 ∧
      (Hades.Runtime.cmdInitSuite codec cwd args fs).2 = (state.initSuite cwd args).2 := by
  cases args with
  | nil => exact ⟨h, rfl⟩
  | cons arg rest =>
      obtain ⟨dir, hdir⟩ := hargs arg rfl
      have hsuitePath : absolutePath cwd (suiteTomlPath arg) = suiteTomlPath (directoryPath dir) :=
        (absolutePath_inDirectory hdir.arg_ne_nil cwd _).trans (by rw [hdir.path_eq]; rfl)
      have hregistryPath : absolutePath cwd (registryIniPath arg) =
          registryIniPath (directoryPath dir) :=
        (absolutePath_inDirectory hdir.arg_ne_nil cwd _).trans (by rw [hdir.path_eq]; rfl)
      have hmade : Holds codec cwd (suiteFiles (directoryPath dir) fs)
          (state.setSuite dir ((state.suites dir).getD {})) := by
        refine h.setSuite hdir.isPlain ?_ ?_ (h.suites dir hdir.isPlain).suiteFiles
        · exact suiteFiles_of_ne (markerPath_ne_suiteTomlPath cwd _)
            (markerPath_ne_registryIniPath cwd _) fs
        · intro other hother hne
          have hother : ∀ name, inDirectory (directoryPath other) name ≠
              inDirectory (directoryPath dir) name := fun name heq =>
            hne ((inDirectory_eq_iff hother hdir.isPlain).mp heq)
          exact ⟨suiteFiles_of_ne (registryIniPath_ne_suiteTomlPath _ _) (hother _) fs,
            suiteFiles_of_ne (hother _) (registryIniPath_ne_suiteTomlPath _ _).symm fs⟩
      have hadopted := hmade.adopt hdir.isPlain
      have hactive : ({ state.setSuite dir ((state.suites dir).getD {}) with
          current := some dir } : DriverState).active =
            some (dir, (state.suites dir).getD {}) :=
        DriverState.active_eq_some_iff.mpr ⟨rfl, DriverState.suites_setSuite_self _ _ _⟩
      have hregenerates := (hadopted.isHeldBy hactive).2.readsBack.regenerates
      have hcommand : Hades.Runtime.cmdInitSuite codec cwd (arg :: rest) fs =
          ((suiteFiles (directoryPath dir) fs).write (markerPath cwd)
            (directoryPath dir ++ ['\n']), 0) := by
        rw [Hades.Runtime.cmdInitSuite, hsuitePath, hregistryPath, adoptSuite,
          if_neg hdir.arg_ne_nil, hdir.path_eq]
        dsimp only
        rw [← suiteFiles, hregenerates]
      rw [hcommand, DriverState.initSuite, hdir.denotedDirectory_eq]
      exact ⟨hadopted, rfl⟩

/-- **Choosing a suite.** -/
theorem Holds.cmdFindSuite (h : Holds codec cwd fs state) {args : List Text}
    (hargs : ∀ arg ∈ args.head?, ∃ dir, Names cwd arg dir) :
    Holds codec cwd (Hades.Runtime.cmdFindSuite cwd args fs).1 (state.findSuite cwd args).1 ∧
      (Hades.Runtime.cmdFindSuite cwd args fs).2 = (state.findSuite cwd args).2 := by
  cases args with
  | nil => exact ⟨h, rfl⟩
  | cons arg rest =>
      obtain ⟨dir, hdir⟩ := hargs arg rfl
      have hnone := (h.suites dir hdir.isPlain).suiteToml_eq_none_iff
      rw [Hades.Runtime.cmdFindSuite, DriverState.findSuite, typedSuiteToml_eq hdir,
        hdir.denotedDirectory_eq]
      by_cases hsuite : (state.suites dir).isNone = true
      · rw [if_pos (hnone.mpr hsuite), if_pos hsuite]
        exact ⟨h, rfl⟩
      · rw [if_neg (mt hnone.mp hsuite), if_neg hsuite, adoptSuite, if_neg hdir.arg_ne_nil,
          hdir.path_eq]
        exact ⟨h.adopt hdir.isPlain, rfl⟩

/-- What a removal that succeeds leaves of a file. -/
theorem removeAll_apply {removal : Removal} (h : removal.fails = false) (root path : Text) :
    fs.removeAll removal root path = if IsBelow root path then none else fs path := by
  simp [FileSystem.removeAll, h]

/-- The names of a suite's files. -/
theorem isName_suiteFiles : LexicalPath.IsName '/' '.' "suite.toml".toList ∧
    LexicalPath.IsName '/' '.' "registry.ini".toList :=
  ⟨⟨by decide, by decide, by decide, by decide⟩, by decide, by decide, by decide, by decide⟩

/-- **The suites behind a removal**: those in the directory are gone. -/
theorem HoldsSuite.removeAll {removal : Removal} (hremoval : removal.fails = false)
    {root dir : Directory} (hroot : IsPlainDirectory root) (hdir : IsPlainDirectory dir)
    {suite : Option SuiteLog} (h : HoldsSuite codec fs dir suite) :
    HoldsSuite codec (fs.removeAll removal (directoryPath root)) dir
      (if root <+: dir then none else suite) := by
  have hregistry := isBelow_inDirectory_iff isName_suiteFiles.2 hroot hdir
  have hsuite := isBelow_inDirectory_iff isName_suiteFiles.1 hroot hdir
  by_cases hbelow : root <+: dir
  · rw [if_pos hbelow]
    exact ⟨(removeAll_apply hremoval _ _).trans (if_pos (hregistry.mpr hbelow)),
      (removeAll_apply hremoval _ _).trans (if_pos (hsuite.mpr hbelow))⟩
  · rw [if_neg hbelow]
    exact h.congr ((removeAll_apply hremoval _ _).trans (if_neg (mt hregistry.mp hbelow)))
      ((removeAll_apply hremoval _ _).trans (if_neg (mt hsuite.mp hbelow)))

/-- **The marker behind a removal** is gone if it named the directory. -/
theorem clearSuiteIfCurrent_removeAll (h : Holds codec cwd fs state) {removal : Removal}
    (hremoval : removal.fails = false) {arg : Text} {dir : Directory} (hdir : Names cwd arg dir)
    (hcwd : ¬ dir <+: denotedDirectory cwd) :
    GenericFormat.verbatim.clearSuiteIfCurrent cwd arg
        (fs.removeAll removal (directoryPath dir)) =
      if state.current = some dir then
        (fs.removeAll removal (directoryPath dir)).remove (markerPath cwd)
      else fs.removeAll removal (directoryPath dir) := by
  obtain ⟨removed, hremoved⟩ : ∃ removed, fs.removeAll removal (directoryPath dir) = removed :=
    ⟨_, rfl⟩
  have hmarker : removed (markerPath cwd) = fs (markerPath cwd) := by
    rw [← hremoved, removeAll_apply hremoval,
      if_neg (mt (isBelow_markerPath_iff cwd hdir.isPlain).mp hcwd)]
  rw [hremoved, GenericFormat.clearSuiteIfCurrent, if_neg hdir.arg_ne_nil, hdir.path_eq, hmarker,
    h.marker]
  cases hcurrent : state.current with
  | none => rfl
  | some current =>
      have hplain := h.isPlain_current current hcurrent
      rw [Option.map_some]
      dsimp only
      rw [hplain.popLineEnds_marker]
      have hsame : directoryPath current =
          GenericFormat.verbatim.genericString (directoryPath dir) ↔ some current = some dir := by
        rw [Option.some_inj]
        constructor
        · intro heq
          have hpath : directoryPath current = directoryPath dir := heq
          rw [← hplain.denotedDirectory_path, hpath, hdir.isPlain.denotedDirectory_path]
        · rintro rfl
          rfl
      exact if_congr hsame rfl rfl

/-- **Deleting a suite.** -/
theorem Holds.cmdRemoveSuite (h : Holds codec cwd fs state) {removal : Removal} {arg : Text}
    {dir : Directory} (hdir : Names cwd arg dir) (hcwd : ¬ dir <+: denotedDirectory cwd)
    (hremoval : removal.fails = false) (rest : List Text) :
    let args := arg :: rest
    Holds codec cwd (Hades.Runtime.cmdRemoveSuite cwd removal args fs).1
        (state.removeSuite cwd args).1 ∧
      (Hades.Runtime.cmdRemoveSuite cwd removal args fs).2 = (state.removeSuite cwd args).2 := by
  intro args
  have hnone := (h.suites dir hdir.isPlain).suiteToml_eq_none_iff
  rw [Hades.Runtime.cmdRemoveSuite, DriverState.removeSuite, typedSuiteToml_eq hdir,
    hdir.denotedDirectory_eq]
  by_cases hsuite : (state.suites dir).isNone = true
  · rw [if_pos (hnone.mpr hsuite), if_pos hsuite]
    exact ⟨h, rfl⟩
  rw [if_neg (mt hnone.mp hsuite), if_neg hsuite, hdir.path_eq, hremoval,
    if_neg Bool.false_ne_true, clearSuiteIfCurrent_removeAll h hremoval hdir hcwd]
  refine ⟨?_, rfl⟩
  have hsuites : ∀ other, IsPlainDirectory other →
      HoldsSuite codec (fs.removeAll removal (directoryPath dir)) other
        (if dir <+: other then none else state.suites other) := fun other hother =>
    (h.suites other hother).removeAll hremoval hdir.isPlain hother
  by_cases hcleared : state.current = some dir
  · rw [if_pos hcleared, if_pos hcleared]
    have hnone : ∀ other ∈ (none : Option Directory), IsPlainDirectory other := by simp
    refine ⟨Function.update_self _ _ _, hnone,
      fun other hother => (hsuites other hother).congr ?_ ?_⟩
    · exact Function.update_of_ne (markerPath_ne_registryIniPath cwd _).symm _ _
    · exact Function.update_of_ne (markerPath_ne_suiteTomlPath cwd _).symm _ _
  · rw [if_neg hcleared, if_neg hcleared]
    refine ⟨?_, h.isPlain_current, hsuites⟩
    have hbelow := mt (isBelow_markerPath_iff cwd hdir.isPlain).mp hcwd
    exact (removeAll_apply hremoval _ _).trans ((if_neg hbelow).trans h.marker)

/-! ### Telling a suite of a test -/

/-- Writes leave the other paths alone. -/
theorem writeAll_of_notMem {writes : List FileWrite} {path : Text}
    (h : ∀ write ∈ writes, write.1 ≠ path) (fs : FileSystem) :
    fs.writeAll writes path = fs path := by
  induction writes generalizing fs with
  | nil => rfl
  | cons write writes ih =>
      refine (ih (fun other hother => h other (List.mem_cons_of_mem _ hother)) _).trans ?_
      exact FileSystem.write_of_ne fs (h write List.mem_cons_self).symm _

/-- The paths that a plan writes. -/
theorem NewTestPlan.path_of_mem_writes {plan : NewTestPlan} {fates : NewTestFates}
    {write : FileWrite} (h : write ∈ (plan.writes codec fates fs).1) :
    write.1 = stubPath plan.dir plan.testId plan.fixtureName ∨
      write.1 = suiteTomlPath plan.dir ∨ write.1 = registryIniPath plan.dir := by
  rcases mem_writes h with ⟨-, hstub, -⟩ | ⟨-, -, n, rfl⟩ | ⟨-, -, hregistry⟩
  · exact .inl hstub
  · exact .inr (.inl rfl)
  · exact .inr (.inr hregistry)

/-- **What a plan leaves alone**: the marker, and the files of all other suites. -/
theorem NewTestPlan.writeAll_writes_frame (codec : DoubleCodec) (cwd : Text) (fs : FileSystem)
    {plan : NewTestPlan} {dir : Directory} (hplan : plan.dir = directoryPath dir)
    (hdir : IsPlainDirectory dir) (fates : NewTestFates) :
    let fs' := fs.writeAll (plan.writes codec fates fs).1
    fs' (markerPath cwd) = fs (markerPath cwd) ∧
      ∀ other, IsPlainDirectory other → other ≠ dir →
        fs' (registryIniPath (directoryPath other)) = fs (registryIniPath (directoryPath other)) ∧
          fs' (suiteTomlPath (directoryPath other)) =
            fs (suiteTomlPath (directoryPath other)) := by
  intro fs'
  have hframe : ∀ path, stubPath plan.dir plan.testId plan.fixtureName ≠ path →
      suiteTomlPath plan.dir ≠ path → registryIniPath plan.dir ≠ path → fs' path = fs path := by
    intro path hstub hsuite hregistry
    refine writeAll_of_notMem (fun write hwrite => ?_) fs
    rcases path_of_mem_writes hwrite with heq | heq | heq
    · rwa [heq]
    · rwa [heq]
    · rwa [heq]
  refine ⟨hframe _ (markerPath_ne_stubPath cwd _ _ _).symm
    (markerPath_ne_suiteTomlPath cwd _).symm (markerPath_ne_registryIniPath cwd _).symm,
    fun other hother hne => ?_⟩
  have hfile : ∀ name, inDirectory plan.dir name ≠ inDirectory (directoryPath other) name := by
    intro name heq
    rw [hplan] at heq
    exact hne ((inDirectory_eq_iff hdir hother).mp heq).symm
  exact ⟨hframe _ (registryIniPath_ne_stubPath _ _ _ _).symm
      (registryIniPath_ne_suiteTomlPath _ _).symm (hfile _),
    hframe _ (suiteTomlPath_ne_stubPath _ _ _ _).symm (hfile _)
      (registryIniPath_ne_suiteTomlPath _ _)⟩

/-- **The checks of a new test** look at what the current suite was told. -/
theorem Holds.newTestPlan_eq (h : Holds codec cwd fs state) {dir : Directory} {log : SuiteLog}
    (hactive : state.active = some (dir, log)) (fixtureName testId : Text) (rest : List Text) :
    newTestPlan cwd (fixtureName :: testId :: rest) fs =
      match chooseFixture log.fixtures (rest.foldl NewTestFlags.parse {}) fixtureName with
      | .error _ => .error 2
      | .ok (fixture, isNew) =>
        .ok { dir := directoryPath dir, fixtureName, testId, fixture, isNew,
              kind := (rest.foldl NewTestFlags.parse {}).kind } := by
  have hfixtures := (h.isHeldBy hactive).2.readsBack.fixtures
  rw [newTestPlan, h.loadCurrentSuite_eq, hactive, Option.map_some]
  dsimp only
  rw [hfixtures]
  rfl

/-- A fixture is chosen if it is known, or acceptable. -/
theorem exists_chooseFixture_iff (log : SuiteLog) (flags : NewTestFlags) (fixtureName : Text) :
    (∃ chosen, chooseFixture log.fixtures flags fixtureName = .ok chosen) ↔
      ¬ (log.knows fixtureName = false ∧ checkNewFixture (flags.fixture fixtureName) ≠ none) := by
  rw [chooseFixture, SuiteLog.knows, List.any_eq_false]
  split
  · next fixture hfound =>
    have hname := List.find?_some hfound
    exact iff_of_true ⟨_, rfl⟩ fun hbad =>
      hbad.1 fixture (List.mem_of_find?_eq_some hfound) hname
  · next hmissing =>
    rw [List.find?_eq_none] at hmissing
    rw [not_and, not_not]
    split
    · next message hcheck =>
      refine iff_of_false (by rintro ⟨chosen, hchosen⟩; cases hchosen) fun hall => ?_
      rw [hall hmissing] at hcheck
      cases hcheck
    · next hcheck => exact iff_of_true ⟨_, rfl⟩ fun _ => hcheck

/-- A call that changes no file of a suite, and not the marker. -/
theorem Holds.congr (h : Holds codec cwd fs state)
    (hmarker : fs' (markerPath cwd) = fs (markerPath cwd))
    (hregistry : ∀ dir, fs' (registryIniPath dir) = fs (registryIniPath dir))
    (hsuite : ∀ dir, fs' (suiteTomlPath dir) = fs (suiteTomlPath dir)) :
    Holds codec cwd fs' state where
  marker := hmarker.trans h.marker
  isPlain_current := h.isPlain_current
  suites := fun dir hdir => (h.suites dir hdir).congr (hregistry _) (hsuite _)

/-- **The writes of a new test**: up to the manifest, no suite has changed. Behind it, the
current suite is told of the test. -/
theorem Holds.writeAll_writes (h : Holds codec cwd fs state) {dir : Directory} {log : SuiteLog}
    (hactive : state.active = some (dir, log)) {fates : NewTestFates} {args : List Text}
    {plan : NewTestPlan} (hplan : newTestPlan cwd args fs = .ok plan)
    (hdirectory : plan.dir = directoryPath dir)
    (hplain : ∀ fixture ∈ (log.record args).fixtures, fixture.IsPlain)
    (htorn : ∀ length, fates.appendSuite ≠ .torn length)
    (hregistry : fates.appendRegistry = .written) :
    let result := if fates.stub ≠ .written ∨ fates.appendSuite ≠ .written then (state, 1)
      else (state.setSuite dir (log.record args), 0)
    Holds codec cwd (fs.writeAll (plan.writes codec fates fs).1) result.1 ∧
      (plan.writes codec fates fs).2 = result.2 := by
  intro result
  obtain ⟨hdir, hheld⟩ := h.isHeldBy hactive
  have hcommand := cmdNewTest_eq codec cwd fates args fs
  have hvalue := @NewTestPlan.writes_value codec fates plan fs
  obtain ⟨hmarker, hothers⟩ :=
    NewTestPlan.writeAll_writes_frame codec cwd fs hdirectory hdir fates
  rw [newTestWrites, hplan] at hcommand
  dsimp only at hcommand
  by_cases hearly : fates.stub ≠ .written ∨ fates.appendSuite ≠ .written
  · have hresult : result = (state, 1) := if_pos hearly
    have hsuite : fates.stub = .written → fates.appendSuite = .refused := by
      intro hstub
      cases happend : fates.appendSuite with
      | refused => rfl
      | torn length => exact absurd happend (htorn length)
      | written =>
          rcases hearly with hne | hne
          · exact absurd hstub hne
          · exact absurd happend hne
    have hpath : ∀ w ∈ (plan.writes codec fates fs).1,
        w.1 = stubPath plan.dir plan.testId plan.fixtureName := by
      intro w hw
      rcases NewTestPlan.mem_writes hw with ⟨-, hpath, -⟩ | ⟨hstub, hopens, -⟩ | ⟨hstub, hwhole, -⟩
      · exact hpath
      · exact absurd (hsuite hstub) hopens
      · rw [hsuite hstub] at hwhole
        cases hwhole
    have hsame : ∀ path, stubPath plan.dir plan.testId plan.fixtureName ≠ path →
        fs.writeAll (plan.writes codec fates fs).1 path = fs path := fun path hne =>
      writeAll_of_notMem (fun w hw => hpath w hw ▸ hne) fs
    rw [if_neg fun hall => hearly.elim (· hall.1) (· hall.2.1)] at hvalue
    rw [hresult]
    exact ⟨h.congr (hsame _ (markerPath_ne_stubPath cwd _ _ _).symm)
      (fun _ => hsame _ (registryIniPath_ne_stubPath _ _ _ _).symm)
      fun _ => hsame _ (suiteTomlPath_ne_stubPath _ _ _ _).symm, hvalue⟩
  · have hresult : result = (state.setSuite dir (log.record args), 0) := if_neg hearly
    rw [not_or, not_not, not_not] at hearly
    rw [if_pos ⟨hearly.1, hearly.2, fun _ => hregistry⟩] at hvalue
    rw [hvalue] at hcommand
    have hstored := hheld.cmdNewTest hdir.popLineEnds_eq hcommand hplain
    rw [hresult]
    exact ⟨h.setSuite hdir hmarker hothers ⟨hstored.registry, hstored.suite, hstored.resolved⟩,
      hvalue⟩

/-- **A new test.** -/
theorem Holds.cmdNewTest (h : Holds codec cwd fs state) {fates : NewTestFates}
    {fixtureName : Text} (testId : Text) {rest : List Text}
    (hplain : ((rest.foldl NewTestFlags.parse {}).fixture fixtureName).IsPlain)
    (htorn : ∀ length, fates.appendSuite ≠ .torn length)
    (hregistry : fates.appendRegistry = .written) :
    let args := fixtureName :: testId :: rest
    Holds codec cwd (Hades.Runtime.cmdNewTest codec cwd fates args fs).1
        (state.newTest fates args).1 ∧
      (Hades.Runtime.cmdNewTest codec cwd fates args fs).2 = (state.newTest fates args).2 := by
  intro args
  rw [cmdNewTest_eq, newTestWrites, DriverState.newTest]
  cases hactive : state.active with
  | none =>
      have hplan : newTestPlan cwd args fs = .error 1 := by
        rw [newTestPlan, h.loadCurrentSuite_eq, hactive]
        rfl
      rw [hplan]
      exact ⟨h, rfl⟩
  | some active =>
      obtain ⟨dir, log⟩ := active
      have hplan := h.newTestPlan_eq hactive fixtureName testId rest
      have hchoose := exists_chooseFixture_iff log (rest.foldl NewTestFlags.parse {}) fixtureName
      dsimp only
      by_cases hbad : log.knows fixtureName = false ∧
          checkNewFixture ((rest.foldl NewTestFlags.parse {}).fixture fixtureName) ≠ none
      · rw [if_pos hbad]
        cases hchosen : chooseFixture log.fixtures (rest.foldl NewTestFlags.parse {})
            fixtureName with
        | ok chosen => exact absurd hbad (hchoose.mp ⟨chosen, hchosen⟩)
        | error message =>
            rw [hchosen] at hplan
            rw [hplan]
            exact ⟨h, rfl⟩
      · rw [if_neg hbad]
        obtain ⟨⟨fixture, isNew⟩, hchosen⟩ := hchoose.mpr hbad
        rw [hchosen] at hplan
        dsimp only at hplan
        rw [hplan]
        refine h.writeAll_writes hactive hplan rfl (fun other hother => ?_) htorn hregistry
        -- the fixtures that were registered before have been read
        have hfixtures := (h.isHeldBy hactive).2.readsBack.fixtures
        rcases List.mem_append.mp hother with hother | hother
        · exact (isClean_of_mem_readRegistryIni (by rwa [hfixtures])).2
        · split at hother
          · cases hother
          · rwa [List.mem_singleton.mp hother]

end Hades.Runtime
