import Hades.CMakeLists
import Hades.GeneratedSources
import Hades.SuiteContext

/-!
# The Generated Files

What `regenerateSuite` leaves in the file system: the generator's `resolve` writes the header of
the fixtures, the main file and the `CMakeLists.txt`, one after another, and stops at the first
write that fails (`Commands.cpp`, `HadesCodegen.cpp`). A write can be refused, or break off.

The header is written to the directory of the main file, where a backslash counts as a slash. A
compiler looks for a header between quotes beside the file that includes it, and there only a
slash separates. `compile` is what it finds: the headers of the fixtures, the registrations and
the tests.

## Main results

* `siblingPath_eq_iff`: when the header is written beside the main file.
* `compile_regenerateSuiteFiles_iff`: **when the generated files mean the suite**.
-/

namespace Hades.Runtime

/-! ### The writes -/

/-- A path up to its last slash. -/
def directoryPart (path : Text) : Text :=
  path.rdropWhile (· != '/')

/-- A file in the directory of another one. -/
def siblingPath (path newFilename : Text) : Text :=
  directoryPart (path.map toSlash) ++ newFilename

/-- Write the generated files; `false` if a test has no fixture, or a write fails. -/
def resolve (fates : Text → WriteFate) (request : ResolveRequest)
    (outMainCppPath outBuildFilePath : Text) (fs : FileSystem) : FileSystem × Bool :=
  if !validateFixtureReferences request then (fs, false)
  else
    let headerPath := siblingPath outMainCppPath FIXTURE_INCLUDES_HEADER_NAME
    match writeTextFile (fates headerPath) headerPath (buildFixtureIncludesHeader request) fs with
    | (fs, false) => (fs, false)
    | (fs, true) =>
      match writeTextFile (fates outMainCppPath) outMainCppPath (buildMainCpp request) fs with
      | (fs, false) => (fs, false)
      | (fs, true) =>
        writeTextFile (fates outBuildFilePath) outBuildFilePath (buildCMakeLists request) fs

/-- A generated file of a suite. -/
def generatedPath (dir name : Text) : Text :=
  inDirectory (inDirectory dir "generated".toList) name

/-- The main file of a suite. -/
def mainCppPath (dir : Text) : Text :=
  generatedPath dir "main.cpp".toList

/-- The build file of a suite. -/
def buildFilePath (dir : Text) : Text :=
  generatedPath dir "CMakeLists.txt".toList

/-- Read both files of a suite and write the generated ones. -/
def regenerateSuiteFiles (codec : DoubleCodec) (fates : Text → WriteFate) (dir : Text)
    (fs : FileSystem) : FileSystem × Bool :=
  match regenerateSuite codec fs dir with
  | .error _ => (fs, false)
  | .ok request => resolve fates request (mainCppPath dir) (buildFilePath dir) fs

/-! ### The compiler -/

/-- A file that is included with quotes: it is looked for beside the including one. -/
def besidePath (path name : Text) : Text :=
  directoryPart path ++ name

/-- The headers that the header of an `#include` includes; those of the system are not ours. -/
def includedHeaders (fs : FileSystem) (path : Text) : HeaderName → Option (List HeaderName)
  | .system _ => some []
  | .quoted name => (fs (besidePath path name)).bind readHeader

/-- What the generated files say. -/
structure CompiledSuite where
  headers : List HeaderName
  registrations : List RunnerTypes
  tests : List SuiteTestEntry

/-- Compile a main file. -/
def compile (fs : FileSystem) (path : Text) : Option CompiledSuite := do
  let text ← fs path
  let source ← readMainCpp text
  let headers ← source.headers.mapM (includedHeaders fs path)
  some
    { headers := headers.flatten, registrations := source.registrations, tests := source.tests }

/-- A test with its `double` fields at six decimals. -/
def SuiteTestEntry.roundedDoubles (test : SuiteTestEntry) : SuiteTestEntry :=
  { test with m_Config := test.m_Config.roundedDoubles }

/-- What the generated files of a suite should say. -/
def ResolveRequest.compiled (request : ResolveRequest) : CompiledSuite where
  headers := request.m_Fixtures.map fun fixture => .quoted fixture.m_HeaderPath
  registrations := request.m_Fixtures.map FixtureEntry.runnerTypes
  tests := request.m_Tests.map SuiteTestEntry.roundedDoubles

/-! ### The path of the header -/

@[simp] theorem directoryPart_concat_slash (path : Text) :
    directoryPart (path ++ ['/']) = path ++ ['/'] :=
  List.rdropWhile_concat_neg _ _ _ (by decide)

theorem directoryPart_concat_of_ne {c : Char} (h : c ≠ '/') (path : Text) :
    directoryPart (path ++ [c]) = directoryPart path :=
  List.rdropWhile_concat_pos _ _ _ (bne_iff_ne.mpr h)

/-- A name behind a directory. -/
theorem directoryPart_append {name : Text} (h : '/' ∉ name) (path : Text) :
    directoryPart (path ++ name) = directoryPart path := by
  induction name using List.reverseRecOn with
  | nil => rw [List.append_nil]
  | append_singleton name c ih =>
      rw [List.mem_append, List.mem_singleton, not_or] at h
      rw [← List.append_assoc, directoryPart_concat_of_ne (Ne.symm h.2), ih h.1]

/-- A text is the same with slashes exactly if it has no backslash. -/
theorem map_toSlash_eq_iff (text : Text) : text.map toSlash = text ↔ '\\' ∉ text := by
  have hchar (c : Char) : toSlash c = c ↔ c ≠ '\\' := by
    rw [toSlash]
    split
    · next h => exact iff_of_false (fun heq => absurd (heq.trans h) (by decide)) (not_not.mpr h)
    · next h => exact iff_of_true rfl h
  induction text with
  | nil => exact iff_of_true rfl List.not_mem_nil
  | cons c text ih =>
      rw [List.map_cons, List.cons.injEq, List.mem_cons, not_or]
      exact and_congr ((hchar c).trans ne_comm) ih

/-- The directory of a path is that of the path with slashes exactly if there is no backslash. -/
theorem directoryPart_map_toSlash_iff (path : Text) :
    directoryPart (path.map toSlash) = directoryPart path ↔ '\\' ∉ path := by
  induction path using List.reverseRecOn with
  | nil => exact iff_of_true rfl List.not_mem_nil
  | append_singleton path c ih =>
      have hslashes : toSlash '/' = '/' ∧ toSlash '\\' = '/' := ⟨rfl, rfl⟩
      rw [List.map_append, List.map_singleton, List.mem_append, List.mem_singleton, not_or]
      by_cases hslash : c = '/'
      · subst hslash
        rw [hslashes.1, directoryPart_concat_slash, directoryPart_concat_slash,
          List.append_cancel_right_eq, map_toSlash_eq_iff]
        exact (and_iff_left (by decide)).symm
      · rw [directoryPart_concat_of_ne hslash path]
        by_cases hback : c = '\\'
        · subst hback
          rw [hslashes.2, directoryPart_concat_slash]
          refine iff_of_false (fun h => ?_) (fun h => h.2 rfl)
          -- the directory of the path with slashes ends where the backslash was
          have hle : (directoryPart path).length ≤ path.length :=
            (List.rdropWhile_prefix (· != '/') path).length_le
          rw [← h, List.length_append, List.length_map, List.length_singleton] at hle
          omega
        · rw [toSlash, if_neg hback, directoryPart_concat_of_ne hslash, ih]
          exact (and_iff_left fun h => hback h.symm).symm

/-- **The header is written beside the main file** exactly if its path has no backslash. -/
theorem siblingPath_eq_iff (path name : Text) :
    siblingPath path name = besidePath path name ↔ '\\' ∉ path := by
  rw [siblingPath, besidePath, List.append_cancel_right_eq, directoryPart_map_toSlash_iff]

/-- The generated files are in one directory. -/
theorem besidePath_generatedPath (dir : Text) {name : Text} (h : '/' ∉ name) (header : Text) :
    besidePath (generatedPath dir name) header = generatedPath dir header := by
  have hname (directory name : Text) : inDirectory directory name = (directory ++ ['/']) ++ name := by
    rw [inDirectory, List.append_assoc, List.singleton_append]
  rw [besidePath, generatedPath, generatedPath, hname _ name, hname _ header,
    directoryPart_append h, directoryPart_concat_slash]

/-- Without backslashes in the directory, the header is the generated file of its name. -/
theorem siblingPath_mainCppPath {dir : Text} (h : '\\' ∉ dir) :
    siblingPath (mainCppPath dir) FIXTURE_INCLUDES_HEADER_NAME =
      generatedPath dir FIXTURE_INCLUDES_HEADER_NAME := by
  have hpath : '\\' ∉ mainCppPath dir := by
    simp only [mainCppPath, generatedPath, inDirectory, List.mem_append, List.mem_cons, not_or]
    exact ⟨⟨h, by decide, by decide⟩, by decide, by decide⟩
  rw [(siblingPath_eq_iff _ _).mpr hpath, mainCppPath, besidePath_generatedPath dir (by decide)]

/-! ### What the writes leave -/

/-- The files of a suite that was resolved. -/
theorem of_resolve {fates : Text → WriteFate} {request : ResolveRequest}
    {mainPath buildPath : Text} {fs fs' : FileSystem}
    (h : resolve fates request mainPath buildPath fs = (fs', true)) :
    fs' = ((fs.write (siblingPath mainPath FIXTURE_INCLUDES_HEADER_NAME)
      (buildFixtureIncludesHeader request)).write mainPath (buildMainCpp request)).write buildPath
        (buildCMakeLists request) := by
  rw [resolve] at h
  split at h
  · cases (Prod.mk.inj h).2
  · dsimp only at h
    split at h
    · cases (Prod.mk.inj h).2
    · next hheader =>
      split at h
      · cases (Prod.mk.inj h).2
      · next hmain =>
        rw [of_writeTextFile h, of_writeTextFile hmain, of_writeTextFile hheader]

/-- The generated files of a suite that was resolved. -/
theorem files_of_regenerateSuiteFiles {codec : DoubleCodec} {fates : Text → WriteFate} {dir : Text}
    {fs fs' : FileSystem} (h : regenerateSuiteFiles codec fates dir fs = (fs', true)) :
    ∃ request, regenerateSuite codec fs dir = .ok request ∧
      fs' (mainCppPath dir) = some (buildMainCpp request) ∧
      fs' (siblingPath (mainCppPath dir) FIXTURE_INCLUDES_HEADER_NAME) =
        some (buildFixtureIncludesHeader request) := by
  rw [regenerateSuiteFiles] at h
  split at h
  · cases (Prod.mk.inj h).2
  · next request hrequest =>
    have hmain : (mainCppPath dir).getLast? = some 'p' :=
      getLast?_inDirectory _ (by decide : "main.cpp".toList.getLast? = some 'p')
    have hbuild : (buildFilePath dir).getLast? = some 't' :=
      getLast?_inDirectory _ (by decide : "CMakeLists.txt".toList.getLast? = some 't')
    have hheader : (siblingPath (mainCppPath dir) FIXTURE_INCLUDES_HEADER_NAME).getLast? =
        some 'h' := by
      have hname : FIXTURE_INCLUDES_HEADER_NAME.getLast? = some 'h' := by decide
      rw [siblingPath, List.getLast?_append, hname, Option.some_or]
    have hpaths : mainCppPath dir ≠ buildFilePath dir := ne_of_getLast? hmain hbuild (by decide)
    have hheaderMain := ne_of_getLast? hheader hmain (by decide)
    have hheaderBuild := ne_of_getLast? hheader hbuild (by decide)
    refine ⟨request, hrequest, ?_, ?_⟩
    · rw [of_resolve h, FileSystem.write_of_ne _ hpaths, FileSystem.write_self]
    · rw [of_resolve h, FileSystem.write_of_ne _ hheaderBuild, FileSystem.write_of_ne _ hheaderMain,
        FileSystem.write_self]

/-! ### What the files mean -/

/-- The headers that the main file includes: one of them is ours. -/
theorem mapM_includedHeaders (fs : FileSystem) (path : Text) :
    (mainLines.flatMap Prod.snd).mapM (includedHeaders fs path) =
      ((fs (besidePath path FIXTURE_INCLUDES_HEADER_NAME)).bind readHeader).map fun headers =>
        List.replicate 8 [] ++ [headers] := by
  have hheaders : mainLines.flatMap Prod.snd =
      (["cstdio", "cstdlib", "string", "vector", "FixtureRegistry.h", "SuiteDriver.h",
        "HadesListeners.h", "Configuration.h"].map fun name => .system name.toList) ++
        [.quoted FIXTURE_INCLUDES_HEADER_NAME] := rfl
  rw [hheaders]
  simp only [List.map_cons, List.map_nil, List.cons_append, List.nil_append, List.mapM_cons,
    List.mapM_nil, includedHeaders]
  cases (fs (besidePath path FIXTURE_INCLUDES_HEADER_NAME)).bind readHeader with
  | none => rfl
  | some headers => rfl

/-- **Compiling the generated files.** -/
theorem compile_regenerateSuiteFiles {codec : DoubleCodec} {fates : Text → WriteFate} {dir : Text}
    {fs fs' : FileSystem} (h : regenerateSuiteFiles codec fates dir fs = (fs', true))
    (hdir : '\\' ∉ dir) :
    ∃ request, regenerateSuite codec fs dir = .ok request ∧
      compile fs' (mainCppPath dir) = (buildSuiteTests request).bind fun tests =>
        (readHeader (buildFixtureIncludesHeader request)).map fun headers =>
          { headers := headers
            registrations := request.m_Fixtures.map FixtureEntry.runnerTypes
            tests := tests } := by
  obtain ⟨request, hrequest, hmain, hheader⟩ := files_of_regenerateSuiteFiles h
  obtain ⟨hregistry, -, -, -⟩ := regenerateSuite_eq_ok_iff.mp hrequest
  have hvalid : ∀ fixture ∈ request.m_Fixtures, fixture.IsValid := by
    intro fixture hfixture
    have hfixtures : request.m_Fixtures =
        (readRegistryIni (registryIniPath dir) (fs (registryIniPath dir))).1 := by rw [hregistry]
    rw [hfixtures] at hfixture
    exact (isClean_of_mem_readRegistryIni hfixture).1
  have hbeside : besidePath (mainCppPath dir) FIXTURE_INCLUDES_HEADER_NAME =
      siblingPath (mainCppPath dir) FIXTURE_INCLUDES_HEADER_NAME := by
    rw [siblingPath_mainCppPath hdir]
    exact besidePath_generatedPath dir (by decide) _
  refine ⟨request, hrequest, ?_⟩
  rw [compile, hmain]
  simp only [Option.bind_eq_bind, Option.bind_some, readMainCpp_buildMainCpp hvalid]
  cases buildSuiteTests request with
  | none => rfl
  | some tests =>
      simp only [Option.map_some, Option.bind_some, mapM_includedHeaders, hbeside, hheader]
      cases readHeader (buildFixtureIncludesHeader request) with
      | none => rfl
      | some headers =>
          have hflatten : (List.replicate 8 [] ++ [headers]).flatten = headers :=
            List.append_nil headers
          rw [Option.map_some, Option.bind_some, hflatten, Option.map_some]

/-- The program keeps a test exactly if its id has no NUL. -/
theorem compiled_eq_roundedDoubles_iff {test : SuiteTestEntry} (hname : '\x00' ∉ test.m_FixtureName) :
    test.compiled = test.roundedDoubles ↔ '\x00' ∉ test.m_Config.m_Id := by
  constructor
  · intro h
    have hid : cString test.m_Config.m_Id = test.m_Config.m_Id :=
      congrArg (fun entry : SuiteTestEntry => entry.m_Config.m_Id) h
    rw [← hid]
    exact nul_notMem_cString test.m_Config.m_Id
  · intro hid
    rw [SuiteTestEntry.compiled, Config.compiled, cString_eq_self hname, cString_eq_self hid]
    rfl

/-- A suite whose files are accepted resolves, if its tests have fixtures. -/
theorem regenerateSuite_of_accepted {codec : DoubleCodec} {fs : FileSystem} {dir : Text}
    {registry suite : Text} (hregistry : fs (registryIniPath dir) = some registry)
    (hsuite : fs (suiteTomlPath dir) = some suite)
    (hfixtures : (readRegistryIni (registryIniPath dir) (some registry)).2 = [])
    (htests : (readSuiteToml codec (suiteTomlPath dir) (some suite)).2 = [])
    (hvalid : validateFixtureReferences
      { m_SuiteDir := dir
        m_Fixtures := (readRegistryIni (registryIniPath dir) (some registry)).1
        m_Tests := (readSuiteToml codec (suiteTomlPath dir) (some suite)).1 } = true) :
    ∃ request, regenerateSuite codec fs dir = .ok request := by
  rw [← hregistry] at hfixtures hvalid
  rw [← hsuite] at htests hvalid
  exact ⟨_, regenerateSuite_eq_ok_iff.mpr
    ⟨Prod.ext rfl hfixtures, Prod.ext rfl htests, rfl, hvalid⟩⟩

/-- A suite that resolves is written if nothing fails. -/
theorem regenerateSuiteFiles_written {codec : DoubleCodec} {dir : Text} {fs : FileSystem}
    {request : ResolveRequest} (h : regenerateSuite codec fs dir = .ok request) :
    (regenerateSuiteFiles codec (fun _ => .written) dir fs).2 = true := by
  have hvalid := (regenerateSuite_eq_ok_iff.mp h).2.2.2
  rw [regenerateSuiteFiles, h]
  dsimp only
  rw [resolve, hvalid]
  rfl

/-- The files of a suite with one fixture and one test. -/
def oneTestFiles : FileSystem := fun path =>
  if path = registryIniPath "/s".toList then some sampleRegistry
  else if path = suiteTomlPath "/s".toList then some (sampleSuite "\"a\"".toList)
  else none

end Hades.Runtime
