import Hades.Codegen
import Hades.SuiteToml

/-!
# The Current Suite

The files of a suite, the marker that names the suite of the working directory
(`SuiteContext.cpp`), and the step that every build starts with: both files are read, and
every test must name a registered fixture (`regenerateSuite` in `Commands.cpp`, `resolve` in
`HadesCodegen.cpp`).

A file system is the content of every path. `fs::path(dir) / name` and `dir + "/" + name` name
the same file, and the model has one spelling for both. The generated files are not part of
the model.
-/

namespace Hades.Runtime

/-- The content of every file that exists. -/
abbrev FileSystem := Text → Option Text

/-- Write a file. -/
def FileSystem.write (fs : FileSystem) (path content : Text) : FileSystem :=
  Function.update fs path (some content)

/-- Write a file that does not exist yet. -/
def FileSystem.writeIfMissing (fs : FileSystem) (path content : Text) : FileSystem :=
  if (fs path).isSome then fs else fs.write path content

/-- How the write of a file ends: it is complete, it breaks off, or the file does not open. -/
inductive WriteFate where
  | written
  | torn (length : ℕ)
  | refused
  deriving DecidableEq

/-- Write a file; `false` if that fails. -/
def writeTextFile (fate : WriteFate) (path content : Text) (fs : FileSystem) : FileSystem × Bool :=
  match fate with
  | .written => (fs.write path content, true)
  | .torn length => (fs.write path (content.take length), false)
  | .refused => (fs, false)

/-- The fate of an append, as that of the whole file: what breaks off leaves the old text. -/
def WriteFate.behind (old : Text) : WriteFate → WriteFate
  | .torn length => .torn (old.length + length)
  | fate => fate

/-- Append to a file what the writer puts there; `false` if that fails. -/
def appendFile (fate : WriteFate) (path : Text) (writer : Option Text → Option Text)
    (fs : FileSystem) : FileSystem × Bool :=
  match writer (fs path) with
  | none => (fs, false)
  | some content => writeTextFile (fate.behind ((fs path).getD [])) path content fs

/-- A file in a directory. -/
def inDirectory (dir name : Text) : Text :=
  dir ++ '/' :: name

/-- The manifest of a suite. -/
def suiteTomlPath (dir : Text) : Text :=
  inDirectory dir "suite.toml".toList

/-- The fixture registry of a suite. -/
def registryIniPath (dir : Text) : Text :=
  inDirectory dir "registry.ini".toList

/-- The file in the working directory that names its suite. -/
def SUITE_MARKER_FILE : Text :=
  ".hades-suite".toList

/-- `fs::absolute`: a relative path is put behind the working directory. -/
def absolutePath (cwd path : Text) : Text :=
  if path.head? = some '/' then path
  else if cwd.getLast? = some '/' then cwd ++ path
  else inDirectory cwd path

/-- The marker of a working directory. -/
def markerPath (cwd : Text) : Text :=
  absolutePath cwd SUITE_MARKER_FILE

/-- Make a suite the current one; the empty path has no absolute form. -/
def adoptSuite (cwd dir : Text) (fs : FileSystem) : Option FileSystem :=
  if dir = [] then none
  else some (fs.write (markerPath cwd) (absolutePath cwd dir ++ ['\n']))

/-- Remove the line ends at the end of a text. -/
def popLineEnds (text : Text) : Text :=
  text.rdropWhile fun c => c == '\n' || c == '\r'

/-- The directory of the current suite. -/
def loadCurrentSuite (cwd : Text) (fs : FileSystem) : Option Text :=
  (fs (markerPath cwd)).bind fun content =>
    let dir := popLineEnds content
    if dir = [] ∨ fs (suiteTomlPath dir) = none then none else some dir

/-- What `regenerateSuite` reports when the generator refuses a suite. -/
def resolveFailed : Text :=
  ("Codegen::resolve() failed - check every suite.toml [[test]] 'fixture' matches a " ++
    "registry.ini section").toList

/-- Read both files of a suite and resolve it; or the error. -/
def regenerateSuite (codec : DoubleCodec) (fs : FileSystem) (dir : Text) :
    Except Text ResolveRequest :=
  let (fixtures, regErrors) := readRegistryIni (registryIniPath dir) (fs (registryIniPath dir))
  match regErrors with
  | error :: _ => .error ("registry.ini: ".toList ++ error.m_Message)
  | [] =>
    let (tests, tomlErrors) := readSuiteToml codec (suiteTomlPath dir) (fs (suiteTomlPath dir))
    match tomlErrors with
    | error :: _ => .error ("suite.toml: ".toList ++ error.m_Message)
    | [] =>
      let request : ResolveRequest :=
        { m_SuiteDir := dir, m_Fixtures := fixtures, m_Tests := tests }
      if validateFixtureReferences request then .ok request else .error resolveFailed

/-! ### Different files -/

/-- A path ends with its last name. -/
theorem getLast?_inDirectory (dir : Text) {name : Text} {c : Char} (h : name.getLast? = some c) :
    (inDirectory dir name).getLast? = some c := by
  rw [inDirectory, List.getLast?_append, List.getLast?_cons, h]
  rfl

/-- An absolute path ends as the path does. -/
theorem getLast?_absolutePath (cwd : Text) {path : Text} {c : Char} (h : path.getLast? = some c) :
    (absolutePath cwd path).getLast? = some c := by
  rw [absolutePath]
  split
  · exact h
  split
  · rw [List.getLast?_append, h]
    rfl
  · exact getLast?_inDirectory cwd h

/-- Paths that end differently are different. -/
theorem ne_of_getLast? {path path' : Text} {c c' : Char} (h : path.getLast? = some c)
    (h' : path'.getLast? = some c') (hne : c ≠ c') : path ≠ path' := by
  rintro rfl
  exact hne (Option.some.inj (h.symm.trans h'))

/-- Files whose names end differently are different. -/
theorem inDirectory_ne {dir dir' name name' : Text} {c c' : Char} (h : name.getLast? = some c)
    (h' : name'.getLast? = some c') (hne : c ≠ c') :
    inDirectory dir name ≠ inDirectory dir' name' :=
  ne_of_getLast? (getLast?_inDirectory dir h) (getLast?_inDirectory dir' h') hne

/-- The last characters of the names. -/
theorem getLast?_names : "suite.toml".toList.getLast? = some 'l' ∧
    "registry.ini".toList.getLast? = some 'i' ∧ SUITE_MARKER_FILE.getLast? = some 'e' := by
  decide

theorem registryIniPath_ne_suiteTomlPath (dir dir' : Text) :
    registryIniPath dir ≠ suiteTomlPath dir' :=
  inDirectory_ne getLast?_names.2.1 getLast?_names.1 (by decide)

/-- The marker is not a file of a directory whose name ends differently. -/
theorem markerPath_ne_inDirectory {name : Text} {c : Char} (h : name.getLast? = some c)
    (hne : 'e' ≠ c) (cwd dir : Text) : markerPath cwd ≠ inDirectory dir name :=
  ne_of_getLast? (getLast?_absolutePath cwd getLast?_names.2.2) (getLast?_inDirectory dir h) hne

theorem markerPath_ne_suiteTomlPath (cwd dir : Text) : markerPath cwd ≠ suiteTomlPath dir :=
  markerPath_ne_inDirectory getLast?_names.1 (by decide) cwd dir

theorem markerPath_ne_registryIniPath (cwd dir : Text) :
    markerPath cwd ≠ registryIniPath dir :=
  markerPath_ne_inDirectory getLast?_names.2.1 (by decide) cwd dir

/-- The manifests of different directories are different files. -/
theorem suiteTomlPath_injective {dir dir' : Text} (h : suiteTomlPath dir = suiteTomlPath dir') :
    dir = dir' :=
  List.append_cancel_right h

/-- Writing a file leaves the others alone. -/
theorem FileSystem.write_of_ne (fs : FileSystem) {path path' : Text} (h : path' ≠ path)
    (content : Text) : fs.write path content path' = fs path' :=
  Function.update_of_ne h _ fs

theorem FileSystem.write_self (fs : FileSystem) (path content : Text) :
    fs.write path content path = some content :=
  Function.update_self path _ fs

/-- A write that succeeds is complete. -/
theorem of_writeTextFile {fate : WriteFate} {path content : Text} {fs fs' : FileSystem}
    (h : writeTextFile fate path content fs = (fs', true)) : fs' = fs.write path content := by
  cases fate with
  | written => exact (Prod.mk.inj h).1.symm
  | torn length => cases (Prod.mk.inj h).2
  | refused => cases (Prod.mk.inj h).2

/-- An append is a write of the old text and the new one. -/
theorem appendFile_eq {path content : Text} {writer : Option Text → Option Text} {fs : FileSystem}
    (hwriter : writer (fs path) = some content) (fate : WriteFate) :
    appendFile fate path writer fs =
      writeTextFile (fate.behind ((fs path).getD [])) path content fs := by
  rw [appendFile, hwriter]

/-! ### What the readers find -/

/-- The current suite is named by the marker, and has a manifest. -/
theorem loadCurrentSuite_eq_some_iff {cwd : Text} {fs : FileSystem} {dir : Text} :
    loadCurrentSuite cwd fs = some dir ↔
      (∃ content, fs (markerPath cwd) = some content ∧ popLineEnds content = dir) ∧
        dir ≠ [] ∧ fs (suiteTomlPath dir) ≠ none := by
  rw [loadCurrentSuite, Option.bind_eq_some_iff]
  constructor
  · rintro ⟨content, hcontent, h⟩
    dsimp only at h
    split_ifs at h with hbad
    obtain rfl := Option.some.inj h
    rw [not_or] at hbad
    exact ⟨⟨content, hcontent, rfl⟩, hbad⟩
  · rintro ⟨⟨content, hcontent, rfl⟩, hgood⟩
    exact ⟨content, hcontent, if_neg (not_or.mpr hgood)⟩

/-- **What a suite that resolves contains**: both readers accept, and every test names a
registered fixture. -/
theorem regenerateSuite_eq_ok_iff {codec : DoubleCodec} {fs : FileSystem} {dir : Text}
    {request : ResolveRequest} :
    regenerateSuite codec fs dir = .ok request ↔
      readRegistryIni (registryIniPath dir) (fs (registryIniPath dir)) =
          (request.m_Fixtures, []) ∧
        readSuiteToml codec (suiteTomlPath dir) (fs (suiteTomlPath dir)) =
          (request.m_Tests, []) ∧
        request.m_SuiteDir = dir ∧ validateFixtureReferences request = true := by
  rw [regenerateSuite]
  obtain ⟨fixtures, regErrors⟩ :=
    readRegistryIni (registryIniPath dir) (fs (registryIniPath dir))
  obtain ⟨tests, tomlErrors⟩ :=
    readSuiteToml codec (suiteTomlPath dir) (fs (suiteTomlPath dir))
  obtain ⟨dir', fixtures', tests'⟩ := request
  cases regErrors with
  | cons error errors => simp
  | nil =>
      cases tomlErrors with
      | cons error errors => simp
      | nil =>
          simp only [Prod.mk.injEq, and_true]
          constructor
          · intro h
            split at h
            · next hvalid =>
              obtain ⟨rfl, rfl, rfl⟩ := ResolveRequest.mk.inj (Except.ok.inj h)
              exact ⟨rfl, rfl, rfl, hvalid⟩
            · cases h
          · rintro ⟨rfl, rfl, rfl, hvalid⟩
            exact if_pos hvalid

end Hades.Runtime
