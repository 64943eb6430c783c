import Hades.CommandLine
import Hades.SuiteContext

/-!
# Suites and New Tests

`hades-driver init-suite` and `new-test` (`Commands.cpp`), with the generator's `scaffold`.
`new-test` names a fixture and a test; the first test of a fixture also registers it, with
the values of the flags. The manifest is appended to before the registry.

The file operations of `new-test` can fail one by one. A write that fails may have begun: the
stub has lost its old text by then, and an append leaves a part of its text behind the old one. A
stub cannot be written into a directory that could not be created.
-/

namespace Hades.Runtime

/-! ### Creating a suite -/

/-- The manifest of a new suite. -/
def newSuiteToml : Text :=
  "# Hades suite manifest\n".toList

/-- The registry of a new suite. -/
def newRegistryIni : Text :=
  "# Hades fixture registry - one [FixtureName] section per fixture\n".toList

/-- Create a suite and make it the current one: the files, and the value returned. -/
def cmdInitSuite (codec : DoubleCodec) (cwd : Text) (args : List Text) (fs : FileSystem) :
    FileSystem × ℕ :=
  match args with
  | [] => (fs, 2)
  | dir :: _ =>
    let fs := fs.writeIfMissing (absolutePath cwd (suiteTomlPath dir)) newSuiteToml
    let fs := fs.writeIfMissing (absolutePath cwd (registryIniPath dir)) newRegistryIni
    match adoptSuite cwd dir fs with
    | none => (fs, 1)
    | some fs =>
      match regenerateSuite codec fs (absolutePath cwd dir) with
      | .ok _ => (fs, 0)
      | .error _ => (fs, 1)

/-! ### The flags of a new test -/

/-- The flags of `new-test`. -/
structure NewTestFlags where
  l_header : Text := []
  l_adapter : Text := []
  l_chrono : Text := []
  l_hash : Text := []
  l_kindStr : Text := "performance".toList
  l_extraLinkDir : Text := []
  l_extraLinkTarget : Text := []
  deriving DecidableEq

/-- The flags, in the order in which they are tried. -/
def NewTestFlags.setters : List (Text × (NewTestFlags → Text → NewTestFlags)) :=
  [("header".toList, fun f value => { f with l_header := value }),
    ("adapter".toList, fun f value => { f with l_adapter := value }),
    ("chrono".toList, fun f value => { f with l_chrono := value }),
    ("hash".toList, fun f value => { f with l_hash := value }),
    ("kind".toList, fun f value => { f with l_kindStr := value }),
    ("extra-link-dir".toList, fun f value => { f with l_extraLinkDir := value }),
    ("extra-link-target".toList, fun f value => { f with l_extraLinkTarget := value })]

/-- One more argument; an unknown one is skipped with a warning. -/
def NewTestFlags.parse (flags : NewTestFlags) (arg : Text) : NewTestFlags :=
  (NewTestFlags.setters.findSome? fun s => (flagValue? s.1 arg).map (s.2 flags)).getD flags

/-- The kind; everything but "correctness" is a performance test. -/
def NewTestFlags.kind (flags : NewTestFlags) : TestKind :=
  if flags.l_kindStr = "correctness".toList then .Correctness else .Performance

/-- The fixture that the flags describe. -/
def NewTestFlags.fixture (flags : NewTestFlags) (fixtureName : Text) : FixtureEntry where
  m_FixtureName := fixtureName
  m_HeaderPath := flags.l_header
  m_AdapterType := flags.l_adapter
  m_ChronoType := flags.l_chrono
  m_HashType := flags.l_hash
  m_ExtraLinkDir := flags.l_extraLinkDir
  m_ExtraLinkTarget := flags.l_extraLinkTarget

/-- The complaint about a type flag. -/
def badTypeFlag (flag value : Text) : Text :=
  "--".toList ++ flag ++ "='".toList ++ value ++
    "' is not a valid (possibly ::-qualified) C++ type name".toList

/-- The first complaint about a fixture that is to be registered. -/
def checkNewFixture (fixture : FixtureEntry) : Option Text :=
  if fixture.m_HeaderPath = [] ∨ fixture.m_AdapterType = [] ∨ fixture.m_ChronoType = [] ∨
      fixture.m_HashType = [] then
    some ("fixture '".toList ++ fixture.m_FixtureName ++ ("' is not yet in registry.ini - " ++
      "--header, --adapter, --chrono and --hash are all required the first time").toList)
  else if !isIdentifier fixture.m_FixtureName then
    some ("'".toList ++ fixture.m_FixtureName ++ ("' is not a valid C++ identifier - it " ++
      "becomes the generated fixture class name").toList)
  else if !isCppTypeName fixture.m_AdapterType then
    some (badTypeFlag "adapter".toList fixture.m_AdapterType)
  else if !isCppTypeName fixture.m_ChronoType then
    some (badTypeFlag "chrono".toList fixture.m_ChronoType)
  else if !isCppTypeName fixture.m_HashType then
    some (badTypeFlag "hash".toList fixture.m_HashType)
  else if fixture.m_ExtraLinkTarget ≠ [] ∧ !isIdentifier fixture.m_ExtraLinkTarget then
    some ("--extra-link-target='".toList ++ fixture.m_ExtraLinkTarget ++
      "' is not a valid CMake target identifier".toList)
  else none

/-! ### Scaffolding -/

/-- How the file operations of a new test end. -/
structure NewTestFates where
  createsTestDir : Bool := true
  writeStub : WriteFate := .written
  appendSuite : WriteFate := .written
  appendRegistry : WriteFate := .written

/-- The stub does not open in a directory that is not there. -/
def NewTestFates.stub (fates : NewTestFates) : WriteFate :=
  if fates.createsTestDir then fates.writeStub else .refused

/-- The entry that a request adds to the manifest. -/
def ScaffoldRequest.entry (request : ScaffoldRequest) : SuiteTestEntry where
  m_FixtureName := request.m_Fixture.m_FixtureName
  m_Config := { m_Id := request.m_TestId, m_Kind := request.m_Kind }

/-- The directory of a test. -/
def testDirPath (suiteDir testId : Text) : Text :=
  inDirectory (inDirectory suiteDir "tests".toList) testId

/-- The stub of a test. -/
def stubPath (suiteDir testId fixtureName : Text) : Text :=
  inDirectory (testDirPath suiteDir testId) (fixtureName ++ ".h".toList)

/-- Write the stub, and append the test to the manifest; `false` if one of them fails. -/
def scaffold (codec : DoubleCodec) (fates : NewTestFates) (request : ScaffoldRequest)
    (outStubPath outTomlPath : Text) (fs : FileSystem) : FileSystem × Bool :=
  match writeTextFile fates.stub outStubPath (buildFixtureStub request.m_Fixture) fs with
  | (fs, false) => (fs, false)
  | (fs, true) =>
    appendFile fates.appendSuite outTomlPath (writeSuiteToml codec [request.entry] true) fs

/-- The fixture of a new test, and whether it is a new one; or the complaint. -/
def chooseFixture (fixtures : List FixtureEntry) (flags : NewTestFlags) (fixtureName : Text) :
    Except Text (FixtureEntry × Bool) :=
  match fixtures.find? (·.m_FixtureName = fixtureName) with
  | some fixture => .ok (fixture, false)
  | none =>
    match checkNewFixture (flags.fixture fixtureName) with
    | some message => .error message
    | none => .ok (flags.fixture fixtureName, true)

/-- Register a new fixture. -/
def registerNewFixture (fate : WriteFate) (dir : Text) (fixture : FixtureEntry)
    (fs : FileSystem) : FileSystem × ℕ :=
  match appendFile fate (registryIniPath dir) (writeRegistryIni [fixture] true) fs with
  | (fs, false) => (fs, 1)
  | (fs, true) => (fs, 0)

/-- Add a test to the current suite: the files, and the value returned. -/
def cmdNewTest (codec : DoubleCodec) (cwd : Text) (fates : NewTestFates)
    (args : List Text) (fs : FileSystem) : FileSystem × ℕ :=
  match args with
  | fixtureName :: testId :: rest =>
    let flags := rest.foldl NewTestFlags.parse {}
    match loadCurrentSuite cwd fs with
    | none => (fs, 1)
    | some dir =>
      let (fixtures, errors) := readRegistryIni (registryIniPath dir) (fs (registryIniPath dir))
      if errors ≠ [] then (fs, 1)
      else
        match chooseFixture fixtures flags fixtureName with
        | .error _ => (fs, 2)
        | .ok (fixture, isNew) =>
          let request : ScaffoldRequest :=
            { m_SuiteDir := dir, m_TestId := testId, m_Fixture := fixture, m_Kind := flags.kind }
          match scaffold codec fates request (stubPath dir testId fixtureName)
              (suiteTomlPath dir) fs with
          | (fs, false) => (fs, 1)
          | (fs, true) =>
            if isNew then registerNewFixture fates.appendRegistry dir fixture fs else (fs, 0)
  | _ => (fs, 2)

end Hades.Runtime
