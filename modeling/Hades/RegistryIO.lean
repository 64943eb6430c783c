import Hades.TomlIO

/-!
# The Fixture Registry

Reading and writing `registry.ini` (`RegistryIO.cpp`): one `[FixtureName]` section per
fixture, with bare strings as values. The reader collects every error; a section that is
not valid yields an error and no fixture.

Its `trim` is the manifest reader's, and it reads its file with `std::getline`. A file is
its content, or `none` when it cannot be opened.
-/

namespace Hades.Runtime

/-- A registered fixture (`CodegenTypes.h`). -/
structure FixtureEntry where
  m_FixtureName : Text := []
  m_HeaderPath : Text := []
  m_AdapterType : Text := []
  m_ChronoType : Text := []
  m_HashType : Text := []
  m_ExtraLinkDir : Text := []
  m_ExtraLinkTarget : Text := []
  deriving DecidableEq

/-- An error of the registry's reader. -/
structure RegistryIniError where
  m_Line : UInt32 := 0
  m_Message : Text
  deriving DecidableEq

/-- A bare C++ identifier. -/
def isIdentifier (text : Text) : Bool :=
  match text with
  | [] => false
  | c :: _ => !c.isDigit && text.all isIdentChar

/-- The segments of a type name between `::`. -/
def typeSegments : Text → List Text
  | [] => [[]]
  | ':' :: ':' :: cs => [] :: typeSegments cs
  | c :: cs => (typeSegments cs).modifyHead (c :: ·)

/-- Identifiers joined by `::`. -/
def isCppTypeName (text : Text) : Bool :=
  !text.isEmpty && (typeSegments text).all isIdentifier

/-- The lines that `std::getline` reads: nothing follows a newline at the very end. -/
def getLines (content : Text) : List Text :=
  let lines := content.splitOn '\n'
  if lines.getLast? = some [] then lines.dropLast else lines

/-- The name of a section header. -/
def isSectionHeader (line : Text) : Option Text :=
  if 2 ≤ line.length ∧ line.head? = some '[' ∧ line.getLast? = some ']' then
    some (trim line.tail.dropLast)
  else none

/-- Key and value of a line, split at its first `=`. -/
def splitIniKeyValue (line : Text) : Option (Text × Text) :=
  if '=' ∈ line then
    some (trim (line.takeWhile (· != '=')), trim (line.dropWhile (· != '=')).tail)
  else none

/-- The start of a message about a section. -/
def sectionPrefix (fixture : FixtureEntry) : Text :=
  "[".toList ++ fixture.m_FixtureName ++ "]: ".toList

/-- The required keys without a value, each one behind a blank. -/
def missingKeys (fixture : FixtureEntry) : Text :=
  (if fixture.m_HeaderPath = [] then " header".toList else []) ++
  (if fixture.m_AdapterType = [] then " adapter".toList else []) ++
  (if fixture.m_ChronoType = [] then " chrono".toList else []) ++
  (if fixture.m_HashType = [] then " hash".toList else [])

/-- The message about a type that is no C++ type name. -/
def badTypeName (fixture : FixtureEntry) (key value : Text) : Text :=
  sectionPrefix fixture ++ key ++ " '".toList ++ value ++
    "' is not a valid (possibly ::-qualified) C++ type name".toList

/-- The first complaint about a finished section, if there is any. -/
def checkSection (fixture : FixtureEntry) : Option Text :=
  if missingKeys fixture ≠ [] then
    some (sectionPrefix fixture ++ "missing required key(s):".toList ++ missingKeys fixture)
  else if !isIdentifier fixture.m_FixtureName then
    some (sectionPrefix fixture ++
      ("section name is not a valid C++ identifier - it becomes the generated fixture " ++
        "class name").toList)
  else if !isCppTypeName fixture.m_AdapterType then
    some (badTypeName fixture "adapter".toList fixture.m_AdapterType)
  else if !isCppTypeName fixture.m_ChronoType then
    some (badTypeName fixture "chrono".toList fixture.m_ChronoType)
  else if !isCppTypeName fixture.m_HashType then
    some (badTypeName fixture "hash".toList fixture.m_HashType)
  else if fixture.m_ExtraLinkTarget ≠ [] ∧ !isIdentifier fixture.m_ExtraLinkTarget then
    some (sectionPrefix fixture ++ "extra_link_target '".toList ++ fixture.m_ExtraLinkTarget ++
      "' is not a valid CMake target identifier".toList)
  else none

/-! ### The reader -/

/-- The state of the reader. The section in progress is there while the reader is inside
one. -/
structure RegistryParser where
  m_outFixtures : List FixtureEntry := []
  m_outErrors : List RegistryIniError := []
  m_current : Option FixtureEntry := none
  deriving DecidableEq

namespace RegistryParser

/-- Report an error. -/
def report (p : RegistryParser) (lineNo : UInt32) (message : Text) : RegistryParser :=
  { p with m_outErrors := p.m_outErrors ++ [{ m_Line := lineNo, m_Message := message }] }

/-- Finish the section in progress: it is a fixture, or an error. -/
def finishSection (p : RegistryParser) (lineNo : UInt32) : RegistryParser :=
  match p.m_current with
  | none => p
  | some fixture =>
    match checkSection fixture with
    | some message => { p with m_current := none }.report lineNo message
    | none => { p with m_current := none, m_outFixtures := p.m_outFixtures ++ [fixture] }

/-- The section with one more key, if the key is known. -/
def setKey (fixture : FixtureEntry) (key value : Text) : Option FixtureEntry :=
  if key = "header".toList then some { fixture with m_HeaderPath := value }
  else if key = "adapter".toList then some { fixture with m_AdapterType := value }
  else if key = "chrono".toList then some { fixture with m_ChronoType := value }
  else if key = "hash".toList then some { fixture with m_HashType := value }
  else if key = "extra_link_dir".toList then some { fixture with m_ExtraLinkDir := value }
  else if key = "extra_link_target".toList then
    some { fixture with m_ExtraLinkTarget := value }
  else none

/-- A `key = value` line sets a field of the section in progress. -/
def handleKeyValue (p : RegistryParser) (line : Text) (lineNo : UInt32) : RegistryParser :=
  match splitIniKeyValue line with
  | none => p.report lineNo "expected 'key = value'".toList
  | some (key, value) =>
    match p.m_current with
    | none => p.report lineNo
        ("key '".toList ++ key ++ "' outside any [FixtureName] section".toList)
    | some fixture =>
      match setKey fixture key value with
      | some fixture => { p with m_current := some fixture }
      | none => p.report lineNo
          (sectionPrefix fixture ++ "unknown key '".toList ++ key ++ ['\''])

/-- One line of the file. -/
def handleLine (p : RegistryParser) (rawLine : Text) (lineNo : UInt32) : RegistryParser :=
  let line := popCarriageReturn (trim rawLine)
  if line = [] ∨ line.head? = some '#' ∨ line.head? = some ';' then p
  else
    match isSectionHeader line with
    | some name => { p.finishSection lineNo with m_current := some { m_FixtureName := name } }
    | none => p.handleKeyValue line lineNo

/-- A series of lines, the first one with the number `lineNo + 1`. -/
def handleLines (p : RegistryParser) (lineNo : ℕ) : List Text → RegistryParser
  | [] => p
  | line :: lines =>
    handleLines (p.handleLine line (UInt32.ofNat (lineNo + 1))) (lineNo + 1) lines

end RegistryParser

/-- Read a registry: its fixtures, and every error. The source returns `true` when there is
no error. -/
def readRegistryIni (path : Text) (file : Option Text) :
    List FixtureEntry × List RegistryIniError :=
  match file with
  | none => ([], [{ m_Line := 0, m_Message := "could not open file: ".toList ++ path }])
  | some content =>
    let lines := getLines content
    let p := (RegistryParser.handleLines {} 0 lines).finishSection (UInt32.ofNat lines.length)
    (p.m_outFixtures, p.m_outErrors)

/-! ### The writer -/

/-- The line of a key. -/
def iniLine (key value : Text) : Text :=
  key ++ " = ".toList ++ value

/-- The line of an optional key. -/
def optionalIniLine (key value : Text) : List Text :=
  if value = [] then [] else [iniLine key value]

/-- The lines of a section, without their newlines. -/
def fixtureLines (fixture : FixtureEntry) : List Text :=
  ["[".toList ++ fixture.m_FixtureName ++ "]".toList,
    iniLine "header".toList fixture.m_HeaderPath,
    iniLine "adapter".toList fixture.m_AdapterType,
    iniLine "chrono".toList fixture.m_ChronoType,
    iniLine "hash".toList fixture.m_HashType] ++
  optionalIniLine "extra_link_dir".toList fixture.m_ExtraLinkDir ++
  optionalIniLine "extra_link_target".toList fixture.m_ExtraLinkTarget ++ [[]]

/-- What the writer writes for a list of fixtures. -/
def registryText (fixtures : List FixtureEntry) : Text :=
  (fixtures.flatMap fixtureLines).flatMap (· ++ ['\n'])

/-- Write a registry, in append mode or from scratch. -/
def writeRegistryIni (fixtures : List FixtureEntry) (append : Bool) (file : Option Text) :
    Option Text :=
  writeWholeFile file (registryText fixtures) append

end Hades.Runtime
