import Hades.RegistryIO

/-!
# Code Generation

The parts of the generator (`HadesCodegen.cpp`) that turn the tests of a suite into C++
text: the function `buildSuiteTests` of the generated program, with one block for each test.

`cppEscapes` is the escape scheme of the generator, together with the meaning that C++ gives
to a backslash and one character in a string literal. Octal and hexadecimal escapes are not
decoded; the generator never writes one.
-/

namespace Hades.Runtime

/-- Every fixture and every test of a suite (`CodegenTypes.h`). -/
structure ResolveRequest where
  m_SuiteDir : Text := []
  m_Fixtures : List FixtureEntry := []
  m_Tests : List SuiteTestEntry := []

/-- A test that is to be added to a suite (`CodegenTypes.h`). -/
structure ScaffoldRequest where
  m_SuiteDir : Text := []
  m_TestId : Text := []
  m_Fixture : FixtureEntry := {}
  m_Kind : TestKind := .Performance

/-- The generator escapes quotes and backslashes; C++ knows some more escapes. -/
def cppEscapes : EscapedText.Codec Char where
  mark := '\\'
  encode c := if c = '"' ∨ c = '\\' then some c else none
  decode e :=
    if e = '"' ∨ e = '\\' ∨ e = '\'' ∨ e = '?' then some e
    else if e = 'n' then some '\n' else if e = 't' then some '\t'
    else if e = 'r' then some '\r' else if e = 'a' then some (Char.ofNat 7)
    else if e = 'b' then some (Char.ofNat 8) else if e = 'v' then some (Char.ofNat 11)
    else if e = 'f' then some (Char.ofNat 12) else none
  decode_encode c e h := by
    split_ifs at h with hc
    obtain rfl := Option.some.inj h
    rcases hc with rfl | rfl
    · decide
    · decide
  encode_mark := by decide

/-- Escape a text for a string literal. -/
def escapeForCppLiteral (text : Text) : Text :=
  cppEscapes.escape text

/-- The header that a new test starts with. -/
def buildFixtureStub (fixture : FixtureEntry) : Text :=
  let name := fixture.m_FixtureName
  let adapter := fixture.m_AdapterType
  "#pragma once\n#include <Fixture.h>\n\n".toList ++
  "// TODO: #include the header declaring ".toList ++ adapter ++ " before building.\n\n".toList ++
  "class ".toList ++ name ++ " final\n".toList ++
  "\t: public Hades::Runtime::IFixture<".toList ++ name ++ ", ".toList ++ adapter ++
    "> \x7b\n".toList ++
  "public:\n".toList ++
  "\texplicit ".toList ++ name ++ "(".toList ++ adapter ++ "& ro_Adapter) noexcept\n".toList ++
  "\t\t: IFixture(ro_Adapter) \x7b\n\t\x7d\n\n".toList ++
  ("\tvoid startupImpl() noexcept \x7b\n\t\t// TODO: PCIe host->device transfers " ++
    "(GPU fixtures) belong here.\n\t\x7d\n\n").toList ++
  "\tvoid executeImpl() noexcept \x7b\n\t\t// TODO: the timed operation.\n\t\x7d\n\n".toList ++
  "\tvoid resetImpl(".toList ++ adapter ++
    ("& ro_Adapter) noexcept \x7b\n\t\t(void)ro_Adapter;\n\t\t// TODO: state reset between " ++
      "slice iterations.\n\t\x7d\n\n").toList ++
  "\tvoid teardownImpl() noexcept \x7b\n\t\t// TODO: teardown.\n\t\x7d\n\n".toList ++
  ("\tuint64_t getDeterminismHashImpl() noexcept \x7b\n\t\t// TODO: return a semantically " ++
    "meaningful hash of output state.\n\t\treturn 0;\n\t\x7d\n").toList ++
  "\x7d;\n".toList

/-- Every test's fixture is registered. -/
def validateFixtureReferences (request : ResolveRequest) : Bool :=
  request.m_Tests.all fun test =>
    request.m_Fixtures.any fun fixture => fixture.m_FixtureName == test.m_FixtureName

/-- A type without a leading `Hades::Runtime::`, which the generated program is using. -/
def stripRuntimeNamespace (type : Text) : Text :=
  (type.dropPrefix? "Hades::Runtime::".toList).getD type

/-- The call of the macro that registers a fixture. -/
def registerLine (fixture : FixtureEntry) : Text :=
  "\tHADES_REGISTER_FIXTURE(ro_Registry, ".toList ++ fixture.m_FixtureName ++ ", ".toList ++
    stripRuntimeNamespace fixture.m_AdapterType ++ ", ".toList ++
    stripRuntimeNamespace fixture.m_ChronoType ++ ", ".toList ++
    stripRuntimeNamespace fixture.m_HashType ++ ");\n".toList

/-- The function that registers every fixture. -/
def buildRegisterFunction (request : ResolveRequest) : Text :=
  "void registerAllFixtures(FixtureRegistry& ro_Registry) \x7b\n".toList ++
  request.m_Fixtures.flatMap registerLine ++ "\x7d\n\n".toList

/-- `std::to_string` of a `double`: six decimals. -/
def toStringDouble (value : ℚ) : Text :=
  DecimalText.roundedText 6 value

/-- The line that assigns to a field of the entry. -/
def assignment (field value : Text) : Text :=
  "\t\tl_entry.".toList ++ field ++ " = ".toList ++ value ++ ";\n".toList

/-- The assignment to a field of the configuration. -/
def configAssignment (field value : Text) : Text :=
  assignment ("m_Config.".toList ++ field) value

/-- A field is assigned to only if it differs from its default. -/
def optionalAssignment (present : Bool) (field value : Text) : Text :=
  if present then configAssignment field value else []

/-- A string literal. -/
def stringLiteral (text : Text) : Text :=
  '"' :: escapeForCppLiteral text ++ ['"']

/-- The enumerator of a kind. -/
def kindEnumerator : TestKind → Text
  | .Correctness => "TestKind::Correctness".toList
  | .Performance => "TestKind::Performance".toList

/-- The literal of an unsigned number. -/
def unsignedLiteral (value : ℕ) (suffix : Text) : Text :=
  DecimalText.natText value ++ suffix

/-- The assignments to a configuration. -/
def appendConfigAssignments (config : Config) : Text :=
  configAssignment "m_Id".toList (stringLiteral config.m_Id) ++
  configAssignment "m_Kind".toList (kindEnumerator config.m_Kind) ++
  optionalAssignment (config.m_Iterations != 0) "m_Iterations".toList
    (unsignedLiteral config.m_Iterations.toNat "ull".toList) ++
  optionalAssignment (config.m_ChronoBackend = .Rdtsc) "m_ChronoBackend".toList
    "ChronoBackend::Rdtsc".toList ++
  optionalAssignment (config.m_WarmupCount != 0) "m_WarmupCount".toList
    (unsignedLiteral config.m_WarmupCount.toNat "u".toList) ++
  optionalAssignment (config.m_CvThreshold != 0) "m_CvThreshold".toList
    (toStringDouble config.m_CvThreshold) ++
  optionalAssignment (config.m_MinSlices != 0) "m_MinSlices".toList
    (unsignedLiteral config.m_MinSlices.toNat "u".toList) ++
  optionalAssignment (config.m_MaxSlices != 0) "m_MaxSlices".toList
    (unsignedLiteral config.m_MaxSlices.toNat "u".toList) ++
  optionalAssignment (config.m_ConsecutiveDiscardCap != 0) "m_ConsecutiveDiscardCap".toList
    (unsignedLiteral config.m_ConsecutiveDiscardCap.toNat "u".toList) ++
  optionalAssignment (config.m_TotalDiscardCap != 0) "m_TotalDiscardCap".toList
    (unsignedLiteral config.m_TotalDiscardCap.toNat "u".toList) ++
  optionalAssignment (config.m_HelperThreadCount != 0) "m_HelperThreadCount".toList
    (unsignedLiteral config.m_HelperThreadCount.toNat "u".toList) ++
  optionalAssignment (config.m_ReadCriticality != 0) "m_ReadCriticality".toList
    (toStringDouble config.m_ReadCriticality) ++
  optionalAssignment (config.m_FixedSliceCount != 0) "m_FixedSliceCount".toList
    (unsignedLiteral config.m_FixedSliceCount.toNat "u".toList)

/-- The block of a test. -/
def testBlock (test : SuiteTestEntry) : Text :=
  "\t\x7b\n\t\tSuiteTestEntry l_entry;\n".toList ++
  assignment "m_FixtureName".toList (stringLiteral test.m_FixtureName) ++
  appendConfigAssignments test.m_Config ++
  "\t\tl_tests.push_back(std::move(l_entry));\n\t\x7d\n".toList

/-- The function that builds the tests of the suite. -/
def buildSuiteTestsFunction (request : ResolveRequest) : Text :=
  ("std::vector<SuiteTestEntry> buildSuiteTests() \x7b\n" ++
    "\tstd::vector<SuiteTestEntry> l_tests;\n").toList ++
  request.m_Tests.flatMap testBlock ++
  "\treturn l_tests;\n\x7d\n\n".toList

end Hades.Runtime
