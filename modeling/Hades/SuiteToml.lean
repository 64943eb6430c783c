import Hades.TomlIO

/-!
# The Suite Manifest

The translation between `suite.toml` tables and suite entries (`Configuration.cpp`). Only
eight fields of an entry have a key; `SuiteTestEntry.persisted` keeps these and leaves the
others at their defaults.
-/

namespace Hades.Runtime

/-- The keys of a `[[test]]` block. -/
def KNOWN_KEYS : List Text :=
  ["id".toList, "fixture".toList, "kind".toList, "warmup_count".toList,
    "cv_threshold".toList, "helper_thread_count".toList, "read_criticality".toList,
    "fixed_slice_count".toList]

/-- The array of the manifest. -/
def testArray : Text :=
  "test".toList

/-- The start of an error message about an entry. -/
def entryPrefix (entryIndex : ℕ) : Text :=
  "[[test]] entry ".toList ++ DecimalText.natText entryIndex ++ ": ".toList

/-- Report every unknown key. -/
def reportUnknownKeys (table : TomlTable) (entryIndex : ℕ) : List TomlParseError :=
  (table.filter fun pair => ! KNOWN_KEYS.contains pair.1).map fun pair =>
    { m_Line := 0
      m_Message := entryPrefix entryIndex ++ "unknown key '".toList ++ pair.1 ++ ['\''] }

/-- Report a missing key. -/
def reportMissingKey (present : Bool) (entryIndex : ℕ) (key : Text) : List TomlParseError :=
  if present then []
  else
    [{ m_Line := 0
       m_Message := entryPrefix entryIndex ++ "missing required key '".toList ++ key ++ ['\''] }]

/-- The name of a kind. -/
def kindName : TestKind → Text
  | .Performance => "performance".toList
  | .Correctness => "correctness".toList

/-- The kind of a name. -/
def kindOfName? (name : Text) : Option TestKind :=
  if name = kindName .Performance then some .Performance
  else if name = kindName .Correctness then some .Correctness
  else none

/-- The lower 32 bits of a signed integer. -/
def toUInt32 (value : Int64) : UInt32 :=
  value.toUInt64.toUInt32

/-- The entry with the optional keys of a table. -/
def setOptionalKeys (table : TomlTable) (config : Config) : Config :=
  { config with
    m_WarmupCount := (findTomlInt table "warmup_count".toList).elim config.m_WarmupCount
      toUInt32
    m_CvThreshold := (findTomlFloat table "cv_threshold".toList).getD config.m_CvThreshold
    m_HelperThreadCount :=
      (findTomlInt table "helper_thread_count".toList).elim config.m_HelperThreadCount toUInt32
    m_ReadCriticality :=
      (findTomlFloat table "read_criticality".toList).getD config.m_ReadCriticality
    m_FixedSliceCount :=
      (findTomlInt table "fixed_slice_count".toList).elim config.m_FixedSliceCount toUInt32 }

/-- The entry of a table, unless a required key is missing or its kind is invalid, and the
errors. -/
def mapTableToEntry (table : TomlTable) (entryIndex : ℕ) :
    Option SuiteTestEntry × List TomlParseError :=
  match findTomlString table "id".toList, findTomlString table "fixture".toList with
  | some id, some fixture =>
    let config : Config := { m_Id := id }
    match (findTomlString table "kind".toList).map fun name => (name, kindOfName? name) with
    | some (name, none) =>
      (none, [{ m_Line := 0, m_Message := entryPrefix entryIndex ++ "invalid kind '".toList ++
        name ++ "' (expected 'performance' or 'correctness')".toList }])
    | some (_, some kind) =>
      (some { m_FixtureName := fixture
              m_Config := setOptionalKeys table { config with m_Kind := kind } },
        reportUnknownKeys table entryIndex)
    | none =>
      (some { m_FixtureName := fixture, m_Config := setOptionalKeys table config },
        reportUnknownKeys table entryIndex)
  | id, fixture =>
    (none, reportMissingKey id.isSome entryIndex "id".toList ++
      reportMissingKey fixture.isSome entryIndex "fixture".toList)

/-- The entries of a series of tables, the first one with the index `entryIndex`, and the
errors. -/
def mapTables (entryIndex : ℕ) : List TomlTable → List SuiteTestEntry × List TomlParseError
  | [] => ([], [])
  | table :: tables =>
    let (entry, errors) := mapTableToEntry table entryIndex
    let (entries, later) := mapTables (entryIndex + 1) tables
    (entry.toList ++ entries, errors ++ later)

/-- Read a manifest: its entries, and every error. The source returns `true` when there is
no error. -/
def readSuiteToml (codec : DoubleCodec) (path : Text) (file : Option Text) :
    List SuiteTestEntry × List TomlParseError :=
  let (tables, errors) := readToml codec path testArray file
  let (entries, later) := mapTables 0 tables
  (entries, errors ++ later)

/-- A key that is written only if it differs from its default. -/
def optionalPair (present : Bool) (key : Text) (value : TomlValue) : TomlTable :=
  if present then [(key, value)] else []

/-- The table of an entry. -/
def entryToTable (entry : SuiteTestEntry) : TomlTable :=
  let config := entry.m_Config
  [("id".toList, .string config.m_Id), ("fixture".toList, .string entry.m_FixtureName),
    ("kind".toList, .string (kindName config.m_Kind))] ++
  optionalPair (config.m_WarmupCount != 0) "warmup_count".toList
    (.integer (Int64.ofNat config.m_WarmupCount.toNat)) ++
  optionalPair (config.m_CvThreshold != 0) "cv_threshold".toList
    (.float config.m_CvThreshold) ++
  optionalPair (config.m_HelperThreadCount != 0) "helper_thread_count".toList
    (.integer (Int64.ofNat config.m_HelperThreadCount.toNat)) ++
  optionalPair (config.m_ReadCriticality != 0) "read_criticality".toList
    (.float config.m_ReadCriticality) ++
  optionalPair (config.m_FixedSliceCount != 0) "fixed_slice_count".toList
    (.integer (Int64.ofNat config.m_FixedSliceCount.toNat))

/-- What the writer writes for a list of entries. -/
def suiteText (codec : DoubleCodec) (entries : List SuiteTestEntry) : Text :=
  tomlText codec testArray (entries.map entryToTable)

/-- Write a manifest, in append mode or from scratch. -/
def writeSuiteToml (codec : DoubleCodec) (entries : List SuiteTestEntry) (append : Bool)
    (file : Option Text) : Option Text :=
  writeToml codec testArray (entries.map entryToTable) append file

/-- The part of an entry that has a key in the manifest. -/
def SuiteTestEntry.persisted (entry : SuiteTestEntry) : SuiteTestEntry where
  m_FixtureName := entry.m_FixtureName
  m_Config :=
    { m_Id := entry.m_Config.m_Id
      m_Kind := entry.m_Config.m_Kind
      m_WarmupCount := entry.m_Config.m_WarmupCount
      m_CvThreshold := entry.m_Config.m_CvThreshold
      m_HelperThreadCount := entry.m_Config.m_HelperThreadCount
      m_ReadCriticality := entry.m_Config.m_ReadCriticality
      m_FixedSliceCount := entry.m_Config.m_FixedSliceCount }

end Hades.Runtime
