import Hades.Codegen
import Hades.RegistryRoundTrip
import Hades.SuiteRoundTrip

/-!
# The String Literals of the Generated Program

The generator writes the id and the fixture name of every test as a string literal. A C++
compiler reads a literal up to its closing quote, decodes the escapes, and rejects a newline
inside it (`cppLiterals`).

## Main results

* `cppLiterals_testBlock_append`: the literals of the block of one test.
* `cppLiterals_buildSuiteTestsFunction_iff`: **when the literals of the generated function**
  are the names and ids of the tests.
-/

namespace Hades.Runtime

/-- The strings that the literals of a piece of C++ text denote; `none` if one of them is
not well formed. -/
def cppLiterals (text : Text) : Option (List Text) :=
  cppEscapes.quotedParts '"' (· == '\n') none text

/-- Text without quotes has no literals. -/
theorem cppLiterals_append_of_plain {pre : Text} (h : '"' ∉ pre) (rest : Text) :
    cppLiterals (pre ++ rest) = cppLiterals rest :=
  EscapedText.Codec.quotedParts_append_of_plain h rest

theorem encode_quote : cppEscapes.encode '"' ≠ none := by decide

theorem quote_ne_mark : '"' ≠ cppEscapes.mark := by decide

/-- No symbol that is written as it is ends the line of a text without newlines. -/
theorem bare_ne_newline {text : Text} (h : '\n' ∉ text) :
    ∀ c ∈ text, cppEscapes.encode c = none → (c == '\n') = false := by
  intro c hc _
  rw [beq_eq_false_iff_ne]
  rintro rfl
  exact h hc

/-- A newline is written as it is. -/
theorem bare_newline {text : Text} (h : '\n' ∈ text) :
    ∃ c ∈ text, cppEscapes.encode c = none ∧ (c == '\n') = true :=
  ⟨'\n', h, by decide, by decide⟩

/-- **The literal of a text** without newlines denotes the text. -/
theorem cppLiterals_stringLiteral_append {text : Text} (h : '\n' ∉ text) (rest : Text) :
    cppLiterals (stringLiteral text ++ rest) = (cppLiterals rest).map (text :: ·) := by
  rw [stringLiteral, List.append_assoc]
  exact EscapedText.Codec.quotedParts_literal encode_quote quote_ne_mark
    (bare_ne_newline h) rest

/-- **The literal of a text with a newline** is not well formed. -/
theorem cppLiterals_stringLiteral_of_newline {text : Text} (h : '\n' ∈ text) (rest : Text) :
    cppLiterals (stringLiteral text ++ rest) = none := by
  rw [stringLiteral, List.append_assoc]
  exact EscapedText.Codec.quotedParts_literal_of_bad encode_quote quote_ne_mark
    (bare_newline h) _

/-! ### Text without quotes -/

theorem quote_notMem_append {xs ys : Text} (hx : '"' ∉ xs) (hy : '"' ∉ ys) :
    '"' ∉ xs ++ ys := by
  rw [List.mem_append, not_or]
  exact ⟨hx, hy⟩

theorem quote_notMem_assignment {field value : Text} (hf : '"' ∉ field) (hv : '"' ∉ value) :
    '"' ∉ assignment field value :=
  quote_notMem_append (quote_notMem_append (quote_notMem_append
    (quote_notMem_append (by decide) hf) (by decide)) hv) (by decide)

theorem quote_notMem_configAssignment {field value : Text} (hf : '"' ∉ field)
    (hv : '"' ∉ value) : '"' ∉ configAssignment field value :=
  quote_notMem_assignment (quote_notMem_append (by decide) hf) hv

theorem quote_notMem_optionalAssignment {present : Bool} {field value : Text}
    (hf : '"' ∉ field) (hv : '"' ∉ value) : '"' ∉ optionalAssignment present field value := by
  cases present with
  | true => exact quote_notMem_configAssignment hf hv
  | false => exact List.not_mem_nil

theorem quote_notMem_unsignedLiteral (value : ℕ) {suffix : Text} (h : '"' ∉ suffix) :
    '"' ∉ unsignedLiteral value suffix :=
  quote_notMem_append
    (fun hmem => absurd (DecimalText.isDigit_of_mem_natText hmem) (by decide)) h

theorem quote_notMem_toStringDouble (value : ℚ) : '"' ∉ toStringDouble value := by
  intro hmem
  rcases DecimalText.mem_roundedText hmem with h | h | h
  · exact absurd h (by decide)
  · exact absurd h (by decide)
  · exact absurd h (by decide)

theorem quote_notMem_kindEnumerator (kind : TestKind) : '"' ∉ kindEnumerator kind := by
  cases kind <;> decide

/-- A text that continues another one without quotes. -/
def EndsPlain (pre text : Text) : Prop :=
  ∃ rest, '"' ∉ rest ∧ text = pre ++ rest

theorem endsPlain_self (pre : Text) : EndsPlain pre pre :=
  ⟨[], List.not_mem_nil, (List.append_nil pre).symm⟩

theorem EndsPlain.append {pre text more : Text} (h : EndsPlain pre text) (hm : '"' ∉ more) :
    EndsPlain pre (text ++ more) := by
  obtain ⟨rest, hrest, rfl⟩ := h
  exact ⟨rest ++ more, quote_notMem_append hrest hm, List.append_assoc pre rest more⟩

/-- Behind the id, the assignments contain no quotes. -/
theorem endsPlain_appendConfigAssignments (config : Config) :
    EndsPlain (configAssignment "m_Id".toList (stringLiteral config.m_Id))
      (appendConfigAssignments config) := by
  have hnumber (present : Bool) {field : Text} (value : ℕ) (hf : '"' ∉ field) :
      '"' ∉ optionalAssignment present field (unsignedLiteral value "u".toList) :=
    quote_notMem_optionalAssignment hf (quote_notMem_unsignedLiteral value (by decide))
  have hdouble (present : Bool) {field : Text} (value : ℚ) (hf : '"' ∉ field) :
      '"' ∉ optionalAssignment present field (toStringDouble value) :=
    quote_notMem_optionalAssignment hf (quote_notMem_toStringDouble value)
  rw [appendConfigAssignments]
  refine EndsPlain.append (EndsPlain.append (EndsPlain.append (EndsPlain.append (EndsPlain.append
    (EndsPlain.append (EndsPlain.append (EndsPlain.append (EndsPlain.append (EndsPlain.append
    (EndsPlain.append (EndsPlain.append (endsPlain_self _) ?_) ?_) ?_) ?_) ?_) ?_) ?_) ?_) ?_)
    ?_) ?_) ?_
  · exact quote_notMem_configAssignment (by decide) (quote_notMem_kindEnumerator _)
  · exact quote_notMem_optionalAssignment (by decide)
      (quote_notMem_unsignedLiteral _ (by decide))
  · exact quote_notMem_optionalAssignment (by decide) (by decide)
  · exact hnumber _ _ (by decide)
  · exact hdouble _ _ (by decide)
  · exact hnumber _ _ (by decide)
  · exact hnumber _ _ (by decide)
  · exact hnumber _ _ (by decide)
  · exact hnumber _ _ (by decide)
  · exact hnumber _ _ (by decide)
  · exact hdouble _ _ (by decide)
  · exact hnumber _ _ (by decide)

theorem assignment_eq (field value : Text) : assignment field value =
    ("\t\tl_entry.".toList ++ field ++ " = ".toList) ++ (value ++ ";\n".toList) := by
  unfold assignment
  exact List.append_assoc _ _ _

/-- The literals of an assignment of a string. -/
theorem cppLiterals_assignment_append {field text : Text} (hf : '"' ∉ field)
    (h : '\n' ∉ text) (rest : Text) :
    cppLiterals (assignment field (stringLiteral text) ++ rest) =
      (cppLiterals rest).map (text :: ·) := by
  have hpre : '"' ∉ "\t\tl_entry.".toList ++ field ++ " = ".toList :=
    quote_notMem_append (quote_notMem_append (by decide) hf) (by decide)
  have hpost : '"' ∉ ";\n".toList := by decide
  rw [assignment_eq, List.append_assoc, cppLiterals_append_of_plain hpre, List.append_assoc,
    cppLiterals_stringLiteral_append h, cppLiterals_append_of_plain hpost]

/-- An assignment of a string with a newline is not well formed. -/
theorem cppLiterals_assignment_of_newline {field text : Text} (hf : '"' ∉ field)
    (h : '\n' ∈ text) (rest : Text) :
    cppLiterals (assignment field (stringLiteral text) ++ rest) = none := by
  have hpre : '"' ∉ "\t\tl_entry.".toList ++ field ++ " = ".toList :=
    quote_notMem_append (quote_notMem_append (by decide) hf) (by decide)
  rw [assignment_eq, List.append_assoc, cppLiterals_append_of_plain hpre, List.append_assoc,
    cppLiterals_stringLiteral_of_newline h]

/-! ### The literals of the tests -/

/-- **The block of a test** has the literals of its fixture's name and of its id. -/
theorem cppLiterals_testBlock_append {test : SuiteTestEntry} (hname : '\n' ∉ test.m_FixtureName)
    (rest : Text) : cppLiterals (testBlock test ++ rest) =
      if '\n' ∈ test.m_Config.m_Id then none
      else (cppLiterals rest).map ([test.m_FixtureName, test.m_Config.m_Id] ++ ·) := by
  obtain ⟨plain, hplain, hassignments⟩ := endsPlain_appendConfigAssignments test.m_Config
  have hopen : '"' ∉ "\t\x7b\n\t\tSuiteTestEntry l_entry;\n".toList := by decide
  have hclose : '"' ∉ "\t\tl_tests.push_back(std::move(l_entry));\n\t\x7d\n".toList := by decide
  unfold testBlock
  rw [hassignments, List.append_assoc, List.append_assoc, List.append_assoc, List.append_assoc,
    cppLiterals_append_of_plain hopen, cppLiterals_assignment_append (by decide) hname]
  split
  · next hid =>
    rw [configAssignment, cppLiterals_assignment_of_newline (by decide) hid, Option.map_none]
  · next hid =>
    rw [configAssignment, cppLiterals_assignment_append (by decide) hid,
      cppLiterals_append_of_plain hplain, cppLiterals_append_of_plain hclose, Option.map_map]
    rfl

/-- The strings that the generated function should contain. -/
def suiteStrings (tests : List SuiteTestEntry) : List Text :=
  tests.flatMap fun test => [test.m_FixtureName, test.m_Config.m_Id]

/-- **The blocks of a series of tests** have the literals of all tests, if no id contains a
newline. -/
theorem cppLiterals_testBlocks_append {tests : List SuiteTestEntry}
    (hnames : ∀ test ∈ tests, '\n' ∉ test.m_FixtureName) (rest : Text) :
    cppLiterals (tests.flatMap testBlock ++ rest) =
      if ∃ test ∈ tests, '\n' ∈ test.m_Config.m_Id then none
      else (cppLiterals rest).map (suiteStrings tests ++ ·) := by
  induction tests with
  | nil => simp [suiteStrings]
  | cons test tests ih =>
      have hblock := cppLiterals_testBlock_append (hnames test List.mem_cons_self)
        (tests.flatMap testBlock ++ rest)
      rw [List.flatMap_cons, List.append_assoc, hblock,
        ih fun t ht => hnames t (List.mem_cons_of_mem test ht)]
      by_cases hid : '\n' ∈ test.m_Config.m_Id
      · rw [if_pos hid, if_pos ⟨test, List.mem_cons_self, hid⟩]
      rw [if_neg hid]
      by_cases hids : ∃ t ∈ tests, '\n' ∈ t.m_Config.m_Id
      · obtain ⟨t, ht, hnewline⟩ := hids
        rw [if_pos ⟨t, ht, hnewline⟩, if_pos ⟨t, List.mem_cons_of_mem test ht, hnewline⟩,
          Option.map_none]
      · have hnone : ¬ ∃ t ∈ test :: tests, '\n' ∈ t.m_Config.m_Id := by
          rintro ⟨t, ht, hnewline⟩
          rcases List.mem_cons.mp ht with rfl | ht
          · exact hid hnewline
          · exact hids ⟨t, ht, hnewline⟩
        rw [if_neg hids, if_neg hnone, Option.map_map]
        simp only [suiteStrings, List.flatMap_cons, Function.comp_def, List.append_assoc]

/-- The literals of the generated function. -/
theorem cppLiterals_buildSuiteTestsFunction {request : ResolveRequest}
    (hnames : ∀ test ∈ request.m_Tests, '\n' ∉ test.m_FixtureName) :
    cppLiterals (buildSuiteTestsFunction request) =
      if ∃ test ∈ request.m_Tests, '\n' ∈ test.m_Config.m_Id then none
      else some (suiteStrings request.m_Tests) := by
  have hopen : '"' ∉ ("std::vector<SuiteTestEntry> buildSuiteTests() \x7b\n" ++
      "\tstd::vector<SuiteTestEntry> l_tests;\n").toList := by decide
  have hclose : '"' ∉ "\treturn l_tests;\n\x7d\n\n".toList := by decide
  have hend : cppLiterals "\treturn l_tests;\n\x7d\n\n".toList = some [] := by
    have hplain := cppLiterals_append_of_plain hclose []
    rw [List.append_nil] at hplain
    exact hplain
  unfold buildSuiteTestsFunction
  rw [List.append_assoc, cppLiterals_append_of_plain hopen,
    cppLiterals_testBlocks_append hnames, hend, Option.map_some, List.append_nil]

/-! ### Suites whose fixtures resolve -/

/-- A test whose fixture is registered has an identifier as its fixture name. -/
theorem isKey_fixtureName {path : Text} {registry : Option Text}
    {request : ResolveRequest} (hfixtures : request.m_Fixtures = (readRegistryIni path registry).1)
    (h : validateFixtureReferences request = true) {test : SuiteTestEntry}
    (htest : test ∈ request.m_Tests) : IsKey test.m_FixtureName := by
  rw [validateFixtureReferences, List.all_eq_true] at h
  obtain ⟨fixture, hmem, heq⟩ := List.any_eq_true.mp (h test htest)
  rw [hfixtures] at hmem
  have hvalid := (isClean_of_mem_readRegistryIni hmem).1
  rw [← beq_iff_eq.mp heq]
  exact isKey_of_isIdentifier hvalid.name

/-- It has no newlines. -/
theorem newline_notMem_fixtureName {path : Text} {registry : Option Text}
    {request : ResolveRequest} (hfixtures : request.m_Fixtures = (readRegistryIni path registry).1)
    (h : validateFixtureReferences request = true) {test : SuiteTestEntry}
    (htest : test ∈ request.m_Tests) : '\n' ∉ test.m_FixtureName :=
  (isKey_fixtureName hfixtures h htest).notMem (by decide)

/-- It has no NULs. -/
theorem nul_notMem_fixtureName {path : Text} {registry : Option Text}
    {request : ResolveRequest} (hfixtures : request.m_Fixtures = (readRegistryIni path registry).1)
    (h : validateFixtureReferences request = true) {test : SuiteTestEntry}
    (htest : test ∈ request.m_Tests) : '\x00' ∉ test.m_FixtureName :=
  (isKey_fixtureName hfixtures h htest).notMem (by decide)

/-- **The literals of the generated function** are well formed and denote the fixture names
and ids of the manifest, test by test, exactly when no id contains a newline. -/
theorem cppLiterals_buildSuiteTestsFunction_iff (codec : DoubleCodec)
    (suitePath registryPath : Text) (suite registry : Option Text)
    (hresolve : validateFixtureReferences
      { m_Fixtures := (readRegistryIni registryPath registry).1
        m_Tests := (readSuiteToml codec suitePath suite).1 } = true) :
    let tests := (readSuiteToml codec suitePath suite).1
    cppLiterals (buildSuiteTestsFunction
        { m_Fixtures := (readRegistryIni registryPath registry).1, m_Tests := tests }) =
        some (tests.flatMap fun test => [test.m_FixtureName, test.m_Config.m_Id]) ↔
      ∀ test ∈ tests, '\n' ∉ test.m_Config.m_Id := by
  intro tests
  have hnames : ∀ test ∈ tests, '\n' ∉ test.m_FixtureName :=
    fun test htest => newline_notMem_fixtureName rfl hresolve htest
  rw [cppLiterals_buildSuiteTestsFunction hnames]
  constructor
  · intro h test htest hid
    rw [if_pos ⟨test, htest, hid⟩] at h
    cases h
  · intro h
    rw [if_neg (by rintro ⟨test, htest, hid⟩; exact h test htest hid), suiteStrings]

/-- A registry with the fixture `F`. -/
def sampleRegistry : Text :=
  "[F]\nheader = f.h\nadapter = A\nchrono = C\nhash = H\n".toList

/-- A manifest with one test; `token` is its id as it stands there. -/
def sampleSuite (token : Text) : Text :=
  "[[test]]\nid = ".toList ++ token ++ "\nfixture = \"F\"\n".toList

/-- The id `a\"\\` is emitted as it should be. -/
theorem cppLiterals_quoteAndBackslash :
    let tests := (readSuiteToml sampleCodec "suite.toml".toList
      (some (sampleSuite "\"a\\\"\\\\\"".toList))).1
    tests.map (fun test => test.m_Config.m_Id) = ["a\"\\".toList] ∧
    cppLiterals (buildSuiteTestsFunction
        { m_Fixtures := (readRegistryIni "registry.ini".toList (some sampleRegistry)).1
          m_Tests := tests }) =
      some (tests.flatMap fun test => [test.m_FixtureName, test.m_Config.m_Id]) :=
  ⟨by decide +kernel,
    (cppLiterals_buildSuiteTestsFunction_iff sampleCodec "suite.toml".toList
      "registry.ini".toList (some (sampleSuite "\"a\\\"\\\\\"".toList)) (some sampleRegistry)
      (by decide +kernel)).mpr (by decide +kernel)⟩

/-- The id `a\nb`, with an escaped newline, is emitted with the newline itself. -/
theorem cppLiterals_newline :
    let suite := readSuiteToml sampleCodec "suite.toml".toList
      (some (sampleSuite "\"a\\nb\"".toList))
    let request : ResolveRequest :=
      { m_Fixtures := (readRegistryIni "registry.ini".toList (some sampleRegistry)).1
        m_Tests := suite.1 }
    suite.2 = [] ∧ (readRegistryIni "registry.ini".toList (some sampleRegistry)).2 = [] ∧
    validateFixtureReferences request = true ∧
    suite.1.map (fun test => test.m_Config.m_Id) = ["a\nb".toList] ∧
    cppLiterals (buildSuiteTestsFunction request) = none := by
  decide +kernel

end Hades.Runtime
