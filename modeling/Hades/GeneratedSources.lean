import Hades.EmittedRegistration
import Hades.EmittedTests

/-!
# The Source Files of the Generated Program

The two C++ files that the generator writes for a suite (`HadesCodegen.cpp`): the header with an
`#include` for the header of every fixture, and the main file, which includes it, registers the
fixtures, builds the tests, and ends with a text that is the same for every suite.

A reader takes such a file apart again. At its front it knows comments, `#include` lines and
a few lines more; the name of an included header is what stands between the delimiters as it is,
since nothing is an escape there. The two functions are executed (`Hades.EmittedRegistration`,
`Hades.EmittedTests`).

## Main results

* `readMainCpp_buildMainCpp`: **the main file, read back**.
* `readHeader_buildFixtureIncludesHeader_iff`: when the header includes the headers of the
  fixtures.
-/

namespace Hades.Runtime

open StatementReader

/-! ### The files -/

/-- The header that includes the headers of the fixtures. -/
def FIXTURE_INCLUDES_HEADER_NAME : Text :=
  "GeneratedFixtures.h".toList

/-- The line that includes the header of a fixture. -/
def includeLine (fixture : FixtureEntry) : Text :=
  "#include \"".toList ++ escapeForCppLiteral fixture.m_HeaderPath ++ "\"\n".toList

/-- The header of a suite. -/
def buildFixtureIncludesHeader (request : ResolveRequest) : Text :=
  "// GENERATED by Hades Codegen -- do not edit by hand.\n#pragma once\n\n".toList ++
  request.m_Fixtures.flatMap includeLine

/-- The includes of the main file. -/
def buildIncludes : Text :=
  Lines.unlines '\n'
    ["#include <FixtureRegistry.h>".toList, "#include <SuiteDriver.h>".toList,
      "#include <HadesListeners.h>".toList, "#include <Configuration.h>".toList,
      "#include \"".toList ++ FIXTURE_INCLUDES_HEADER_NAME ++ ['"'], [],
      "using namespace Hades::Runtime;".toList, []]

/-- The end of the main file. `GeneratedProgram.main` is what it does. -/
def MAIN_BODY_TEMPLATE : Text :=
  Lines.unlines '\n' (List.map String.toList [
    "namespace \x7b",
    "",
    "\t// Simple '*'-glob matcher (greedy with backtracking) - good enough for",
    "\t// --fbt test-id filters, not a general regex.",
    "\tbool wildcardMatch(const std::string& v_Pattern, const std::string& v_Text) \x7b",
    "\t\tsize_t l_p = 0, l_t = 0, l_star = std::string::npos, l_mark = 0;",
    "\t\twhile (l_t < v_Text.size()) \x7b",
    "\t\t\tif (l_p < v_Pattern.size() && v_Pattern[l_p] == v_Text[l_t]) \x7b",
    "\t\t\t\t++l_p; ++l_t;",
    "\t\t\t\x7d else if (l_p < v_Pattern.size() && v_Pattern[l_p] == '*') \x7b",
    "\t\t\t\tl_star = l_p++;",
    "\t\t\t\tl_mark = l_t;",
    "\t\t\t\x7d else if (l_star != std::string::npos) \x7b",
    "\t\t\t\tl_p = l_star + 1;",
    "\t\t\t\tl_t = ++l_mark;",
    "\t\t\t\x7d else \x7b",
    "\t\t\t\treturn false;",
    "\t\t\t\x7d",
    "\t\t\x7d",
    "\t\twhile (l_p < v_Pattern.size() && v_Pattern[l_p] == '*') \x7b",
    "\t\t\t++l_p;",
    "\t\t\x7d",
    "\t\treturn l_p == v_Pattern.size();",
    "\t\x7d",
    "",
    "\tstruct ExitCodeListener final \x7b",
    "\t\tbool m_anyFailed = false;",
    "",
    "\t\tvoid onTestStart(const std::string&) noexcept \x7b\x7d",
    "",
    "\t\tvoid onTestComplete(const std::string&, const BenchmarkResult& ro_Result) noexcept \x7b",
    "\t\t\tif (ro_Result.runFailed || !ro_Result.deterministic) \x7b",
    "\t\t\t\tm_anyFailed = true;",
    "\t\t\t\x7d",
    "\t\t\x7d",
    "",
    "\t\tvoid onSuiteComplete() noexcept \x7b\x7d",
    "\t\x7d;",
    "",
    "\t// Minimal --format=json tap - prints a JSON array of completed results.",
    "\t// Array brackets are printed by main() around driver.run(), not here,",
    "\t// since onSuiteComplete() has no \"is this the last listener\" signal.",
    "\tstruct JsonListener final \x7b",
    "\t\tbool m_first = true;",
    "",
    "\t\tvoid onTestStart(const std::string&) noexcept \x7b\x7d",
    "",
    "\t\tvoid onTestComplete(const std::string& v_Id, const BenchmarkResult& ro_Result) noexcept \x7b",
    "\t\t\tif (!m_first) \x7b",
    "\t\t\t\tstd::printf(\",\\n\");",
    "\t\t\t\x7d",
    "\t\t\tm_first = false;",
    "\t\t\tconst bool l_passed = !ro_Result.runFailed && ro_Result.deterministic;",
    "\t\t\tstd::printf(\"  \x7b\\\"id\\\": \\\"%s\\\", \\\"passed\\\": %s, \\\"meanThroughput\\\": %.6f, \\\"cv\\\": %.6f, \\\"sliceCount\\\": %u, \"",
    "\t\t\t\t\"\\\"stopReason\\\": \\\"%s\\\", \\\"totalDiscards\\\": %u, \\\"maxConsecutiveDiscards\\\": %u, \\\"levelShifts\\\": %u, \\\"medianSliceWallTime\\\": %.9f\x7d\",",
    "\t\t\t\tv_Id.c_str(), l_passed ? \"true\" : \"false\",",
    "\t\t\t\tro_Result.meanThroughput, ro_Result.cv, ro_Result.sliceCount,",
    "\t\t\t\tstopReasonName(ro_Result.stopReason), ro_Result.totalDiscards,",
    "\t\t\t\tro_Result.maxConsecutiveDiscards, ro_Result.levelShifts, ro_Result.medianSliceWallTime);",
    "\t\t\x7d",
    "",
    "\t\tvoid onSuiteComplete() noexcept \x7b\x7d",
    "\t\x7d;",
    "",
    "\x7d",
    "",
    "int main(int v_Argc, char** p_Argv) \x7b",
    "\tstd::string l_fbtPattern;",
    "\tstd::string l_format = \"console\";",
    "\tunsigned long l_cooldown = 0;",
    "\tfor (int l_i = 1; l_i < v_Argc; ++l_i) \x7b",
    "\t\tconst std::string l_arg = p_Argv[l_i];",
    "\t\tif (l_arg.rfind(\"--fbt=\", 0) == 0) \x7b",
    "\t\t\tl_fbtPattern = l_arg.substr(6);",
    "\t\t\x7d else if (l_arg.rfind(\"--format=\", 0) == 0) \x7b",
    "\t\t\tl_format = l_arg.substr(9);",
    "\t\t\x7d else if (l_arg.rfind(\"--cooldown=\", 0) == 0) \x7b",
    "\t\t\t// Driver already range-checked it; this only guards a hand-run binary.",
    "\t\t\tl_cooldown = std::strtoul(l_arg.c_str() + 11, nullptr, 10);",
    "\t\t\tif (l_cooldown > 65535) l_cooldown = 0;",
    "\t\t\x7d",
    "\t\x7d",
    "",
    "\tFixtureRegistry l_registry;",
    "\tregisterAllFixtures(l_registry);",
    "",
    "\tstd::vector<SuiteTestEntry> l_tests;",
    "\tfor (SuiteTestEntry& r_test : buildSuiteTests()) \x7b",
    "\t\tif (l_fbtPattern.empty() || wildcardMatch(l_fbtPattern, r_test.m_Config.m_Id)) \x7b",
    "\t\t\tl_tests.push_back(std::move(r_test));",
    "\t\t\x7d",
    "\t\x7d",
    "",
    "\tSuiteDriver l_driver(l_registry, std::move(l_tests));",
    "\tl_driver.setCooldown(static_cast<uint16_t>(l_cooldown));",
    "",
    "\tConsoleListener l_console;",
    "\tListenerSupport<ConsoleListener> l_consoleTap(l_console);",
    "\tJsonListener l_json;",
    "\tListenerSupport<JsonListener> l_jsonTap(l_json);",
    "",
    "\tExitCodeListener l_exitTracker;",
    "\tListenerSupport<ExitCodeListener> l_exitTap(l_exitTracker);",
    "",
    "\tconst bool l_useJson = (l_format == \"json\");",
    "\tstd::vector<IHadesListener*> l_listeners;",
    "\tl_listeners.push_back(l_useJson ? static_cast<IHadesListener*>(&l_jsonTap)",
    "\t                                 : static_cast<IHadesListener*>(&l_consoleTap));",
    "\tl_listeners.push_back(&l_exitTap);",
    "",
    "\tif (l_useJson) \x7b",
    "\t\tstd::printf(\"[\\n\");",
    "\t\x7d",
    "\tl_driver.run(l_listeners);",
    "\tif (l_useJson) \x7b",
    "\t\tstd::printf(\"\\n]\\n\");",
    "\t\x7d",
    "",
    "\treturn l_exitTracker.m_anyFailed ? 1 : 0;",
    "\x7d"])

/-- The front of the main file. -/
def mainPreamble : Text :=
  Lines.unlines '\n'
    ["// GENERATED by Hades Codegen -- do not edit by hand.".toList,
      "// Regenerate via IHadesCodegen::resolve() after changing suite.toml or".toList,
      "// registry.ini.".toList, [], "#include <cstdio>".toList, "#include <cstdlib>".toList,
      "#include <string>".toList, "#include <vector>".toList, []] ++
  buildIncludes

/-- The main file of a suite. -/
def buildMainCpp (request : ResolveRequest) : Text :=
  mainPreamble ++ buildRegisterFunction request ++ buildSuiteTestsFunction request ++
    MAIN_BODY_TEMPLATE

/-! ### Included headers -/

/-- The name of a header, between angle brackets or between quotes. -/
inductive HeaderName where
  | system (name : Text)
  | quoted (name : Text)
  deriving DecidableEq

/-- A name up to the delimiter at its end. -/
def delimited? (delimiter : Char) (text : Text) : Option Text :=
  let name := text.takeWhile (· != delimiter)
  if name ≠ [] ∧ text.dropWhile (· != delimiter) = [delimiter] then some name else none

/-- The name of a header between quotes. A file is opened by a `const char*`, and not without a
name. -/
def quotedName? (text : Text) : Option HeaderName :=
  (delimited? '"' text).bind fun name =>
    if cString name = [] then none else some (.quoted (cString name))

/-- The headers that a line at the front of a file includes. -/
def preambleLine? (line : Text) : Option (List HeaderName) :=
  if line = [] ∨ (line.dropPrefix? "//".toList).isSome ∨
      line ∈ ["#pragma once".toList, "using namespace Hades::Runtime;".toList] then some []
  else
    match line.dropPrefix? "#include <".toList with
    | some name => (delimited? '>' name).map ([.system ·])
    | none => (line.dropPrefix? "#include \"".toList).bind fun name =>
      (quotedName? name).map ([·])

/-- Read one line at the front of a file. -/
def preambleStep (headers : List HeaderName) (text : Text) : Option (List HeaderName × Text) :=
  match text.dropWhile (· != '\n') with
  | [] => none
  | _ :: rest => (preambleLine? (text.takeWhile (· != '\n'))).map (headers ++ ·, rest)

/-- The headers that a header includes, if it does nothing else. -/
def readHeader (text : Text) : Option (List HeaderName) :=
  match readAll preambleStep [] text with
  | some (headers, []) => some headers
  | _ => none

/-- What stands in a main file. -/
structure MainSource where
  headers : List HeaderName
  registrations : List RunnerTypes
  tests : List SuiteTestEntry
  body : Text

/-- What follows a function without a block inside. -/
def afterFunction (text : Text) : Text :=
  ((text.dropWhile (· != '\x7d')).drop 1).dropWhile isSpace

/-- Read a main file. -/
def readMainCpp (text : Text) : Option MainSource := do
  let (headers, text) ← readAll preambleStep [] text
  let registrations ← registrations? text
  let (tests, body) ← execTestsFunction (afterFunction text)
  some { headers, registrations, tests, body := body.dropWhile isSpace }

/-! ### Lines at the front -/

/-- Every line shortens the text. -/
theorem shortens_preambleStep : Shortens preambleStep := by
  intro headers text next h
  rw [preambleStep] at h
  split at h
  · cases h
  · next first rest hdrop =>
    obtain ⟨names, -, rfl⟩ := Option.map_eq_some_iff.mp h
    have hle := (List.dropWhile_suffix (· != '\n') : text.dropWhile (· != '\n') <:+ text).length_le
    rw [hdrop, List.length_cons] at hle
    exact hle

/-- A line without a newline in it, as a step. -/
theorem preambleStep_line {line : Text} (h : '\n' ∉ line) (headers : List HeaderName)
    (rest : Text) : preambleStep headers (line ++ ['\n'] ++ rest) =
      (preambleLine? line).map (headers ++ ·, rest) := by
  have hplain : ∀ c ∈ line, (c != '\n') = true := by
    intro c hc
    rw [bne_iff_ne]
    rintro rfl
    exact h hc
  rw [List.append_assoc, preambleStep, List.dropWhile_append_of_pos hplain,
    List.takeWhile_append_of_pos hplain]
  simp

/-- **A series of lines** at the front of a file. -/
theorem reads_preambleLines {lines : List (Text × List HeaderName)}
    (h : ∀ l ∈ lines, '\n' ∉ l.1 ∧ preambleLine? l.1 = some l.2) (headers : List HeaderName) :
    Reads preambleStep headers (Lines.unlines '\n' (lines.map Prod.fst))
      (headers ++ lines.flatMap Prod.snd) := by
  have hline : ∀ l ∈ lines, ∀ headers, Reads preambleStep headers (l.1 ++ ['\n'])
      (headers ++ l.2) := by
    intro l hl headers
    refine Reads.of_step fun rest => ?_
    rw [preambleStep_line (h l hl).1, (h l hl).2]
    rfl
  have hall := Reads.flatMap hline headers
  rw [List.foldl_append_eq_append, ← List.flatMap_def] at hall
  rw [Lines.unlines, List.flatMap_map]
  exact hall

/-- A name between its delimiters. -/
theorem delimited?_concat {delimiter : Char} {name : Text} (hne : name ≠ [])
    (h : delimiter ∉ name) : delimited? delimiter (name ++ [delimiter]) = some name := by
  have hplain : ∀ c ∈ name, (c != delimiter) = true := by
    intro c hc
    rw [bne_iff_ne]
    rintro rfl
    exact h hc
  rw [delimited?, List.takeWhile_append_of_pos hplain, List.dropWhile_append_of_pos hplain]
  simp [hne]

/-- The name that stands between delimiters. -/
theorem of_delimited? {delimiter : Char} {text name : Text}
    (h : delimited? delimiter text = some name) :
    name ≠ [] ∧ delimiter ∉ name ∧ text = name ++ [delimiter] := by
  rw [delimited?] at h
  split at h
  · next hname =>
    obtain rfl := Option.some.inj h
    refine ⟨hname.1, fun hmem => ?_, ?_⟩
    · have hne := List.mem_takeWhile_imp hmem
      simp at hne
    · rw [← hname.2, List.takeWhile_append_dropWhile]
  · cases h

/-! ### The header of the fixtures -/

/-- A path that can be the name of an included header: nothing in it would be escaped. -/
def IsIncludable (path : Text) : Prop :=
  path ≠ [] ∧ ∀ c ∈ ['"', '\\', '\n', '\x00'], c ∉ path

instance (path : Text) : Decidable (IsIncludable path) :=
  inferInstanceAs (Decidable (_ ∧ _))

/-- A name that is read between quotes on a line. -/
def HeaderName.IsOneLine : HeaderName → Prop
  | .system _ => True
  | .quoted name => name ≠ [] ∧ '"' ∉ name ∧ '\n' ∉ name ∧ '\x00' ∉ name

/-- Every quoted name that is read is one. -/
theorem isOneLine_of_preambleLine? {line : Text} (hline : '\n' ∉ line) {names : List HeaderName}
    (h : preambleLine? line = some names) : ∀ name ∈ names, name.IsOneLine := by
  rw [preambleLine?] at h
  split at h
  · obtain rfl := Option.some.inj h
    simp
  · split at h
    · obtain ⟨name, -, rfl⟩ := Option.map_eq_some_iff.mp h
      simp [HeaderName.IsOneLine]
    · obtain ⟨text, htext, h⟩ := Option.bind_eq_some_iff.mp h
      obtain ⟨name, hname, rfl⟩ := Option.map_eq_some_iff.mp h
      rw [quotedName?] at hname
      obtain ⟨whole, hwhole, hopened⟩ := Option.bind_eq_some_iff.mp hname
      obtain ⟨-, hquote, rfl⟩ := of_delimited? hwhole
      have hsub := (suffix_of_dropPrefix? htext).subset
      have hkept : cString whole ⊆ whole := (List.takeWhile_prefix _).subset
      by_cases hne : cString whole = []
      · rw [if_pos hne] at hopened
        cases hopened
      · rw [if_neg hne] at hopened
        obtain rfl := Option.some.inj hopened
        simp only [List.mem_singleton, forall_eq, HeaderName.IsOneLine]
        exact ⟨hne, fun hmem => hquote (hkept hmem),
          fun hmem => hline (hsub (List.mem_append_left _ (hkept hmem))),
          nul_notMem_cString whole⟩

/-- The headers of a file have such names. -/
theorem isOneLine_of_readHeader {text : Text} {headers : List HeaderName}
    (h : readHeader text = some headers) : ∀ name ∈ headers, name.IsOneLine := by
  rw [readHeader] at h
  split at h
  · next hread =>
    obtain rfl := Option.some.inj h
    refine readAll_invariant (fun headers => ∀ name ∈ headers, name.IsOneLine) ?_ hread (by simp)
    intro headers text next hheaders hstep
    rw [preambleStep] at hstep
    split at hstep
    · cases hstep
    · obtain ⟨names, hnames, rfl⟩ := Option.map_eq_some_iff.mp hstep
      have hline : '\n' ∉ text.takeWhile (· != '\n') := by
        intro hmem
        have hne := List.mem_takeWhile_imp hmem
        simp at hne
      intro name hname
      rcases List.mem_append.mp hname with hname | hname
      · exact hheaders name hname
      · exact isOneLine_of_preambleLine? hline hnames name hname
  · cases h

/-- The line of an include. -/
theorem preambleLine?_include {name : Text} (hne : name ≠ []) (hquote : '"' ∉ name)
    (hnul : '\x00' ∉ name) :
    preambleLine? ("#include \"".toList ++ (name ++ ['"'])) = some [.quoted name] := by
  have hother : ("#include \"".toList ++ (name ++ ['"'])).dropPrefix? "#include <".toList =
      none := rfl
  have hcomment : ("#include \"".toList ++ (name ++ ['"'])).dropPrefix? "//".toList = none := rfl
  have hplain : ¬ ("#include \"".toList ++ (name ++ ['"']) = [] ∨
      (("#include \"".toList ++ (name ++ ['"'])).dropPrefix? "//".toList).isSome ∨
      "#include \"".toList ++ (name ++ ['"']) ∈
        ["#pragma once".toList, "using namespace Hades::Runtime;".toList]) := by
    rintro (h | h | h)
    · cases h
    · rw [hcomment] at h
      cases h
    · simp at h
  rw [preambleLine?, if_neg hplain, hother]
  dsimp only
  rw [dropPrefix?_append, Option.bind_some, quotedName?, delimited?_concat hne hquote,
    Option.bind_some, cString_eq_self hnul, if_neg hne]
  rfl

/-- Neither quotes nor newlines are added to a path. -/
theorem notMem_escapeForCppLiteral {path : Text} {c : Char} (hc : c ≠ '\\')
    (h : c ∉ path) : c ∉ escapeForCppLiteral path := by
  intro hmem
  rcases EscapedText.Codec.mem_escape hmem with heq | ⟨d, hd, hencode⟩ | ⟨hmem, -⟩
  · exact hc heq
  · change (if d = '"' ∨ d = '\\' then some d else none) = some c at hencode
    split at hencode
    · obtain rfl := Option.some.inj hencode
      exact h hd
    · cases hencode
  · exact h hmem

/-- The lines of the header of a suite, with the headers they include. -/
def headerLines (fixtures : List FixtureEntry) : List (Text × List HeaderName) :=
  [("// GENERATED by Hades Codegen -- do not edit by hand.".toList, []),
    ("#pragma once".toList, []), ([], [])] ++
  fixtures.map fun fixture =>
    ("#include \"".toList ++ (escapeForCppLiteral fixture.m_HeaderPath ++ ['"']),
      [.quoted (escapeForCppLiteral fixture.m_HeaderPath)])

/-- The header is its lines. -/
theorem buildFixtureIncludesHeader_eq (request : ResolveRequest) :
    buildFixtureIncludesHeader request =
      Lines.unlines '\n' ((headerLines request.m_Fixtures).map Prod.fst) := by
  have hstart : "// GENERATED by Hades Codegen -- do not edit by hand.\n#pragma once\n\n".toList =
      Lines.unlines '\n' ["// GENERATED by Hades Codegen -- do not edit by hand.".toList,
        "#pragma once".toList, []] := by decide +kernel
  have hline (fixture : FixtureEntry) : includeLine fixture =
      "#include \"".toList ++ (escapeForCppLiteral fixture.m_HeaderPath ++ ['"']) ++ ['\n'] := by
    have hend : "\"\n".toList = ['"'] ++ ['\n'] := by decide
    unfold includeLine
    rw [hend]
    simp only [List.append_assoc]
  unfold buildFixtureIncludesHeader headerLines
  rw [hstart, List.map_append, Lines.unlines_append, List.map_map]
  congr 1
  rw [Lines.unlines, List.flatMap_map]
  exact congrArg (fun line => request.m_Fixtures.flatMap line) (funext hline)

/-- The header of a suite, read back: the names are the escaped paths. -/
theorem readHeader_buildFixtureIncludesHeader {request : ResolveRequest}
    (h : ∀ fixture ∈ request.m_Fixtures, (HeaderName.quoted fixture.m_HeaderPath).IsOneLine) :
    readHeader (buildFixtureIncludesHeader request) =
      some (request.m_Fixtures.map fun f => .quoted (escapeForCppLiteral f.m_HeaderPath)) := by
  have hlines : ∀ l ∈ headerLines request.m_Fixtures,
      '\n' ∉ l.1 ∧ preambleLine? l.1 = some l.2 := by
    intro l hl
    rcases List.mem_append.mp hl with hl | hl
    · exact (by decide +kernel : ∀ l ∈ [("// GENERATED by Hades Codegen -- do not edit by hand.".toList,
        ([] : List HeaderName)), ("#pragma once".toList, []), ([], [])],
        '\n' ∉ l.1 ∧ preambleLine? l.1 = some l.2) l hl
    · obtain ⟨fixture, hfixture, rfl⟩ := List.mem_map.mp hl
      obtain ⟨hne, hquote, hnewline, hnul⟩ := h fixture hfixture
      have hescaped : escapeForCppLiteral fixture.m_HeaderPath ≠ [] := by
        have hle := cppEscapes.length_le_escape fixture.m_HeaderPath
        intro hnil
        rw [escapeForCppLiteral] at hnil
        rw [hnil] at hle
        exact hne (List.length_eq_zero_iff.mp (Nat.le_zero.mp hle))
      refine ⟨?_, preambleLine?_include hescaped (notMem_escapeForCppLiteral (by decide) hquote)
        (notMem_escapeForCppLiteral (by decide) hnul)⟩
      rw [List.mem_append, List.mem_append, not_or, not_or]
      exact ⟨by decide, notMem_escapeForCppLiteral (by decide) hnewline, by decide⟩
  have hall := reads_preambleLines hlines []
  have hread := readAll_append_of_reads shortens_preambleStep hall
    (rfl : preambleStep _ [] = none)
  rw [List.append_nil, ← buildFixtureIncludesHeader_eq] at hread
  have hheaders : (headerLines request.m_Fixtures).flatMap Prod.snd =
      request.m_Fixtures.map fun f => .quoted (escapeForCppLiteral f.m_HeaderPath) := by
    rw [headerLines, List.flatMap_append, List.flatMap_map, List.map_eq_flatMap]
    rfl
  rw [readHeader, hread, hheaders]
  rfl

/-- **The header includes the headers of the fixtures**, in order, exactly when all of their
paths can be names of headers. -/
theorem readHeader_buildFixtureIncludesHeader_iff (request : ResolveRequest) :
    readHeader (buildFixtureIncludesHeader request) =
        some (request.m_Fixtures.map fun f => .quoted f.m_HeaderPath) ↔
      ∀ fixture ∈ request.m_Fixtures, IsIncludable fixture.m_HeaderPath := by
  have hencode (c : Char) : cppEscapes.encode c = none ↔ c ≠ '"' ∧ c ≠ '\\' := by
    change (if c = '"' ∨ c = '\\' then some c else none) = none ↔ _
    rw [ite_eq_right_iff, imp_iff_not (Option.some_ne_none c), not_or]
  constructor
  · intro hread fixture hfixture
    have hnames := isOneLine_of_readHeader hread
    have hlines : ∀ f ∈ request.m_Fixtures, (HeaderName.quoted f.m_HeaderPath).IsOneLine :=
      fun f hf => hnames _ (List.mem_map_of_mem hf)
    rw [readHeader_buildFixtureIncludesHeader hlines, Option.some_inj, List.map_inj_left] at hread
    have hself := HeaderName.quoted.inj (hread fixture hfixture)
    obtain ⟨hne, hquote, hnewline, hnul⟩ := hlines fixture hfixture
    have hbackslash : '\\' ∉ fixture.m_HeaderPath := fun hmem =>
      ((hencode _).mp (EscapedText.Codec.escape_eq_self_iff.mp hself _ hmem)).2 rfl
    refine ⟨hne, fun c hc => ?_⟩
    simp only [List.mem_cons, List.not_mem_nil, or_false] at hc
    rcases hc with rfl | rfl | rfl | rfl
    · exact hquote
    · exact hbackslash
    · exact hnewline
    · exact hnul
  · intro h
    rw [readHeader_buildFixtureIncludesHeader fun f hf =>
      ⟨(h f hf).1, (h f hf).2 _ (by simp), (h f hf).2 _ (by simp), (h f hf).2 _ (by simp)⟩,
      Option.some_inj, List.map_inj_left]
    intro f hf
    rw [escapeForCppLiteral, EscapedText.Codec.escape_eq_self_iff.mpr fun c hc => ?_]
    rw [hencode]
    exact ⟨fun heq => (h f hf).2 '"' (by simp) (heq ▸ hc),
      fun heq => (h f hf).2 '\\' (by simp) (heq ▸ hc)⟩

/-! ### The main file -/

/-- The lines at the front of the main file, with the headers they include. -/
def mainLines : List (Text × List HeaderName) :=
  [("// GENERATED by Hades Codegen -- do not edit by hand.".toList, []),
    ("// Regenerate via IHadesCodegen::resolve() after changing suite.toml or".toList, []),
    ("// registry.ini.".toList, []), ([], []),
    ("#include <cstdio>".toList, [.system "cstdio".toList]),
    ("#include <cstdlib>".toList, [.system "cstdlib".toList]),
    ("#include <string>".toList, [.system "string".toList]),
    ("#include <vector>".toList, [.system "vector".toList]), ([], []),
    ("#include <FixtureRegistry.h>".toList, [.system "FixtureRegistry.h".toList]),
    ("#include <SuiteDriver.h>".toList, [.system "SuiteDriver.h".toList]),
    ("#include <HadesListeners.h>".toList, [.system "HadesListeners.h".toList]),
    ("#include <Configuration.h>".toList, [.system "Configuration.h".toList]),
    ("#include \"GeneratedFixtures.h\"".toList, [.quoted FIXTURE_INCLUDES_HEADER_NAME]), ([], []),
    ("using namespace Hades::Runtime;".toList, []), ([], [])]

/-- The front of the main file is these lines. -/
theorem mainPreamble_eq : mainPreamble = Lines.unlines '\n' (mainLines.map Prod.fst) := by
  decide +kernel

/-- **The front of the main file** is read, up to the first function. -/
theorem readAll_mainPreamble (rest : Text) (h : preambleStep (mainLines.flatMap Prod.snd) rest =
    none) : readAll preambleStep [] (mainPreamble ++ rest) =
      some (mainLines.flatMap Prod.snd, rest) := by
  have hlines : ∀ l ∈ mainLines, '\n' ∉ l.1 ∧ preambleLine? l.1 = some l.2 := by decide +kernel
  have hall := reads_preambleLines hlines []
  rw [List.nil_append, ← mainPreamble_eq] at hall
  exact readAll_append_of_reads shortens_preambleStep hall h

/-- The characters before a brace are the same with more text behind it. -/
theorem takeWhile_append_of_brace {body : Text} (h : '\x7d' ∈ body) (rest : Text) :
    (body ++ rest).takeWhile (· != '\x7d') = body.takeWhile (· != '\x7d') ∧
      (body ++ rest).dropWhile (· != '\x7d') = body.dropWhile (· != '\x7d') ++ rest := by
  obtain ⟨before, after, rfl, hbefore⟩ := List.eq_append_cons_of_mem h
  have hplain : ∀ c ∈ before, (c != '\x7d') = true := by
    intro c hc
    rw [bne_iff_ne]
    rintro rfl
    exact hbefore hc
  rw [List.append_assoc, List.takeWhile_append_of_pos hplain, List.takeWhile_append_of_pos hplain,
    List.dropWhile_append_of_pos hplain, List.dropWhile_append_of_pos hplain]
  simp

/-- The registrations are those of the first function. -/
theorem registrations?_append {text : Text} {registrations : List RunnerTypes}
    (h : registrations? text = some registrations) (rest : Text) :
    registrations? (text ++ rest) = some registrations := by
  unfold registrations? at h
  obtain ⟨body, hbody, hcalls⟩ := Option.bind_eq_some_iff.mp h
  obtain ⟨front, rfl, hfront⟩ := List.dropPrefix?_eq_some_iff.mp hbody
  have hmore := List.dropPrefix?_append_of_beq (body ++ rest) hfront
  simp only at hcalls
  split at hcalls
  · next hclosed =>
    rw [List.append_assoc]
    unfold registrations?
    simp only [hmore, Option.bind_eq_bind, Option.bind_some,
      (takeWhile_append_of_brace hclosed.1 rest).1]
    rw [if_pos ⟨List.mem_append_left _ hclosed.1, hclosed.2⟩]
    exact hcalls
  · cases hcalls

/-- The first function does not belong to the front. -/
theorem preambleStep_buildRegisterFunction (request : ResolveRequest) (rest : Text)
    (headers : List HeaderName) :
    preambleStep headers (buildRegisterFunction request ++ rest) = none := by
  have hline : "void registerAllFixtures(FixtureRegistry& ro_Registry) \x7b\n".toList =
      "void registerAllFixtures(FixtureRegistry& ro_Registry) \x7b".toList ++ ['\n'] := by decide
  have hother : preambleLine? "void registerAllFixtures(FixtureRegistry& ro_Registry) \x7b".toList =
      none := by decide +kernel
  unfold buildRegisterFunction
  rw [hline, List.append_assoc, List.append_assoc, preambleStep_line (by decide), hother]
  rfl

/-- The first function of a main file, and what follows it. -/
theorem readRegisterFunction {request : ResolveRequest}
    (h : ∀ fixture ∈ request.m_Fixtures, fixture.IsValid) {rest : Text}
    (hrest : ∀ c ∈ rest.head?, isSpace c = false) :
    registrations? (buildRegisterFunction request ++ rest) =
        some (request.m_Fixtures.map FixtureEntry.runnerTypes) ∧
      afterFunction (buildRegisterFunction request ++ rest) = rest := by
  refine ⟨registrations?_append (registrations?_buildRegisterFunction h) rest, ?_⟩
  have hplain : ∀ c ∈ "void registerAllFixtures(FixtureRegistry& ro_Registry) \x7b".toList ++
      bodyText request.m_Fixtures, (c != '\x7d') = true := by
    intro c hc
    rw [bne_iff_ne]
    rintro rfl
    rcases List.mem_append.mp hc with hc | hc
    · exact absurd hc (by decide)
    · exact brace_notMem_bodyText h hc
  have hdrop : (buildRegisterFunction request ++ rest).dropWhile (· != '\x7d') =
      '\x7d' :: '\n' :: '\n' :: rest := by
    rw [buildRegisterFunction_eq, ← List.append_assoc, List.append_assoc _ _ rest,
      List.dropWhile_append_of_pos hplain]
    simp
  have hspace : ('\n' :: '\n' :: rest).dropWhile isSpace = rest := by
    have hblank : ∀ c ∈ ['\n', '\n'], isSpace c = true := by decide
    have hdropped : (['\n', '\n'] ++ rest).dropWhile isSpace = rest.dropWhile isSpace :=
      List.dropWhile_append_of_pos hblank
    rw [Trimming.dropWhile_of_head hrest] at hdropped
    exact hdropped
  rw [afterFunction, hdrop]
  exact hspace

/-- **The main file, read back**: its headers, the registrations of the fixtures, the tests of
the program, and the text that is the same for every suite. It cannot be read exactly if the
program has no tests. -/
theorem readMainCpp_buildMainCpp {request : ResolveRequest}
    (h : ∀ fixture ∈ request.m_Fixtures, fixture.IsValid) :
    readMainCpp (buildMainCpp request) = (buildSuiteTests request).map fun tests =>
      { headers := mainLines.flatMap Prod.snd
        registrations := request.m_Fixtures.map FixtureEntry.runnerTypes
        tests := tests
        body := MAIN_BODY_TEMPLATE } := by
  have hhead : ∀ c ∈ (buildSuiteTestsFunction request ++ MAIN_BODY_TEMPLATE).head?,
      isSpace c = false := by
    intro c hc
    rw [buildSuiteTestsFunction_eq, List.append_assoc, List.head?_append] at hc
    obtain rfl := Option.some.inj hc
    decide
  obtain ⟨hregistrations, hafter⟩ := readRegisterFunction h hhead
  have hpreamble := readAll_mainPreamble _ (preambleStep_buildRegisterFunction request
    (buildSuiteTestsFunction request ++ MAIN_BODY_TEMPLATE) (mainLines.flatMap Prod.snd))
  have hbody : ('\n' :: MAIN_BODY_TEMPLATE).dropWhile isSpace = MAIN_BODY_TEMPLATE := by
    rw [List.dropWhile_cons_of_pos (by decide)]
    refine Trimming.dropWhile_of_head fun c hc => ?_
    obtain rfl := Option.some.inj ((rfl : MAIN_BODY_TEMPLATE.head? = some 'n').symm.trans hc)
    decide
  rw [buildMainCpp, List.append_assoc, List.append_assoc, readMainCpp, hpreamble]
  simp only [Option.bind_eq_bind, Option.bind_some, hregistrations, hafter,
    execTestsFunction_buildSuiteTestsFunction]
  cases buildSuiteTests request with
  | none => rfl
  | some tests =>
      simp only [Option.map_some, Option.bind_some, hbody]

end Hades.Runtime
