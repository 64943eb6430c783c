import Hades.GeneratedProgram
import Hades.StatementReader

/-!
# The Tests of the Generated Program

What `buildSuiteTests`, the function that the generator writes for the tests of a suite, returns
when it is executed. It declares a list, and then has a block for each test, which declares an
entry, assigns to its fields and moves it to the end of the list.

The interpreter knows these statements, each on a line of its own, and nothing else; a string
literal is read to its closing quote, whatever stands in it, and assigned up to its first NUL.

## Main results

* `reads_testBlock`: **the block of one test**, read to its end.
* `execTestsFunction_buildSuiteTestsFunction`: **the emitted function returns the tests of the
  program**, and cannot be executed exactly if one of them has none.
-/

namespace Hades.Runtime

open StatementReader Relation

/-! ### The interpreter -/

/-- Where the function is: what it has declared, and the block that is open. -/
inductive TestsState where
  | start
  | list (l_tests : List SuiteTestEntry)
  | block (l_tests : List SuiteTestEntry)
  | entry (l_tests : List SuiteTestEntry) (l_entry : SuiteTestEntry)
  | moved (l_tests : List SuiteTestEntry)
  | returned (l_tests : List SuiteTestEntry)

/-- An assignment to a field of the entry; also what follows its semicolon. -/
def execEntryStatement (text : Text) (entry : SuiteTestEntry) : Option (SuiteTestEntry × Text) :=
  match text.dropPrefix? "l_entry.m_FixtureName = ".toList with
  | some value =>
    match readValue value with
    | some (.string name, rest) =>
      (rest.dropPrefix? ";".toList).map ({ entry with m_FixtureName := cString name }, ·)
    | _ => none
  | none => execStatement text entry

/-- Execute one statement; also what follows it. -/
def TestsState.exec : TestsState → Text → Option (TestsState × Text)
  | .start, text =>
    (text.dropPrefix? "std::vector<SuiteTestEntry> l_tests;".toList).map (.list [], ·)
  | .list l_tests, text =>
    match text.dropPrefix? "return l_tests;".toList with
    | some rest => some (.returned l_tests, rest)
    | none => (text.dropPrefix? "\x7b".toList).map (.block l_tests, ·)
  | .block l_tests, text =>
    (text.dropPrefix? "SuiteTestEntry l_entry;".toList).map (.entry l_tests {}, ·)
  | .entry l_tests l_entry, text =>
    match text.dropPrefix? "l_tests.push_back(std::move(l_entry));".toList with
    | some rest => some (.moved (l_tests ++ [l_entry]), rest)
    | none => (execEntryStatement text l_entry).map fun r => (.entry l_tests r.1, r.2)
  | .moved l_tests, text => (text.dropPrefix? "\x7d".toList).map (.list l_tests, ·)
  | .returned _, _ => none

/-- Execute one statement behind white space, and go to the next line. -/
def TestsState.step (state : TestsState) (text : Text) : Option (TestsState × Text) :=
  (state.exec (text.dropWhile isSpace)).bind fun r =>
    (r.2.dropPrefix? "\n".toList).map (r.1, ·)

/-- Execute the function: the list that it returns, and what follows its closing brace. -/
def execTestsFunction (text : Text) : Option (List SuiteTestEntry × Text) := do
  let body ← text.dropPrefix? "std::vector<SuiteTestEntry> buildSuiteTests() \x7b\n".toList
  match readAll TestsState.step .start body with
  | some (.returned l_tests, rest) => (rest.dropPrefix? "\x7d\n".toList).map (l_tests, ·)
  | _ => none

/-! ### Every statement shortens the text -/

/-- What follows a prefix is the end of the text. -/
theorem suffix_of_dropPrefix? {text pre rest : Text} (h : text.dropPrefix? pre = some rest) :
    rest <:+ text := by
  obtain ⟨front, rfl, -⟩ := List.dropPrefix?_eq_some_iff.mp h
  exact List.suffix_append _ _

/-- What follows a right-hand side is the end of the text. -/
theorem readValue_suffix {text rest : Text} {value : CppValue}
    (h : readValue text = some (value, rest)) : rest <:+ text := by
  by_cases hquote : text.head? = some '"'
  · obtain ⟨text, rfl⟩ := List.head?_eq_some_iff.mp hquote
    rw [readValue] at h
    obtain ⟨r, hread, heq⟩ := Option.map_eq_some_iff.mp h
    obtain ⟨-, rfl⟩ := Prod.mk.inj heq
    exact (EscapedText.Codec.readQuoted_suffix hread).trans (List.suffix_cons _ _)
  · rw [readValue_of_ne hquote] at h
    obtain ⟨value, -, heq⟩ := Option.map_eq_some_iff.mp h
    obtain ⟨-, rfl⟩ := Prod.mk.inj heq
    exact List.dropWhile_suffix _

theorem execStatement_suffix {text rest : Text} {entry entry' : SuiteTestEntry}
    (h : execStatement text entry = some (entry', rest)) : rest <:+ text := by
  simp only [execStatement, Option.bind_eq_bind, Option.bind_eq_some_iff] at h
  obtain ⟨field, hfield, value, hvalue, ⟨v, tail⟩, hread, rest', hrest, config, -, heq⟩ := h
  obtain ⟨-, rfl⟩ := Prod.mk.inj (Option.some.inj heq)
  calc
    rest' <:+ tail := suffix_of_dropPrefix? hrest
    _ <:+ value := readValue_suffix hread
    _ <:+ field.dropWhile isIdentChar := suffix_of_dropPrefix? hvalue
    _ <:+ field := List.dropWhile_suffix _
    _ <:+ text.dropWhile isSpace := suffix_of_dropPrefix? hfield
    _ <:+ text := List.dropWhile_suffix _

theorem execEntryStatement_suffix {text rest : Text} {entry entry' : SuiteTestEntry}
    (h : execEntryStatement text entry = some (entry', rest)) : rest <:+ text := by
  rw [execEntryStatement] at h
  split at h
  · next value hvalue =>
    split at h
    · next name tail hread =>
      obtain ⟨rest', hrest, heq⟩ := Option.map_eq_some_iff.mp h
      obtain ⟨-, rfl⟩ := Prod.mk.inj heq
      exact (suffix_of_dropPrefix? hrest).trans
        ((readValue_suffix hread).trans (suffix_of_dropPrefix? hvalue))
    · cases h
  · exact execStatement_suffix h

theorem TestsState.exec_suffix {state state' : TestsState} {text rest : Text}
    (h : state.exec text = some (state', rest)) : rest <:+ text := by
  have hpiece {pre : Text} {next : TestsState}
      (hmap : (text.dropPrefix? pre).map (next, ·) = some (state', rest)) : rest <:+ text := by
    obtain ⟨rest', hrest, heq⟩ := Option.map_eq_some_iff.mp hmap
    obtain ⟨-, rfl⟩ := Prod.mk.inj heq
    exact suffix_of_dropPrefix? hrest
  cases state with
  | start => exact hpiece h
  | list l_tests =>
      rw [exec] at h
      split at h
      · next rest' hrest =>
        obtain ⟨-, rfl⟩ := Prod.mk.inj (Option.some.inj h)
        exact suffix_of_dropPrefix? hrest
      · exact hpiece h
  | block l_tests => exact hpiece h
  | entry l_tests l_entry =>
      rw [exec] at h
      split at h
      · next rest' hrest =>
        obtain ⟨-, rfl⟩ := Prod.mk.inj (Option.some.inj h)
        exact suffix_of_dropPrefix? hrest
      · obtain ⟨r, hr, heq⟩ := Option.map_eq_some_iff.mp h
        obtain ⟨-, rfl⟩ := Prod.mk.inj heq
        exact execEntryStatement_suffix hr
  | moved l_tests => exact hpiece h
  | returned l_tests => cases h

/-- Every statement ends a line. -/
theorem TestsState.shortens_step : Shortens TestsState.step := by
  intro state text next h
  obtain ⟨r, hr, h⟩ := Option.bind_eq_some_iff.mp h
  obtain ⟨rest, hrest, rfl⟩ := Option.map_eq_some_iff.mp h
  obtain ⟨front, hfront, heq⟩ := List.dropPrefix?_eq_some_iff.mp hrest
  have hle := ((exec_suffix hr).trans (List.dropWhile_suffix _)).length_le
  have hline : front.length = 1 := by
    rw [eq_of_beq heq]
    rfl
  rw [hfront, List.length_append] at hle
  change rest.length < text.length
  omega

/-! ### The block of a test -/

/-- A text in front is dropped. -/
theorem dropPrefix?_append (pre rest : Text) : (pre ++ rest).dropPrefix? pre = some rest :=
  List.dropPrefix?_append_of_beq rest BEq.rfl

/-- The end of a line is dropped. -/
theorem dropPrefix?_newline (rest : Text) : ('\n' :: rest).dropPrefix? "\n".toList = some rest :=
  dropPrefix?_append "\n".toList rest

/-- **One line**: a statement behind white space. -/
theorem TestsState.reads_line {state next : TestsState} {pre : Text} (statement : Text)
    (hpre : ∀ c ∈ pre, isSpace c = true) (hhead : ∃ c ∈ statement.head?, isSpace c = false)
    (hexec : ∀ rest, state.exec (statement ++ rest) = some (next, rest)) :
    Reads TestsState.step state (pre ++ (statement ++ ['\n'])) next := by
  refine Reads.of_step fun rest => ?_
  have hspace : (pre ++ (statement ++ ['\n']) ++ rest).dropWhile isSpace =
      statement ++ ('\n' :: rest) := by
    rw [List.append_assoc, List.append_assoc, List.dropWhile_append_of_pos hpre]
    refine Trimming.dropWhile_of_head fun c hc => ?_
    obtain ⟨first, hfirst, hblank⟩ := hhead
    rw [List.head?_append, Option.mem_def.mp hfirst] at hc
    obtain rfl := Option.some.inj hc
    exact hblank
  rw [TestsState.step, hspace, hexec, Option.bind_some]
  exact congrArg (Option.map _) (dropPrefix?_newline rest)

/-- The text of the block of a test. -/
theorem testBlock_eq (test : SuiteTestEntry) :
    testBlock test = "\t\x7b\n".toList ++ ("\t\tSuiteTestEntry l_entry;\n".toList ++
      (assignment "m_FixtureName".toList (stringLiteral test.m_FixtureName) ++
        (appendConfigAssignments test.m_Config ++
          ("\t\tl_tests.push_back(std::move(l_entry));\n".toList ++ "\t\x7d\n".toList)))) := by
  have hopen : "\t\x7b\n\t\tSuiteTestEntry l_entry;\n".toList =
      "\t\x7b\n".toList ++ "\t\tSuiteTestEntry l_entry;\n".toList := by decide
  have hclose : "\t\tl_tests.push_back(std::move(l_entry));\n\t\x7d\n".toList =
      "\t\tl_tests.push_back(std::move(l_entry));\n".toList ++ "\t\x7d\n".toList := by
    decide +kernel
  unfold testBlock
  rw [hopen, hclose]
  simp only [List.append_assoc]

/-- One emitted assignment to the configuration, as a step. -/
theorem step_configAssignment (l_tests : List SuiteTestEntry) (entry : SuiteTestEntry)
    (field value rest : Text) :
    TestsState.step (.entry l_tests entry) (configAssignment field value ++ rest) =
      (execStatement (configAssignment field value ++ rest) entry).bind fun r =>
        (r.2.dropPrefix? "\n".toList).map (.entry l_tests r.1, ·) := by
  rw [configAssignment_append]
  obtain ⟨tail, htail⟩ : ∃ tail, field ++ (" = ".toList ++ (value ++ ';' :: '\n' :: rest)) = tail :=
    ⟨_, rfl⟩
  rw [htail]
  have hexec : (TestsState.entry l_tests entry).exec ("l_entry.m_Config.".toList ++ tail) =
      (execStatement ("\t\t".toList ++ ("l_entry.m_Config.".toList ++ tail)) entry).map
        fun r => (.entry l_tests r.1, r.2) := rfl
  have hspace : ("\t\t".toList ++ ("l_entry.m_Config.".toList ++ tail)).dropWhile isSpace =
      "l_entry.m_Config.".toList ++ tail := rfl
  rw [TestsState.step, hspace, hexec, Option.bind_map]
  rfl

/-- **One emitted assignment** to the configuration is read. -/
theorem reads_emitted (l_tests : List SuiteTestEntry) {entry : SuiteTestEntry} (e : Emitted)
    {config : Config} (h : assignField e.field e.value entry.m_Config = some config) :
    Reads TestsState.step (.entry l_tests entry) (configAssignment e.field e.text)
      (.entry l_tests { entry with m_Config := config }) := by
  refine Reads.of_step fun rest => ?_
  have hstatement := execStatement_configAssignment (by simp : ∀ c ∈ ([] : Text), isSpace c = true)
    e.isKey e.denotes rest entry
  rw [List.nil_append, h, Option.map_some] at hstatement
  rw [step_configAssignment, hstatement, Option.bind_some]
  exact congrArg (Option.map _) (dropPrefix?_newline rest)

/-- **A series of emitted assignments** is read. -/
theorem reads_flatMap_emitted (l_tests : List SuiteTestEntry) (entry : SuiteTestEntry)
    {emitted : List Emitted} {config : Config}
    (h : assignAll emitted entry.m_Config = some config) :
    Reads TestsState.step (.entry l_tests entry)
      (emitted.flatMap fun e => configAssignment e.field e.text)
      (.entry l_tests { entry with m_Config := config }) := by
  induction emitted generalizing entry with
  | nil =>
      obtain rfl := Option.some.inj h
      exact Reads.nil _
  | cons e emitted ih =>
      rw [assignAll, List.foldlM_cons] at h
      obtain ⟨first, hfirst, hrest⟩ := Option.bind_eq_some_iff.mp h
      have hnext := ih { entry with m_Config := first } hrest
      rw [List.flatMap_cons]
      exact (reads_emitted l_tests e hfirst).append hnext

/-- The text of the assignment of the fixture's name. -/
theorem fixtureName_append (name rest : Text) :
    assignment "m_FixtureName".toList (stringLiteral name) ++ rest =
      "\t\t".toList ++ ("l_entry.m_FixtureName = ".toList ++
        (stringLiteral name ++ ';' :: '\n' :: rest)) := by
  have hstart : "\t\tl_entry.".toList ++ "m_FixtureName".toList ++ " = ".toList =
      "\t\t".toList ++ "l_entry.m_FixtureName = ".toList := by decide
  have hend : ";\n".toList = [';', '\n'] := by decide
  unfold assignment
  rw [hstart, hend]
  simp only [List.append_assoc, List.cons_append, List.nil_append]

/-- The assignment of the fixture's name, as a step. -/
theorem step_fixtureName (l_tests : List SuiteTestEntry) (entry : SuiteTestEntry)
    (name rest : Text) :
    TestsState.step (.entry l_tests entry)
        (assignment "m_FixtureName".toList (stringLiteral name) ++ rest) =
      (match readValue (stringLiteral name ++ ';' :: '\n' :: rest) with
        | some (.string name, rest) =>
          (rest.dropPrefix? ";".toList).map ({ entry with m_FixtureName := cString name }, ·)
        | _ => none).bind fun r =>
          (r.2.dropPrefix? "\n".toList).map (.entry l_tests r.1, ·) := by
  rw [fixtureName_append]
  obtain ⟨value, hvalue⟩ : ∃ value, stringLiteral name ++ ';' :: '\n' :: rest = value := ⟨_, rfl⟩
  rw [hvalue]
  have hentry : execEntryStatement ("l_entry.m_FixtureName = ".toList ++ value) entry =
      match readValue value with
      | some (.string name, rest) =>
        (rest.dropPrefix? ";".toList).map ({ entry with m_FixtureName := cString name }, ·)
      | _ => none := by
    rw [execEntryStatement, dropPrefix?_append]
  have hexec : (TestsState.entry l_tests entry).exec ("l_entry.m_FixtureName = ".toList ++ value) =
      (execEntryStatement ("l_entry.m_FixtureName = ".toList ++ value) entry).map
        fun r => (.entry l_tests r.1, r.2) := rfl
  have hspace : ("\t\t".toList ++ ("l_entry.m_FixtureName = ".toList ++ value)).dropWhile
      isSpace = "l_entry.m_FixtureName = ".toList ++ value := rfl
  rw [TestsState.step, hspace, hexec, hentry, Option.bind_map]
  rfl

/-- **The assignment of the fixture's name** is read. -/
theorem reads_fixtureName (l_tests : List SuiteTestEntry) (entry : SuiteTestEntry) {name : Text}
    (h : '\n' ∉ name) :
    Reads TestsState.step (.entry l_tests entry)
      (assignment "m_FixtureName".toList (stringLiteral name))
      (.entry l_tests { entry with m_FixtureName := cString name }) := by
  refine Reads.of_step fun rest => ?_
  have hsemicolon : (';' :: '\n' :: rest).dropPrefix? ";".toList = some ('\n' :: rest) :=
    dropPrefix?_append ";".toList ('\n' :: rest)
  rw [step_fixtureName, denotes_stringLiteral h]
  dsimp only
  rw [hsemicolon, Option.map_some, Option.bind_some]
  exact congrArg (Option.map _) (dropPrefix?_newline rest)

/-- The opening brace of a block. -/
theorem exec_openBlock (l_tests : List SuiteTestEntry) (rest : Text) :
    (TestsState.list l_tests).exec ("\x7b".toList ++ rest) = some (.block l_tests, rest) := by
  have hother : ("\x7b".toList ++ rest).dropPrefix? "return l_tests;".toList = none := rfl
  rw [TestsState.exec, hother, dropPrefix?_append]
  rfl

/-- The block of a test opens and declares its entry. -/
theorem reads_openEntry (l_tests : List SuiteTestEntry) :
    Reads TestsState.step (.list l_tests)
      ("\t\x7b\n".toList ++ "\t\tSuiteTestEntry l_entry;\n".toList) (.entry l_tests {}) := by
  have hopen : Reads TestsState.step (.list l_tests) "\t\x7b\n".toList (.block l_tests) :=
    TestsState.reads_line "\x7b".toList (by decide : ∀ c ∈ ['\t'], isSpace c = true)
      ⟨_, rfl, by decide⟩ (exec_openBlock l_tests)
  have hdeclare : Reads TestsState.step (.block l_tests) "\t\tSuiteTestEntry l_entry;\n".toList
      (.entry l_tests {}) := by
    refine TestsState.reads_line "SuiteTestEntry l_entry;".toList
      (by decide : ∀ c ∈ ['\t', '\t'], isSpace c = true) ⟨'S', rfl, by decide⟩ fun rest => ?_
    rw [TestsState.exec, dropPrefix?_append]
    rfl
  exact hopen.append hdeclare

/-- The entry of a block is moved to the end of the list, and the block closes. -/
theorem reads_moveEntry (l_tests : List SuiteTestEntry) (entry : SuiteTestEntry) :
    Reads TestsState.step (.entry l_tests entry)
      ("\t\tl_tests.push_back(std::move(l_entry));\n".toList ++ "\t\x7d\n".toList)
      (.list (l_tests ++ [entry])) := by
  have hmove : Reads TestsState.step (.entry l_tests entry)
      "\t\tl_tests.push_back(std::move(l_entry));\n".toList (.moved (l_tests ++ [entry])) := by
    refine TestsState.reads_line "l_tests.push_back(std::move(l_entry));".toList
      (by decide : ∀ c ∈ ['\t', '\t'], isSpace c = true) ⟨'l', rfl, by decide⟩ fun rest => ?_
    rw [TestsState.exec, dropPrefix?_append]
  have hclose : Reads TestsState.step (.moved (l_tests ++ [entry])) "\t\x7d\n".toList
      (.list (l_tests ++ [entry])) := by
    refine TestsState.reads_line "\x7d".toList (by decide : ∀ c ∈ ['\t'], isSpace c = true)
      ⟨_, rfl, by decide⟩ fun rest => ?_
    rw [TestsState.exec, dropPrefix?_append]
    rfl
  exact hmove.append hclose

/-- A test whose name and id have no newline. -/
def SuiteTestEntry.IsOneLine (test : SuiteTestEntry) : Prop :=
  '\n' ∉ test.m_FixtureName ∧ '\n' ∉ test.m_Config.m_Id

/-- **The block of one test** is read: its entry is at the end of the list. -/
theorem reads_testBlock {test : SuiteTestEntry} (h : test.IsOneLine)
    (l_tests : List SuiteTestEntry) :
    Reads TestsState.step (.list l_tests) (testBlock test)
      (.list (l_tests ++ [test.compiled])) := by
  have hconfig := reads_flatMap_emitted l_tests { m_FixtureName := cString test.m_FixtureName }
    (assignAll_emittedConfig h.2)
  rw [← appendConfigAssignments_eq_flatMap h.2] at hconfig
  rw [testBlock_eq, ← List.append_assoc "\t\x7b\n".toList]
  exact (reads_openEntry l_tests).append ((reads_fixtureName l_tests {} h.1).append
    (hconfig.append (reads_moveEntry l_tests test.compiled)))

/-- Execution cannot go on. -/
def IsStuck (p : TestsState × Text) : Prop :=
  ∃ l_tests l_entry text, Reaches TestsState.step p (.entry l_tests l_entry, text) ∧
    TestsState.step (.entry l_tests l_entry) text = none

/-- **A newline in a name** stops the execution inside of the block. -/
theorem isStuck_testBlock {test : SuiteTestEntry} (h : ¬ test.IsOneLine)
    (l_tests : List SuiteTestEntry) (rest : Text) :
    IsStuck (.list l_tests, testBlock test ++ rest) := by
  obtain ⟨plain, -, hconfig⟩ := endsPlain_appendConfigAssignments test.m_Config
  have hopen := reads_openEntry l_tests
  rw [testBlock_eq, ← List.append_assoc "\t\x7b\n".toList, hconfig]
  simp only [List.append_assoc] at hopen ⊢
  by_cases hname : '\n' ∈ test.m_FixtureName
  · have hreads := hopen (assignment "m_FixtureName".toList (stringLiteral test.m_FixtureName) ++
      (configAssignment "m_Id".toList (stringLiteral test.m_Config.m_Id) ++ (plain ++
        ("\t\tl_tests.push_back(std::move(l_entry));\n".toList ++ ("\t\x7d\n".toList ++ rest)))))
    rw [List.append_assoc] at hreads
    refine ⟨l_tests, {}, _, hreads, ?_⟩
    rw [step_fixtureName, readValue_stringLiteral_of_newline hname]
    rfl
  · have hid : '\n' ∈ test.m_Config.m_Id := by
      by_contra hid
      exact h ⟨hname, hid⟩
    have hreads := (hopen _).trans (reads_fixtureName l_tests {} hname
      (configAssignment "m_Id".toList (stringLiteral test.m_Config.m_Id) ++ (plain ++
        ("\t\tl_tests.push_back(std::move(l_entry));\n".toList ++ ("\t\x7d\n".toList ++ rest)))))
    rw [List.append_assoc] at hreads
    refine ⟨l_tests, { m_FixtureName := cString test.m_FixtureName }, _, hreads, ?_⟩
    have hstatement := execStatement_eq (by simp : ∀ c ∈ ([] : Text), isSpace c = true)
      (by decide : IsKey "m_Id".toList) (stringLiteral test.m_Config.m_Id)
    simp only [List.nil_append] at hstatement
    rw [step_configAssignment, hstatement, readValue_stringLiteral_of_newline hid]
    rfl

/-! ### The whole function -/

/-- **The blocks of a series of tests.** -/
theorem reads_testBlocks {tests : List SuiteTestEntry} (h : ∀ test ∈ tests, test.IsOneLine)
    (l_tests : List SuiteTestEntry) :
    Reads TestsState.step (.list l_tests) (tests.flatMap testBlock)
      (.list (l_tests ++ tests.map SuiteTestEntry.compiled)) := by
  induction tests generalizing l_tests with
  | nil =>
      rw [List.map_nil, List.append_nil]
      exact Reads.nil _
  | cons test tests ih =>
      have hrest := ih (fun t ht => h t (List.mem_cons_of_mem test ht)) (l_tests ++ [test.compiled])
      rw [List.append_assoc, List.singleton_append] at hrest
      rw [List.flatMap_cons, List.map_cons]
      exact (reads_testBlock (h test List.mem_cons_self) l_tests).append hrest

/-- The first test with a newline in a name stops the execution. -/
theorem isStuck_testBlocks {tests : List SuiteTestEntry} (h : ∃ test ∈ tests, ¬ test.IsOneLine)
    (l_tests : List SuiteTestEntry) (rest : Text) :
    IsStuck (.list l_tests, tests.flatMap testBlock ++ rest) := by
  induction tests generalizing l_tests with
  | nil => simp at h
  | cons test tests ih =>
      rw [List.flatMap_cons, List.append_assoc]
      by_cases hfirst : test.IsOneLine
      · have hlater : ∃ t ∈ tests, ¬ t.IsOneLine := by
          obtain ⟨t, ht, hbad⟩ := h
          rcases List.mem_cons.mp ht with rfl | ht
          · exact absurd hfirst hbad
          · exact ⟨t, ht, hbad⟩
        obtain ⟨ts, entry, text, hreaches, hend⟩ := ih hlater (l_tests ++ [test.compiled])
        exact ⟨ts, entry, text, (reads_testBlock hfirst l_tests _).trans hreaches, hend⟩
      · exact isStuck_testBlock hfirst l_tests _

/-- A test without newlines is built. -/
theorem buildSuiteTest_of_isOneLine {test : SuiteTestEntry} (h : test.IsOneLine) :
    buildSuiteTest test = some test.compiled := by
  rw [buildSuiteTest, denotes_stringLiteral h.1 [], execAssignments_appendConfigAssignments h.2]
  rfl

/-- A test with a newline in a name is not. -/
theorem buildSuiteTest_of_not_isOneLine {test : SuiteTestEntry} (h : ¬ test.IsOneLine) :
    buildSuiteTest test = none := by
  by_contra hsome
  obtain ⟨entry, hentry⟩ := Option.ne_none_iff_exists'.mp hsome
  by_cases hname : '\n' ∈ test.m_FixtureName
  · rw [buildSuiteTest, readValue_stringLiteral_of_newline hname] at hentry
    cases hentry
  · have hid : '\n' ∈ test.m_Config.m_Id := by
      by_contra hid
      exact h ⟨hname, hid⟩
    rw [buildSuiteTest, execAssignments_of_newline hid] at hentry
    split at hentry
    · next hnone => cases hnone
    · cases hentry

/-- The tests of a suite without newlines are built. -/
theorem buildSuiteTests_of_isOneLine {request : ResolveRequest}
    (h : ∀ test ∈ request.m_Tests, test.IsOneLine) :
    buildSuiteTests request = some (request.m_Tests.map SuiteTestEntry.compiled) := by
  obtain ⟨tests, htests⟩ : ∃ tests, request.m_Tests = tests := ⟨_, rfl⟩
  rw [buildSuiteTests, htests]
  rw [htests] at h
  clear htests
  induction tests with
  | nil => rfl
  | cons test tests ih =>
      rw [List.mapM_cons, buildSuiteTest_of_isOneLine (h test List.mem_cons_self),
        ih fun t ht => h t (List.mem_cons_of_mem test ht)]
      rfl

/-- With a newline in some name they are not. -/
theorem buildSuiteTests_of_not_isOneLine {request : ResolveRequest}
    (h : ∃ test ∈ request.m_Tests, ¬ test.IsOneLine) : buildSuiteTests request = none := by
  obtain ⟨tests, htests⟩ : ∃ tests, request.m_Tests = tests := ⟨_, rfl⟩
  rw [buildSuiteTests, htests]
  rw [htests] at h
  clear htests
  induction tests with
  | nil => simp at h
  | cons test tests ih =>
      obtain ⟨t, ht, hbad⟩ := h
      rw [List.mapM_cons]
      rcases List.mem_cons.mp ht with rfl | ht
      · rw [buildSuiteTest_of_not_isOneLine hbad]
        rfl
      · rw [ih ⟨t, ht, hbad⟩]
        cases buildSuiteTest test <;> rfl

/-- The text of the function. -/
theorem buildSuiteTestsFunction_eq (request : ResolveRequest) :
    buildSuiteTestsFunction request =
      "std::vector<SuiteTestEntry> buildSuiteTests() \x7b\n".toList ++
        ("\tstd::vector<SuiteTestEntry> l_tests;\n".toList ++
          (request.m_Tests.flatMap testBlock ++
            ("\treturn l_tests;\n".toList ++ ("\x7d\n".toList ++ ['\n'])))) := by
  have hopen : ("std::vector<SuiteTestEntry> buildSuiteTests() \x7b\n" ++
      "\tstd::vector<SuiteTestEntry> l_tests;\n").toList =
        "std::vector<SuiteTestEntry> buildSuiteTests() \x7b\n".toList ++
          "\tstd::vector<SuiteTestEntry> l_tests;\n".toList := String.toList_append ..
  have hclose : "\treturn l_tests;\n\x7d\n\n".toList =
      "\treturn l_tests;\n".toList ++ ("\x7d\n".toList ++ ['\n']) := by decide
  unfold buildSuiteTestsFunction
  rw [hopen, hclose]
  simp only [List.append_assoc]

/-- **The emitted function returns the tests of the program**; it cannot be executed exactly if
one of them has none. -/
theorem execTestsFunction_buildSuiteTestsFunction (request : ResolveRequest) (rest : Text) :
    execTestsFunction (buildSuiteTestsFunction request ++ rest) =
      (buildSuiteTests request).map (·, '\n' :: rest) := by
  have hdeclare : Reads TestsState.step .start "\tstd::vector<SuiteTestEntry> l_tests;\n".toList
      (.list []) := by
    refine TestsState.reads_line "std::vector<SuiteTestEntry> l_tests;".toList
      (by decide : ∀ c ∈ ['\t'], isSpace c = true) ⟨'s', rfl, by decide⟩ fun rest => ?_
    rw [TestsState.exec, dropPrefix?_append]
    rfl
  have hreturn (tests : List SuiteTestEntry) : Reads TestsState.step (.list tests)
      "\treturn l_tests;\n".toList (.returned tests) := by
    refine TestsState.reads_line "return l_tests;".toList
      (by decide : ∀ c ∈ ['\t'], isSpace c = true) ⟨'r', rfl, by decide⟩ fun rest => ?_
    rw [TestsState.exec, dropPrefix?_append]
  have hbody : execTestsFunction (buildSuiteTestsFunction request ++ rest) =
      match readAll TestsState.step .start ("\tstd::vector<SuiteTestEntry> l_tests;\n".toList ++
        (request.m_Tests.flatMap testBlock ++
          ("\treturn l_tests;\n".toList ++ ("\x7d\n".toList ++ '\n' :: rest)))) with
      | some (.returned l_tests, rest) => (rest.dropPrefix? "\x7d\n".toList).map (l_tests, ·)
      | _ => none := by
    rw [buildSuiteTestsFunction_eq, List.append_assoc, execTestsFunction, dropPrefix?_append]
    simp only [Option.bind_eq_bind, Option.bind_some, List.append_assoc, List.singleton_append]
  rw [hbody]
  by_cases h : ∀ test ∈ request.m_Tests, test.IsOneLine
  · have hall := hdeclare.append ((reads_testBlocks h []).append (hreturn _))
    have hread := readAll_append_of_reads TestsState.shortens_step hall
      (rfl : TestsState.step (.returned _) ("\x7d\n".toList ++ '\n' :: rest) = none)
    rw [List.append_assoc, List.append_assoc] at hread
    rw [hread, buildSuiteTests_of_isOneLine h, Option.map_some]
    dsimp only
    rw [dropPrefix?_append, List.nil_append]
    rfl
  · push Not at h
    obtain ⟨l_tests, l_entry, text, hreaches, hend⟩ := isStuck_testBlocks h [] _
    have hread := readAll_eq_of_reaches TestsState.shortens_step ((hdeclare _).trans hreaches) hend
    rw [hread, buildSuiteTests_of_not_isOneLine h]
    rfl

end Hades.Runtime
