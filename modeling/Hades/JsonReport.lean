import Hades.GeneratedProgram
import Hades.JsonText
import Hades.Utf8

/-!
# The JSON Report

What the generated program prints under `--format=json` (`JsonListener` and `main` in
`HadesCodegen.cpp`): an array with one object for each completed test. The listener remembers
whether it printed an object already, and `main` prints the brackets. A test id goes through
`%s` as it is, up to its first NUL.

A report is read by the grammar of JSON (`JsonText`), and its bytes must be UTF-8. Numbers are
finite here, so that `%.6f` prints digits.

## Main results

* `printed_eq`: the listener puts commas **between** the objects, whatever it hears.
* `isReport_jsonOutput_iff`: the output is a report of the completed tests exactly when every
  id is UTF-8 and contains **no quotes, backslashes or control characters**.
-/

namespace Hades.Runtime

open JsonText

/-! ### What is printed -/

/-- A name, a colon and the text of a value. -/
def jsonField (name : String) (value : Text) : Text :=
  "\"".toList ++ name.toList ++ "\": ".toList ++ value

/-- The object of a completed test. -/
def jsonRecord (id : Text) (result : BenchmarkResult) : Text :=
  "  \x7b".toList ++ jsonField "id" ('"' :: cString id ++ ['"']) ++
  ", ".toList ++ jsonField "passed" (if result.passed then "true".toList else "false".toList) ++
  ", ".toList ++ jsonField "meanThroughput" (DecimalText.roundedText 6 result.meanThroughput) ++
  ", ".toList ++ jsonField "cv" (DecimalText.roundedText 6 result.cv) ++
  ", ".toList ++ jsonField "sliceCount" (DecimalText.natText result.sliceCount.toNat) ++
  ", ".toList ++ jsonField "stopReason"
    ('"' :: (stopReasonName result.stopReason).toList ++ ['"']) ++
  ", ".toList ++ jsonField "totalDiscards" (DecimalText.natText result.totalDiscards.toNat) ++
  ", ".toList ++ jsonField "maxConsecutiveDiscards"
    (DecimalText.natText result.maxConsecutiveDiscards.toNat) ++
  ", ".toList ++ jsonField "levelShifts" (DecimalText.natText result.levelShifts.toNat) ++
  ", ".toList ++ jsonField "medianSliceWallTime"
    (DecimalText.roundedText 9 result.medianSliceWallTime) ++
  "\x7d".toList

/-- Remembers whether an object was printed. -/
structure JsonListener where
  m_first : Bool := true
  deriving DecidableEq

/-- A call of the listener, with what it prints. -/
def JsonListener.handle (listener : JsonListener) : ListenerEvent → JsonListener × Text
  | .onTestComplete id result =>
    ({ m_first := false },
      (if !listener.m_first then ",\n".toList else []) ++ jsonRecord id result)
  | _ => (listener, [])

/-- A series of calls, with everything that is printed. -/
def JsonListener.printed (listener : JsonListener) : List ListenerEvent → Text
  | [] => []
  | event :: events => (listener.handle event).2 ++ (listener.handle event).1.printed events

/-- What the program prints around and during the calls. -/
def jsonOutput (events : List ListenerEvent) : Text :=
  "[\n".toList ++ JsonListener.printed {} events ++ "\n]\n".toList

/-- The completed tests that a listener hears of. -/
def completed (events : List ListenerEvent) : List (Text × BenchmarkResult) :=
  events.filterMap fun
    | .onTestComplete id result => some (id, result)
    | _ => none

/-! ### What a report is -/

/-- A text that stands for an array with one object for each completed test, in order; its only
member `id` is the test's id. -/
def IsReport (tests : List (Text × BenchmarkResult)) (text : Text) : Prop :=
  ∃ chars objects, text = Utf8.encode chars ∧ IsText chars (.array objects) ∧
    List.Forall₂ (fun test object => ∃ id, test.1 = Utf8.encode id ∧
      object.membersNamed "id".toList = [.string id]) tests objects

/-- An id that JSON contains as it is. -/
def IsPlainId (id : Text) : Prop :=
  (∃ chars, id = Utf8.encode chars) ∧ ∀ c ∈ id, IsBare c

/-! ### Commas -/

/-- The text of a series of completed tests, without the brackets. -/
def recordsText (tests : List (Text × BenchmarkResult)) : Text :=
  itemsText ['\n'] (tests.map fun test => jsonRecord test.1 test.2)

/-- The text of a series of completed tests behind another one. -/
def restText (tests : List (Text × BenchmarkResult)) : Text :=
  tests.flatMap fun test => ',' :: (['\n'] ++ jsonRecord test.1 test.2)

theorem recordsText_cons (test : Text × BenchmarkResult) (tests : List (Text × BenchmarkResult)) :
    recordsText (test :: tests) = jsonRecord test.1 test.2 ++ restText tests := by
  rw [recordsText, List.map_cons, itemsText, List.flatMap_map, restText]

theorem restText_cons (test : Text × BenchmarkResult) (tests : List (Text × BenchmarkResult)) :
    restText (test :: tests) = ',' :: (['\n'] ++ recordsText (test :: tests)) := by
  rw [recordsText_cons, restText, List.flatMap_cons, restText, List.cons_append,
    List.append_assoc]

theorem completed_cons_complete (id : Text) (result : BenchmarkResult)
    (events : List ListenerEvent) :
    completed (.onTestComplete id result :: events) = (id, result) :: completed events := rfl

/-- A listener that printed an object starts every other one with a comma. -/
theorem printed_of_not_first (events : List ListenerEvent) :
    JsonListener.printed { m_first := false } events =
      restText (completed events) := by
  induction events with
  | nil => rfl
  | cons event events ih =>
      rw [JsonListener.printed]
      cases event with
      | onTestStart id => exact ih
      | onTestComplete id result =>
          have hcomma : ",\n".toList = [',', '\n'] := by decide
          rw [JsonListener.handle, ih, completed_cons_complete, restText_cons, recordsText_cons,
            hcomma]
          simp only [Bool.not_false, if_true, List.cons_append, List.nil_append]
      | onSuiteComplete => exact ih

/-- **The listener puts commas between the objects**, whatever it hears. -/
theorem printed_eq (events : List ListenerEvent) :
    JsonListener.printed {} events = recordsText (completed events) := by
  induction events with
  | nil => rfl
  | cons event events ih =>
      rw [JsonListener.printed]
      cases event with
      | onTestStart id => exact ih
      | onTestComplete id result =>
          rw [JsonListener.handle, printed_of_not_first, completed_cons_complete,
            recordsText_cons]
          simp only [Bool.not_true, Bool.false_eq_true, if_false, List.nil_append]
      | onSuiteComplete => exact ih

/-- The output for a series of completed tests. -/
def jsonText (tests : List (Text × BenchmarkResult)) : Text :=
  '[' :: (['\n'] ++ (recordsText tests ++ (['\n'] ++ [']']))) ++ ['\n']

theorem jsonOutput_eq (events : List ListenerEvent) :
    jsonOutput events = jsonText (completed events) := by
  have hopen : "[\n".toList = ['[', '\n'] := by decide
  have hclose : "\n]\n".toList = ['\n', ']', '\n'] := by decide
  rw [jsonOutput, printed_eq, hopen, hclose, jsonText]
  simp

/-! ### The members of an object -/

/-- The digits of a number have no leading zero. -/
theorem head?_natText (n : ℕ) :
    (DecimalText.natText n).head? ≠ some '0' ∨ DecimalText.natText n = ['0'] := by
  by_cases hn : n = 0
  · subst hn
    exact Or.inr (by decide)
  · exact Or.inl (DecimalText.head?_natText_ne_zero hn)

/-- **Digits are a number.** -/
theorem isNumber_natText (n : ℕ) : isNumber (DecimalText.natText n) = true := by
  have hunsigned := isUnsigned_append (DecimalText.natText_ne_nil n)
    (fun c hc => DecimalText.isDigit_of_mem_natText hc) (head?_natText n)
    (by simp : ∀ c ∈ ([] : Text).head?, c.isDigit = false)
  rw [List.append_nil] at hunsigned
  exact (isNumber_of_isUnsigned (DecimalText.head?_natText_ne n) (DecimalText.natText_ne_nil n)
    hunsigned).1

/-- **A rounded number is a number**, possibly behind a minus sign. -/
theorem isNumber_roundedText (k : ℕ) (q : ℚ) : isNumber (DecimalText.roundedText k q) = true := by
  obtain ⟨n, hn⟩ : ∃ n, DecimalText.roundedDigits k q = n := ⟨_, rfl⟩
  have hdecimals := DecimalText.natOfText?_eq_some
    (DecimalText.natOfText?_paddedText k (n % 10 ^ k))
  have hhead : (DecimalText.fixedText k n).head? ≠ some '-' := by
    rw [DecimalText.fixedText, List.head?_append_of_ne_nil _ (DecimalText.natText_ne_nil _)]
    exact DecimalText.head?_natText_ne _
  have hne : DecimalText.fixedText k n ≠ [] := by simp [DecimalText.fixedText]
  have hunsigned : isUnsigned (DecimalText.fixedText k n) = true := by
    rw [DecimalText.fixedText, isUnsigned_append (DecimalText.natText_ne_nil _)
      (fun c hc => DecimalText.isDigit_of_mem_natText hc) (head?_natText _)
      (fun c hc => by obtain rfl := Option.some.inj hc; rfl)]
    exact isFraction_point hdecimals.1 hdecimals.2
  obtain ⟨hplain, hminus⟩ := isNumber_of_isUnsigned hhead hne hunsigned
  rw [DecimalText.roundedText, hn]
  split
  · exact hminus
  · exact hplain

/-- The characters of numbers are characters of a token, and ASCII. -/
theorem isTokenChar_number {c : Char} (h : c = '-' ∨ c = '.' ∨ c.isDigit = true) :
    JsonText.isTokenChar c = true ∧ Utf8.IsAscii c := by
  rcases h with rfl | rfl | h
  · decide
  · decide
  · refine ⟨JsonText.isTokenChar_of_isDigit h, ?_⟩
    simp only [Char.isDigit, Bool.and_eq_true, decide_eq_true_eq] at h
    have hle : c.val.toNat ≤ 57 := h.2
    exact Nat.lt_of_le_of_lt hle (by omega)

/-- A member with a natural number. -/
def naturalMember (name : Text) (h : ∀ c ∈ name, IsBare c) (n : ℕ) : Member 1 where
  name := name
  text := DecimalText.natText n
  value := .number (DecimalText.natText n)
  isBare := h
  reads := Reads.number (isNumber_natText n) fun _ hc =>
    (isTokenChar_number (Or.inr (Or.inr (DecimalText.isDigit_of_mem_natText hc)))).1

/-- A member with a rounded number. -/
def roundedMember (name : Text) (h : ∀ c ∈ name, IsBare c) (k : ℕ) (q : ℚ) : Member 1 where
  name := name
  text := DecimalText.roundedText k q
  value := .number (DecimalText.roundedText k q)
  isBare := h
  reads := Reads.number (isNumber_roundedText k q) fun _ hc =>
    (isTokenChar_number (DecimalText.mem_roundedText hc)).1

/-- A member with a string of bare characters. -/
def stringMember (name : Text) (h : ∀ c ∈ name, IsBare c) (value : Text)
    (hvalue : ∀ c ∈ value, IsBare c) : Member 1 where
  name := name
  text := '"' :: (value ++ ['"'])
  value := .string value
  isBare := h
  reads := Reads.string hvalue

/-- A member with a truth value. -/
def boolMember (name : Text) (h : ∀ c ∈ name, IsBare c) (value : Bool) : Member 1 where
  name := name
  text := if value then "true".toList else "false".toList
  value := .bool value
  isBare := h
  reads := Reads.bool value

theorem isBare_stopReasonName (reason : StopReason) :
    ∀ c ∈ (stopReasonName reason).toList, IsBare c := by
  cases reason <;> decide

/-- The members of an object behind the id. -/
def otherMembers (result : BenchmarkResult) : List (Member 1) :=
  [boolMember "passed".toList (by decide) result.passed,
    roundedMember "meanThroughput".toList (by decide) 6 result.meanThroughput,
    roundedMember "cv".toList (by decide) 6 result.cv,
    naturalMember "sliceCount".toList (by decide) result.sliceCount.toNat,
    stringMember "stopReason".toList (by decide) (stopReasonName result.stopReason).toList
      (isBare_stopReasonName result.stopReason),
    naturalMember "totalDiscards".toList (by decide) result.totalDiscards.toNat,
    naturalMember "maxConsecutiveDiscards".toList (by decide)
      result.maxConsecutiveDiscards.toNat,
    naturalMember "levelShifts".toList (by decide) result.levelShifts.toNat,
    roundedMember "medianSliceWallTime".toList (by decide) 9 result.medianSliceWallTime]

/-- The text behind the id. -/
def othersText (result : BenchmarkResult) : Text :=
  (otherMembers result).flatMap (fun m => ',' :: ([' '] ++ memberText m.name m.text)) ++
    ['\x7d']

theorem jsonField_eq (name : String) (value : Text) :
    jsonField name value = memberText name.toList value := by
  have hopen : "\"".toList = ['"'] := by decide
  have hclose : "\": ".toList = ['"', ':', ' '] := by decide
  rw [jsonField, memberText, hopen, hclose]
  simp only [List.append_assoc, List.cons_append, List.nil_append]

/-- **The object of a test** is its id between quotes and the other members. -/
theorem jsonRecord_eq (id : Text) (result : BenchmarkResult) :
    jsonRecord id result = [' ', ' '] ++ '\x7b' ::
      (memberText "id".toList ('"' :: (cString id ++ ['"'])) ++ othersText result) := by
  have hopen : "  \x7b".toList = [' ', ' ', '\x7b'] := by decide
  have hcomma : ", ".toList = [',', ' '] := by decide
  have hclose : "\x7d".toList = ['\x7d'] := by decide
  unfold jsonRecord othersText otherMembers
  rw [hopen, hcomma, hclose]
  simp only [jsonField_eq, boolMember, roundedMember, naturalMember, stringMember,
    List.flatMap_cons, List.flatMap_nil, List.append_assoc, List.cons_append, List.nil_append]

/-- The names of the other members: they are ASCII, and none of them is `id`. -/
theorem name_of_mem_otherMembers {result : BenchmarkResult} {m : Member 1}
    (h : m ∈ otherMembers result) : (∀ c ∈ m.name, Utf8.IsAscii c) ∧ m.name ≠ "id".toList := by
  have hnames : (otherMembers result).map Member.name =
      ["passed", "meanThroughput", "cv", "sliceCount", "stopReason", "totalDiscards",
        "maxConsecutiveDiscards", "levelShifts", "medianSliceWallTime"].map String.toList := rfl
  have hall : ∀ name ∈ ["passed", "meanThroughput", "cv", "sliceCount", "stopReason",
      "totalDiscards", "maxConsecutiveDiscards", "levelShifts", "medianSliceWallTime"].map
        String.toList, (∀ c ∈ name, Utf8.IsAscii c) ∧ name ≠ "id".toList := by decide
  have hname : m.name ∈ (otherMembers result).map Member.name := List.mem_map_of_mem h
  rw [hnames] at hname
  exact hall m.name hname

/-- No other member is named `id`. -/
theorem filter_otherMembers (result : BenchmarkResult) :
    ((otherMembers result).map fun m => (m.name, m.value)).filter (·.1 = "id".toList) = [] := by
  refine List.filter_eq_nil_iff.mpr fun member hmember => ?_
  obtain ⟨m, hm, rfl⟩ := List.mem_map.mp hmember
  rw [decide_eq_true_eq]
  exact (name_of_mem_otherMembers hm).2

/-! ### Bytes -/

/-- The characters of a number are ASCII characters. -/
theorem isAscii_natText (n : ℕ) : ∀ c ∈ DecimalText.natText n, Utf8.IsAscii c :=
  fun _ hc => (isTokenChar_number (Or.inr (Or.inr (DecimalText.isDigit_of_mem_natText hc)))).2

theorem isAscii_roundedText (k : ℕ) (q : ℚ) : ∀ c ∈ DecimalText.roundedText k q, Utf8.IsAscii c :=
  fun _ hc => (isTokenChar_number (DecimalText.mem_roundedText hc)).2

/-- The texts of the other members are ASCII. -/
theorem isAscii_text_of_mem_otherMembers {result : BenchmarkResult} {m : Member 1}
    (h : m ∈ otherMembers result) : ∀ c ∈ m.text, Utf8.IsAscii c := by
  have hquoted : ∀ reason, ∀ c ∈ '"' :: ((stopReasonName reason).toList ++ ['"']),
      Utf8.IsAscii c := by
    intro reason
    cases reason <;> decide
  have hbool : ∀ value : Bool, ∀ c ∈ (if value then "true".toList else "false".toList),
      Utf8.IsAscii c := by decide
  simp only [otherMembers, List.mem_cons, List.not_mem_nil, or_false] at h
  rcases h with rfl | rfl | rfl | rfl | rfl | rfl | rfl | rfl | rfl
  · exact hbool result.passed
  · exact isAscii_roundedText 6 _
  · exact isAscii_roundedText 6 _
  · exact isAscii_natText _
  · exact hquoted result.stopReason
  · exact isAscii_natText _
  · exact isAscii_natText _
  · exact isAscii_natText _
  · exact isAscii_roundedText 9 _

/-- The text behind the id is ASCII. -/
theorem isAscii_othersText (result : BenchmarkResult) :
    ∀ c ∈ othersText result, Utf8.IsAscii c := by
  intro c hc
  rcases List.mem_append.mp hc with hc | hc
  · obtain ⟨m, hm, hc⟩ := List.mem_flatMap.mp hc
    have hname := (name_of_mem_otherMembers hm).1
    have htext := isAscii_text_of_mem_otherMembers hm
    simp only [memberText, List.mem_cons, List.mem_append, List.not_mem_nil, or_false] at hc
    rcases hc with rfl | rfl | rfl | hc | rfl | rfl | rfl | hc
    · decide
    · decide
    · decide
    · exact hname c hc
    · decide
    · decide
    · decide
    · exact htext c hc
  · obtain rfl := List.mem_singleton.mp hc
    decide

/-- **The bytes of an object** are the object of the id's bytes. -/
theorem encode_jsonRecord (id : Text) (result : BenchmarkResult) :
    Utf8.encode (jsonRecord id result) = jsonRecord (Utf8.encode id) result := by
  obtain ⟨start, hstart⟩ : ∃ start, start = [' ', ' ', '\x7b', '"'] ++ "id".toList ++
    ['"', ':', ' ', '"'] := ⟨_, rfl⟩
  have hascii : ∀ c ∈ start, Utf8.IsAscii c := by
    rw [hstart]
    decide
  have hrecord (id : Text) : jsonRecord id result =
      start ++ (cString id ++ (['"'] ++ othersText result)) := by
    rw [jsonRecord_eq, hstart, memberText]
    simp only [List.append_assoc, List.cons_append, List.nil_append]
  have hnul : Utf8.encode (cString id) = cString (Utf8.encode id) :=
    Utf8.encode_takeWhile (by decide) id
  have hend : ∀ c ∈ ['"'] ++ othersText result, Utf8.IsAscii c :=
    List.forall_mem_append.mpr ⟨by decide, isAscii_othersText result⟩
  rw [hrecord, hrecord, Utf8.encode_append_of_isAscii hascii, Utf8.encode_append, hnul,
    Utf8.encode_of_isAscii hend]

/-- The completed tests with the bytes of their ids. -/
def encodeIds (tests : List (Text × BenchmarkResult)) : List (Text × BenchmarkResult) :=
  tests.map fun test => (Utf8.encode test.1, test.2)

theorem encode_restText (tests : List (Text × BenchmarkResult)) :
    Utf8.encode (restText tests) = restText (encodeIds tests) := by
  induction tests with
  | nil => rfl
  | cons test tests ih =>
      have hids : encodeIds (test :: tests) = (Utf8.encode test.1, test.2) :: encodeIds tests := rfl
      have hsep : ∀ c ∈ [',', '\n'], Utf8.IsAscii c := by decide
      have htext (tests : List (Text × BenchmarkResult)) (test : Text × BenchmarkResult) :
          restText (test :: tests) =
            [',', '\n'] ++ (jsonRecord test.1 test.2 ++ restText tests) := by
        rw [restText_cons, recordsText_cons]
        rfl
      rw [hids, htext, htext, Utf8.encode_append_of_isAscii hsep, Utf8.encode_append,
        encode_jsonRecord, ih]

/-- **The bytes of the output** are the output for the bytes of the ids. -/
theorem encode_jsonText (tests : List (Text × BenchmarkResult)) :
    Utf8.encode (jsonText tests) = jsonText (encodeIds tests) := by
  have hrecords : Utf8.encode (recordsText tests) = recordsText (encodeIds tests) := by
    cases tests with
    | nil => rfl
    | cons test tests =>
        have hids : encodeIds (test :: tests) = (Utf8.encode test.1, test.2) :: encodeIds tests :=
          rfl
        rw [hids, recordsText_cons, recordsText_cons, Utf8.encode_append, encode_jsonRecord,
          encode_restText]
  have hopen : ∀ c ∈ ['[', '\n'], Utf8.IsAscii c := by decide
  have hclose : ∀ c ∈ ['\n', ']', '\n'], Utf8.IsAscii c := by decide
  have htext (tests : List (Text × BenchmarkResult)) :
      jsonText tests = ['[', '\n'] ++ (recordsText tests ++ ['\n', ']', '\n']) := by
    simp [jsonText]
  rw [htext, htext, Utf8.encode_append_of_isAscii hopen, Utf8.encode_append, hrecords,
    Utf8.encode_of_isAscii hclose]

/-! ### Plain ids -/

/-- An object with one member `id`, the id of a test. -/
def ReportsId (test : Text × BenchmarkResult) (object : Json) : Prop :=
  object.membersNamed "id".toList = [.string test.1]

/-- A text of bare characters is printed whole. -/
theorem cString_of_isBare {id : Text} (h : ∀ c ∈ id, IsBare c) : cString id = id := by
  rw [cString]
  refine List.takeWhile_eq_self_iff.mpr fun c hc => ?_
  rw [decide_eq_true_eq]
  rintro rfl
  exact absurd (h _ hc).2.2 (by decide)

/-- The value of an object. -/
def recordValue (id : Text) (result : BenchmarkResult) : Json :=
  .object (("id".toList, .string id) :: (otherMembers result).map fun m => (m.name, m.value))

/-- **The object of a test with a plain id** is read. -/
theorem reads_jsonRecord {id : Text} (h : ∀ c ∈ id, IsBare c) (result : BenchmarkResult) :
    Reads 11 (jsonRecord id result) (recordValue id result) := by
  obtain ⟨idMember, hidMember⟩ : ∃ m, m = stringMember "id".toList (by decide) id h := ⟨_, rfl⟩
  have hobject := Reads.object (List.cons_ne_nil idMember (otherMembers result))
  have hbudget : max 1 (idMember :: otherMembers result).length + 1 = 11 := rfl
  have htext : '\x7b' :: (itemsText [' '] ((idMember :: otherMembers result).map
      fun m => memberText m.name m.text) ++ ['\x7d']) = '\x7b' ::
        (memberText "id".toList ('"' :: (cString id ++ ['"'])) ++ othersText result) := by
    rw [hidMember, cString_of_isBare h, List.map_cons, itemsText, List.flatMap_map,
      List.append_assoc]
    rfl
  have hvalue : (idMember :: otherMembers result).map (fun m => (m.name, m.value)) =
      ("id".toList, .string id) :: (otherMembers result).map fun m => (m.name, m.value) := by
    rw [hidMember]
    rfl
  rw [hbudget, htext, hvalue] at hobject
  rw [jsonRecord_eq]
  exact hobject.append_blank (by decide)

theorem reportsId_recordValue (id : Text) (result : BenchmarkResult) :
    ReportsId (id, result) (recordValue id result) := by
  rw [ReportsId, recordValue, Json.membersNamed, List.filter_cons_of_pos (by simp),
    filter_otherMembers]
  rfl

/-- **The output for plain ids** is an array of the objects. -/
theorem isText_jsonText {tests : List (Text × BenchmarkResult)}
    (h : ∀ test ∈ tests, ∀ c ∈ test.1, IsBare c) :
    IsText (jsonText tests) (.array (tests.map fun test => recordValue test.1 test.2)) := by
  obtain ⟨items, hitems⟩ : ∃ items, items = tests.map fun test =>
    (jsonRecord test.1 test.2, recordValue test.1 test.2) := ⟨_, rfl⟩
  have hreads : ∀ i ∈ items, Reads 11 i.1 i.2 := by
    intro i hi
    rw [hitems] at hi
    obtain ⟨test, htest, rfl⟩ := List.mem_map.mp hi
    exact reads_jsonRecord (h test htest) test.2
  have hstart : ∀ i ∈ items, ∃ pad c cs, i.1 = pad ++ c :: cs ∧
      (∀ d ∈ pad, isBlank d = true) ∧ isBlank c = false ∧ c ≠ ']' := by
    intro i hi
    rw [hitems] at hi
    obtain ⟨test, -, rfl⟩ := List.mem_map.mp hi
    exact ⟨_, _, _, jsonRecord_eq test.1 test.2, by decide, by decide, by decide⟩
  have hblank : ∀ c ∈ ['\n'], isBlank c = true := by decide
  have harray := (Reads.array hreads hstart hblank hblank hblank).isText hblank
  rw [hitems, List.map_map, List.map_map] at harray
  exact harray

/-! ### Only plain ids -/

theorem memberText_append (name text rest : List Char) :
    memberText name text ++ rest = memberText name (text ++ rest) := by
  simp [memberText]

/-- **An object that reports the id of its test** is the object of a plain id. -/
theorem isBare_of_readValue {n : ℕ} {pre rest rest' : Text} {test : Text × BenchmarkResult}
    {object : Json} (hpre : ∀ c ∈ pre, isBlank c = true)
    (h : JsonText.readValue n (pre ++ (jsonRecord test.1 test.2 ++ rest)) = some (object, rest'))
    (hid : ReportsId test object) : ∀ c ∈ test.1, IsBare c := by
  obtain ⟨after, hothers⟩ : ∃ after, othersText test.2 = [','] ++ ' ' :: '"' :: 'p' :: after :=
    ⟨_, rfl⟩
  have hpad := isBlank_append hpre (by decide : ∀ c ∈ [' ', ' '], isBlank c = true)
  have htext : pre ++ (jsonRecord test.1 test.2 ++ rest) = (pre ++ [' ', ' ']) ++ '\x7b' ::
      memberText "id".toList ('"' :: (cString test.1 ++ '"' ::
        ([','] ++ ' ' :: '"' :: 'p' :: (after ++ rest)))) := by
    rw [jsonRecord_eq, hothers]
    simp only [memberText_append, List.append_assoc, List.cons_append, List.nil_append]
  rw [htext] at h
  obtain ⟨text, behind, members, d, ds, hread, rfl, hskip, hd⟩ :=
    readValue_firstMember hpad (by decide) h
  have hvalue : text = test.1 := by
    rw [ReportsId, Json.membersNamed, List.filter_cons_of_pos (by simp), List.map_cons] at hid
    exact Json.string.inj (List.cons.inj hid).1
  have hlength : (cString test.1).length ≤ text.length := by
    rw [hvalue]
    exact (List.takeWhile_sublist _).length_le
  rcases readString_quote hread hlength (by decide) (by decide) with ⟨htake, hbare, -⟩ | rfl
  · rw [← htake, hvalue] at hbare
    exact hbare
  · -- behind the next quote stands the `p` of `passed`
    rw [skipBlank_cons (by decide)] at hskip
    obtain rfl := (List.cons.inj hskip).1
    rcases hd with hd | hd
    · exact absurd hd (by decide)
    · exact absurd hd (by decide)

/-- **The first of a series of objects** that report the ids of their tests: its id is plain,
and the other objects are read from the text behind it. -/
theorem isBare_of_readItems_cons {b n : ℕ} {pre rest rest' : Text}
    {test : Text × BenchmarkResult} {tests : List (Text × BenchmarkResult)} {object : Json}
    {objects : List Json} (hpre : ∀ c ∈ pre, isBlank c = true)
    (h : readItems (JsonText.readValue b) ']' n
      (pre ++ (recordsText (test :: tests) ++ '\n' :: rest)) = some (object :: objects, rest'))
    (hid : ReportsId test object) :
    (∀ c ∈ test.1, IsBare c) ∧ (objects = [] ∨
      ∃ k cs, skipBlank (restText tests ++ '\n' :: rest) = ',' :: cs ∧
        readItems (JsonText.readValue b) ']' k cs = some (objects, rest')) := by
  obtain ⟨first, behind, k, -, hfirst, hnext⟩ := readItems_eq_some h
  obtain rfl : first = object := by
    rcases hnext with ⟨_, _, -, -, heq⟩ | ⟨-, heq⟩
    · exact (List.cons.inj heq).1.symm
    · exact (List.cons.inj heq).1.symm
  rw [recordsText_cons, List.append_assoc] at hfirst
  have hbare := isBare_of_readValue hpre hfirst hid
  have hdelimited : StartsDelimited (restText tests ++ '\n' :: rest) := by
    cases tests with
    | nil => exact startsDelimited_cons (by decide) _
    | cons second tests =>
        rw [restText_cons]
        exact startsDelimited_cons (by decide) _
  have hread := reads_jsonRecord hbare test.2 11 (Nat.le_refl 11) pre hpre _ hdelimited
  obtain rfl : behind = restText tests ++ '\n' :: rest :=
    congrArg Prod.snd (readValue_unique hfirst hread)
  refine ⟨hbare, ?_⟩
  rcases hnext with ⟨cs, others, hskip, hothers, heq⟩ | ⟨-, heq⟩
  · obtain rfl := (List.cons.inj heq).2
    exact Or.inr ⟨k, cs, hskip, hothers⟩
  · exact Or.inl (List.cons.inj heq).2

/-- **A series of objects that report the ids of their tests**: every id is plain. -/
theorem isBare_of_readItems {b n : ℕ} {pre rest rest' : Text} {test : Text × BenchmarkResult}
    {tests : List (Text × BenchmarkResult)} {objects : List Json}
    (hpre : ∀ c ∈ pre, isBlank c = true)
    (h : readItems (JsonText.readValue b) ']' n
      (pre ++ (recordsText (test :: tests) ++ '\n' :: rest)) = some (objects, rest'))
    (hids : List.Forall₂ ReportsId (test :: tests) objects) :
    ∀ t ∈ test :: tests, ∀ c ∈ t.1, IsBare c := by
  induction tests generalizing n pre test objects with
  | nil =>
      obtain ⟨object, objects, hid, -, rfl⟩ := List.forall₂_cons_left_iff.mp hids
      have hfirst := (isBare_of_readItems_cons hpre h hid).1
      exact List.forall_mem_cons.mpr ⟨hfirst, by simp⟩
  | cons second tests ih =>
      obtain ⟨object, objects, hid, hothers, rfl⟩ := List.forall₂_cons_left_iff.mp hids
      obtain ⟨hfirst, hnext⟩ := isBare_of_readItems_cons hpre h hid
      refine List.forall_mem_cons.mpr ⟨hfirst, ?_⟩
      rcases hnext with rfl | ⟨k, cs, hskip, hread⟩
      · cases hothers
      · rw [restText_cons, List.cons_append, skipBlank_cons (by decide)] at hskip
        obtain rfl := (List.cons.inj hskip).2
        rw [List.append_assoc] at hread
        exact ih (by decide) hread hothers

/-- **Only an output for plain ids** is an array of objects that report the ids. -/
theorem isBare_of_isText {tests : List (Text × BenchmarkResult)} {objects : List Json}
    (h : IsText (jsonText tests) (.array objects))
    (hids : List.Forall₂ ReportsId tests objects) : ∀ test ∈ tests, ∀ c ∈ test.1, IsBare c := by
  cases tests with
  | nil => simp
  | cons test tests =>
      obtain ⟨n, rest, hread, -⟩ := h
      cases n with
      | zero => cases hread
      | succ n =>
          obtain ⟨behind, hbehind⟩ : ∃ behind, recordsText (test :: tests) =
              [' ', ' '] ++ '\x7b' :: behind := by
            rw [recordsText_cons, jsonRecord_eq]
            exact ⟨_, List.append_assoc _ _ _⟩
          have htext : jsonText (test :: tests) =
              '[' :: (['\n'] ++ (recordsText (test :: tests) ++ '\n' :: [']', '\n'])) := by
            simp [jsonText]
          have hsequence : readSequence (JsonText.readValue n) ']' n
              (['\n'] ++ (recordsText (test :: tests) ++ '\n' :: [']', '\n'])) =
                readItems (JsonText.readValue n) ']' n
                  (['\n'] ++ (recordsText (test :: tests) ++ '\n' :: [']', '\n'])) := by
            rw [hbehind]
            exact readSequence_append _ (by decide) (by decide) n
              (by decide : ∀ c ∈ ['\n', ' ', ' '], isBlank c = true) _
          rw [htext, JsonText.readValue, skipBlank_cons (by decide)] at hread
          simp only [show ('[' = '"') = False by decide, if_false, if_true, hsequence] at hread
          obtain ⟨⟨items, tail⟩, hitems, heq⟩ := Option.map_eq_some_iff.mp hread
          obtain ⟨hobjects, -⟩ := Prod.mk.inj heq
          obtain rfl := Json.array.inj hobjects
          exact isBare_of_readItems (by decide) hitems hids

/-! ### Reports -/

/-- The tests with the texts that their ids are the bytes of. -/
theorem exists_encodeIds {tests : List (Text × BenchmarkResult)} {objects : List Json}
    (h : List.Forall₂ (fun test object => ∃ id, test.1 = Utf8.encode id ∧
      object.membersNamed "id".toList = [.string id]) tests objects) :
    ∃ decoded, tests = encodeIds decoded ∧ List.Forall₂ ReportsId decoded objects := by
  induction tests generalizing objects with
  | nil =>
      obtain rfl := List.forall₂_nil_left_iff.mp h
      exact ⟨[], rfl, .nil⟩
  | cons test tests ih =>
      obtain ⟨object, objects, ⟨id, hid, hmember⟩, hothers, rfl⟩ :=
        List.forall₂_cons_left_iff.mp h
      obtain ⟨decoded, rfl, hdecoded⟩ := ih hothers
      refine ⟨(id, test.2) :: decoded, ?_, .cons hmember hdecoded⟩
      rw [encodeIds, encodeIds, List.map_cons, ← hid]

/-- A text is bare exactly when its bytes are. -/
theorem isBare_encode_iff (id : Text) :
    (∀ c ∈ Utf8.encode id, IsBare c) ↔ ∀ c ∈ id, IsBare c := by
  have hascii {c : Char} (h : ¬ IsBare c) : Utf8.IsAscii c := by
    by_contra hnot
    have hle : 0x80 ≤ c.toNat := Nat.le_of_not_lt hnot
    refine h ⟨?_, ?_, by omega⟩
    all_goals
      rintro rfl
      exact absurd hle (by decide)
  constructor
  · intro h c hc
    by_contra hbare
    exact hbare (h c ((Utf8.mem_encode_iff (hascii hbare) id).mpr hc))
  · intro h c hc
    by_contra hbare
    exact hbare (h c ((Utf8.mem_encode_iff (hascii hbare) id).mp hc))

/-- Plain ids are the bytes of texts. -/
theorem exists_encodeIds_of_isPlainId {tests : List (Text × BenchmarkResult)}
    (h : ∀ test ∈ tests, IsPlainId test.1) : ∃ decoded, tests = encodeIds decoded := by
  induction tests with
  | nil => exact ⟨[], rfl⟩
  | cons test tests ih =>
      obtain ⟨⟨id, hid⟩, -⟩ := h test List.mem_cons_self
      obtain ⟨decoded, hdecoded⟩ := ih fun t ht => h t (List.mem_cons_of_mem test ht)
      refine ⟨(id, test.2) :: decoded, ?_⟩
      rw [hdecoded, encodeIds, encodeIds, List.map_cons, ← hid]

/-- **A series of completed tests is reported** exactly when their ids are plain. -/
theorem isReport_jsonText_iff (tests : List (Text × BenchmarkResult)) :
    IsReport tests (jsonText tests) ↔ ∀ test ∈ tests, IsPlainId test.1 := by
  constructor
  · rintro ⟨chars, objects, hbytes, htext, hids⟩
    obtain ⟨decoded, rfl, hdecoded⟩ := exists_encodeIds hids
    rw [← encode_jsonText] at hbytes
    obtain rfl := Utf8.encode_injective hbytes
    intro test htest
    obtain ⟨original, horiginal, rfl⟩ := List.mem_map.mp htest
    exact ⟨⟨original.1, rfl⟩, (isBare_encode_iff original.1).mpr
      (isBare_of_isText htext hdecoded original horiginal)⟩
  · intro h
    obtain ⟨decoded, rfl⟩ := exists_encodeIds_of_isPlainId h
    have hbare : ∀ test ∈ decoded, ∀ c ∈ test.1, IsBare c := fun test htest =>
      (isBare_encode_iff test.1).mp (h _ (List.mem_map_of_mem htest)).2
    refine ⟨_, _, (encode_jsonText decoded).symm, isText_jsonText hbare, ?_⟩
    rw [encodeIds, List.forall₂_map_left_iff, List.forall₂_map_right_iff]
    exact List.forall₂_same.mpr fun test _ => ⟨test.1, rfl, reportsId_recordValue test.1 test.2⟩

/-- **The output is a report** of the completed tests exactly when every id is UTF-8 and
contains no quotes, backslashes or control characters. -/
theorem isReport_jsonOutput_iff (events : List ListenerEvent) :
    IsReport (completed events) (jsonOutput events) ↔
      ∀ test ∈ completed events, IsPlainId test.1 := by
  rw [jsonOutput_eq]
  exact isReport_jsonText_iff (completed events)

/-- An id with quotes and backslashes ends its string too early. -/
theorem isReport_jsonOutput_quotes :
    let id := "has \"quotes\" and \\backslash\\".toList
    ¬ IsReport [(id, {})]
      (jsonOutput [.onTestStart id, .onTestComplete id {}, .onSuiteComplete]) := by
  intro id
  rw [jsonOutput_eq]
  intro h
  have hplain := (isReport_jsonText_iff [(id, {})]).mp h (id, {}) List.mem_cons_self
  exact absurd (hplain.2 '"' (by decide)) (by decide)

end Hades.Runtime
