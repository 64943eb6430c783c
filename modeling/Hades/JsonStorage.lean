import Hades.JsonReport
import Hades.Lines
import Hades.SignificantText
import Hades.Storage

/-!
# Results in a JSON File

The storage backend that appends each result to a file, one JSON object a line
(`JsonStorageBackend` in `HadesStorage.h`). The file is opened for appending when the backend
is built and closed with it, so a file collects the results of many sessions; a backend that
cannot open its file stores nothing.

The numbers go through `%.9g`: nine significant digits. Numbers are finite here, and writes to
an opened file succeed.

## Main results

* `records_recordLine`: the line of a result **stands for its object**, member by member.
* `recordsAll_runSessions`: whatever the sessions, **the file keeps its lines** and gets one line
  for each stored result, in order.
* `recordsAll_runSuites`: the same of suite runs with the backend behind a listener.
-/

namespace Hades.Runtime

open JsonText

/-! ### What is written -/

/-- A value of a record: `%.9g`, an unsigned number, or a truth value. -/
inductive StoredValue where
  | real (value : ℚ)
  | natural (value : ℕ)
  | truth (value : Bool)

/-- The text of a value. -/
def StoredValue.text : StoredValue → Text
  | .real value => DecimalText.generalText 9 value
  | .natural value => DecimalText.natText value
  | .truth value => if value then "true".toList else "false".toList

/-- The fields of a record, in the order of the format. -/
def storedFields (ro_R : BenchmarkResult) : List (String × StoredValue) :=
  [("meanThroughput", .real ro_R.meanThroughput),
    ("stddev", .real ro_R.stddev),
    ("cv", .real ro_R.cv),
    ("sliceCount", .natural ro_R.sliceCount.toNat),
    ("finalSliceWallTime", .real ro_R.finalSliceWallTime),
    ("threadCount", .natural ro_R.threadCount.toNat),
    ("iterationsPerSlice", .natural ro_R.iterationsPerSlice.toNat),
    ("minSlices", .natural ro_R.minSlices.toNat),
    ("maxSlices", .natural ro_R.maxSlices.toNat),
    ("cvThreshold", .real ro_R.cvThreshold),
    ("warmupCount", .natural ro_R.warmupCount.toNat),
    ("deterministic", .truth ro_R.deterministic),
    ("referenceHash", .natural ro_R.referenceHash.toNat),
    ("uniqueHashCount", .natural ro_R.uniqueHashCount.toNat),
    ("firstDivergenceSlice", .natural ro_R.firstDivergenceSlice.toNat),
    ("totalRunTime", .real ro_R.totalRunTime),
    ("isGpuRun", .truth ro_R.isGpuRun),
    ("cpuWallTimeMean", .real ro_R.cpuWallTimeMean),
    ("cpuWallTimeStddev", .real ro_R.cpuWallTimeStddev),
    ("deviceKernelTimeMean", .real ro_R.deviceKernelTimeMean),
    ("deviceKernelTimeStddev", .real ro_R.deviceKernelTimeStddev),
    ("driverOverheadMean", .real ro_R.driverOverheadMean),
    ("driverOverheadStddev", .real ro_R.driverOverheadStddev),
    ("pcieTransferTime", .real ro_R.pcieTransferTime)]

/-- The line of a result, without its end. -/
def recordLine (ro_R : BenchmarkResult) : Text :=
  '\x7b' :: (itemsText []
    ((storedFields ro_R).map fun field => compactMemberText field.1.toList field.2.text) ++
      ['\x7d'])

/-- The backend: what is in its file, if it is open. -/
structure JsonStorageBackend where
  m_file : Option Text

namespace JsonStorageBackend

/-- A backend on a file, which it creates if it is missing. -/
def construct (file : Option Text) (opens : Bool) : JsonStorageBackend :=
  { m_file := if opens then some (file.getD []) else none }

/-- Append the line of a result. -/
def storeImpl (backend : JsonStorageBackend) (ro_R : BenchmarkResult) : JsonStorageBackend :=
  { m_file := backend.m_file.map fun text => text ++ (recordLine ro_R ++ ['\n']) }

instance : IStorageBackend JsonStorageBackend where
  storeImpl := storeImpl

end JsonStorageBackend

/-- A backend that is built on the file, used and destroyed. -/
structure StorageSession where
  opens : Bool
  results : List BenchmarkResult

/-- The file after a session. -/
def StorageSession.run (session : StorageSession) (file : Option Text) : Option Text :=
  ((session.results.foldl IStorageBackend.store
    (JsonStorageBackend.construct file session.opens)).m_file).or file

/-- The file after some sessions. -/
def runSessions (file : Option Text) (sessions : List StorageSession) : Option Text :=
  sessions.foldl (fun file session => session.run file) file

/-- The results of the sessions that opened the file. -/
def storedResults (sessions : List StorageSession) : List BenchmarkResult :=
  (sessions.filter fun session => session.opens).flatMap StorageSession.results

/-! ### What a line stands for -/

/-- A JSON value is what was written: a number is the stored one rounded to nine significant
digits, so it is close to it, and the same if it has no more digits. -/
def StoredValue.IsReadAs : StoredValue → Json → Prop
  | .real value, json => ∃ text read, json = .number text ∧
      DecimalText.numberOfText? text = some read ∧
      |read - value| ≤ 1 / 2 * 10 ^ (-8 : ℤ) * |value| ∧
      (read = value ↔ DecimalText.HasSignificant 9 value)
  | .natural value, json => ∃ text, json = .number text ∧
      DecimalText.natOfText? text = some value
  | .truth value, json => json = .bool value

/-- A line stands for the object of a result. -/
def Records (line : Text) (result : BenchmarkResult) : Prop :=
  ∃ members, IsText line (.object members) ∧
    List.Forall₂ (fun member field => member.1 = field.1.toList ∧ field.2.IsReadAs member.2)
      members (storedFields result)

/-! ### Numbers -/

/-- An exponent may follow a number without decimals. -/
theorem isFraction_of_isExponent {rest : Text} (h : isExponent rest = true) :
    isFraction rest = true := by
  cases rest with
  | nil => rfl
  | cons c cs =>
      by_cases hc : c = '.'
      · rw [hc] at h
        simp [isExponent] at h
      · rw [isFraction, if_neg hc]
        exact h

/-- A number with or without decimals, and with an exponent or without one. -/
theorem isUnsigned_trimmedText (k n : ℕ) {rest : Text} (hexponent : isExponent rest = true)
    (hrest : ∀ c ∈ rest.head?, c.isDigit = false) :
    isUnsigned (DecimalText.trimmedText k n ++ rest) = true := by
  have hdigits : ∀ c ∈ DecimalText.natText (n / 10 ^ k), c.isDigit = true := fun c hc =>
    DecimalText.isDigit_of_mem_natText hc
  rw [DecimalText.trimmedText, List.append_assoc, DecimalText.pointText]
  by_cases hnil : DecimalText.trimmedDecimals k n = []
  · rw [if_pos hnil, List.nil_append, isUnsigned_append (DecimalText.natText_ne_nil _) hdigits
      (head?_natText _) hrest]
    exact isFraction_of_isExponent hexponent
  · rw [if_neg hnil, List.cons_append, isUnsigned_append (DecimalText.natText_ne_nil _) hdigits
      (head?_natText _) (fun c hc => by obtain rfl := Option.some.inj hc; rfl),
      isFraction_point_append hnil
        (fun c hc => DecimalText.isDigit_of_mem_trimmedDecimals hc) hrest]
    exact hexponent

/-- Both layouts are numbers. -/
theorem isUnsigned_layoutText (p m : ℕ) (x : ℤ) :
    isUnsigned (DecimalText.layoutText p m x) = true := by
  rw [DecimalText.layoutText]
  split
  · have hplain := isUnsigned_trimmedText (-DecimalText.lastPlace p x).toNat m
      (rfl : isExponent [] = true) (by simp)
    rwa [List.append_nil] at hplain
  · have hpadded := DecimalText.natOfText?_eq_some
      (DecimalText.natOfText?_paddedText 2 x.natAbs)
    have hexponent : isExponent (DecimalText.exponentText x) = true := by
      rw [DecimalText.exponentText]
      refine isExponent_signed ?_ hpadded.1 hpadded.2
      split <;> simp
    exact isUnsigned_trimmedText (p - 1) m hexponent
      fun c hc => by obtain rfl := Option.some.inj hc; rfl

/-- **A number with significant digits is a number.** -/
theorem isNumber_generalText (p : ℕ) (q : ℚ) :
    isNumber (DecimalText.generalText p q) = true := by
  rw [DecimalText.generalText]
  split
  · rfl
  · have hunsigned := isUnsigned_layoutText p (DecimalText.significand p |q|).1
      (DecimalText.significand p |q|).2
    have hne : DecimalText.layoutText p (DecimalText.significand p |q|).1
        (DecimalText.significand p |q|).2 ≠ [] := by
      intro hnil
      rw [hnil] at hunsigned
      cases hunsigned
    obtain ⟨hplain, hminus⟩ := isNumber_of_isUnsigned
      (DecimalText.head?_layoutText_ne _ _ _) hne hunsigned
    dsimp only
    split
    · exact hminus
    · exact hplain

/-- The characters of such a number. -/
theorem isTokenChar_of_mem_generalText {p : ℕ} {q : ℚ} {c : Char}
    (h : c ∈ DecimalText.generalText p q) : JsonText.isTokenChar c = true := by
  have hdigit {c : Char} (h : c.isDigit = true) : JsonText.isTokenChar c = true :=
    JsonText.isTokenChar_of_isDigit h
  have htrimmed {k n : ℕ} {c : Char} (h : c ∈ DecimalText.trimmedText k n) :
      JsonText.isTokenChar c = true := by
    rcases DecimalText.mem_trimmedText h with rfl | h
    · rfl
    · exact hdigit h
  have hexponent {x : ℤ} {c : Char} (h : c ∈ DecimalText.exponentText x) :
      JsonText.isTokenChar c = true := by
    rcases List.mem_cons.mp h with rfl | h
    · rfl
    rcases List.mem_cons.mp h with rfl | h
    · split <;> rfl
    · exact hdigit ((DecimalText.natOfText?_eq_some
        (DecimalText.natOfText?_paddedText 2 x.natAbs)).2 c h)
  rw [DecimalText.generalText] at h
  split at h
  · rw [List.mem_singleton.mp h]
    rfl
  · rcases List.mem_append.mp h with h | h
    · split at h
      · rw [List.mem_singleton.mp h]
        rfl
      · cases h
    · rw [DecimalText.layoutText] at h
      split at h
      · exact htrimmed h
      · rcases List.mem_append.mp h with h | h
        · exact htrimmed h
        · exact hexponent h

/-! ### Lines -/

/-- The JSON value that is written. -/
def StoredValue.json : StoredValue → Json
  | .real value => .number (DecimalText.generalText 9 value)
  | .natural value => .number (DecimalText.natText value)
  | .truth value => .bool value

/-- **What is written is read** as the value. -/
theorem StoredValue.reads (value : StoredValue) : Reads 1 value.text value.json := by
  cases value with
  | real value =>
      exact Reads.number (isNumber_generalText 9 value) fun c hc =>
        isTokenChar_of_mem_generalText hc
  | natural value =>
      exact Reads.number (isNumber_natText value) fun c hc =>
        JsonText.isTokenChar_of_isDigit (DecimalText.isDigit_of_mem_natText hc)
  | truth value => exact Reads.bool value

/-- **What is read is the value**, up to the rounding. -/
theorem StoredValue.isReadAs_json (value : StoredValue) : value.IsReadAs value.json := by
  cases value with
  | real value =>
      exact ⟨_, _, rfl, DecimalText.numberOfText?_generalText (by decide) value,
        DecimalText.abs_roundedTo_sub_le (by decide) value,
        DecimalText.roundedTo_eq_iff (by decide) value⟩
  | natural value => exact ⟨_, rfl, DecimalText.natOfText?_natText value⟩
  | truth value => rfl

/-- No value has a new line in it. -/
theorem StoredValue.newline_notMem_text (value : StoredValue) : '\n' ∉ value.text := by
  intro hmem
  cases value with
  | real value => exact absurd (isTokenChar_of_mem_generalText hmem) (by decide)
  | natural value => exact absurd (DecimalText.isDigit_of_mem_natText hmem) (by decide)
  | truth value => cases value <;> exact absurd hmem (by decide)

/-- The names of the fields are bare. -/
theorem isBare_of_mem_storedFields {ro_R : BenchmarkResult} {field : String × StoredValue}
    (h : field ∈ storedFields ro_R) : ∀ c ∈ field.1.toList, IsBare c := by
  have hnames : ∀ name ∈ (storedFields {}).map Prod.fst, ∀ c ∈ name.toList, IsBare c := by decide
  have hsame : (storedFields ro_R).map Prod.fst = (storedFields {}).map Prod.fst := rfl
  exact hnames field.1 (hsame ▸ List.mem_map_of_mem h)

/-- The members of a line. -/
def storedMembers (ro_R : BenchmarkResult) : List (Member 1) :=
  (storedFields ro_R).pmap (fun field h =>
    { name := field.1.toList, text := field.2.text, value := field.2.json
      isBare := h, reads := field.2.reads }) fun _ h => isBare_of_mem_storedFields h

/-- **The line of a result stands for its object**, member by member. -/
theorem records_recordLine (ro_R : BenchmarkResult) : Records (recordLine ro_R) ro_R := by
  have hne : storedMembers ro_R ≠ [] := List.cons_ne_nil _ _
  have hreads := Reads.compactObject hne
  have htexts : (storedMembers ro_R).map (fun m => compactMemberText m.name m.text) =
      (storedFields ro_R).map fun field => compactMemberText field.1.toList field.2.text := rfl
  have hvalues : (storedMembers ro_R).map (fun m => (m.name, m.value)) =
      (storedFields ro_R).map fun field => (field.1.toList, field.2.json) := rfl
  rw [htexts, hvalues] at hreads
  have htext : IsText (recordLine ro_R ++ []) (.object ((storedFields ro_R).map fun field =>
      (field.1.toList, field.2.json))) := hreads.isText (by simp)
  rw [List.append_nil] at htext
  exact ⟨_, htext, List.forall₂_map_left_iff.mpr
    (List.forall₂_same.mpr fun field _ => ⟨rfl, field.2.isReadAs_json⟩)⟩

/-- **A line has no new line in it**. -/
theorem newline_notMem_recordLine (ro_R : BenchmarkResult) : '\n' ∉ recordLine ro_R := by
  have hitems : '\n' ∉ itemsText []
      ((storedFields ro_R).map fun field => compactMemberText field.1.toList field.2.text) := by
    refine notMem_itemsText (by decide) List.not_mem_nil fun text htext => ?_
    obtain ⟨field, hfield, rfl⟩ := List.mem_map.mp htext
    have hname : '\n' ∉ field.1.toList := fun h =>
      absurd (isBare_of_mem_storedFields hfield '\n' h) (by decide)
    simp [compactMemberText, hname, field.2.newline_notMem_text]
  rw [recordLine, List.mem_cons, List.mem_append, List.mem_singleton]
  rintro (h | h | h)
  · exact absurd h (by decide)
  · exact hitems h
  · exact absurd h (by decide)

/-! ### Sessions -/

/-- An open backend puts each line behind what is in the file. -/
theorem m_file_foldl_store (text : Text) (results : List BenchmarkResult) :
    (results.foldl IStorageBackend.store
      ({ m_file := some text } : JsonStorageBackend)).m_file =
        some (text ++ Lines.unlines '\n' (results.map recordLine)) := by
  induction results generalizing text with
  | nil => exact congrArg some (List.append_nil text).symm
  | cons result results ih =>
      refine (ih (text ++ (recordLine result ++ ['\n']))).trans ?_
      rw [List.map_cons, Lines.unlines_cons]
      simp

/-- A closed backend stays closed. -/
theorem m_file_foldl_store_none (results : List BenchmarkResult) :
    (results.foldl IStorageBackend.store
      ({ m_file := none } : JsonStorageBackend)).m_file = none := by
  induction results with
  | nil => rfl
  | cons _ _ ih => exact ih

/-- **One session** puts its lines behind the file, if it opens it. -/
theorem StorageSession.getD_run (session : StorageSession) (file : Option Text) :
    (session.run file).getD [] =
      file.getD [] ++ Lines.unlines '\n' ((storedResults [session]).map recordLine) := by
  rw [StorageSession.run, JsonStorageBackend.construct, storedResults]
  cases hopens : session.opens with
  | true =>
      rw [if_pos rfl, m_file_foldl_store]
      simp [hopens]
  | false =>
      rw [if_neg Bool.false_ne_true, m_file_foldl_store_none]
      simp [hopens, Lines.unlines]

theorem storedResults_cons (session : StorageSession) (sessions : List StorageSession) :
    storedResults (session :: sessions) = storedResults [session] ++ storedResults sessions := by
  rw [storedResults, storedResults, storedResults, ← List.flatMap_append, ← List.filter_append]
  rfl

/-- **The sessions** put their lines behind the file, one after another. -/
theorem getD_runSessions (file : Option Text) (sessions : List StorageSession) :
    (runSessions file sessions).getD [] =
      file.getD [] ++ Lines.unlines '\n' ((storedResults sessions).map recordLine) := by
  induction sessions generalizing file with
  | nil => exact (List.append_nil _).symm
  | cons session sessions ih =>
      have hcons : runSessions file (session :: sessions) =
          runSessions (session.run file) sessions := rfl
      rw [hcons, ih, session.getD_run, storedResults_cons session sessions, List.map_append,
        Lines.unlines_append, List.append_assoc]

/-- The lines of some results stand for them. -/
theorem forall₂_records (results : List BenchmarkResult) :
    List.Forall₂ Records (results.map recordLine) results :=
  List.forall₂_map_left_iff.mpr (List.forall₂_same.mpr fun result _ => records_recordLine result)

/-- **Whatever the sessions**, a file of whole lines keeps them, and gets a line behind them for
each result of a session that opened it. -/
theorem recordsAll_runSessions (file : Option Text) (sessions : List StorageSession)
    (hwhole : Lines.lastLine '\n' (file.getD []) = []) :
    ∃ lines, ((runSessions file sessions).getD []).splitOn '\n' =
        Lines.earlierLines '\n' (file.getD []) ++ lines ++ [[]] ∧
      List.Forall₂ Records lines (storedResults sessions) := by
  have hlines : ∀ line ∈ (storedResults sessions).map recordLine, '\n' ∉ line := by
    intro line hline
    obtain ⟨result, _, rfl⟩ := List.mem_map.mp hline
    exact newline_notMem_recordLine result
  have hsplit := Lines.splitOn_unlines_last hlines List.not_mem_nil
  rw [List.append_nil] at hsplit
  refine ⟨(storedResults sessions).map recordLine, ?_, forall₂_records _⟩
  rw [getD_runSessions, Lines.splitOn_append, hwhole, List.nil_append, hsplit, List.append_assoc]

/-! ### Suite runs -/

/-- A run of a suite, with a backend on the file behind one of its listeners. -/
structure StoredSuiteRun where
  opens : Bool
  driver : SuiteDriver
  listeners : ℕ
  listener : Fin listeners

namespace StoredSuiteRun

/-- The file after a run. -/
def run (suite : StoredSuiteRun) (file : Option Text) : Option Text :=
  (((eventsFor suite.listener (suite.driver.run suite.listeners)).foldl StorageListener.handle
    (JsonStorageBackend.construct file suite.opens)).m_file).or file

/-- The results of the tests of a run, in queue order. -/
def results (suite : StoredSuiteRun) : List BenchmarkResult :=
  suite.driver.m_tests.zipIdx.map fun t => suite.driver.testResult t.2 t.1

/-- A run as a session of its backend. -/
def session (suite : StoredSuiteRun) : StorageSession :=
  { opens := suite.opens, results := suite.results }

/-- **A run is a session** that stores the results of its tests. -/
theorem run_eq_session (suite : StoredSuiteRun) (file : Option Text) :
    suite.run file = suite.session.run file := by
  rw [run, StorageListener.foldl_handle_run _ _ suite.listener.isLt]
  rfl

end StoredSuiteRun

/-- **Suite runs that share a results file**: it keeps its lines, and holds behind them one line
for each queued test of each run that opened it, in order; a line stands for the result of its
test, with every number rounded to nine significant digits. -/
theorem recordsAll_runSuites (file : Option Text) (suites : List StoredSuiteRun)
    (hwhole : Lines.lastLine '\n' (file.getD []) = []) :
    ∃ lines, ((suites.foldl (fun file suite => suite.run file) file).getD []).splitOn '\n' =
        Lines.earlierLines '\n' (file.getD []) ++ lines ++ [[]] ∧
      List.Forall₂ Records lines
        ((suites.filter StoredSuiteRun.opens).flatMap StoredSuiteRun.results) := by
  have hfile : suites.foldl (fun file suite => suite.run file) file =
      runSessions file (suites.map StoredSuiteRun.session) := by
    rw [runSessions, List.foldl_map]
    congr 1
    funext file suite
    exact suite.run_eq_session file
  have hresults : storedResults (suites.map StoredSuiteRun.session) =
      (suites.filter StoredSuiteRun.opens).flatMap StoredSuiteRun.results := by
    rw [storedResults, List.filter_map, List.flatMap_map]
    rfl
  rw [hfile, ← hresults]
  exact recordsAll_runSessions file _ hwhole

/-- Two runs of a test without a fixture, the second of which does not open the file. -/
def unknownFixtureRuns : List StoredSuiteRun :=
  [{ opens := true, driver := { m_registry := {}, m_tests := [{}] }, listeners := 1, listener := 0 },
    { opens := false, driver := { m_registry := {}, m_tests := [{}] }, listeners := 1
      listener := 0 }]

/-- An empty object stays in front of the line of the one run that opens the file. -/
theorem recordsAll_runSuites_unknown :
    Lines.lastLine '\n' "\x7b\x7d\n".toList = [] ∧
      ∃ lines, ((unknownFixtureRuns.foldl (fun file suite => suite.run file)
          (some "\x7b\x7d\n".toList)).getD []).splitOn '\n' =
            ["\x7b\x7d".toList] ++ lines ++ [[]] ∧
        List.Forall₂ Records lines [{ runFailed := true }] :=
  have hwhole : Lines.lastLine '\n' "\x7b\x7d\n".toList = [] := by decide
  ⟨hwhole, recordsAll_runSuites (some "\x7b\x7d\n".toList) unknownFixtureRuns hwhole⟩

end Hades.Runtime
