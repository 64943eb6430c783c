import Hades.EmittedLiterals

/-!
# The Configurations of the Generated Program

What the assignments that the generator writes for a configuration do when they are
executed, one after another, on a default-constructed entry. The interpreter knows the
statements `l_entry.m_Config.field = value;` with string, integer and floating-point literals
and enumerators, and nothing else; a literal has its exact value, and an assignment converts
it to the field's type.

A `double` is written with six decimals, so only a number with at most six decimals comes
back. A string literal is assigned as a `const char*`, so an id comes back up to its first NUL.

## Main results

* `execStatement_configAssignment`: one emitted assignment.
* `execStatements_flatMap`: **a series of emitted assignments**, one after another.
* `execAssignments_iff`: when the emitted assignments give the configuration.
-/

namespace Hades.Runtime

/-! ### The interpreter -/

/-- The value of a right-hand side. -/
inductive CppValue where
  | string (value : Text)
  | unsigned (value : ℕ)
  | floating (value : ℚ)
  | kind (value : TestKind)
  | chrono (value : ChronoBackend)
  deriving DecidableEq

/-- A decimal integer literal with an unsigned suffix. Digits behind a zero are octal and
not known here. -/
def integerLiteral? (token : Text) : Option ℕ :=
  let digits := token.takeWhile Char.isDigit
  let suffix := token.dropWhile Char.isDigit
  if (digits.head? = some '0' ∧ digits ≠ ['0']) ∨ suffix ∉ ["u".toList, "ull".toList] then none
  else DecimalText.natOfText? digits

/-- The value of a token that is no string literal. -/
def tokenValue? (token : Text) : Option CppValue :=
  if token = "TestKind::Performance".toList then some (.kind .Performance)
  else if token = "TestKind::Correctness".toList then some (.kind .Correctness)
  else if token = "ChronoBackend::Rdtsc".toList then some (.chrono .Rdtsc)
  else if token = "ChronoBackend::SteadyClock".toList then some (.chrono .SteadyClock)
  else
    match integerLiteral? token with
    | some value => some (.unsigned value)
    | none => (DecimalText.signedFixedOfText? token).map .floating

/-- Read a right-hand side up to its semicolon. -/
def readValue : Text → Option (CppValue × Text)
  | '"' :: text =>
    (cppEscapes.readQuoted '"' (· == '\n') text).map fun r => (.string r.1, r.2)
  | text => (tokenValue? (text.takeWhile (· != ';'))).map (·, text.dropWhile (· != ';'))

/-- What is kept of a text that goes through a `const char*`: what is in front of its first
NUL. -/
def cString (text : Text) : Text :=
  text.takeWhile (· ≠ '\x00')

/-- Assign to a field of the configuration, with the conversion to its type. -/
def assignField (field : Text) (value : CppValue) (config : Config) : Option Config :=
  match value with
  | .string v => if field = "m_Id".toList then some { config with m_Id := cString v } else none
  | .kind v => if field = "m_Kind".toList then some { config with m_Kind := v } else none
  | .chrono v =>
    if field = "m_ChronoBackend".toList then some { config with m_ChronoBackend := v } else none
  | .unsigned v =>
    if field = "m_Iterations".toList then some { config with m_Iterations := UInt64.ofNat v }
    else if field = "m_WarmupCount".toList then
      some { config with m_WarmupCount := UInt32.ofNat v }
    else if field = "m_MinSlices".toList then some { config with m_MinSlices := UInt32.ofNat v }
    else if field = "m_MaxSlices".toList then some { config with m_MaxSlices := UInt32.ofNat v }
    else if field = "m_ConsecutiveDiscardCap".toList then
      some { config with m_ConsecutiveDiscardCap := UInt32.ofNat v }
    else if field = "m_TotalDiscardCap".toList then
      some { config with m_TotalDiscardCap := UInt32.ofNat v }
    else if field = "m_HelperThreadCount".toList then
      some { config with m_HelperThreadCount := UInt32.ofNat v }
    else if field = "m_FixedSliceCount".toList then
      some { config with m_FixedSliceCount := UInt32.ofNat v }
    else none
  | .floating v =>
    if field = "m_CvThreshold".toList then some { config with m_CvThreshold := v }
    else if field = "m_ReadCriticality".toList then some { config with m_ReadCriticality := v }
    else none

/-- Execute one statement behind white space; also what follows its semicolon. -/
def execStatement (text : Text) (entry : SuiteTestEntry) : Option (SuiteTestEntry × Text) := do
  let text ← (text.dropWhile isSpace).dropPrefix? "l_entry.m_Config.".toList
  let field := text.takeWhile isIdentChar
  let text ← (text.dropWhile isIdentChar).dropPrefix? " = ".toList
  let (value, text) ← readValue text
  let text ← text.dropPrefix? ";".toList
  let config ← assignField field value entry.m_Config
  some ({ entry with m_Config := config }, text)

/-- Execute statements to the end of the text; every statement has a character. -/
def execStatements : ℕ → Text → SuiteTestEntry → Option SuiteTestEntry
  | 0, text, entry => if text.all isSpace then some entry else none
  | fuel + 1, text, entry =>
    if text.all isSpace then some entry
    else (execStatement text entry).bind fun r => execStatements fuel r.2 r.1

/-- Execute the statements of a text. -/
def execAssignments (text : Text) (entry : SuiteTestEntry) : Option SuiteTestEntry :=
  execStatements text.length text entry

/-! ### One assignment -/

/-- A text that the interpreter reads as a right-hand side with a value. -/
def Denotes (text : Text) (value : CppValue) : Prop :=
  ∀ rest, readValue (text ++ ';' :: rest) = some (value, ';' :: rest)

/-- The text of an assignment, from its first token on. -/
theorem configAssignment_append (field value rest : Text) :
    configAssignment field value ++ rest = "\t\t".toList ++ ("l_entry.m_Config.".toList ++
      (field ++ (" = ".toList ++ (value ++ ';' :: '\n' :: rest)))) := by
  have hstart : "\t\tl_entry.".toList ++ "m_Config.".toList =
      "\t\t".toList ++ "l_entry.m_Config.".toList := by decide
  have hend : ";\n".toList = [';', '\n'] := by decide
  unfold configAssignment assignment
  rw [← List.append_assoc "\t\tl_entry.".toList, hstart, hend]
  simp only [List.append_assoc, List.cons_append, List.nil_append]

/-- An assignment has a character that is no white space. -/
theorem mem_configAssignment (field value : Text) : 'l' ∈ configAssignment field value := by
  have htext := configAssignment_append field value []
  have hl : 'l' ∈ "l_entry.m_Config.".toList := by decide
  rw [List.append_nil] at htext
  rw [htext]
  exact List.mem_append_right _ (List.mem_append_left _ hl)

/-- An emitted assignment, behind white space, is its right-hand side and the semicolon. -/
theorem execStatement_eq {pre field : Text} (hpre : ∀ c ∈ pre, isSpace c = true)
    (hfield : IsKey field) (text rest : Text) (entry : SuiteTestEntry) :
    execStatement (pre ++ (configAssignment field text ++ rest)) entry =
      (readValue (text ++ ';' :: '\n' :: rest)).bind fun r =>
        (r.2.dropPrefix? ";".toList).bind fun rest =>
          (assignField field r.1 entry.m_Config).map fun config =>
            ({ entry with m_Config := config }, rest) := by
  obtain ⟨tail, htail⟩ : ∃ tail, text ++ ';' :: '\n' :: rest = tail := ⟨_, rfl⟩
  have hequals : " = ".toList = [' ', '=', ' '] := by decide
  have hspaces : ∀ c ∈ pre ++ "\t\t".toList, isSpace c = true := by
    intro c hc
    rcases List.mem_append.mp hc with hc | hc
    · exact hpre c hc
    · exact (by decide : ∀ c ∈ "\t\t".toList, isSpace c = true) c hc
  have hstart : (pre ++ (configAssignment field text ++ rest)).dropWhile isSpace =
      "l_entry.m_Config.".toList ++ (field ++ (" = ".toList ++ tail)) := by
    rw [configAssignment_append, htail, ← List.append_assoc pre,
      List.dropWhile_append_of_pos hspaces]
    refine Trimming.dropWhile_of_head fun c hc => ?_
    have hhead : "l_entry.m_Config.".toList.head? = some 'l' := by decide
    rw [List.head?_append_of_ne_nil _ (by decide), hhead] at hc
    obtain rfl := Option.some.inj hc
    decide
  have hentry : ("l_entry.m_Config.".toList ++ (field ++ (" = ".toList ++ tail))).dropPrefix?
      "l_entry.m_Config.".toList = some (field ++ (" = ".toList ++ tail)) :=
    List.dropPrefix?_append_of_beq _ BEq.rfl
  have htake : (field ++ (" = ".toList ++ tail)).takeWhile isIdentChar = field := by
    rw [List.takeWhile_append_of_pos hfield.2, hequals]
    simp [isIdentChar]
  have hdrop : (field ++ (" = ".toList ++ tail)).dropWhile isIdentChar = " = ".toList ++ tail := by
    rw [List.dropWhile_append_of_pos hfield.2, hequals]
    simp [isIdentChar]
  have hvalueText : (" = ".toList ++ tail).dropPrefix? " = ".toList = some tail :=
    List.dropPrefix?_append_of_beq _ BEq.rfl
  rw [htail]
  simp only [execStatement, hstart, hentry, htake, hdrop, hvalueText, Option.bind_eq_bind,
    Option.bind_some, Option.map_eq_bind]
  rfl

/-- **One emitted assignment**, behind white space. -/
theorem execStatement_configAssignment {pre field text : Text} {value : CppValue}
    (hpre : ∀ c ∈ pre, isSpace c = true) (hfield : IsKey field) (hvalue : Denotes text value)
    (rest : Text) (entry : SuiteTestEntry) :
    execStatement (pre ++ (configAssignment field text ++ rest)) entry =
      (assignField field value entry.m_Config).map fun config =>
        ({ entry with m_Config := config }, '\n' :: rest) := by
  have hsemicolon : (';' :: '\n' :: rest).dropPrefix? ";".toList = some ('\n' :: rest) :=
    List.dropPrefix?_append_of_beq ('\n' :: rest) (by decide : [';'] == ";".toList)
  rw [execStatement_eq hpre hfield, hvalue, Option.bind_some, hsemicolon, Option.bind_some]

/-! ### A series of assignments -/

/-- An assignment that is emitted: the field, the text and the value it denotes. -/
structure Emitted where
  field : Text
  text : Text
  value : CppValue
  isKey : IsKey field
  denotes : Denotes text value

/-- **A series of emitted assignments**, behind white space, is executed one after
another. -/
theorem execStatements_flatMap (emitted : List Emitted) {fuel : ℕ}
    (hfuel : emitted.length ≤ fuel) {pre : Text} (hpre : ∀ c ∈ pre, isSpace c = true)
    (entry : SuiteTestEntry) :
    execStatements fuel
        (pre ++ emitted.flatMap fun e => configAssignment e.field e.text) entry =
      (emitted.foldlM (fun config e => assignField e.field e.value config) entry.m_Config).map
        fun config => { entry with m_Config := config } := by
  induction emitted generalizing fuel pre entry with
  | nil =>
      have hblank : (pre ++ ([] : Text)).all isSpace = true := by
        rw [List.append_nil]
        exact List.all_eq_true.mpr hpre
      cases fuel with
      | zero =>
          rw [List.flatMap_nil, execStatements, if_pos hblank]
          rfl
      | succ fuel =>
          rw [List.flatMap_nil, execStatements, if_pos hblank]
          rfl
  | cons e emitted ih =>
      obtain ⟨fuel, rfl⟩ : ∃ n, fuel = n + 1 :=
        ⟨fuel - 1, by rw [List.length_cons] at hfuel; omega⟩
      rw [List.length_cons] at hfuel
      have hstatement := execStatement_configAssignment hpre e.isKey e.denotes
        (emitted.flatMap fun e => configAssignment e.field e.text) entry
      have hnotblank : ¬ (pre ++ (configAssignment e.field e.text ++
          emitted.flatMap fun e => configAssignment e.field e.text)).all isSpace = true := by
        rw [List.all_eq_true]
        intro hall
        have hspace := hall 'l' (List.mem_append_right _ (List.mem_append_left _
          (mem_configAssignment e.field e.text)))
        exact absurd hspace (by decide)
      rw [List.flatMap_cons, execStatements, if_neg hnotblank, hstatement, List.foldlM_cons]
      cases assignField e.field e.value entry.m_Config with
      | none => rfl
      | some config =>
          have hnext := ih (by omega : emitted.length ≤ fuel)
            (by decide : ∀ c ∈ ['\n'], isSpace c = true) { entry with m_Config := config }
          exact hnext

/-! ### What the emitted texts denote -/

/-- **The literal of a text** without newlines. -/
theorem denotes_stringLiteral {text : Text} (h : '\n' ∉ text) :
    Denotes (stringLiteral text) (.string text) := by
  intro rest
  have hread := EscapedText.Codec.readQuoted_escape cppEscapes encode_quote quote_ne_mark
    (bare_ne_newline h) (';' :: rest)
  rw [stringLiteral, List.append_assoc, List.cons_append, readValue]
  exact congrArg (Option.map _) hread

/-- The literal of a text with a newline is not read. -/
theorem readValue_stringLiteral_of_newline {text : Text} (h : '\n' ∈ text) (rest : Text) :
    readValue (stringLiteral text ++ rest) = none := by
  have hread := EscapedText.Codec.readQuoted_escape_of_bad cppEscapes encode_quote quote_ne_mark
    (bare_newline h) (['"'] ++ rest)
  rw [stringLiteral, List.append_assoc, List.cons_append, readValue]
  exact congrArg (Option.map _) hread

theorem readValue_of_ne {text : Text} (h : text.head? ≠ some '"') :
    readValue text =
      (tokenValue? (text.takeWhile (· != ';'))).map (·, text.dropWhile (· != ';')) := by
  unfold readValue
  split
  · exact absurd rfl h
  · rfl

/-- A token ends at the semicolon. -/
theorem denotes_token {token : Text} {value : CppValue} (hquote : '"' ∉ token)
    (hsemicolon : ';' ∉ token) (h : tokenValue? token = some value) : Denotes token value := by
  intro rest
  have hplain : ∀ c ∈ token, (c != ';') = true := by
    intro c hc
    rw [bne_iff_ne]
    rintro rfl
    exact hsemicolon hc
  have hhead : (token ++ ';' :: rest).head? ≠ some '"' := by
    intro hq
    cases token with
    | nil => exact absurd hq (by simp)
    | cons c cs => exact hquote (by simp_all)
  rw [readValue_of_ne hhead, List.takeWhile_append_of_pos hplain,
    List.dropWhile_append_of_pos hplain]
  simp [h]

/-- A token without the first letters of the enumerators is a number. -/
theorem tokenValue?_of_number {token : Text} (ht : 'T' ∉ token) (hc : 'C' ∉ token) :
    tokenValue? token =
      match integerLiteral? token with
      | some value => some (.unsigned value)
      | none => (DecimalText.signedFixedOfText? token).map .floating := by
  have hkind : ∀ enumerator : Text, 'T' ∈ enumerator → token ≠ enumerator := by
    rintro _ hmem rfl
    exact ht hmem
  have hchrono : ∀ enumerator : Text, 'C' ∈ enumerator → token ≠ enumerator := by
    rintro _ hmem rfl
    exact hc hmem
  unfold tokenValue?
  rw [if_neg (hkind _ (by decide)), if_neg (hkind _ (by decide)), if_neg (hchrono _ (by decide)),
    if_neg (hchrono _ (by decide))]

theorem mem_unsignedLiteral {value : ℕ} {suffix : Text} {c : Char}
    (h : c ∈ unsignedLiteral value suffix) : c.isDigit = true ∨ c ∈ suffix := by
  rw [unsignedLiteral, List.mem_append] at h
  exact h.imp_left DecimalText.isDigit_of_mem_natText

/-- **An unsigned literal.** -/
theorem denotes_unsignedLiteral (value : ℕ) {suffix : Text}
    (h : suffix ∈ ["u".toList, "ull".toList]) :
    Denotes (unsignedLiteral value suffix) (.unsigned value) := by
  have hsuffix : ∀ suffix ∈ ["u".toList, "ull".toList], ∀ c ∈ ['"', ';', 'T', 'C'], c ∉ suffix := by
    decide
  have hnot : ∀ c ∈ ['"', ';', 'T', 'C'], c ∉ unsignedLiteral value suffix := by
    intro c hc hmem
    rcases mem_unsignedLiteral hmem with hdigit | hmem
    · rw [(by decide : ∀ c ∈ ['"', ';', 'T', 'C'], c.isDigit = false) c hc] at hdigit
      cases hdigit
    · exact hsuffix suffix h c hc hmem
  have hdigits : ∀ c ∈ DecimalText.natText value, c.isDigit = true :=
    fun c hc => DecimalText.isDigit_of_mem_natText hc
  have hends : ∀ suffix ∈ ["u".toList, "ull".toList], suffix.takeWhile Char.isDigit = [] ∧
      suffix.dropWhile Char.isDigit = suffix := by
    decide
  have hleading : ¬ ((DecimalText.natText value).head? = some '0' ∧
      DecimalText.natText value ≠ ['0']) := by
    rintro ⟨hzero, hne⟩
    by_cases hvalue : value = 0
    · subst hvalue
      exact hne (by decide)
    · exact DecimalText.head?_natText_ne_zero hvalue hzero
  have hliteral : integerLiteral? (unsignedLiteral value suffix) = some value := by
    simp only [integerLiteral?, unsignedLiteral, List.takeWhile_append_of_pos hdigits,
      List.dropWhile_append_of_pos hdigits, hends suffix h, List.append_nil]
    rw [if_neg (not_or.mpr ⟨hleading, not_not.mpr h⟩), DecimalText.natOfText?_natText]
  refine denotes_token (hnot _ (by decide)) (hnot _ (by decide)) ?_
  rw [tokenValue?_of_number (hnot _ (by decide)) (hnot _ (by decide)), hliteral]

/-- **The literal of a `double`** denotes the rounded number. -/
theorem denotes_toStringDouble (value : ℚ) :
    Denotes (toStringDouble value) (.floating (DecimalText.rounded 6 value)) := by
  have hnot : ∀ c ∈ ['"', ';', 'T', 'C', 'u'], c ∉ toStringDouble value := by
    intro c hc hmem
    have hall : ∀ c ∈ ['"', ';', 'T', 'C', 'u'], c ≠ '-' ∧ c ≠ '.' ∧ c.isDigit = false := by
      decide
    obtain ⟨hminus, hpoint, hdigit⟩ := hall c hc
    rcases DecimalText.mem_roundedText hmem with h | h | h
    · exact hminus h
    · exact hpoint h
    · rw [h] at hdigit
      cases hdigit
  have hpoint : '.' ∈ toStringDouble value := by
    simp [toStringDouble, DecimalText.roundedText, DecimalText.fixedText]
  have hsuffix : (toStringDouble value).dropWhile Char.isDigit ∉ ["u".toList, "ull".toList] := by
    intro hmem
    have hpoint' : '.' ∈ (toStringDouble value).dropWhile Char.isDigit :=
      Trimming.mem_dropWhile hpoint (by decide)
    exact (by decide : ∀ suffix ∈ ["u".toList, "ull".toList], '.' ∉ suffix) _ hmem hpoint'
  have hliteral : integerLiteral? (toStringDouble value) = none := by
    simp only [integerLiteral?]
    rw [if_pos (Or.inr hsuffix)]
  have hfixed : DecimalText.signedFixedOfText? (toStringDouble value) =
      some (DecimalText.rounded 6 value) :=
    DecimalText.signedFixedOfText?_roundedText (by decide) value
  refine denotes_token (hnot _ (by decide)) (hnot _ (by decide)) ?_
  rw [tokenValue?_of_number (hnot _ (by decide)) (hnot _ (by decide)), hliteral, hfixed]
  rfl

/-- The enumerator of a kind. -/
theorem denotes_kindEnumerator (kind : TestKind) :
    Denotes (kindEnumerator kind) (.kind kind) := by
  cases kind with
  | Performance => exact denotes_token (by decide) (by decide) (by decide)
  | Correctness => exact denotes_token (by decide) (by decide) (by decide)

/-! ### The assignments of a configuration -/

/-- An assignment that is emitted only if the field differs from its default. -/
def optionalEmitted (present : Bool) (emitted : Emitted) : List Emitted :=
  if present then [emitted] else []

/-- An unsigned number that is emitted. -/
def Emitted.unsigned (field : Text) (hfield : IsKey field) (value : ℕ) (suffix : Text)
    (hsuffix : suffix ∈ ["u".toList, "ull".toList]) : Emitted :=
  ⟨field, unsignedLiteral value suffix, .unsigned value, hfield,
    denotes_unsignedLiteral value hsuffix⟩

/-- A `double` that is emitted. -/
def Emitted.double (field : Text) (hfield : IsKey field) (value : ℚ) : Emitted :=
  ⟨field, toStringDouble value, .floating (DecimalText.rounded 6 value), hfield,
    denotes_toStringDouble value⟩

/-- The assignments of a configuration, with the values they denote. -/
def emittedConfig (config : Config) (hid : '\n' ∉ config.m_Id) : List Emitted :=
  [⟨"m_Id".toList, stringLiteral config.m_Id, .string config.m_Id, by decide,
      denotes_stringLiteral hid⟩,
    ⟨"m_Kind".toList, kindEnumerator config.m_Kind, .kind config.m_Kind, by decide,
      denotes_kindEnumerator config.m_Kind⟩] ++
  optionalEmitted (config.m_Iterations != 0) (.unsigned "m_Iterations".toList (by decide)
    config.m_Iterations.toNat "ull".toList (by decide)) ++
  optionalEmitted (config.m_ChronoBackend = .Rdtsc) ⟨"m_ChronoBackend".toList,
    "ChronoBackend::Rdtsc".toList, .chrono .Rdtsc, by decide,
    denotes_token (by decide) (by decide) (by decide)⟩ ++
  optionalEmitted (config.m_WarmupCount != 0) (.unsigned "m_WarmupCount".toList (by decide)
    config.m_WarmupCount.toNat "u".toList (by decide)) ++
  optionalEmitted (config.m_CvThreshold != 0) (.double "m_CvThreshold".toList (by decide)
    config.m_CvThreshold) ++
  optionalEmitted (config.m_MinSlices != 0) (.unsigned "m_MinSlices".toList (by decide)
    config.m_MinSlices.toNat "u".toList (by decide)) ++
  optionalEmitted (config.m_MaxSlices != 0) (.unsigned "m_MaxSlices".toList (by decide)
    config.m_MaxSlices.toNat "u".toList (by decide)) ++
  optionalEmitted (config.m_ConsecutiveDiscardCap != 0) (.unsigned
    "m_ConsecutiveDiscardCap".toList (by decide) config.m_ConsecutiveDiscardCap.toNat "u".toList
    (by decide)) ++
  optionalEmitted (config.m_TotalDiscardCap != 0) (.unsigned "m_TotalDiscardCap".toList
    (by decide) config.m_TotalDiscardCap.toNat "u".toList (by decide)) ++
  optionalEmitted (config.m_HelperThreadCount != 0) (.unsigned "m_HelperThreadCount".toList
    (by decide) config.m_HelperThreadCount.toNat "u".toList (by decide)) ++
  optionalEmitted (config.m_ReadCriticality != 0) (.double "m_ReadCriticality".toList (by decide)
    config.m_ReadCriticality) ++
  optionalEmitted (config.m_FixedSliceCount != 0) (.unsigned "m_FixedSliceCount".toList
    (by decide) config.m_FixedSliceCount.toNat "u".toList (by decide))

/-- The text of an optional assignment. -/
theorem flatMap_optionalEmitted (present : Bool) (e : Emitted) :
    (optionalEmitted present e).flatMap (fun e => configAssignment e.field e.text) =
      optionalAssignment present e.field e.text := by
  cases present with
  | true => exact List.flatMap_singleton _ _
  | false => rfl

/-- The emitted text is that of the assignments. -/
theorem appendConfigAssignments_eq_flatMap {config : Config} (hid : '\n' ∉ config.m_Id) :
    appendConfigAssignments config =
      (emittedConfig config hid).flatMap fun e => configAssignment e.field e.text := by
  have hpair (a b : Emitted) : [a, b].flatMap (fun e => configAssignment e.field e.text) =
      configAssignment a.field a.text ++ configAssignment b.field b.text := by
    rw [List.flatMap_cons, List.flatMap_singleton]
  unfold appendConfigAssignments emittedConfig
  simp only [List.flatMap_append, flatMap_optionalEmitted, hpair]
  rfl

/-- Execute a series of assignments on a configuration. -/
def assignAll (emitted : List Emitted) (config : Config) : Option Config :=
  emitted.foldlM (fun config e => assignField e.field e.value config) config

/-- **One more optional assignment.** `set` is the configuration as a function of the field;
a field that is not emitted has its default. -/
theorem assignAll_append_optional {α : Type} [BEq α] [LawfulBEq α] {emitted : List Emitted}
    {start config : Config} (h : assignAll emitted start = some config) (set : α → Config)
    {default value : α} (hdefault : config = set default) {e : Emitted}
    (hset : value ≠ default → assignField e.field e.value config = some (set value)) :
    assignAll (emitted ++ optionalEmitted (value != default) e) start = some (set value) := by
  rw [assignAll] at h ⊢
  rw [List.foldlM_append, h]
  cases hpresent : value != default with
  | true => simp [optionalEmitted, hset (bne_iff_ne.mp hpresent)]
  | false =>
      rw [bne_eq_false_iff_eq.mp hpresent, ← hdefault]
      rfl

/-- One more optional 32-bit number. -/
theorem assignAll_append_unsigned {emitted : List Emitted} {start config : Config}
    (set : UInt32 → Config) (h : assignAll emitted start = some config) (hdefault : config = set 0)
    {field suffix : Text} {hfield : IsKey field} {value : UInt32}
    {hsuffix : suffix ∈ ["u".toList, "ull".toList]}
    (hset : assignField field (.unsigned value.toNat) config =
      some (set (UInt32.ofNat value.toNat))) :
    assignAll (emitted ++ optionalEmitted (value != 0)
      (.unsigned field hfield value.toNat suffix hsuffix)) start = some (set value) := by
  rw [UInt32.ofNat_toNat] at hset
  exact assignAll_append_optional h set hdefault fun _ => hset

theorem rounded_zero : DecimalText.rounded 6 0 = 0 :=
  (DecimalText.rounded_eq_iff 6 0).mpr ⟨0, by norm_num⟩

/-- One more optional `double`. -/
theorem assignAll_append_double {emitted : List Emitted} {start config : Config}
    (set : ℚ → Config) (h : assignAll emitted start = some config) (hdefault : config = set 0)
    {field : Text} {hfield : IsKey field} {value : ℚ}
    (hset : assignField field (.floating (DecimalText.rounded 6 value)) config =
      some (set (DecimalText.rounded 6 value))) :
    assignAll (emitted ++ optionalEmitted (value != 0) (.double field hfield value)) start =
      some (set (DecimalText.rounded 6 value)) :=
  assignAll_append_optional h (fun q => set (DecimalText.rounded 6 q))
    (hdefault.trans (congrArg set rounded_zero.symm)) fun _ => hset

/-- The configuration with its `double` fields rounded to six decimals. -/
def Config.roundedDoubles (config : Config) : Config :=
  { config with
    m_CvThreshold := DecimalText.rounded 6 config.m_CvThreshold
    m_ReadCriticality := DecimalText.rounded 6 config.m_ReadCriticality }

/-- What a configuration becomes in the program. -/
def Config.compiled (config : Config) : Config :=
  { config.roundedDoubles with m_Id := cString config.m_Id }

/-- **Executing the assignments** of a configuration one after another. -/
theorem assignAll_emittedConfig {config : Config} (hid : '\n' ∉ config.m_Id) :
    assignAll (emittedConfig config hid) {} = some config.compiled := by
  obtain ⟨id, kind, iterations, chrono, warmup, cv, minSlices, maxSlices, consecutive, total,
    helpers, criticality, slices⟩ := config
  have hchrono : decide (chrono = .Rdtsc) = (chrono != .SteadyClock) := by
    cases chrono <;> rfl
  -- from the last assignment to the first one; the fields behind it have their defaults
  refine assignAll_append_unsigned (fun n => ⟨cString id, kind, iterations, chrono, warmup,
    DecimalText.rounded 6 cv, minSlices, maxSlices, consecutive, total, helpers,
    DecimalText.rounded 6 criticality, n⟩) ?_ rfl rfl
  refine assignAll_append_double (fun q => ⟨cString id, kind, iterations, chrono, warmup,
    DecimalText.rounded 6 cv, minSlices, maxSlices, consecutive, total, helpers, q, 0⟩) ?_ rfl rfl
  refine assignAll_append_unsigned (fun n => ⟨cString id, kind, iterations, chrono, warmup,
    DecimalText.rounded 6 cv, minSlices, maxSlices, consecutive, total, n, 0, 0⟩) ?_ rfl rfl
  refine assignAll_append_unsigned (fun n => ⟨cString id, kind, iterations, chrono, warmup,
    DecimalText.rounded 6 cv, minSlices, maxSlices, consecutive, n, 0, 0, 0⟩) ?_ rfl rfl
  refine assignAll_append_unsigned (fun n => ⟨cString id, kind, iterations, chrono, warmup,
    DecimalText.rounded 6 cv, minSlices, maxSlices, n, 0, 0, 0, 0⟩) ?_ rfl rfl
  refine assignAll_append_unsigned (fun n => ⟨cString id, kind, iterations, chrono, warmup,
    DecimalText.rounded 6 cv, minSlices, n, 0, 0, 0, 0, 0⟩) ?_ rfl rfl
  refine assignAll_append_unsigned (fun n => ⟨cString id, kind, iterations, chrono, warmup,
    DecimalText.rounded 6 cv, n, 0, 0, 0, 0, 0, 0⟩) ?_ rfl rfl
  refine assignAll_append_double (fun q => ⟨cString id, kind, iterations, chrono, warmup, q, 0, 0,
    0, 0, 0, 0, 0⟩) ?_ rfl rfl
  refine assignAll_append_unsigned (fun n => ⟨cString id, kind, iterations, chrono, n, 0, 0, 0, 0,
    0, 0, 0, 0⟩) ?_ rfl rfl
  rw [hchrono]
  refine assignAll_append_optional ?_ (fun c => ⟨cString id, kind, iterations, c, 0, 0, 0, 0, 0,
    0, 0, 0, 0⟩) rfl ?_
  · refine assignAll_append_optional ?_ (fun n => ⟨cString id, kind, n, .SteadyClock, 0, 0, 0, 0,
      0, 0, 0, 0, 0⟩) rfl fun _ => ?_
    · rfl
    · have hnumber := UInt64.ofNat_toNat (x := iterations)
      exact congrArg (fun n => some (⟨cString id, kind, n, .SteadyClock, 0, 0, 0, 0, 0, 0, 0, 0,
        0⟩ : Config)) hnumber
  · intro hne
    cases chrono with
    | Rdtsc => rfl
    | SteadyClock => exact absurd rfl hne

/-! ### Executing what is emitted -/

/-- **The emitted assignments**, executed on a default-constructed entry. -/
theorem execAssignments_appendConfigAssignments {config : Config} (hid : '\n' ∉ config.m_Id) :
    execAssignments (appendConfigAssignments config) {} =
      some { m_Config := config.compiled } := by
  have hfuel : (emittedConfig config hid).length ≤ (appendConfigAssignments config).length := by
    rw [appendConfigAssignments_eq_flatMap hid, List.length_flatMap]
    refine le_trans (le_of_eq (List.length_map _).symm) (List.length_le_sum_of_one_le _ ?_)
    intro n hn
    obtain ⟨e, -, rfl⟩ := List.mem_map.mp hn
    exact List.length_pos_of_mem (mem_configAssignment e.field e.text)
  have hexec := execStatements_flatMap (emittedConfig config hid) hfuel
    (by simp : ∀ c ∈ ([] : Text), isSpace c = true) {}
  rw [List.nil_append, ← appendConfigAssignments_eq_flatMap hid] at hexec
  rw [execAssignments, hexec]
  exact congrArg (Option.map _) (assignAll_emittedConfig hid)

/-- An id with a newline stops the execution at the first assignment. -/
theorem execAssignments_of_newline {config : Config} (hid : '\n' ∈ config.m_Id) :
    execAssignments (appendConfigAssignments config) {} = none := by
  obtain ⟨rest, -, htext⟩ := endsPlain_appendConfigAssignments config
  have hl : 'l' ∈ appendConfigAssignments config := by
    rw [htext]
    exact List.mem_append_left _ (mem_configAssignment _ _)
  have hnotblank : ¬ (appendConfigAssignments config).all isSpace = true := by
    rw [List.all_eq_true]
    intro hall
    exact absurd (hall 'l' hl) (by decide)
  obtain ⟨fuel, hfuel⟩ : ∃ n, (appendConfigAssignments config).length = n + 1 :=
    Nat.exists_eq_succ_of_ne_zero (List.length_pos_of_mem hl).ne'
  have hstatement := execStatement_eq (by simp : ∀ c ∈ ([] : Text), isSpace c = true)
    (by decide : IsKey "m_Id".toList) (stringLiteral config.m_Id) rest {}
  rw [List.nil_append, ← htext, readValue_stringLiteral_of_newline hid, Option.bind_none]
    at hstatement
  rw [execAssignments, hfuel, execStatements, if_neg hnotblank, hstatement, Option.bind_none]

/-- The kind, the chrono backend and the numbers of a configuration. -/
def Config.withoutId (config : Config) : Config :=
  { config with m_Id := [] }

/-- **The emitted assignments give the configuration**, its id aside, exactly when the id
contains no newline and both `double` fields have at most six decimals. -/
theorem execAssignments_iff (config : Config) :
    (∃ entry, execAssignments (appendConfigAssignments config) {} = some entry ∧
        entry.m_Config.withoutId = config.withoutId) ↔
      '\n' ∉ config.m_Id ∧ DecimalText.HasDecimals 6 config.m_CvThreshold ∧
        DecimalText.HasDecimals 6 config.m_ReadCriticality := by
  rw [← DecimalText.rounded_eq_iff, ← DecimalText.rounded_eq_iff]
  constructor
  · rintro ⟨entry, hexec, heq⟩
    by_cases hid : '\n' ∈ config.m_Id
    · rw [execAssignments_of_newline hid] at hexec
      cases hexec
    · rw [execAssignments_appendConfigAssignments hid] at hexec
      obtain rfl := Option.some.inj hexec
      exact ⟨hid, congrArg Config.m_CvThreshold heq, congrArg Config.m_ReadCriticality heq⟩
  · rintro ⟨hid, hcv, hcriticality⟩
    refine ⟨_, execAssignments_appendConfigAssignments hid, ?_⟩
    rw [Config.compiled, Config.roundedDoubles, hcv, hcriticality]
    rfl

/-- The read criticality `1 / 10000000` is written as `0.000000` and lost. -/
theorem execAssignments_tenMillionth :
    let config : Config := { m_ReadCriticality := 1 / 10000000 }
    execAssignments (appendConfigAssignments config) {} = some {} ∧
      (SuiteTestEntry.m_Config {}).withoutId ≠ config.withoutId := by
  decide +kernel

end Hades.Runtime
