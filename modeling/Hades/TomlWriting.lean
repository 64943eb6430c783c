import Hades.Lines
import Hades.TomlIO

/-!
# Reading What Was Written

What the TOML reader makes of the text that the TOML writer writes, behind any content
whose last line is blank. A string comes back as it is, whatever is in it; a number comes
back with the type that its text suggests, which for a floating-point number may be
`integer` (`TomlValue.reread`).

## Main results

* `parseValueToken_formatValue`: the token of a value is read as `TomlValue.reread`.
* `TomlParser.handleLine_header`, `TomlParser.handleLine_pair`: the lines of a table.
* `TomlParser.finish_handleLines_tables`: the lines of a series of tables.
* `readToml_append`: **tables appended behind a blank line** are read after the old ones.
* `readToml_writeToml`: tables without floating-point numbers are read back as they were.
-/

namespace Hades.Runtime

/-! ### Character classes -/

/-- A name or a key: not empty, and identifier characters only. -/
def IsKey (key : Text) : Prop :=
  key ≠ [] ∧ ∀ c ∈ key, isIdentChar c = true

instance (key : Text) : Decidable (IsKey key) :=
  inferInstanceAs (Decidable (_ ∧ _))

/-- A character without a meaning of its own: neither white space, quote, comment sign nor
backslash. -/
def isTokenChar (c : Char) : Bool :=
  !isSpace c && c != '"' && c != '#' && c != '\\'

/-- Identifier characters come after the control characters and the blank. -/
theorem toNat_of_isIdentChar {c : Char} (h : isIdentChar c = true) : 48 ≤ c.toNat := by
  have hcases : (((c.isUpper || c.isLower) || c.isDigit) || c == '_') = true := h
  simp only [Bool.or_eq_true, beq_iff_eq] at hcases
  change 48 ≤ c.val.toNat
  rcases hcases with ((hupper | hlower) | hdigit) | rfl
  · have hle : 'A'.val ≤ c.val := (of_decide_eq_true hupper).1
    exact le_trans (by decide) (UInt32.le_iff_toNat_le.mp hle)
  · have hle : 'a'.val ≤ c.val := of_decide_eq_true (Bool.and_eq_true_iff.mp hlower).1
    exact le_trans (by decide) (UInt32.le_iff_toNat_le.mp hle)
  · have hle : '0'.val ≤ c.val := of_decide_eq_true (Bool.and_eq_true_iff.mp hdigit).1
    exact UInt32.le_iff_toNat_le.mp hle
  · decide

theorem isSpace_of_isIdentChar {c : Char} (h : isIdentChar c = true) : isSpace c = false := by
  have hn := toNat_of_isIdentChar h
  rw [Bool.eq_false_iff]
  intro hs
  simp only [isSpace, Bool.or_eq_true, Bool.and_eq_true, decide_eq_true_eq, beq_iff_eq] at hs
  rcases hs with rfl | hs
  · exact absurd h (by decide)
  · omega

theorem ne_of_isIdentChar {c d : Char} (h : isIdentChar c = true)
    (hd : isIdentChar d = false) : c ≠ d := by
  rintro rfl
  rw [h] at hd
  cases hd

/-- A character that is not an identifier character is not in a key. -/
theorem IsKey.notMem {key : Text} (h : IsKey key) {d : Char} (hd : isIdentChar d = false) :
    d ∉ key := fun hmem => ne_of_isIdentChar (h.2 d hmem) hd rfl

theorem isTokenChar_of_isIdentChar {c : Char} (h : isIdentChar c = true) :
    isTokenChar c = true := by
  simp [isTokenChar, isSpace_of_isIdentChar h, ne_of_isIdentChar h (d := '"') (by decide),
    ne_of_isIdentChar h (d := '#') (by decide), ne_of_isIdentChar h (d := '\\') (by decide)]

theorem isTokenChar_of_isDigit {c : Char} (h : c.isDigit = true) : isTokenChar c = true :=
  isTokenChar_of_isIdentChar (by simp [isIdentChar, Char.isAlphanum, h])

/-- A character that is not a token character is not in a text of token characters. -/
theorem notMem_of_isTokenChar {t : Text} (h : ∀ c ∈ t, isTokenChar c = true) {d : Char}
    (hd : isTokenChar d = false) : d ∉ t := by
  intro hmem
  rw [h d hmem] at hd
  cases hd

/-! ### The texts of values -/

/-- **A text that survives the reader's line handling** behind a key: it is kept by
trimming, stays on its line and contains no comment. -/
structure IsValueText (t : Text) : Prop where
  ne_nil : t ≠ []
  tight : Trimming.Tight isSpace t
  newline_notMem : '\n' ∉ t
  uncommented : ∀ p, p ≠ '\\' → EscapedText.splitOutside '"' '\\' '#' false (some p) t = none

theorem isValueText_of_isTokenChar {t : Text} (hne : t ≠ [])
    (h : ∀ c ∈ t, isTokenChar c = true) : IsValueText t where
  ne_nil := hne
  tight := Trimming.tight_of_forall fun c hc => by
    have := h c hc
    simp only [isTokenChar, Bool.and_eq_true, Bool.not_eq_true'] at this
    exact this.1.1.1
  newline_notMem := notMem_of_isTokenChar h (by decide)
  uncommented _ _ := EscapedText.splitOutside_eq_none_of_plain
    (notMem_of_isTokenChar h (by decide)) (notMem_of_isTokenChar h (by decide)) _ _

/-- **A quoted string is a value text**, whatever is in it: its newlines are escaped, and
inside the quotes there is no comment. -/
theorem isValueText_string (s : Text) :
    IsValueText ('"' :: tomlEscapes.escape s ++ ['"']) where
  ne_nil := by simp
  tight := by
    refine ⟨fun c hc => ?_, fun c hc => ?_⟩
    · obtain rfl : '"' = c := by simpa using hc
      decide
    · obtain rfl : '"' = c := by simpa [List.getLast?_cons, List.getLast?_append] using hc
      decide
  newline_notMem := by
    intro hmem
    have hesc : '\n' ∈ tomlEscapes.escape s := by simpa using hmem
    rcases EscapedText.Codec.mem_escape hesc with hm | ⟨c, -, hc⟩ | ⟨-, hn⟩
    · exact absurd hm (by decide)
    · have := tomlEscapes.decode_encode c '\n' hc
      exact absurd this (by simp [tomlEscapes])
    · exact absurd hn (by decide)
  uncommented := by
    intro p hp
    have hbody : EscapedText.splitOutside '"' '\\' '#' true (some '"')
        (tomlEscapes.escape s ++ ['"']) = none :=
      tomlEscapes.splitOutside_escape (by decide) (by decide) s (fun r => by
        simp only [EscapedText.splitOutside]
        split <;> simp) '"'
    simp only [List.cons_append, EscapedText.splitOutside]
    rw [if_pos ⟨trivial, fun h => hp (Option.some.inj h)⟩]
    simpa using hbody

/-- What the library promises about the text of a finite `double`. -/
structure DoubleCodec.Lawful (codec : DoubleCodec) (IsDouble : ℚ → Prop) : Prop where
  fromChars_toChars : ∀ d, IsDouble d → codec.fromChars (codec.toChars d) = some d
  toChars_ne_nil : ∀ d, IsDouble d → codec.toChars d ≠ []
  toChars_chars : ∀ d, IsDouble d → ∀ c ∈ codec.toChars d,
    c.isDigit = true ∨ c = '-' ∨ c = '+' ∨ c = '.' ∨ c = 'e'

/-- A floating-point value that the library can print. -/
def TomlValue.IsWritable (IsDouble : ℚ → Prop) : TomlValue → Prop
  | .float value => IsDouble value
  | _ => True

/-- The value that is read where a value was written: the type is guessed from the text. -/
def TomlValue.reread (codec : DoubleCodec) : TomlValue → TomlValue
  | .float value =>
    match parseInt64 (codec.toChars value) with
    | some n => .integer n
    | none => .float value
  | value => value

/-- The characters of a printed `double`. -/
theorem isTokenChar_toChars {c : Char}
    (h : c.isDigit = true ∨ c = '-' ∨ c = '+' ∨ c = '.' ∨ c = 'e') : isTokenChar c = true := by
  rcases h with h | rfl | rfl | rfl | rfl
  · exact isTokenChar_of_isDigit h
  · decide
  · decide
  · decide
  · decide

/-- The characters of a printed integer. -/
theorem isTokenChar_intText {z : ℤ} {c : Char} (h : c ∈ DecimalText.intText z) :
    isTokenChar c = true := by
  rcases DecimalText.mem_intText h with rfl | h
  · decide
  · exact isTokenChar_of_isDigit h

/-- **Every printed value is a value text.** -/
theorem isValueText_formatValue {codec : DoubleCodec} {IsDouble : ℚ → Prop}
    (hcodec : codec.Lawful IsDouble) {value : TomlValue} (h : value.IsWritable IsDouble) :
    IsValueText (formatValue codec value) := by
  cases value with
  | string s => exact isValueText_string s
  | integer n =>
      exact isValueText_of_isTokenChar (DecimalText.intText_ne_nil _)
        fun c hc => isTokenChar_intText hc
  | float d =>
      exact isValueText_of_isTokenChar (hcodec.toChars_ne_nil d h)
        fun c hc => isTokenChar_toChars (hcodec.toChars_chars d h c hc)
  | boolean b =>
      have htext : formatValue codec (.boolean b) = "true".toList ∨
          formatValue codec (.boolean b) = "false".toList := by
        cases b
        · exact Or.inr rfl
        · exact Or.inl rfl
      rcases htext with ht | ht <;> rw [ht]
      · exact isValueText_of_isTokenChar (by decide) (by decide)
      · exact isValueText_of_isTokenChar (by decide) (by decide)

/-- A printed integer is read as that integer. -/
theorem parseInt64_intText (n : Int64) : parseInt64 (DecimalText.intText n.toInt) = some n := by
  have hlo := n.le_toInt
  have hhi := n.toInt_lt
  rw [parseInt64, DecimalText.intOfText?_intText, Option.bind_some, if_pos ⟨hlo, hhi⟩,
    Int64.ofInt_toInt]

/-- A token of number characters is no string and no truth value. -/
theorem parseValueToken_of_number {codec : DoubleCodec} {t : Text}
    (h : ∀ c ∈ t, c.isDigit = true ∨ c = '-' ∨ c = '+' ∨ c = '.' ∨ c = 'e') :
    parseValueToken codec t =
      match parseInt64 t with
      | some value => .ok (.integer value)
      | none =>
        match codec.fromChars t with
        | some value => .ok (.float value)
        | none => .error ("unrecognized value: ".toList ++ t) := by
  have hquote : t.head? ≠ some '"' := fun hq =>
    absurd (h '"' (List.mem_of_mem_head? hq)) (by decide)
  have htrue : t ≠ "true".toList := by
    rintro rfl
    exact absurd (h 't' (by decide)) (by decide)
  have hfalse : t ≠ "false".toList := by
    rintro rfl
    exact absurd (h 'f' (by decide)) (by decide)
  rw [parseValueToken, if_neg hquote]
  exact if_neg (not_or.mpr ⟨htrue, hfalse⟩)

/-- A printed string is read as that string. -/
theorem parseQuotedString_formatValue (s : Text) :
    parseQuotedString ('"' :: tomlEscapes.escape s ++ ['"']) = some s := by
  have hlast : ('"' :: tomlEscapes.escape s ++ ['"']).getLast? = some '"' := by
    rw [List.getLast?_concat]
  have hquoted : ¬ (('"' :: tomlEscapes.escape s ++ ['"']).length < 2 ∨
      ('"' :: tomlEscapes.escape s ++ ['"']).head? ≠ some '"' ∨
      ('"' :: tomlEscapes.escape s ++ ['"']).getLast? ≠ some '"') := by
    rintro (h | h | h)
    · simp only [List.cons_append, List.length_cons, List.length_append] at h
      omega
    · exact h rfl
    · exact h hlast
  rw [parseQuotedString, if_neg hquoted, List.cons_append, List.tail_cons,
    List.dropLast_concat, EscapedText.Codec.unescape_escape]

/-- A written string is read as the string. -/
theorem parseValueToken_string {token s : Text} (h : token = '"' :: tomlEscapes.escape s ++ ['"'])
    (codec : DoubleCodec) : parseValueToken codec token = .ok (.string s) := by
  have hhead : ('"' :: tomlEscapes.escape s ++ ['"']).head? = some '"' := rfl
  rw [h, parseValueToken, if_pos hhead, parseQuotedString_formatValue]

/-- **The token of a value** is read as the value, up to the type of its text. -/
theorem parseValueToken_formatValue {codec : DoubleCodec} {IsDouble : ℚ → Prop}
    (hcodec : codec.Lawful IsDouble) {value : TomlValue} (h : value.IsWritable IsDouble) :
    parseValueToken codec (formatValue codec value) = .ok (value.reread codec) := by
  cases value with
  | string s => exact parseValueToken_string rfl codec
  | integer n =>
      have hchars : ∀ c ∈ DecimalText.intText n.toInt,
          c.isDigit = true ∨ c = '-' ∨ c = '+' ∨ c = '.' ∨ c = 'e' := by
        intro c hc
        rcases DecimalText.mem_intText hc with hc | hc
        · exact Or.inr (Or.inl hc)
        · exact Or.inl hc
      rw [formatValue, parseValueToken_of_number hchars, parseInt64_intText]
      rfl
  | float d =>
      rw [formatValue, parseValueToken_of_number (hcodec.toChars_chars d h),
        hcodec.fromChars_toChars d h, TomlValue.reread]
      cases parseInt64 (codec.toChars d) with
      | some n => rfl
      | none => rfl
  | boolean b => cases b <;> rfl

/-! ### The lines of a table -/

namespace TomlParser

variable {codec : DoubleCodec} {arrayName : Text}

/-- A blank line does nothing. -/
theorem handleLine_blank (p : TomlParser) {line : Text} (h : ∀ c ∈ line, isSpace c = true)
    (lineNo : UInt32) : p.handleLine codec arrayName line lineNo = p := by
  have hstrip : ∀ c ∈ stripComment line, isSpace c = true := by
    intro c hc
    rw [stripComment] at hc
    split at hc
    · next before behind hfind =>
        refine h c ?_
        rw [EscapedText.splitOutside_eq_append hfind]
        exact List.mem_append_left _ hc
    · exact h c hc
  have hnil : trim (stripComment line) = [] := Trimming.trim_eq_nil_iff.mpr hstrip
  simp only [handleLine, hnil, true_or, if_true]

/-- A line without quotes and comment signs has no comment. -/
theorem stripComment_of_plain {line : Text} (hq : '"' ∉ line) (hc : '#' ∉ line) :
    stripComment line = line := by
  rw [stripComment, findOutsideStrings, EscapedText.splitOutside_eq_none_of_plain hq hc]

/-- The text of a header. -/
def headerLine (arrayName : Text) : Text :=
  "[[".toList ++ arrayName ++ "]]".toList

/-- The characters of a header. -/
theorem isTokenChar_headerLine (hname : IsKey arrayName) :
    ∀ c ∈ headerLine arrayName, isTokenChar c = true := by
  intro c hc
  simp only [headerLine, List.mem_append] at hc
  rcases hc with (hc | hc) | hc
  · exact (by decide : ∀ c ∈ "[[".toList, isTokenChar c = true) c hc
  · exact isTokenChar_of_isIdentChar (hname.2 c hc)
  · exact (by decide : ∀ c ∈ "]]".toList, isTokenChar c = true) c hc

/-- A header is recognised as one. -/
theorem matchHeader_headerLine (hname : IsKey arrayName) :
    matchHeader (headerLine arrayName) = some (.arrayTable arrayName) := by
  have htext : headerLine arrayName = '[' :: '[' :: (arrayName ++ [']', ']']) := by
    simp [headerLine]
  have htrim : trim arrayName = arrayName := Trimming.trim_of_tight
    (Trimming.tight_of_forall fun c hc => isSpace_of_isIdentChar (hname.2 c hc))
  rw [matchHeader, htext, if_pos (by simp)]
  simp [htrim]

/-- **A header of the array**, behind blanks, starts a table. -/
theorem handleLine_header (hname : IsKey arrayName) (p : TomlParser) {pre : Text}
    (hpre : ∀ c ∈ pre, isSpace c = true) (lineNo : UInt32) :
    p.handleLine codec arrayName (pre ++ headerLine arrayName) lineNo =
      { p.finish with m_currentTable := some [] } := by
  have hne : headerLine arrayName ≠ [] := by simp [headerLine]
  have hplain : ∀ d, isTokenChar d = false → isSpace d = false →
      d ∉ pre ++ headerLine arrayName := by
    intro d hd hs hmem
    rcases List.mem_append.mp hmem with hmem | hmem
    · rw [hpre d hmem] at hs
      cases hs
    · exact notMem_of_isTokenChar (isTokenChar_headerLine hname) hd hmem
  have hstrip : stripComment (pre ++ headerLine arrayName) = pre ++ headerLine arrayName :=
    stripComment_of_plain (hplain '"' (by decide) (by decide))
      (hplain '#' (by decide) (by decide))
  have htrim : trim (pre ++ headerLine arrayName) = headerLine arrayName :=
    (Trimming.trim_blank_append hpre _).trans (Trimming.trim_of_tight
      (isValueText_of_isTokenChar hne (isTokenChar_headerLine hname)).tight)
  have hcomment : ¬ (headerLine arrayName = [] ∨ (headerLine arrayName).head? = some '#') := by
    simp [headerLine]
  simp only [handleLine, hstrip, htrim, if_neg hcomment, matchHeader_headerLine hname,
    handleHeader, if_true]

/-- A line that does not start with a bracket is no header. -/
theorem matchHeader_of_head {line : Text} {c : Char} (h : line.head? = some c)
    (hc : c ≠ '[') : matchHeader line = none := by
  have htake : line.take 2 ≠ ['[', '['] := by
    intro ht
    have := congrArg List.head? ht
    rw [List.head?_take, if_neg (by decide), h] at this
    exact hc (Option.some.inj this)
  rw [matchHeader, if_neg (fun hm => htake hm.2.1), h, if_neg]
  rintro ⟨-, hb, -⟩
  exact hc (Option.some.inj hb)

/-- The line of a pair, without its newline. -/
def pairLine (codec : DoubleCodec) (pair : Text × TomlValue) : Text :=
  pair.1 ++ " = ".toList ++ formatValue codec pair.2

/-- **A line with an equals sign and a valid key** is an assignment. -/
theorem handleLine_of_key (p : TomlParser) {line before behind : Text}
    (hsplit : findOutsideStrings '=' (trim (stripComment line)) = some (before, behind))
    (hkey : IsKey (trim before)) (lineNo : UInt32) :
    p.handleLine codec arrayName line lineNo =
      match p.m_currentTable with
      | none => p
      | some table =>
        if trim before ∈ table.map Prod.fst then
          p.report lineNo ("duplicate key: ".toList ++ trim before)
        else
          match parseValueToken codec (trim behind) with
          | .ok value => { p with m_currentTable := some (table ++ [(trim before, value)]) }
          | .error message => p.report lineNo message := by
  have heq := EscapedText.splitOutside_eq_append hsplit
  -- the line starts with the first character of its key
  obtain ⟨c, rest, hbefore⟩ : ∃ c rest, before = c :: rest := by
    cases before with
    | nil => exact absurd rfl hkey.1
    | cons c rest => exact ⟨c, rest, rfl⟩
  have hhead : (trim (stripComment line)).head? = some c := by rw [heq, hbefore]; rfl
  have hc : isIdentChar c = true := by
    have htight : Trimming.Tight isSpace (trim (stripComment line)) := Trimming.tight_trim _
    have hmem : c ∈ before := hbefore ▸ List.mem_cons_self
    exact hkey.2 c (Trimming.mem_trim hmem (htight.1 c hhead))
  have hne : trim (stripComment line) ≠ [] := List.ne_nil_of_mem (List.mem_of_mem_head? hhead)
  have hcomment : ¬ (trim (stripComment line) = [] ∨
      (trim (stripComment line)).head? = some '#') := by
    rw [hhead]
    exact not_or.mpr ⟨hne, fun h => ne_of_isIdentChar hc (by decide) (Option.some.inj h)⟩
  have hheader : matchHeader (trim (stripComment line)) = none :=
    matchHeader_of_head hhead (ne_of_isIdentChar hc (by decide))
  have hpair : splitKeyValue (trim (stripComment line)) = some (trim before, trim behind) := by
    rw [splitKeyValue, hsplit]
    rfl
  have hvalid : ¬ (trim before = [] ∨ ¬ (trim before).all isIdentChar = true) := by
    rw [not_or, not_not, List.all_eq_true]
    exact hkey
  have hassign : p.handleLine codec arrayName line lineNo =
      p.handleKeyValue codec (trim (stripComment line)) lineNo := by
    simp only [handleLine, if_neg hcomment, hheader]
  rw [hassign, handleKeyValue, hpair]
  exact if_neg hvalid

/-- **Inside the array** a new key with a value is one more pair of the table. -/
theorem handleLine_of_value (p : TomlParser) {line before behind : Text} {table : TomlTable}
    {value : TomlValue}
    (hsplit : findOutsideStrings '=' (trim (stripComment line)) = some (before, behind))
    (hkey : IsKey (trim before)) (hp : p.m_currentTable = some table)
    (hfresh : trim before ∉ table.map Prod.fst)
    (hvalue : parseValueToken codec (trim behind) = .ok value) (lineNo : UInt32) :
    p.handleLine codec arrayName line lineNo =
      { p with m_currentTable := some (table ++ [(trim before, value)]) } := by
  rw [p.handleLine_of_key hsplit hkey, hp]
  simp only [if_neg hfresh, hvalue]

/-- The line of a key has no comment. -/
theorem findOutsideStrings_comment {key t : Text} (hkey : IsKey key) (ht : IsValueText t) :
    findOutsideStrings '#' (key ++ " = ".toList ++ t) = none := by
  have hsign : '#' ∉ key ++ [' ', '='] ++ [' '] := by simpa using hkey.notMem (by decide)
  have hquote : '"' ∉ key ++ [' ', '='] ++ [' '] := by simpa using hkey.notMem (by decide)
  have hline : key ++ " = ".toList ++ t = (key ++ [' ', '=']) ++ ' ' :: t := by simp
  rw [findOutsideStrings, hline, EscapedText.splitOutside_skip hquote hsign,
    ht.uncommented ' ' (by decide)]
  rfl

/-- The line of a key is split behind the key. -/
theorem findOutsideStrings_equals {key : Text} (hkey : IsKey key) (t : Text) :
    findOutsideStrings '=' (key ++ " = ".toList ++ t) = some (key ++ [' '], ' ' :: t) := by
  have hquote : '"' ∉ key ++ [' '] := by simpa using hkey.notMem (by decide)
  have hequals : '=' ∉ key ++ [' '] := by simpa using hkey.notMem (by decide)
  have hline : key ++ " = ".toList ++ t = (key ++ [' ']) ++ '=' :: ' ' :: t := by simp
  rw [hline, findOutsideStrings,
    EscapedText.splitOutside_append_of_plain hquote hequals (by decide)]

/-- **The line of a key** adds the value to the table. -/
theorem handleLine_pair {key t : Text} {value : TomlValue} (hkey : IsKey key)
    (ht : IsValueText t) (hvalue : parseValueToken codec t = .ok value) {p : TomlParser}
    {table : TomlTable} (hp : p.m_currentTable = some table)
    (hfresh : key ∉ table.map Prod.fst) (lineNo : UInt32) :
    p.handleLine codec arrayName (key ++ " = ".toList ++ t) lineNo =
      { p with m_currentTable := some (table ++ [(key, value)]) } := by
  have htight : Trimming.Tight isSpace key :=
    Trimming.tight_of_forall fun c hc => isSpace_of_isIdentChar (hkey.2 c hc)
  have hstrip : stripComment (key ++ " = ".toList ++ t) = key ++ " = ".toList ++ t := by
    rw [stripComment, findOutsideStrings_comment hkey ht]
  have htrim : trim (key ++ " = ".toList ++ t) = key ++ " = ".toList ++ t := by
    refine Trimming.trim_of_tight ⟨fun c hc => ?_, fun c hc => ?_⟩
    · rw [List.append_assoc, List.head?_append_of_ne_nil _ hkey.1] at hc
      exact htight.1 c hc
    · rw [List.getLast?_append_of_ne_nil _ ht.ne_nil] at hc
      exact ht.tight.2 c hc
  have hsplit : findOutsideStrings '=' (trim (stripComment (key ++ " = ".toList ++ t))) =
      some (key ++ [' '], ' ' :: t) := by
    rw [hstrip, htrim, findOutsideStrings_equals hkey]
  have hbefore : trim ([] ++ key ++ [' ']) = key :=
    Trimming.trim_padded (by simp) htight (by decide)
  rw [List.nil_append] at hbefore
  have hbehind : trim ([' '] ++ t) = t :=
    (Trimming.trim_blank_append (by decide) t).trans (Trimming.trim_of_tight ht.tight)
  rw [List.singleton_append] at hbehind
  rw [p.handleLine_of_value hsplit (hbefore.symm ▸ hkey) hp (hbefore.symm ▸ hfresh)
    (hbehind.symm ▸ hvalue), hbefore]

/-- The value of a pair as it is read. -/
def rereadPair (codec : DoubleCodec) (pair : Text × TomlValue) : Text × TomlValue :=
  (pair.1, pair.2.reread codec)

/-- The lines of a table, without their newlines. -/
def tableLines (codec : DoubleCodec) (arrayName : Text) (table : TomlTable) : List Text :=
  headerLine arrayName :: table.map (pairLine codec) ++ [[]]

/-- A table that the writer can write: identifier keys, each one once, and printable
values. -/
structure IsWritableTable (IsDouble : ℚ → Prop) (table : TomlTable) : Prop where
  isKey : ∀ pair ∈ table, IsKey pair.1
  isWritable : ∀ pair ∈ table, pair.2.IsWritable IsDouble
  nodup : (table.map Prod.fst).Nodup

theorem handleLines_append (p : TomlParser) (lineNo : ℕ) (xs ys : List Text) :
    p.handleLines codec arrayName lineNo (xs ++ ys) =
      (p.handleLines codec arrayName lineNo xs).handleLines codec arrayName
        (lineNo + xs.length) ys := by
  induction xs generalizing p lineNo with
  | nil => rfl
  | cons x xs ih =>
      rw [List.cons_append, handleLines, handleLines, ih, List.length_cons]
      congr 1
      omega

/-- **The lines of the pairs** of a table add its values. -/
theorem handleLines_pairs {IsDouble : ℚ → Prop} (hcodec : codec.Lawful IsDouble)
    {before pairs : TomlTable} (h : IsWritableTable IsDouble (before ++ pairs))
    {p : TomlParser} (hp : p.m_currentTable = some (before.map (rereadPair codec)))
    (lineNo : ℕ) :
    p.handleLines codec arrayName lineNo (pairs.map (pairLine codec)) =
      { p with m_currentTable := some ((before ++ pairs).map (rereadPair codec)) } := by
  induction pairs generalizing before p lineNo with
  | nil =>
      rw [List.append_nil, ← hp]
      rfl
  | cons pair pairs ih =>
      have hfresh : pair.1 ∉ (before.map (rereadPair codec)).map Prod.fst := by
        have hnodup := h.nodup
        rw [List.map_append, List.map_cons] at hnodup
        have hnot := (List.nodup_append.mp hnodup).2.2
        intro hmem
        rw [List.map_map] at hmem
        exact hnot _ hmem _ List.mem_cons_self rfl
      have hwritable := h.isWritable pair (by simp)
      have hstep : p.handleLine codec arrayName (pairLine codec pair)
          (UInt32.ofNat (lineNo + 1)) =
          { p with
            m_currentTable := some ((before ++ [pair]).map (rereadPair codec)) } := by
        rw [List.map_append]
        exact handleLine_pair (h.isKey pair (by simp)) (isValueText_formatValue hcodec hwritable)
          (parseValueToken_formatValue hcodec hwritable) hp hfresh _
      have hsplit : before ++ pair :: pairs = (before ++ [pair]) ++ pairs := by simp
      rw [hsplit] at h ⊢
      rw [List.map_cons, handleLines, hstep, ih h rfl]

/-- The reader with further tables in its output. -/
def addTables (p : TomlParser) (tables : List TomlTable) : TomlParser :=
  { p with m_outTables := p.m_outTables ++ tables }

@[simp] theorem addTables_nil (p : TomlParser) : p.addTables [] = p := by
  simp [addTables]

@[simp] theorem addTables_addTables (p : TomlParser) (xs ys : List TomlTable) :
    (p.addTables xs).addTables ys = p.addTables (xs ++ ys) := by
  simp [addTables]

/-- **The lines of a table** behind blanks: the table in progress is finished, and this one
is in progress. -/
theorem handleLines_tableLines {IsDouble : ℚ → Prop} (hcodec : codec.Lawful IsDouble)
    (hname : IsKey arrayName) {table : TomlTable} (h : IsWritableTable IsDouble table)
    (p : TomlParser) (lineNo : ℕ) {pre : Text} (hpre : ∀ c ∈ pre, isSpace c = true) :
    p.handleLines codec arrayName lineNo
        ((pre ++ headerLine arrayName) :: table.map (pairLine codec) ++ [[]]) =
      { p.finish with m_currentTable := some (table.map (rereadPair codec)) } := by
  have h' : IsWritableTable IsDouble ([] ++ table) := h
  have hpairs (q : TomlParser) (hq : q.m_currentTable = some []) :
      q.handleLines codec arrayName (lineNo + 1) (table.map (pairLine codec)) =
        { q with m_currentTable := some (table.map (rereadPair codec)) } :=
    handleLines_pairs hcodec h' hq (lineNo + 1)
  rw [List.cons_append, handleLines, handleLine_header hname p hpre, handleLines_append,
    hpairs _ rfl, handleLines, handleLine_blank _ (by simp)]
  rfl

/-- A finished reader has no table in progress. -/
@[simp] theorem currentTable_finish (p : TomlParser) : p.finish.m_currentTable = none := by
  rw [finish]
  split
  · rfl
  · assumption

/-- Finishing a reader that has just started from a finished one. -/
theorem finish_start (p : TomlParser) (table : TomlTable) :
    { p.finish with m_currentTable := some table }.finish = p.finish.addTables [table] := by
  rw [addTables, finish, currentTable_finish]

/-- **The lines of a series of tables**, the first one behind blanks, once the last one is
finished. -/
theorem finish_handleLines_tables {IsDouble : ℚ → Prop} (hcodec : codec.Lawful IsDouble)
    (hname : IsKey arrayName) {tables : List TomlTable}
    (h : ∀ table ∈ tables, IsWritableTable IsDouble table) (p : TomlParser) (lineNo : ℕ) :
    (p.handleLines codec arrayName lineNo
        (tables.flatMap (tableLines codec arrayName))).finish =
      p.finish.addTables (tables.map (List.map (rereadPair codec))) := by
  induction tables generalizing p lineNo with
  | nil => simp [handleLines]
  | cons table tables ih =>
      have htable : p.handleLines codec arrayName lineNo (tableLines codec arrayName table) =
          { p.finish with m_currentTable := some (table.map (rereadPair codec)) } :=
        handleLines_tableLines hcodec hname (h table List.mem_cons_self) p lineNo
          (by simp : ∀ c ∈ ([] : Text), isSpace c = true)
      rw [List.flatMap_cons, handleLines_append,
        ih (fun t ht => h t (List.mem_cons_of_mem table ht)), htable, finish_start,
        addTables_addTables]
      rfl

end TomlParser

/-! ### Appending tables -/

/-- The text of a table is its lines. -/
theorem tableText_eq (codec : DoubleCodec) (arrayName : Text) (table : TomlTable) :
    tableText codec arrayName table =
      Lines.unlines '\n' (TomlParser.tableLines codec arrayName table) := by
  have hpairs : table.flatMap (pairText codec) =
      Lines.unlines '\n' (table.map (TomlParser.pairLine codec)) := by
    rw [Lines.unlines, List.flatMap_map]
    rfl
  rw [tableText, TomlParser.tableLines, Lines.unlines_append, Lines.unlines_cons, hpairs]
  simp [TomlParser.headerLine, Lines.unlines]

/-- The text of a series of tables is their lines. -/
theorem tomlText_eq (codec : DoubleCodec) (arrayName : Text) (tables : List TomlTable) :
    tomlText codec arrayName tables =
      Lines.unlines '\n' (tables.flatMap (TomlParser.tableLines codec arrayName)) := by
  induction tables with
  | nil => rfl
  | cons table tables ih =>
      rw [List.flatMap_cons, Lines.unlines_append, ← ih, ← tableText_eq]
      rfl

/-- A line that is read as it was written. -/
def IsWrittenLine (line : Text) : Prop :=
  '\n' ∉ line ∧ popCarriageReturn line = line

theorem popCarriageReturn_of_getLast {line : Text} (h : line.getLast? ≠ some '\r') :
    popCarriageReturn line = line := by
  rw [popCarriageReturn, if_neg h]

/-- A header behind blanks without a newline is read as it was written. -/
theorem isWrittenLine_header {arrayName pre : Text} (hname : IsKey arrayName)
    (hpre : '\n' ∉ pre) : IsWrittenLine (pre ++ TomlParser.headerLine arrayName) := by
  have hlast : (pre ++ TomlParser.headerLine arrayName).getLast? = some ']' := by
    have htext : TomlParser.headerLine arrayName = "[[".toList ++ arrayName ++ [']'] ++ [']'] := by
      simp [TomlParser.headerLine]
    rw [htext, ← List.append_assoc, List.getLast?_concat]
  refine ⟨fun hmem => ?_, popCarriageReturn_of_getLast (by rw [hlast]; decide)⟩
  rcases List.mem_append.mp hmem with hmem | hmem
  · exact hpre hmem
  · exact notMem_of_isTokenChar (TomlParser.isTokenChar_headerLine hname) (by decide) hmem

/-- The line of a writable pair is read as it was written. -/
theorem isWrittenLine_pair {codec : DoubleCodec} {IsDouble : ℚ → Prop}
    (hcodec : codec.Lawful IsDouble) {pair : Text × TomlValue} (hkey : IsKey pair.1)
    (h : pair.2.IsWritable IsDouble) : IsWrittenLine (TomlParser.pairLine codec pair) := by
  have htext := isValueText_formatValue hcodec h
  have hlast : (TomlParser.pairLine codec pair).getLast? =
      (formatValue codec pair.2).getLast? := by
    rw [TomlParser.pairLine, List.getLast?_append_of_ne_nil _ htext.ne_nil]
  constructor
  · intro hmem
    simp only [TomlParser.pairLine, List.mem_append] at hmem
    rcases hmem with (hmem | hmem) | hmem
    · exact hkey.notMem (by decide) hmem
    · exact absurd hmem (by decide)
    · exact htext.newline_notMem hmem
  · refine popCarriageReturn_of_getLast fun hcr => ?_
    rw [hlast] at hcr
    exact absurd (htext.tight.2 '\r' hcr) (by decide)

/-- The lines of writable tables are read as they were written. -/
theorem isWrittenLine_of_mem {codec : DoubleCodec} {arrayName : Text} {IsDouble : ℚ → Prop}
    (hcodec : codec.Lawful IsDouble) (hname : IsKey arrayName) {tables : List TomlTable}
    (h : ∀ table ∈ tables, TomlParser.IsWritableTable IsDouble table) {line : Text}
    (hline : line ∈ tables.flatMap (TomlParser.tableLines codec arrayName)) :
    IsWrittenLine line := by
  obtain ⟨table, htable, hmem⟩ := List.mem_flatMap.mp hline
  simp only [TomlParser.tableLines, List.cons_append, List.mem_cons, List.mem_append,
    List.mem_map, List.not_mem_nil, or_false] at hmem
  rcases hmem with rfl | ⟨pair, hpair, rfl⟩ | rfl
  · exact isWrittenLine_header hname (List.not_mem_nil : '\n' ∉ [])
  · exact isWrittenLine_pair hcodec ((h table htable).isKey pair hpair)
      ((h table htable).isWritable pair hpair)
  · exact ⟨by simp, rfl⟩

/-- Written lines that end with a newline each, behind the last line of a content. -/
theorem splitLines_append_unlines (content : Text) {first : Text} {lines : List Text}
    (hfirst : IsWrittenLine (Lines.lastLine '\n' content ++ first))
    (hlines : ∀ line ∈ lines, IsWrittenLine line) :
    splitLines (content ++ Lines.unlines '\n' (first :: lines)) =
      (Lines.earlierLines '\n' content).map popCarriageReturn ++
        (Lines.lastLine '\n' content ++ first) :: lines ++ [[]] := by
  have hnew : '\n' ∉ first := fun hmem => hfirst.1 (List.mem_append_right _ hmem)
  have hpop : lines.map popCarriageReturn = lines :=
    (List.map_congr_left fun line hl => (hlines line hl).2).trans (List.map_id lines)
  rw [splitLines, Lines.splitOn_append_unlines hnew fun line hl => (hlines line hl).1]
  have hnil : popCarriageReturn [] = [] := rfl
  simp [hfirst.2, hpop, hnil]

/-- The lines of a content: the earlier ones, and the last one. -/
theorem splitLines_eq (content : Text) :
    splitLines content = (Lines.earlierLines '\n' content).map popCarriageReturn ++
      [popCarriageReturn (Lines.lastLine '\n' content)] := by
  rw [splitLines, Lines.splitOn_eq, List.map_append, List.map_singleton]

/-- **The lines of a content with appended tables**: the first header continues the last
line of the content. -/
theorem splitLines_append_tomlText {codec : DoubleCodec} {arrayName : Text}
    {IsDouble : ℚ → Prop} (hcodec : codec.Lawful IsDouble) (hname : IsKey arrayName)
    {table : TomlTable} {tables : List TomlTable}
    (h : ∀ t ∈ table :: tables, TomlParser.IsWritableTable IsDouble t) (content : Text) :
    splitLines (content ++ tomlText codec arrayName (table :: tables)) =
      (Lines.earlierLines '\n' content).map popCarriageReturn ++
        (((Lines.lastLine '\n' content ++ TomlParser.headerLine arrayName) ::
            table.map (TomlParser.pairLine codec) ++ [[]]) ++
          (tables.flatMap (TomlParser.tableLines codec arrayName) ++ [[]])) := by
  have hwritten : ∀ line ∈ (table.map (TomlParser.pairLine codec) ++ [[]]) ++
      tables.flatMap (TomlParser.tableLines codec arrayName), IsWrittenLine line := by
    intro line hline
    refine isWrittenLine_of_mem hcodec hname h ?_
    rw [List.flatMap_cons, TomlParser.tableLines, List.cons_append, List.cons_append]
    exact List.mem_cons_of_mem _ hline
  rw [tomlText_eq, List.flatMap_cons, TomlParser.tableLines, List.cons_append,
    List.cons_append, splitLines_append_unlines content
      (isWrittenLine_header hname (Lines.sep_notMem_lastLine '\n' content)) hwritten]
  simp

/-- **Tables appended behind a blank line** are read after the old ones, and add no
error. -/
theorem readToml_append {codec : DoubleCodec} {arrayName : Text} {IsDouble : ℚ → Prop}
    (hcodec : codec.Lawful IsDouble) (hname : IsKey arrayName) {tables : List TomlTable}
    (h : ∀ table ∈ tables, TomlParser.IsWritableTable IsDouble table) {content : Text}
    (hblank : ∀ c ∈ Lines.lastLine '\n' content, isSpace c = true) (path : Text) :
    readToml codec path arrayName (some (content ++ tomlText codec arrayName tables)) =
      ((readToml codec path arrayName (some content)).1 ++
          tables.map (List.map (TomlParser.rereadPair codec)),
        (readToml codec path arrayName (some content)).2) := by
  cases tables with
  | nil =>
      have htext : content ++ tomlText codec arrayName [] = content := List.append_nil content
      rw [htext]
      simp
  | cons table tables =>
      have htable := h table List.mem_cons_self
      have htables := fun t ht => h t (List.mem_cons_of_mem table ht)
      have hpop : ∀ c ∈ popCarriageReturn (Lines.lastLine '\n' content), isSpace c = true := by
        intro c hc
        rw [popCarriageReturn] at hc
        split at hc
        · exact hblank c (List.mem_of_mem_dropLast hc)
        · exact hblank c hc
      obtain ⟨q, hq⟩ : ∃ q, TomlParser.handleLines codec arrayName {} 0
          ((Lines.earlierLines '\n' content).map popCarriageReturn) = q := ⟨_, rfl⟩
      have hfinishOld : (TomlParser.handleLines codec arrayName {} 0
          (splitLines content)).finish = q.finish := by
        rw [splitLines_eq, TomlParser.handleLines_append, hq, TomlParser.handleLines,
          TomlParser.handleLine_blank _ hpop, TomlParser.handleLines]
      have hfinishNew : (TomlParser.handleLines codec arrayName {} 0
          (splitLines (content ++ tomlText codec arrayName (table :: tables)))).finish =
          q.finish.addTables ((table :: tables).map (List.map (TomlParser.rereadPair codec))) := by
        rw [splitLines_append_tomlText hcodec hname h, TomlParser.handleLines_append, hq,
          TomlParser.handleLines_append,
          TomlParser.handleLines_tableLines hcodec hname htable _ _ hblank,
          TomlParser.handleLines_append, TomlParser.handleLines, TomlParser.handleLines,
          TomlParser.handleLine_blank _ (by simp),
          TomlParser.finish_handleLines_tables hcodec hname htables, TomlParser.finish_start,
          TomlParser.addTables_addTables]
        rfl
      simp only [readToml, hfinishOld, hfinishNew]
      rfl

/-! ### Tables without floating-point numbers -/

/-- The library need not promise anything about values that are not there. -/
theorem lawful_false (codec : DoubleCodec) : codec.Lawful fun _ => False where
  fromChars_toChars _ h := h.elim
  toChars_ne_nil _ h := h.elim
  toChars_chars _ h := h.elim

/-- A value that is no floating-point number. -/
def TomlValue.IsExact : TomlValue → Prop
  | .float _ => False
  | _ => True

instance : DecidablePred TomlValue.IsExact
  | .float _ => inferInstanceAs (Decidable False)
  | .string _ | .integer _ | .boolean _ => inferInstanceAs (Decidable True)

theorem TomlValue.IsExact.isWritable {value : TomlValue} (h : value.IsExact) :
    value.IsWritable fun _ => False := by
  cases value with
  | float d => exact h
  | _ => exact trivial

theorem TomlValue.IsExact.reread_eq {value : TomlValue} (h : value.IsExact)
    (codec : DoubleCodec) : value.reread codec = value := by
  cases value with
  | float d => exact h.elim
  | _ => rfl

/-- **Tables of strings, integers and truth values are read back as they were**, whatever is
in the strings. -/
theorem readToml_writeToml (codec : DoubleCodec) {arrayName : Text} (hname : IsKey arrayName)
    {tables : List TomlTable} (hkey : ∀ table ∈ tables, ∀ pair ∈ table, IsKey pair.1)
    (hnodup : ∀ table ∈ tables, (table.map Prod.fst).Nodup)
    (hexact : ∀ table ∈ tables, ∀ pair ∈ table, pair.2.IsExact) (path : Text)
    (file : Option Text) :
    readToml codec path arrayName (writeToml codec arrayName tables false file) =
      (tables, []) := by
  have hwritable : ∀ table ∈ tables, TomlParser.IsWritableTable (fun _ => False) table :=
    fun table htable =>
      ⟨hkey table htable, fun pair hpair => (hexact table htable pair hpair).isWritable,
        hnodup table htable⟩
  have hblank : ∀ c ∈ Lines.lastLine '\n' [], isSpace c = true := by simp [Lines.lastLine]
  have hempty : readToml codec path arrayName (some []) = ([], []) := rfl
  have hread := readToml_append (lawful_false codec) hname hwritable hblank path
  have hreread : tables.map (List.map (TomlParser.rereadPair codec)) = tables := by
    refine (List.map_congr_left fun table htable => ?_).trans (List.map_id tables)
    refine (List.map_congr_left fun pair hpair => ?_).trans (List.map_id table)
    exact Prod.ext rfl ((hexact table htable pair hpair).reread_eq codec)
  rw [hempty, hreread] at hread
  exact hread

/-- Tables with strings that look like comments, headers and escapes. -/
def trickyTables : List TomlTable :=
  [[("a".toList, .string "x\" # [[t]] = \\".toList), ("b".toList, .string "\n\r".toList)],
    [("a".toList, .integer (-3)), ("c".toList, .boolean true)]]

theorem readToml_writeToml_trickyTables :
    let codec : DoubleCodec := { toChars := fun _ => [], fromChars := fun _ => none }
    readToml codec [] "t".toList (writeToml codec "t".toList trickyTables false none) =
      (trickyTables, []) :=
  readToml_writeToml _ (by decide) (by decide) (by decide) (by decide) [] none

end Hades.Runtime
