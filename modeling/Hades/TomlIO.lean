import Hades.Configuration
import Hades.DecimalText
import Hades.EscapedText
import Hades.Trimming

/-!
# Reading and Writing TOML

The manifest's subset of TOML (`TomlIO.cpp`): flat `key = value` lines inside repeated
`[[array]]` blocks. The reader is a line-by-line state machine that collects every error;
the writer prints tables.

The decimal text of a `double` comes from the C++ library: `DoubleCodec` stands for
`std::to_chars` and for `std::from_chars` on a whole token. A file is its content, or `none`
when it cannot be opened; the writer's file operations are assumed to succeed.

## Main definitions

* `TomlParser.handleLine`: one line of the reader.
* `readToml` and `tomlText`: the reader and the text that the writer writes.
-/

namespace Hades.Runtime

/-! ### Characters and lines -/

/-- `std::isspace` in the C locale. -/
def isSpace (c : Char) : Bool :=
  c == ' ' || (9 ≤ c.toNat && c.toNat ≤ 13)

/-- Remove the white space at both ends. -/
def trim (text : Text) : Text :=
  Trimming.trim isSpace text

/-- `[A-Za-z0-9_]`. -/
def isIdentChar (c : Char) : Bool :=
  c.isAlphanum || c == '_'

/-- Remove one carriage return at the end of a line. -/
def popCarriageReturn (line : Text) : Text :=
  if line.getLast? = some '\r' then line.dropLast else line

/-- The lines of a file. A newline at the very end is followed by an empty line. -/
def splitLines (content : Text) : List Text :=
  (content.splitOn '\n').map popCarriageReturn

/-- The first occurrence of a character outside all quoted strings. A quote counts unless
the character before it is a backslash. -/
def findOutsideStrings (target : Char) (line : Text) : Option (Text × Text) :=
  EscapedText.splitOutside '"' '\\' target false none line

/-- The line up to its comment. -/
def stripComment (line : Text) : Text :=
  match findOutsideStrings '#' line with
  | some (before, _) => before
  | none => line

/-- Key and value token of a line. -/
def splitKeyValue (line : Text) : Option (Text × Text) :=
  (findOutsideStrings '=' line).map fun (key, value) => (trim key, trim value)

/-- What a line is as a header. -/
inductive HeaderMatch where
  | arrayTable (name : Text)
  | singleBracket
  deriving DecidableEq

/-- Recognise `[[name]]` and `[name]`. -/
def matchHeader (line : Text) : Option HeaderMatch :=
  if 4 ≤ line.length ∧ line.take 2 = ['[', '['] ∧ line.drop (line.length - 2) = [']', ']'] then
    some (.arrayTable (trim ((line.drop 2).take (line.length - 4))))
  else if 2 ≤ line.length ∧ line.head? = some '[' ∧ line.getLast? = some ']' then
    some .singleBracket
  else none

/-! ### Values -/

/-- A value, with the data of its type only. -/
inductive TomlValue where
  | string (value : Text)
  | integer (value : Int64)
  | float (value : ℚ)
  | boolean (value : Bool)
  deriving DecidableEq

/-- A table keeps the order of its keys. -/
abbrev TomlTable := List (Text × TomlValue)

/-- A parse error. -/
structure TomlParseError where
  m_Line : UInt32 := 0
  m_Message : Text
  deriving DecidableEq

/-- `std::to_chars` on a `double`, and `std::from_chars` where it consumes the whole text. -/
structure DoubleCodec where
  toChars : ℚ → Text
  fromChars : Text → Option ℚ

/-- The escapes that the manifest's strings know. -/
def tomlEscapes : EscapedText.Codec Char where
  mark := '\\'
  encode c :=
    if c = '"' then some '"' else if c = '\\' then some '\\' else if c = '\n' then some 'n'
    else if c = '\t' then some 't' else if c = '\r' then some 'r' else none
  decode e :=
    if e = '"' then some '"' else if e = '\\' then some '\\' else if e = 'n' then some '\n'
    else if e = 't' then some '\t' else if e = 'r' then some '\r' else none
  decode_encode c e h := by
    split_ifs at h <;> simp_all
    all_goals subst h; decide
  encode_mark := by decide

/-- The value of a quoted token. -/
def parseQuotedString (token : Text) : Option Text :=
  if token.length < 2 ∨ token.head? ≠ some '"' ∨ token.getLast? ≠ some '"' then none
  else tomlEscapes.unescape token.tail.dropLast

/-- `std::from_chars` on an `int64_t`, where it consumes the whole text. -/
def parseInt64 (token : Text) : Option Int64 :=
  (DecimalText.intOfText? token).bind fun z =>
    if -2 ^ 63 ≤ z ∧ z < 2 ^ 63 then some (Int64.ofInt z) else none

/-- The value that a token stands for, or the message of the error. The type is guessed:
what can be read as an integer is an integer. -/
def parseValueToken (codec : DoubleCodec) (token : Text) : Except Text TomlValue :=
  if token.head? = some '"' then
    match parseQuotedString token with
    | some value => .ok (.string value)
    | none => .error "malformed quoted string".toList
  else if token = "true".toList ∨ token = "false".toList then
    .ok (.boolean (token = "true".toList))
  else
    match parseInt64 token with
    | some value => .ok (.integer value)
    | none =>
      match codec.fromChars token with
      | some value => .ok (.float value)
      | none => .error ("unrecognized value: ".toList ++ token)

/-- The text of a value. -/
def formatValue (codec : DoubleCodec) : TomlValue → Text
  | .string value => '"' :: tomlEscapes.escape value ++ ['"']
  | .boolean value => if value then "true".toList else "false".toList
  | .integer value => DecimalText.intText value.toInt
  | .float value => codec.toChars value

/-! ### The reader -/

/-- The state of the reader. The table in progress is there while the reader is inside a
block of the array it reads. -/
structure TomlParser where
  m_outTables : List TomlTable := []
  m_outErrors : List TomlParseError := []
  m_currentTable : Option TomlTable := none
  deriving DecidableEq

namespace TomlParser

/-- Report an error. -/
def report (p : TomlParser) (lineNo : UInt32) (message : Text) : TomlParser :=
  { p with m_outErrors := p.m_outErrors ++ [{ m_Line := lineNo, m_Message := message }] }

/-- Finish the table in progress. -/
def finish (p : TomlParser) : TomlParser :=
  match p.m_currentTable with
  | some table => { p with m_outTables := p.m_outTables ++ [table], m_currentTable := none }
  | none => p

/-- A header ends the table in progress, and starts one if it is the array's. -/
def handleHeader (p : TomlParser) (arrayName : Text) (header : HeaderMatch)
    (lineNo : UInt32) : TomlParser :=
  match header with
  | .singleBracket =>
    p.finish.report lineNo ("single-bracket tables are not supported (only [[".toList ++
      arrayName ++ "]])".toList)
  | .arrayTable name =>
    { p.finish with m_currentTable := if name = arrayName then some [] else none }

/-- A `key = value` line adds to the table in progress. -/
def handleKeyValue (codec : DoubleCodec) (p : TomlParser) (line : Text) (lineNo : UInt32) :
    TomlParser :=
  match splitKeyValue line with
  | none => p.report lineNo "expected 'key = value'".toList
  | some (key, valueToken) =>
    if key = [] ∨ ¬ key.all isIdentChar then p.report lineNo ("invalid key: ".toList ++ key)
    else
      match p.m_currentTable with
      | none => p
      | some table =>
        if key ∈ table.map Prod.fst then p.report lineNo ("duplicate key: ".toList ++ key)
        else
          match parseValueToken codec valueToken with
          | .ok value => { p with m_currentTable := some (table ++ [(key, value)]) }
          | .error message => p.report lineNo message

/-- One line of the file. -/
def handleLine (codec : DoubleCodec) (arrayName : Text) (p : TomlParser) (rawLine : Text)
    (lineNo : UInt32) : TomlParser :=
  let line := trim (stripComment rawLine)
  if line = [] ∨ line.head? = some '#' then p
  else
    match matchHeader line with
    | some header => p.handleHeader arrayName header lineNo
    | none => p.handleKeyValue codec line lineNo

/-- A series of lines, the first one with the number `lineNo + 1`. -/
def handleLines (codec : DoubleCodec) (arrayName : Text) (p : TomlParser) (lineNo : ℕ) :
    List Text → TomlParser
  | [] => p
  | line :: lines =>
    handleLines codec arrayName
      (p.handleLine codec arrayName line (UInt32.ofNat (lineNo + 1))) (lineNo + 1) lines

end TomlParser

/-- Read every block of the array, in file order, and all errors. -/
def readToml (codec : DoubleCodec) (path arrayName : Text) (file : Option Text) :
    List TomlTable × List TomlParseError :=
  match file with
  | none => ([], [{ m_Line := 0, m_Message := "could not open file: ".toList ++ path }])
  | some content =>
    let p := (TomlParser.handleLines codec arrayName {} 0 (splitLines content)).finish
    (p.m_outTables, p.m_outErrors)

/-! ### The writer -/

/-- The line of one key. -/
def pairText (codec : DoubleCodec) (pair : Text × TomlValue) : Text :=
  pair.1 ++ " = ".toList ++ formatValue codec pair.2 ++ ['\n']

/-- The block of one table. -/
def tableText (codec : DoubleCodec) (arrayName : Text) (table : TomlTable) : Text :=
  "[[".toList ++ arrayName ++ "]]\n".toList ++ table.flatMap (pairText codec) ++ ['\n']

/-- What the writer writes. -/
def tomlText (codec : DoubleCodec) (arrayName : Text) (tables : List TomlTable) : Text :=
  tables.flatMap (tableText codec arrayName)

/-- Write a file, in append mode or from scratch. -/
def writeWholeFile (file : Option Text) (content : Text) (append : Bool) : Option Text :=
  if append then some (file.getD [] ++ content) else some content

/-- Write tables, in append mode or from scratch. -/
def writeToml (codec : DoubleCodec) (arrayName : Text) (tables : List TomlTable)
    (append : Bool) (file : Option Text) : Option Text :=
  writeWholeFile file (tomlText codec arrayName tables) append

/-! ### Looking up a key -/

/-- The first value of a key that `select` accepts. -/
def findToml {α : Type} (select : TomlValue → Option α) (table : TomlTable) (key : Text) :
    Option α :=
  table.findSome? fun pair => if pair.1 = key then select pair.2 else none

/-- The value of a string. -/
def TomlValue.asString? : TomlValue → Option Text
  | .string value => some value
  | _ => none

/-- The value of an integer. -/
def TomlValue.asInt? : TomlValue → Option Int64
  | .integer value => some value
  | _ => none

/-- The value of a floating-point number. -/
def TomlValue.asFloat? : TomlValue → Option ℚ
  | .float value => some value
  | _ => none

/-- The string under a key. -/
def findTomlString : TomlTable → Text → Option Text :=
  findToml TomlValue.asString?

/-- The integer under a key. -/
def findTomlInt : TomlTable → Text → Option Int64 :=
  findToml TomlValue.asInt?

/-- The floating-point number under a key. -/
def findTomlFloat : TomlTable → Text → Option ℚ :=
  findToml TomlValue.asFloat?

end Hades.Runtime
