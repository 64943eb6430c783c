import Hades.ArgumentVector

/-!
# Words of a Shell Command

How a POSIX shell cuts a line into the words of a simple command. Blanks separate words, and
quotes and backslashes take away what a character means. A line with anything else in it (an
operator, an expansion, a second line, quotes without an end) has no words here: what a shell
makes of it is left open.

A word with a wildcard names the files that match it, and is kept as it is only if there are
none; `expands` says which words match a file.

## Main results

* `words?_quoted_spaced`: a quoted path and **plain texts behind blanks are the words**.
-/

namespace ShellWords

open ArgumentVector (isBlank spaced spaced_nil spaced_cons)

/-! ### Reading -/

/-- A word: its characters, and which of them are quoted. -/
abbrev Word : Type := List (Char × Bool)

/-- Operators, expansions, and the end of the line. -/
def isSpecial (c : Char) : Bool :=
  "|&;<>()$`{}\n".toList.contains c

/-- What a backslash quotes inside double quotes. -/
def isEscapable (c : Char) : Bool :=
  "$`\"\\".toList.contains c

inductive Quoting where
  | unquoted
  | escaped
  | single
  | double
  | doubleEscaped
  deriving DecidableEq

/-- The words of a line, with the one that is being read, if there is one. -/
def readWords : Quoting → Option Word → List Char → Option (List Word)
  | .unquoted, word, [] => some word.toList
  | _, _, [] => none
  | .unquoted, word, c :: rest =>
    if isBlank c then (readWords .unquoted none rest).map (word.toList ++ ·)
    else if c = '\\' then readWords .escaped word rest
    else if c = '\'' then readWords .single (some (word.getD [])) rest
    else if c = '"' then readWords .double (some (word.getD [])) rest
    else if isSpecial c then none
    else readWords .unquoted (some (word.getD [] ++ [(c, false)])) rest
  | .escaped, word, c :: rest =>
    -- the end of the line is not quoted but taken away
    if c = '\n' then readWords .unquoted word rest
    else readWords .unquoted (some (word.getD [] ++ [(c, true)])) rest
  | .single, word, c :: rest =>
    if c = '\'' then readWords .unquoted word rest
    else readWords .single (some (word.getD [] ++ [(c, true)])) rest
  | .double, word, c :: rest =>
    if c = '"' then readWords .unquoted word rest
    else if c = '\\' then readWords .doubleEscaped word rest
    else if c = '$' ∨ c = '`' then none
    else readWords .double (some (word.getD [] ++ [(c, true)])) rest
  | .doubleEscaped, word, c :: rest =>
    if c = '\n' then readWords .double word rest
    else if isEscapable c then readWords .double (some (word.getD [] ++ [(c, true)])) rest
    else readWords .double (some (word.getD [] ++ [('\\', true), (c, true)])) rest

namespace Word

/-- The characters. -/
def text (word : Word) : List Char :=
  word.map Prod.fst

/-- A word that stands for the files that match it. -/
def isWildcard (word : Word) : Bool :=
  word.any fun c => !c.2 && "*?[".toList.contains c.1

/-- A comment begins here, or the name of a home directory. -/
def opensSpecially (word : Word) : Bool :=
  word.head? = some ('#', false) || word.head? = some ('~', false)

/-- The shell hands the word on as it is. -/
def isKept (expands : Word → Bool) (word : Word) : Bool :=
  !word.opensSpecially && !(word.isWildcard && expands word)

end Word

/-- The words of a line that is nothing but a simple command. -/
def words? (expands : Word → Bool) (line : List Char) : Option (List (List Char)) :=
  (readWords .unquoted none line).bind fun words =>
    if words.all (Word.isKept expands) then some (words.map Word.text) else none

/-! ### Plain texts -/

/-- A character without a meaning of its own inside a word. -/
def isPlain (c : Char) : Bool :=
  !isBlank c && !isSpecial c && !"\\'\"*?[".toList.contains c

/-- A character without a meaning of its own between double quotes. -/
def isPlainQuoted (c : Char) : Bool :=
  !isEscapable c

variable {text more : List Char} {word : Word} {args : List (List Char)} {expands : Word → Bool}

theorem isPlain_of_isDigit {c : Char} (h : c.isDigit = true) : isPlain c = true := by
  have hnone : ∀ d : Char, d.isDigit = false → c ≠ d := by
    rintro d hd rfl
    rw [h] at hd
    cases hd
  have hmem : ∀ chars : List Char, (∀ d ∈ chars, d.isDigit = false) → c ∉ chars :=
    fun chars hchars hc => hnone c (hchars c hc) rfl
  have hblank : isBlank c = false := by
    rw [isBlank, beq_false_of_ne (hnone ' ' (by decide)), beq_false_of_ne (hnone '\t' (by decide))]
    rfl
  rw [isPlain, hblank, isSpecial, List.contains_eq_mem, List.contains_eq_mem,
    decide_eq_false (hmem _ (by decide)), decide_eq_false (hmem _ (by decide))]
  rfl

/-- The word of a text that is all quoted, or not at all. -/
def wordOf (quoted : Bool) (text : List Char) : Word :=
  text.map fun c => (c, quoted)

@[simp] theorem text_wordOf (quoted : Bool) (text : List Char) :
    (wordOf quoted text).text = text := by
  rw [Word.text, wordOf, List.map_map]
  exact List.map_id text

theorem wordOf_cons (quoted : Bool) (c : Char) (text : List Char) :
    wordOf quoted (c :: text) = (c, quoted) :: wordOf quoted text := rfl

/-- One plain character. -/
theorem readWords_cons_plain {c : Char} (hc : isPlain c = true) (word : Option Word)
    (rest : List Char) :
    readWords .unquoted word (c :: rest) =
      readWords .unquoted (some (word.getD [] ++ [(c, false)])) rest := by
  simp only [isPlain, Bool.and_eq_true, Bool.not_eq_true'] at hc
  obtain ⟨⟨hblank, hspecial⟩, hother⟩ := hc
  have hne : ∀ d ∈ "\\'\"*?[".toList, c ≠ d := by
    rintro d hd rfl
    rw [List.contains_eq_mem, decide_eq_false_iff_not] at hother
    exact hother hd
  rw [readWords, if_neg (by rw [hblank]; exact Bool.false_ne_true), if_neg (hne '\\' (by decide)),
    if_neg (hne '\'' (by decide)), if_neg (hne '"' (by decide)),
    if_neg (by rw [hspecial]; exact Bool.false_ne_true)]

theorem readWords_blank (word : Option Word) (rest : List Char) :
    readWords .unquoted word (' ' :: rest) =
      (readWords .unquoted none rest).map (word.toList ++ ·) := rfl

/-- **A plain text** goes on with the word that is being read. -/
theorem readWords_plain (htext : ∀ c ∈ text, isPlain c = true) (word : Word) (rest : List Char) :
    readWords .unquoted (some word) (text ++ rest) =
      readWords .unquoted (some (word ++ wordOf false text)) rest := by
  induction text generalizing word with
  | nil => rw [wordOf, List.map_nil, List.append_nil, List.nil_append]
  | cons c text ih =>
      rw [List.cons_append, readWords_cons_plain (htext c List.mem_cons_self), Option.getD_some,
        ih fun d hd => htext d (List.mem_cons_of_mem c hd), wordOf_cons, List.append_assoc,
        List.singleton_append]

/-- A text between double quotes. -/
theorem readWords_quoted (htext : ∀ c ∈ text, isPlainQuoted c = true) (word : Word)
    (rest : List Char) :
    readWords .double (some word) (text ++ '"' :: rest) =
      readWords .unquoted (some (word ++ wordOf true text)) rest := by
  induction text generalizing word with
  | nil =>
      rw [wordOf, List.map_nil, List.append_nil, List.nil_append, readWords, if_pos rfl]
  | cons c text ih =>
      have hc := htext c List.mem_cons_self
      rw [isPlainQuoted, Bool.not_eq_true'] at hc
      have hne : ∀ d ∈ "$`\"\\".toList, c ≠ d := by
        rintro d hd rfl
        rw [isEscapable, List.contains_eq_mem, decide_eq_false_iff_not] at hc
        exact hc hd
      rw [List.cons_append, readWords, if_neg (hne '"' (by decide)),
        if_neg (hne '\\' (by decide)),
        if_neg (not_or.mpr ⟨hne '$' (by decide), hne '`' (by decide)⟩), Option.getD_some,
        ih fun d hd => htext d (List.mem_cons_of_mem c hd), wordOf_cons, List.append_assoc,
        List.singleton_append]

/-- Plain texts behind blanks. -/
theorem readWords_spaced (hargs : ∀ arg ∈ args, arg ≠ [] ∧ ∀ c ∈ arg, isPlain c = true)
    (word : Option Word) :
    readWords .unquoted word (spaced args) = some (word.toList ++ args.map (wordOf false)) := by
  induction args generalizing word with
  | nil => rw [spaced_nil, readWords, List.map_nil, List.append_nil]
  | cons arg args ih =>
      obtain ⟨⟨hne, hplain⟩, hrest⟩ := List.forall_mem_cons.mp hargs
      obtain ⟨c, text, rfl⟩ := List.exists_cons_of_ne_nil hne
      obtain ⟨hc, htext⟩ := List.forall_mem_cons.mp hplain
      rw [spaced_cons, readWords_blank, List.cons_append, readWords_cons_plain hc,
        Option.getD_none, List.nil_append, readWords_plain htext, ih hrest, Option.map_some,
        List.map_cons, wordOf_cons, Option.toList_some, List.singleton_append]
      rfl

/-- A plain text is no wildcard. -/
theorem isWildcard_wordOf (htext : ∀ c ∈ text, isPlain c = true) :
    (wordOf false text).isWildcard = false := by
  rw [Word.isWildcard, wordOf, List.any_map, List.any_eq_false]
  intro c hc
  have hplain := htext c hc
  simp only [isPlain, Bool.and_eq_true, Bool.not_eq_true', List.contains_eq_mem,
    decide_eq_false_iff_not] at hplain
  simp only [Function.comp_apply, Bool.not_false, Bool.true_and, List.contains_eq_mem,
    decide_eq_true_eq]
  exact fun hmem => hplain.2 (List.mem_append_right "\\'\"".toList hmem)

/-- Quoted characters are never wildcards. -/
theorem isKept_wordOf_true (expands : Word → Bool) (text : List Char) :
    (wordOf true text).isKept expands = true := by
  have hwild : (wordOf true text).isWildcard = false := by
    rw [Word.isWildcard, wordOf, List.any_map, List.any_eq_false]
    exact fun c _ => Bool.false_ne_true
  have hopens : (wordOf true text).opensSpecially = false := by
    cases text with
    | nil => rfl
    | cons c text =>
        simp [Word.opensSpecially, wordOf]
  rw [Word.isKept, hwild, hopens]
  rfl

/-- A plain text that begins with a hyphen is handed on. -/
theorem isKept_wordOf_false (expands : Word → Bool)
    (htext : ∀ c ∈ text, isPlain c = true) (hhead : text.head? = some '-') :
    (wordOf false text).isKept expands = true := by
  have hopens : (wordOf false text).opensSpecially = false := by
    cases text with
    | nil => cases hhead
    | cons c text =>
        obtain rfl := Option.some.inj hhead
        rfl
  rw [Word.isKept, isWildcard_wordOf htext, hopens]
  rfl

/-- **A quoted path and plain flags** are the words of their line. -/
theorem words?_quoted_spaced {path : List Char} (hpath : ∀ c ∈ path, isPlainQuoted c = true)
    (hargs : ∀ arg ∈ args, arg.head? = some '-' ∧ ∀ c ∈ arg, isPlain c = true) :
    words? expands ('"' :: path ++ '"' :: spaced args) = some (path :: args) := by
  have hne : ∀ arg ∈ args, arg ≠ [] ∧ ∀ c ∈ arg, isPlain c = true := by
    intro arg harg
    refine ⟨?_, (hargs arg harg).2⟩
    rintro rfl
    cases (hargs [] harg).1
  have hread : readWords .unquoted none ('"' :: path ++ '"' :: spaced args) =
      some (wordOf true path :: args.map (wordOf false)) := by
    rw [List.cons_append, readWords, if_neg (by decide), if_neg (by decide), if_neg (by decide),
      if_pos rfl, Option.getD_none, readWords_quoted hpath, List.nil_append, readWords_spaced hne,
      Option.toList_some, List.singleton_append]
  have hkept : (wordOf true path :: args.map (wordOf false)).all (Word.isKept expands) = true := by
    rw [List.all_cons, isKept_wordOf_true, Bool.true_and, List.all_eq_true]
    intro word hword
    obtain ⟨arg, harg, rfl⟩ := List.mem_map.mp hword
    exact isKept_wordOf_false expands (hargs arg harg).2 (hargs arg harg).1
  have htexts : (args.map (wordOf false)).map Word.text = args := by
    rw [List.map_map]
    exact (List.map_congr_left fun arg _ => text_wordOf false arg).trans (List.map_id args)
  rw [words?, hread, Option.bind_some, if_pos hkept, List.map_cons, text_wordOf, htexts]

end ShellWords
