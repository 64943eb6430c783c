import Mathlib.Data.List.Chain
import Mathlib.Data.List.TakeWhile
import Mathlib.Tactic.Common

/-!
# JSON Text

The grammar of JSON as a parser over lists of characters: values, with numbers as their
text, and strings with all their escapes. A pair of escaped surrogates is one character; a
single one is replaced.

The parser has a budget for nested values and for the items of a sequence. More of it never
changes what is read, so a text stands for at most one value (`readValue_unique`).

## Main results

* `readString_bare`, `readString_eq_some`: what a string between quotes is read as.
* `readItems_eq_some`: the first item of a sequence.
* `Reads.object`, `Reads.array`: **objects and arrays** of texts that are read.
-/

namespace JsonText

/-- A JSON value. -/
inductive Json where
  | null
  | bool (value : Bool)
  | number (text : List Char)
  | string (value : List Char)
  | array (items : List Json)
  | object (members : List (List Char × Json))

/-- The values of the members with a name. -/
def Json.membersNamed (name : List Char) : Json → List Json
  | .object members => (members.filter (·.1 = name)).map Prod.snd
  | _ => []

/-! ### Characters and strings -/

/-- White space between tokens. -/
def isBlank (c : Char) : Bool :=
  c = ' ' || c = '\t' || c = '\n' || c = '\r'

/-- A text without the white space before it. -/
def skipBlank (text : List Char) : List Char :=
  text.dropWhile isBlank

/-- A character that a string contains as it is. -/
def IsBare (c : Char) : Prop :=
  c ≠ '"' ∧ c ≠ '\\' ∧ 0x20 ≤ c.toNat

instance (c : Char) : Decidable (IsBare c) :=
  inferInstanceAs (Decidable (_ ∧ _))

/-- The text up to the quote that closes a string, and what follows it. A character behind a
backslash does not close the string. -/
def splitString : List Char → Option (List Char × List Char)
  | [] => none
  | c :: cs =>
    if c = '"' then some ([], cs)
    else if c = '\\' then
      match cs with
      | [] => none
      | e :: cs => (splitString cs).map fun r => (c :: e :: r.1, r.2)
    else (splitString cs).map fun r => (c :: r.1, r.2)

/-- The number of a hexadecimal digit. -/
def hexDigit? (c : Char) : Option ℕ :=
  if c.isDigit then some (c.toNat - 48)
  else if 'a' ≤ c ∧ c ≤ 'f' then some (c.toNat - 87)
  else if 'A' ≤ c ∧ c ≤ 'F' then some (c.toNat - 55)
  else none

/-- The code unit of four hexadecimal digits. -/
def codeUnit? (digits : List Char) : Option ℕ :=
  (digits.mapM hexDigit?).map fun numbers => numbers.foldl (fun n d => 16 * n + d) 0

/-- What one character behind a backslash stands for. -/
def escape? (e : Char) : Option ℕ :=
  if e = '"' ∨ e = '\\' ∨ e = '/' then some e.toNat
  else if e = 'b' then some 8
  else if e = 'f' then some 12
  else if e = 'n' then some 10
  else if e = 'r' then some 13
  else if e = 't' then some 9
  else none

/-- The numbers that the inside of a string stands for: characters and code units. -/
def unescape : List Char → Option (List ℕ)
  | [] => some []
  | c :: cs =>
    if c = '\\' then
      match cs with
      | 'u' :: h1 :: h2 :: h3 :: h4 :: cs =>
        (codeUnit? [h1, h2, h3, h4]).bind fun u => (unescape cs).map (u :: ·)
      | e :: cs => (escape? e).bind fun u => (unescape cs).map (u :: ·)
      | [] => none
    else if IsBare c then (unescape cs).map (c.toNat :: ·)
    else none

/-- A character, or the replacement character for a single surrogate. -/
def ofUnit (u : ℕ) : Char :=
  if 0xD800 ≤ u ∧ u < 0xE000 then Char.ofNat 0xFFFD else Char.ofNat u

/-- Join the pairs of surrogates. -/
def joinSurrogates : List ℕ → List Char
  | [] => []
  | [u] => [ofUnit u]
  | u :: v :: units =>
    if 0xD800 ≤ u ∧ u < 0xDC00 ∧ 0xDC00 ≤ v ∧ v < 0xE000 then
      Char.ofNat (0x10000 + (u - 0xD800) * 0x400 + (v - 0xDC00)) :: joinSurrogates units
    else ofUnit u :: joinSurrogates (v :: units)

/-- Read a string behind its opening quote, and what follows it. -/
def readString (text : List Char) : Option (List Char × List Char) :=
  (splitString text).bind fun r => (unescape r.1).map fun units => (joinSurrogates units, r.2)

/-! ### Numbers and names -/

/-- The characters of numbers and names. -/
def isTokenChar (c : Char) : Bool :=
  c.isAlphanum || c = '-' || c = '+' || c = '.'

/-- An exponent, or nothing. -/
def isExponent : List Char → Bool
  | [] => true
  | e :: cs =>
    let digits := match cs with
      | [] => []
      | s :: ds => if s = '+' || s = '-' then ds else cs
    (e = 'e' || e = 'E') && !digits.isEmpty && digits.all Char.isDigit

/-- Decimals and an exponent, each of which may be missing. -/
def isFraction : List Char → Bool
  | [] => true
  | c :: cs =>
    if c = '.' then !(cs.takeWhile Char.isDigit).isEmpty && isExponent (cs.dropWhile Char.isDigit)
    else isExponent (c :: cs)

/-- A number without its sign. -/
def isUnsigned (text : List Char) : Bool :=
  let digits := text.takeWhile Char.isDigit
  !digits.isEmpty && (digits.head? != some '0' || digits.length = 1) &&
    isFraction (text.dropWhile Char.isDigit)

/-- A number. -/
def isNumber : List Char → Bool
  | [] => false
  | c :: cs => if c = '-' then isUnsigned cs else isUnsigned (c :: cs)

/-- Read a number or a name, and what follows it. -/
def readToken (text : List Char) : Option (Json × List Char) :=
  let token := text.takeWhile isTokenChar
  let rest := text.dropWhile isTokenChar
  if token = "null".toList then some (.null, rest)
  else if token = "true".toList then some (.bool true, rest)
  else if token = "false".toList then some (.bool false, rest)
  else if isNumber token then some (.number token, rest)
  else none

/-! ### Values -/

/-- Read the items of a sequence up to the symbol that closes it, and what follows it. -/
def readItems {α : Type} (item : List Char → Option (α × List Char)) (close : Char) :
    ℕ → List Char → Option (List α × List Char)
  | 0, _ => none
  | budget + 1, text =>
    (item text).bind fun first =>
      match skipBlank first.2 with
      | [] => none
      | c :: cs =>
        if c = ',' then
          (readItems item close budget cs).map fun others => (first.1 :: others.1, others.2)
        else if c = close then some ([first.1], cs)
        else none

/-- Read a sequence that may be empty. -/
def readSequence {α : Type} (item : List Char → Option (α × List Char)) (close : Char)
    (budget : ℕ) (text : List Char) : Option (List α × List Char) :=
  if (skipBlank text).head? = some close then some ([], (skipBlank text).tail)
  else readItems item close budget text

/-- Read a name, a colon and a value. -/
def readMember (value : List Char → Option (Json × List Char)) (text : List Char) :
    Option ((List Char × Json) × List Char) :=
  match skipBlank text with
  | [] => none
  | c :: cs =>
    if c = '"' then
      (readString cs).bind fun name =>
        match skipBlank name.2 with
        | [] => none
        | c :: cs => if c = ':' then (value cs).map fun r => ((name.1, r.1), r.2) else none
    else none

/-- Read a value, and what follows it. -/
def readValue : ℕ → List Char → Option (Json × List Char)
  | 0, _ => none
  | budget + 1, text =>
    match skipBlank text with
    | [] => none
    | c :: cs =>
      if c = '"' then (readString cs).map fun r => (.string r.1, r.2)
      else if c = '[' then
        (readSequence (readValue budget) ']' budget cs).map fun r => (.array r.1, r.2)
      else if c = '\x7b' then
        (readSequence (readMember (readValue budget)) '\x7d' budget cs).map
          fun r => (.object r.1, r.2)
      else readToken (c :: cs)

/-- The text of a value, with white space around it. -/
def IsText (text : List Char) (value : Json) : Prop :=
  ∃ budget rest, readValue budget text = some (value, rest) ∧ ∀ c ∈ rest, isBlank c = true

/-! ### Strings that are read -/

/-- A string of bare characters ends at the first quote. -/
theorem splitString_bare {text : List Char} (h : ∀ c ∈ text, IsBare c) (rest : List Char) :
    splitString (text ++ '"' :: rest) = some (text, rest) := by
  induction text with
  | nil =>
      rw [List.nil_append, splitString.eq_def]
      exact if_pos rfl
  | cons c text ih =>
      obtain ⟨hquote, hmark, -⟩ := h c List.mem_cons_self
      rw [List.cons_append, splitString.eq_def]
      simp only [if_neg hquote, if_neg hmark, ih fun d hd => h d (List.mem_cons_of_mem c hd),
        Option.map_some]

/-- Bare characters stand for themselves. -/
theorem unescape_bare {text : List Char} (h : ∀ c ∈ text, IsBare c) :
    unescape text = some (text.map Char.toNat) := by
  induction text with
  | nil => rfl
  | cons c text ih =>
      have hc := h c List.mem_cons_self
      rw [unescape.eq_def]
      simp only [if_neg hc.2.1, if_pos hc, ih fun d hd => h d (List.mem_cons_of_mem c hd),
        Option.map_some, List.map_cons]

/-- The number of a character is no surrogate. -/
theorem not_surrogate_toNat (c : Char) : ¬ (0xD800 ≤ c.toNat ∧ c.toNat < 0xE000) := by
  have hvalid : c.toNat < 0xD800 ∨ 0xDFFF < c.toNat ∧ c.toNat < 0x110000 := c.valid
  omega

theorem ofUnit_toNat (c : Char) : ofUnit c.toNat = c := by
  rw [ofUnit, if_neg (not_surrogate_toNat c), Char.ofNat_toNat]

theorem joinSurrogates_map_toNat (text : List Char) :
    joinSurrogates (text.map Char.toNat) = text := by
  induction text with
  | nil => rfl
  | cons c text ih =>
      cases text with
      | nil => exact congrArg (fun c => [c]) (ofUnit_toNat c)
      | cons d text =>
          have hpair : ¬ (0xD800 ≤ c.toNat ∧ c.toNat < 0xDC00 ∧ 0xDC00 ≤ d.toNat ∧
              d.toNat < 0xE000) := by
            have := not_surrogate_toNat c
            omega
          rw [List.map_cons, List.map_cons] at *
          rw [joinSurrogates, if_neg hpair, ih, ofUnit_toNat]

/-- **A string of bare characters** is read as it is. -/
theorem readString_bare {text : List Char} (h : ∀ c ∈ text, IsBare c) (rest : List Char) :
    readString (text ++ '"' :: rest) = some (text, rest) := by
  rw [readString, splitString_bare h, Option.bind_some, unescape_bare h, Option.map_some,
    joinSurrogates_map_toNat]

/-! ### What was read as a string -/

/-- Two neighbours inside a string: a quote is behind a backslash. -/
def EscapesQuote (c d : Char) : Prop :=
  d = '"' → c = '\\'

/-- No quote follows the quote that opens a string, so anything may stand there instead. -/
theorem isChain_of_quote {text : List Char} (h : List.IsChain EscapesQuote ('"' :: text))
    (c : Char) : List.IsChain EscapesQuote (c :: text) := by
  cases text with
  | nil => exact List.IsChain.singleton c
  | cons d text =>
      obtain ⟨hfirst, htail⟩ := List.isChain_cons_cons.mp h
      refine List.isChain_cons_cons.mpr ⟨fun hd => ?_, htail⟩
      exact absurd (hfirst hd) (by decide)

/-- The inside of a string and the quote that closes it; the quotes in it are escaped. -/
theorem splitString_eq_some {text raw rest : List Char} (h : splitString text = some (raw, rest)) :
    text = raw ++ '"' :: rest ∧ List.IsChain EscapesQuote ('"' :: raw) := by
  fun_induction splitString text generalizing raw with
  | case1 => cases h
  | case2 cs =>
      obtain ⟨rfl, rfl⟩ := Prod.mk.inj (Option.some.inj h)
      exact ⟨rfl, List.IsChain.singleton _⟩
  | case3 => cases h
  | case4 e cs hquote ih =>
      obtain ⟨⟨inner, tail⟩, hinner, heq⟩ := Option.map_eq_some_iff.mp h
      obtain ⟨rfl, rfl⟩ := Prod.mk.inj heq
      obtain ⟨rfl, hchain⟩ := ih hinner
      refine ⟨rfl, List.isChain_cons_cons.mpr ⟨fun he => absurd he (by decide), ?_⟩⟩
      exact List.isChain_cons_cons.mpr ⟨fun _ => rfl, isChain_of_quote hchain e⟩
  | case5 c cs hquote hmark ih =>
      obtain ⟨⟨inner, tail⟩, hinner, heq⟩ := Option.map_eq_some_iff.mp h
      obtain ⟨rfl, rfl⟩ := Prod.mk.inj heq
      obtain ⟨rfl, hchain⟩ := ih hinner
      exact ⟨rfl, List.isChain_cons_cons.mpr ⟨fun hc => absurd hc hquote,
        isChain_of_quote hchain c⟩⟩

/-- Escapes make a text shorter. -/
theorem unescape_eq_some {raw : List Char} {units : List ℕ} (h : unescape raw = some units) :
    (units = raw.map Char.toNat ∧ ∀ c ∈ raw, IsBare c) ∨ units.length < raw.length := by
  fun_induction unescape raw generalizing units with
  | case1 =>
      obtain rfl := Option.some.inj h
      exact Or.inl ⟨rfl, by simp⟩
  | case2 h1 h2 h3 h4 cs ih =>
      obtain ⟨u, -, h⟩ := Option.bind_eq_some_iff.mp h
      obtain ⟨others, hothers, rfl⟩ := Option.map_eq_some_iff.mp h
      rcases ih hothers with ⟨rfl, -⟩ | hlt
      · simp
      · simp only [List.length_cons]
        omega
  | case3 e cs hne ih =>
      obtain ⟨u, -, h⟩ := Option.bind_eq_some_iff.mp h
      obtain ⟨others, hothers, rfl⟩ := Option.map_eq_some_iff.mp h
      rcases ih hothers with ⟨rfl, -⟩ | hlt
      · simp
      · simp only [List.length_cons]
        omega
  | case4 => cases h
  | case5 c cs hmark hbare ih =>
      obtain ⟨others, hothers, rfl⟩ := Option.map_eq_some_iff.mp h
      rcases ih hothers with ⟨rfl, hall⟩ | hlt
      · exact Or.inl ⟨rfl, List.forall_mem_cons.mpr ⟨hbare, hall⟩⟩
      · exact Or.inr (Nat.succ_lt_succ hlt)
  | case6 => cases h

theorem length_joinSurrogates_le (units : List ℕ) :
    (joinSurrogates units).length ≤ units.length := by
  fun_induction joinSurrogates units with
  | case1 => exact Nat.le_refl 0
  | case2 u => exact Nat.le_refl 1
  | case3 u v units hpair ih =>
      simp only [List.length_cons]
      omega
  | case4 u v units hpair ih =>
      simp only [List.length_cons] at ih ⊢
      omega

/-- **What was read as a string** is its inside, or shorter. -/
theorem readString_eq_some {text value rest : List Char}
    (h : readString text = some (value, rest)) :
    ∃ raw, text = raw ++ '"' :: rest ∧ List.IsChain EscapesQuote ('"' :: raw) ∧
      ((value = raw ∧ ∀ c ∈ raw, IsBare c) ∨ value.length < raw.length) := by
  rw [readString] at h
  obtain ⟨⟨raw, tail⟩, hsplit, h⟩ := Option.bind_eq_some_iff.mp h
  obtain ⟨units, hunits, heq⟩ := Option.map_eq_some_iff.mp h
  obtain ⟨rfl, rfl⟩ := Prod.mk.inj heq
  dsimp only at hunits
  obtain ⟨htext, hchain⟩ := splitString_eq_some hsplit
  refine ⟨raw, htext, hchain, ?_⟩
  rcases unescape_eq_some hunits with ⟨rfl, hbare⟩ | hlt
  · exact Or.inl ⟨joinSurrogates_map_toNat raw, hbare⟩
  · have hle := length_joinSurrogates_le units
    exact Or.inr (by omega)

/-- Escapes, and a pair of escaped surrogates. -/
example : readString "\\u0041\\ud83d\\ude00\\n\" x".toList =
    some (['A', Char.ofNat 0x1F600, '\n'], " x".toList) := by decide +kernel

/-- **A quote that is not behind a backslash** closes a string that did not end before. -/
theorem rest_eq_of_isChain {text sep more after rest : List Char} {c : Char}
    (hchain : List.IsChain EscapesQuote ('"' :: (text ++ '"' :: more)))
    (h : (sep ++ [c]) ++ '"' :: after = more ++ '"' :: rest) (hsep : '"' ∉ sep ++ [c])
    (hc : c ≠ '\\') : rest = after := by
  rcases List.append_eq_append_iff.mp h with ⟨gap, hmore, hrest⟩ | ⟨gap, hmore, hrest⟩
  · cases gap with
    | nil => exact (List.cons.inj hrest).2.symm
    | cons d gap =>
        obtain rfl := (List.cons.inj hrest).1
        have hsplit : '"' :: (text ++ '"' :: more) =
            ('"' :: (text ++ '"' :: sep)) ++ c :: '"' :: gap := by simp [hmore]
        rw [hsplit] at hchain
        exact absurd ((List.isChain_append_cons_cons.mp hchain).2.1 rfl) hc
  · cases gap with
    | nil => exact (List.cons.inj hrest).2
    | cons d gap =>
        obtain rfl := (List.cons.inj hrest).1
        exact absurd (by rw [hmore]; simp) hsep

/-- **A text before a quote**, read as a string that is not shorter: the text is bare, or the
string goes on to the next quote. The text between the quotes must not end with a backslash. -/
theorem readString_quote {text sep after value rest : List Char} {c : Char}
    (h : readString (text ++ '"' :: (sep ++ c :: '"' :: after)) = some (value, rest))
    (hlength : text.length ≤ value.length) (hsep : '"' ∉ sep ++ [c]) (hc : c ≠ '\\') :
    (value = text ∧ (∀ d ∈ text, IsBare d) ∧ rest = sep ++ c :: '"' :: after) ∨
      rest = after := by
  obtain ⟨raw, htext, hchain, hvalue⟩ := readString_eq_some h
  have hle : value.length ≤ raw.length := by
    rcases hvalue with ⟨rfl, -⟩ | hlt
    · exact Nat.le_refl _
    · omega
  have hbehind : sep ++ c :: '"' :: after = (sep ++ [c]) ++ '"' :: after := by simp
  -- the text and the inside of the string start together, and the inside is not shorter
  obtain ⟨more, hraw⟩ : ∃ more, raw = text ++ more := by
    rcases List.append_eq_append_iff.mp htext with ⟨more, hraw, -⟩ | ⟨more, hraw, -⟩
    · exact ⟨more, hraw⟩
    · have hlen := congrArg List.length hraw
      rw [List.length_append] at hlen
      have hnil : more = [] := List.eq_nil_of_length_eq_zero (by omega)
      exact ⟨[], by rw [hraw, hnil, List.append_nil, List.append_nil]⟩
  subst hraw
  rw [List.append_assoc, List.append_cancel_left_eq] at htext
  cases more with
  | nil =>
      rw [List.append_nil] at hvalue hle
      rcases hvalue with ⟨rfl, hbare⟩ | hlt
      · exact Or.inl ⟨rfl, hbare, (List.cons.inj htext).2.symm⟩
      · omega
  | cons d more =>
      obtain rfl : '"' = d := (List.cons.inj htext).1
      rw [hbehind] at htext
      have hinner : sep ++ [c] ++ '"' :: after = more ++ '"' :: rest := (List.cons.inj htext).2
      exact Or.inr (rest_eq_of_isChain hchain hinner hsep hc)

/-! ### Budgets -/

/-- A reader that reads everything another one reads. -/
def Extends {α : Type} (f g : List Char → Option (α × List Char)) : Prop :=
  ∀ text r, f text = some r → g text = some r

/-- More budget, and a reader that extends the first one, read the same items. -/
theorem readItems_mono {α : Type} {f g : List Char → Option (α × List Char)} (h : Extends f g)
    (close : Char) {n m : ℕ} (hle : n ≤ m) :
    Extends (readItems f close n) (readItems g close m) := by
  induction n generalizing m with
  | zero => exact fun text r hr => nomatch hr
  | succ n ih =>
      obtain ⟨m, rfl⟩ : ∃ k, m = k + 1 := ⟨m - 1, by omega⟩
      intro text r hr
      rw [readItems] at hr ⊢
      obtain ⟨first, hfirst, hr⟩ := Option.bind_eq_some_iff.mp hr
      rw [h text first hfirst, Option.bind_some]
      cases hskip : skipBlank first.2 with
      | nil =>
          rw [hskip] at hr
          cases hr
      | cons c cs =>
          simp only [hskip] at hr ⊢
          split at hr
          · next hcomma =>
            obtain ⟨others, hothers, rfl⟩ := Option.map_eq_some_iff.mp hr
            rw [if_pos hcomma, ih (by omega : n ≤ m) cs others hothers]
            rfl
          · next hcomma =>
            rw [if_neg hcomma]
            exact hr

theorem readSequence_mono {α : Type} {f g : List Char → Option (α × List Char)}
    (h : Extends f g) (close : Char) {n m : ℕ} (hle : n ≤ m) :
    Extends (readSequence f close n) (readSequence g close m) := by
  intro text r hr
  rw [readSequence] at hr ⊢
  split at hr
  · next hclose =>
    rw [if_pos hclose]
    exact hr
  · next hclose =>
    rw [if_neg hclose]
    exact readItems_mono h close hle text r hr

theorem readMember_mono {f g : List Char → Option (Json × List Char)} (h : Extends f g) :
    Extends (readMember f) (readMember g) := by
  intro text r hr
  rw [readMember] at hr ⊢
  cases hskip : skipBlank text with
  | nil =>
      rw [hskip] at hr
      cases hr
  | cons c cs =>
      simp only [hskip] at hr ⊢
      split at hr
      · next hquote =>
        obtain ⟨name, hname, hr⟩ := Option.bind_eq_some_iff.mp hr
        rw [if_pos hquote, hname, Option.bind_some]
        cases hcolon : skipBlank name.2 with
        | nil =>
            rw [hcolon] at hr
            cases hr
        | cons d ds =>
            simp only [hcolon] at hr ⊢
            split at hr
            · next hd =>
              obtain ⟨value, hvalue, rfl⟩ := Option.map_eq_some_iff.mp hr
              rw [if_pos hd, h ds value hvalue]
              rfl
            · cases hr
      · cases hr

/-- **More budget** never changes what is read. -/
theorem readValue_mono {n m : ℕ} (hle : n ≤ m) : Extends (readValue n) (readValue m) := by
  induction n generalizing m with
  | zero => exact fun text r hr => nomatch hr
  | succ n ih =>
      obtain ⟨m, rfl⟩ : ∃ k, m = k + 1 := ⟨m - 1, by omega⟩
      have hnm : n ≤ m := by omega
      intro text r hr
      rw [readValue] at hr ⊢
      cases hskip : skipBlank text with
      | nil =>
          rw [hskip] at hr
          cases hr
      | cons c cs =>
          simp only [hskip] at hr ⊢
          split_ifs at hr ⊢ with hquote harray hobject
          · exact hr
          · obtain ⟨items, hitems, rfl⟩ := Option.map_eq_some_iff.mp hr
            rw [readSequence_mono (ih hnm) _ hnm cs items hitems]
            rfl
          · obtain ⟨members, hmembers, rfl⟩ := Option.map_eq_some_iff.mp hr
            rw [readSequence_mono (readMember_mono (ih hnm)) _ hnm cs members hmembers]
            rfl
          · exact hr

/-- **A text stands for at most one value**, whatever the budgets. -/
theorem readValue_unique {n m : ℕ} {text : List Char} {r r' : Json × List Char}
    (h : readValue n text = some r) (h' : readValue m text = some r') : r = r' := by
  have hr := readValue_mono (le_max_left n m) text r h
  rw [readValue_mono (le_max_right n m) text r' h'] at hr
  exact (Option.some.inj hr).symm

/-! ### The first item -/

/-- **The first item of a sequence**, and the comma or the closing symbol behind it. -/
theorem readItems_eq_some {α : Type} {item : List Char → Option (α × List Char)} {close : Char}
    {n : ℕ} {text rest : List Char} {items : List α}
    (h : readItems item close n text = some (items, rest)) :
    ∃ first behind k, n = k + 1 ∧ item text = some (first, behind) ∧
      ((∃ cs others, skipBlank behind = ',' :: cs ∧
          readItems item close k cs = some (others, rest) ∧ items = first :: others) ∨
        skipBlank behind = close :: rest ∧ items = [first]) := by
  cases n with
  | zero => cases h
  | succ n =>
      rw [readItems] at h
      obtain ⟨⟨first, behind⟩, hfirst, h⟩ := Option.bind_eq_some_iff.mp h
      refine ⟨first, behind, n, rfl, hfirst, ?_⟩
      dsimp only at h
      cases hskip : skipBlank behind with
      | nil =>
          rw [hskip] at h
          cases h
      | cons c cs =>
          simp only [hskip] at h
          split_ifs at h with hcomma hclose
          · obtain ⟨⟨others, tail⟩, hothers, heq⟩ := Option.map_eq_some_iff.mp h
            obtain ⟨rfl, rfl⟩ := Prod.mk.inj heq
            exact Or.inl ⟨cs, others, by rw [hcomma], hothers, rfl⟩
          · obtain ⟨rfl, rfl⟩ := Prod.mk.inj (Option.some.inj h)
            exact Or.inr ⟨by rw [hclose], rfl⟩

/-! ### White space and tokens -/

theorem isBlank_nil : ∀ c ∈ ([] : List Char), isBlank c = true := by simp

theorem isBlank_append {xs ys : List Char} (hxs : ∀ c ∈ xs, isBlank c = true)
    (hys : ∀ c ∈ ys, isBlank c = true) : ∀ c ∈ xs ++ ys, isBlank c = true :=
  List.forall_mem_append.mpr ⟨hxs, hys⟩

/-- White space before a character is skipped. -/
theorem skipBlank_append {pre : List Char} (hpre : ∀ c ∈ pre, isBlank c = true) {c : Char}
    (hc : isBlank c = false) (cs : List Char) : skipBlank (pre ++ c :: cs) = c :: cs := by
  rw [skipBlank, List.dropWhile_append_of_pos hpre]
  simp [hc]

theorem skipBlank_cons {c : Char} (hc : isBlank c = false) (cs : List Char) :
    skipBlank (c :: cs) = c :: cs :=
  skipBlank_append isBlank_nil hc cs

/-- White space is not a part of a token. -/
theorem isTokenChar_of_isBlank {c : Char} (h : isBlank c = true) : isTokenChar c = false := by
  simp only [isBlank, Bool.or_eq_true, decide_eq_true_eq] at h
  rcases h with ((rfl | rfl) | rfl) | rfl <;> decide

/-- The first characters of the other values are not parts of tokens, nor is white space. -/
theorem ne_of_isTokenChar {c : Char} (h : isTokenChar c = true) :
    isBlank c = false ∧ c ≠ '"' ∧ c ≠ '[' ∧ c ≠ '\x7b' := by
  refine ⟨?_, ?_, ?_, ?_⟩
  · by_contra hblank
    rw [isTokenChar_of_isBlank (by simpa using hblank)] at h
    cases h
  all_goals
    rintro rfl
    exact absurd h (by decide)

/-- A text that does not continue a token. -/
def StartsDelimited (rest : List Char) : Prop :=
  ∀ c ∈ rest.head?, isTokenChar c = false

theorem startsDelimited_cons {c : Char} (h : isTokenChar c = false) (rest : List Char) :
    StartsDelimited (c :: rest) := by
  intro d hd
  obtain rfl := Option.some.inj hd
  exact h

theorem startsDelimited_append {post rest : List Char} (hpost : ∀ c ∈ post, isBlank c = true)
    (hrest : StartsDelimited rest) : StartsDelimited (post ++ rest) := by
  cases post with
  | nil => exact hrest
  | cons c post =>
      exact startsDelimited_cons (isTokenChar_of_isBlank (hpost c List.mem_cons_self)) _

/-- A text of such characters ends at the first other one. -/
theorem span_append {p : Char → Bool} {text rest : List Char} (h : ∀ c ∈ text, p c = true)
    (hrest : ∀ c ∈ rest.head?, p c = false) :
    (text ++ rest).takeWhile p = text ∧ (text ++ rest).dropWhile p = rest := by
  rw [List.takeWhile_append_of_pos h, List.dropWhile_append_of_pos h]
  cases rest with
  | nil => simp
  | cons c rest => simp [hrest c rfl]

/-- A token ends at the first other character. -/
theorem readToken_append {token rest : List Char} (h : ∀ c ∈ token, isTokenChar c = true)
    (hrest : StartsDelimited rest) : readToken (token ++ rest) =
      if token = "null".toList then some (.null, rest)
      else if token = "true".toList then some (.bool true, rest)
      else if token = "false".toList then some (.bool false, rest)
      else if isNumber token then some (.number token, rest)
      else none := by
  obtain ⟨htake, hdrop⟩ := span_append h hrest
  rw [readToken, htake, hdrop]

/-! ### Digits -/

/-- Digits are characters of a token. -/
theorem isTokenChar_of_isDigit {c : Char} (h : c.isDigit = true) : isTokenChar c = true := by
  simp [isTokenChar, Char.isAlphanum, h]

/-- Digits that do not start with a zero, or a zero alone, and what may follow them. -/
theorem isUnsigned_append {digits rest : List Char} (hne : digits ≠ [])
    (hdigits : ∀ c ∈ digits, c.isDigit = true)
    (hzero : digits.head? ≠ some '0' ∨ digits = ['0'])
    (hrest : ∀ c ∈ rest.head?, c.isDigit = false) :
    isUnsigned (digits ++ rest) = isFraction rest := by
  obtain ⟨htake, hdrop⟩ := span_append hdigits hrest
  have hstart : (digits.head? != some '0' || decide (digits.length = 1)) = true := by
    rcases hzero with h | rfl
    · simp [h]
    · rfl
  have hempty : digits.isEmpty = false := by simpa using hne
  rw [isUnsigned]
  simp only [htake, hdrop, hempty, hstart, Bool.not_false, Bool.true_and]

/-- The sign does not matter for what is behind it. -/
theorem isNumber_of_isUnsigned {text : List Char} (hhead : text.head? ≠ some '-') (hne : text ≠ [])
    (h : isUnsigned text = true) : isNumber text = true ∧ isNumber ('-' :: text) = true := by
  obtain ⟨c, cs, rfl⟩ := List.exists_cons_of_ne_nil hne
  have hc : c ≠ '-' := fun hc => hhead (congrArg some hc)
  exact ⟨by rw [isNumber, if_neg hc, h], by rw [isNumber, if_pos rfl, h]⟩

/-- Decimals behind a point. -/
theorem isFraction_point {digits : List Char} (hne : digits ≠ [])
    (hdigits : ∀ c ∈ digits, c.isDigit = true) : isFraction ('.' :: digits) = true := by
  have htake : digits.takeWhile Char.isDigit = digits := List.takeWhile_eq_self_iff.mpr hdigits
  have hdrop : digits.dropWhile Char.isDigit = [] := List.dropWhile_eq_nil_iff.mpr hdigits
  have hempty : digits.isEmpty = false := by simpa using hne
  rw [isFraction, if_pos rfl, htake, hdrop, hempty]
  rfl

/-- Decimals behind a point, and what may follow them. -/
theorem isFraction_point_append {digits rest : List Char} (hne : digits ≠ [])
    (hdigits : ∀ c ∈ digits, c.isDigit = true)
    (hrest : ∀ c ∈ rest.head?, c.isDigit = false) :
    isFraction ('.' :: (digits ++ rest)) = isExponent rest := by
  obtain ⟨htake, hdrop⟩ := span_append hdigits hrest
  have hempty : digits.isEmpty = false := by simpa using hne
  rw [isFraction, if_pos rfl, htake, hdrop, hempty]
  rfl

/-- An exponent behind its sign. -/
theorem isExponent_signed {sign : Char} {digits : List Char} (hsign : sign = '+' ∨ sign = '-')
    (hne : digits ≠ []) (hdigits : ∀ c ∈ digits, c.isDigit = true) :
    isExponent ('e' :: sign :: digits) = true := by
  have hempty : digits.isEmpty = false := by simpa using hne
  have hall : digits.all Char.isDigit = true := List.all_eq_true.mpr hdigits
  rcases hsign with rfl | rfl
  · simp [isExponent, hempty, hall]
  · simp [isExponent, hempty, hall]

/-! ### Texts that are read as values -/

/-- A text that is read as a value, wherever it stands. -/
def Reads (budget : ℕ) (text : List Char) (value : Json) : Prop :=
  ∀ n, budget ≤ n → ∀ pre, (∀ c ∈ pre, isBlank c = true) → ∀ rest, StartsDelimited rest →
    readValue n (pre ++ (text ++ rest)) = some (value, rest)

/-- White space before a text that is read. -/
theorem Reads.append_blank {k : ℕ} {text pad : List Char} {value : Json} (h : Reads k text value)
    (hpad : ∀ c ∈ pad, isBlank c = true) : Reads k (pad ++ text) value := by
  intro n hn pre hpre rest hrest
  have hread := h n hn (pre ++ pad) (isBlank_append hpre hpad) rest hrest
  simpa only [List.append_assoc] using hread

/-- A text that is read stands for its value, with white space around it. -/
theorem Reads.isText {k : ℕ} {text : List Char} {value : Json} (h : Reads k text value)
    {post : List Char} (hpost : ∀ c ∈ post, isBlank c = true) : IsText (text ++ post) value := by
  have hdelimited : StartsDelimited (post ++ []) :=
    startsDelimited_append hpost fun c hc => by cases hc
  rw [List.append_nil] at hdelimited
  exact ⟨k, post, h k (Nat.le_refl k) [] (by simp) post hdelimited, hpost⟩

/-- A string of bare characters. -/
theorem Reads.string {text : List Char} (h : ∀ c ∈ text, IsBare c) :
    Reads 1 ('"' :: (text ++ ['"'])) (.string text) := by
  intro n hn pre hpre rest _
  obtain ⟨n, rfl⟩ : ∃ k, n = k + 1 := ⟨n - 1, by omega⟩
  have hread := readString_bare h rest
  rw [readValue, List.cons_append, skipBlank_append hpre (by decide)]
  simp [hread]

/-- A token is read by itself. -/
theorem readValue_token {n : ℕ} (hn : 1 ≤ n) {token pre : List Char} (hne : token ≠ [])
    (h : ∀ c ∈ token, isTokenChar c = true) (hpre : ∀ c ∈ pre, isBlank c = true)
    (rest : List Char) : readValue n (pre ++ (token ++ rest)) = readToken (token ++ rest) := by
  obtain ⟨n, rfl⟩ : ∃ k, n = k + 1 := ⟨n - 1, by omega⟩
  obtain ⟨c, cs, rfl⟩ := List.exists_cons_of_ne_nil hne
  obtain ⟨hblank, hquote, harray, hobject⟩ := ne_of_isTokenChar (h c List.mem_cons_self)
  rw [readValue, List.cons_append, skipBlank_append hpre hblank]
  simp only [if_neg hquote, if_neg harray, if_neg hobject]

/-- A number. -/
theorem Reads.number {text : List Char} (h : isNumber text = true)
    (hchars : ∀ c ∈ text, isTokenChar c = true) : Reads 1 text (.number text) := by
  intro n hn pre hpre rest hrest
  have hword (word : List Char) (hword : isNumber word = false) : text ≠ word := by
    rintro rfl
    rw [h] at hword
    cases hword
  rw [readValue_token hn (hword [] rfl) hchars hpre, readToken_append hchars hrest,
    if_neg (hword _ (by decide)), if_neg (hword _ (by decide)), if_neg (hword _ (by decide)),
    if_pos h]

/-- A truth value. -/
theorem Reads.bool (value : Bool) :
    Reads 1 (if value then "true".toList else "false".toList) (.bool value) := by
  intro n hn pre hpre rest hrest
  cases value with
  | true =>
      rw [readValue_token hn (by decide) (by decide) hpre, readToken_append (by decide) hrest]
      rfl
  | false =>
      rw [readValue_token hn (by decide) (by decide) hpre, readToken_append (by decide) hrest]
      rfl

/-! ### Sequences of texts -/

/-- Texts behind one another, with a comma and white space between them. -/
def itemsText (sep : List Char) : List (List Char) → List Char
  | [] => []
  | text :: texts => text ++ texts.flatMap fun t => ',' :: (sep ++ t)

/-- The characters of a sequence come from its items and what separates them. -/
theorem notMem_itemsText {c : Char} {sep : List Char} {texts : List (List Char)} (hc : c ≠ ',')
    (hsep : c ∉ sep) (h : ∀ text ∈ texts, c ∉ text) : c ∉ itemsText sep texts := by
  cases texts with
  | nil => exact List.not_mem_nil
  | cons text texts =>
      rw [itemsText, List.mem_append, List.mem_flatMap]
      rintro (hmem | ⟨other, hother, hmem⟩)
      · exact h text List.mem_cons_self hmem
      · rcases List.mem_cons.mp hmem with hmem | hmem
        · exact hc hmem
        · rcases List.mem_append.mp hmem with hmem | hmem
          · exact hsep hmem
          · exact h other (List.mem_cons_of_mem _ hother) hmem

/-- A text that is read as an item of a sequence. -/
def ReadsItem {α : Type} (item : List Char → Option (α × List Char)) (text : List Char) (a : α) :
    Prop :=
  ∀ pre, (∀ c ∈ pre, isBlank c = true) → ∀ rest, StartsDelimited rest →
    item (pre ++ (text ++ rest)) = some (a, rest)

/-- **Items behind one another** are read in their order. -/
theorem readItems_itemsText {α : Type} {item : List Char → Option (α × List Char)}
    {close : Char} (hclose : close = ']' ∨ close = '\x7d') {sep post : List Char}
    (hsep : ∀ c ∈ sep, isBlank c = true) (hpost : ∀ c ∈ post, isBlank c = true)
    {items : List (List Char × α)} (h : ∀ i ∈ items, ReadsItem item i.1 i.2) (hne : items ≠ [])
    {n : ℕ} (hn : items.length ≤ n) {pre : List Char} (hpre : ∀ c ∈ pre, isBlank c = true)
    (rest : List Char) :
    readItems item close n (pre ++ (itemsText sep (items.map Prod.fst) ++
      (post ++ close :: rest))) = some (items.map Prod.snd, rest) := by
  have hsymbol : isBlank close = false ∧ isTokenChar close = false ∧ close ≠ ',' := by
    rcases hclose with rfl | rfl <;> decide
  obtain ⟨hblank, htoken, hcomma⟩ := hsymbol
  induction items generalizing n pre with
  | nil => exact absurd rfl hne
  | cons first items ih =>
      obtain ⟨n, rfl⟩ : ∃ k, n = k + 1 :=
        ⟨n - 1, by rw [List.length_cons] at hn; omega⟩
      have hfirst := h first List.mem_cons_self pre hpre
      cases items with
      | nil =>
          have hend : StartsDelimited (post ++ close :: rest) :=
            startsDelimited_append hpost (startsDelimited_cons htoken rest)
          have htext : itemsText sep ([first].map Prod.fst) = first.1 := List.append_nil _
          rw [htext, readItems, hfirst _ hend, Option.bind_some]
          simp [skipBlank_append hpost hblank, hcomma]
      | cons second items =>
          have htext : itemsText sep ((first :: second :: items).map Prod.fst) =
              first.1 ++ ',' :: (sep ++ itemsText sep ((second :: items).map Prod.fst)) := by
            simp [itemsText]
          have hothers := ih (fun i hi => h i (List.mem_cons_of_mem first hi))
            (List.cons_ne_nil _ _) (n := n) (by rw [List.length_cons] at hn; omega) hsep
          rw [htext, List.append_assoc, readItems, List.cons_append,
            hfirst _ (startsDelimited_cons (by decide) _), Option.bind_some]
          simp only [skipBlank_cons (by decide : isBlank ',' = false), if_true]
          rw [List.append_assoc, hothers]
          rfl

/-- A sequence whose first character is not the closing symbol has items. -/
theorem readSequence_append {α : Type} (item : List Char → Option (α × List Char))
    {close c : Char} (hblank : isBlank c = false) (hc : c ≠ close) (n : ℕ) {pre : List Char}
    (hpre : ∀ d ∈ pre, isBlank d = true) (cs : List Char) :
    readSequence item close n (pre ++ c :: cs) = readItems item close n (pre ++ c :: cs) := by
  rw [readSequence, skipBlank_append hpre hblank, if_neg]
  simpa using hc

/-- A member that is written: its name, and a text that is read as its value. -/
structure Member (budget : ℕ) where
  name : List Char
  text : List Char
  value : Json
  isBare : ∀ c ∈ name, IsBare c
  reads : Reads budget text value

/-- The text of a member. -/
def memberText (name text : List Char) : List Char :=
  '"' :: (name ++ '"' :: ':' :: ' ' :: text)

/-- The text of a member without white space in it. -/
def compactMemberText (name text : List Char) : List Char :=
  '"' :: (name ++ '"' :: ':' :: text)

/-- A member with white space before its value. -/
theorem Member.readsItem_of_pad {k n : ℕ} (m : Member k) (hkn : k ≤ n) {pad : List Char}
    (hpad : ∀ c ∈ pad, isBlank c = true) :
    ReadsItem (readMember (readValue n)) (compactMemberText m.name (pad ++ m.text))
      (m.name, m.value) := by
  intro pre hpre rest hrest
  have hname := readString_bare m.isBare (':' :: (pad ++ m.text ++ rest))
  have hvalue := m.reads n hkn pad hpad rest hrest
  rw [← List.append_assoc] at hvalue
  rw [compactMemberText, readMember, List.cons_append, skipBlank_append hpre (by decide)]
  simp only [List.append_assoc, List.cons_append] at hname hvalue ⊢
  simp [hname, skipBlank_cons (by decide : isBlank ':' = false), hvalue]

/-- A member is read as its name and value. -/
theorem Member.readsItem {k n : ℕ} (m : Member k) (hkn : k ≤ n) :
    ReadsItem (readMember (readValue n)) (memberText m.name m.text) (m.name, m.value) :=
  m.readsItem_of_pad hkn (by decide : ∀ c ∈ [' '], isBlank c = true)

/-- **The members of an object**, from texts that are read as them. -/
theorem Reads.objectOf {k : ℕ} {sep : List Char} (hsep : ∀ c ∈ sep, isBlank c = true)
    {members : List (Member k)} (hne : members ≠ []) (text : Member k → List Char)
    (hreads : ∀ m n, k ≤ n → ReadsItem (readMember (readValue n)) (text m) (m.name, m.value))
    (hstart : ∀ m, (text m).head? = some '"') :
    Reads (max k members.length + 1)
      ('\x7b' :: (itemsText sep (members.map text) ++ ['\x7d']))
      (.object (members.map fun m => (m.name, m.value))) := by
  intro n hn pre hpre rest _
  obtain ⟨n, rfl⟩ : ∃ j, n = j + 1 := ⟨n - 1, by omega⟩
  obtain ⟨items, hitems⟩ : ∃ items, items = members.map fun m =>
    (text m, (m.name, m.value)) := ⟨_, rfl⟩
  have hitem : ∀ i ∈ items, ReadsItem (readMember (readValue n)) i.1 i.2 := by
    intro i hi
    rw [hitems] at hi
    obtain ⟨m, -, rfl⟩ := List.mem_map.mp hi
    exact hreads m n (by omega)
  have hread := readItems_itemsText (Or.inr rfl) hsep isBlank_nil hitem (by simp [hitems, hne])
    (n := n) (by rw [hitems, List.length_map]; omega) isBlank_nil rest
  rw [hitems, List.map_map, List.map_map, List.nil_append, List.nil_append] at hread
  have hsequence : readSequence (readMember (readValue n)) '\x7d' n
      (itemsText sep (members.map text) ++ '\x7d' :: rest) =
        some (members.map fun m => (m.name, m.value), rest) := by
    obtain ⟨first, others, rfl⟩ := List.exists_cons_of_ne_nil hne
    obtain ⟨cs, hcs⟩ := List.head?_eq_some_iff.mp (hstart first)
    have htext : itemsText sep ((first :: others).map text) =
        '"' :: (cs ++ (others.map text).flatMap fun t => ',' :: (sep ++ t)) := by
      rw [List.map_cons, itemsText, hcs]
      rfl
    rw [htext]
    refine (readSequence_append _ (by decide) (by decide) n isBlank_nil _).trans ?_
    have hsame := hread
    rw [show (Prod.fst ∘ fun m : Member k => (text m, (m.name, m.value))) = text from rfl,
      htext] at hsame
    exact hsame
  rw [readValue, List.cons_append, skipBlank_append hpre (by decide), List.append_assoc,
    List.singleton_append]
  simp [hsequence]

/-- The members of an object, with a space before their values. -/
theorem Reads.object {k : ℕ} {members : List (Member k)} (hne : members ≠ []) :
    Reads (max k members.length + 1)
      ('\x7b' :: (itemsText [' '] (members.map fun m => memberText m.name m.text) ++ ['\x7d']))
      (.object (members.map fun m => (m.name, m.value))) :=
  Reads.objectOf (by decide) hne _ (fun m _ hn => m.readsItem hn) fun _ => rfl

/-- The members of an object, without white space. -/
theorem Reads.compactObject {k : ℕ} {members : List (Member k)} (hne : members ≠ []) :
    Reads (max k members.length + 1)
      ('\x7b' :: (itemsText [] (members.map fun m => compactMemberText m.name m.text) ++
        ['\x7d']))
      (.object (members.map fun m => (m.name, m.value))) :=
  Reads.objectOf isBlank_nil hne _ (fun m _ hn => m.readsItem_of_pad hn isBlank_nil)
    fun _ => rfl

/-- **The items of an array**, behind one another, with white space around them. -/
theorem Reads.array {k : ℕ} {items : List (List Char × Json)} (h : ∀ i ∈ items, Reads k i.1 i.2)
    (hstart : ∀ i ∈ items, ∃ pad c cs, i.1 = pad ++ c :: cs ∧ (∀ d ∈ pad, isBlank d = true) ∧
      isBlank c = false ∧ c ≠ ']')
    {sep start post : List Char} (hsep : ∀ c ∈ sep, isBlank c = true)
    (hstartBlank : ∀ c ∈ start, isBlank c = true) (hpost : ∀ c ∈ post, isBlank c = true) :
    Reads (max k items.length + 1)
      ('[' :: (start ++ (itemsText sep (items.map Prod.fst) ++ (post ++ [']']))))
      (.array (items.map Prod.snd)) := by
  intro n hn pre hpre rest _
  obtain ⟨n, rfl⟩ : ∃ j, n = j + 1 := ⟨n - 1, by omega⟩
  have hk : k ≤ n := by omega
  have hsequence : readSequence (readValue n) ']' n
      (start ++ (itemsText sep (items.map Prod.fst) ++ (post ++ ']' :: rest))) =
        some (items.map Prod.snd, rest) := by
    cases items with
    | nil =>
        have hskip := skipBlank_append (isBlank_append hstartBlank hpost)
          (by decide : isBlank ']' = false) rest
        rw [List.append_assoc] at hskip
        rw [readSequence, List.map_nil, itemsText, List.nil_append, hskip]
        exact if_pos rfl
    | cons first others =>
        obtain ⟨pad, c, cs, hfirst, hpad, hblank, hc⟩ := hstart first List.mem_cons_self
        have hstartPad := isBlank_append hstartBlank hpad
        have hread := readItems_itemsText (Or.inl rfl) hsep hpost
          (fun i hi => h i hi n hk) (List.cons_ne_nil first others) (n := n) (by omega)
          hstartBlank rest
        rw [← hread, List.map_cons, itemsText, hfirst]
        have hsequence := readSequence_append (readValue n) hblank hc n hstartPad
        simp only [List.append_assoc, List.cons_append] at hsequence ⊢
        exact hsequence _
  rw [readValue, List.cons_append, skipBlank_append hpre (by decide)]
  simp only [List.append_assoc, List.singleton_append]
  simp [hsequence]

/-! ### The first member -/

/-- **The first member of an object that is read**, if its value starts with a quote: a
string, and a comma or the closing symbol behind it. -/
theorem readValue_firstMember {n : ℕ} {pre name cs rest : List Char} {value : Json}
    (hpre : ∀ c ∈ pre, isBlank c = true) (hname : ∀ c ∈ name, IsBare c)
    (h : readValue n (pre ++ '\x7b' :: memberText name ('"' :: cs)) = some (value, rest)) :
    ∃ text behind members d ds, readString cs = some (text, behind) ∧
      value = .object ((name, .string text) :: members) ∧
      skipBlank behind = d :: ds ∧ (d = ',' ∨ d = '\x7d') := by
  cases n with
  | zero => cases h
  | succ n =>
      have hsequence (item : List Char → Option ((List Char × Json) × List Char)) :
          readSequence item '\x7d' n (memberText name ('"' :: cs)) =
            readItems item '\x7d' n (memberText name ('"' :: cs)) :=
        readSequence_append item (by decide) (by decide) n
          isBlank_nil _
      rw [readValue, skipBlank_append hpre (by decide)] at h
      simp only [show ('\x7b' = '"') = False by decide, show ('\x7b' = '[') = False by decide,
        if_false, if_true, hsequence] at h
      obtain ⟨⟨members, tail⟩, hmembers, heq⟩ := Option.map_eq_some_iff.mp h
      obtain ⟨rfl, rfl⟩ := Prod.mk.inj heq
      obtain ⟨first, behind, k, rfl, hfirst, hnext⟩ := readItems_eq_some hmembers
      obtain ⟨text, rfl, htext⟩ : ∃ text, first = (name, .string text) ∧
          readString cs = some (text, behind) := by
        have hread := readString_bare hname (':' :: ' ' :: '"' :: cs)
        rw [readMember, memberText, skipBlank_cons (by decide)] at hfirst
        simp only [if_true, hread, Option.bind_some,
          skipBlank_cons (by decide : isBlank ':' = false)] at hfirst
        obtain ⟨⟨v, tail⟩, hv, heq⟩ := Option.map_eq_some_iff.mp hfirst
        obtain ⟨rfl, rfl⟩ := Prod.mk.inj heq
        have hskip : skipBlank (' ' :: '"' :: cs) = '"' :: cs :=
          skipBlank_append (by decide : ∀ c ∈ [' '], isBlank c = true) (by decide) cs
        rw [readValue, hskip] at hv
        simp only [if_true] at hv
        obtain ⟨⟨text, tail⟩, htext, heq⟩ := Option.map_eq_some_iff.mp hv
        obtain ⟨rfl, rfl⟩ := Prod.mk.inj heq
        exact ⟨text, rfl, htext⟩
      rcases hnext with ⟨ds, others, hskip, -, rfl⟩ | ⟨hskip, rfl⟩
      · exact ⟨text, behind, others, ',', ds, htext, rfl, hskip, Or.inl rfl⟩
      · exact ⟨text, behind, [], '\x7d', _, htext, rfl, hskip, Or.inr rfl⟩

end JsonText
