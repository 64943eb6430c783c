import Mathlib.Data.List.TakeWhile
import Mathlib.Tactic.Common

/-!
# Argument Vectors

How the C runtime of Windows cuts a command line into the arguments of `main`. Blanks and tabs
separate arguments, except inside quotes; backslashes stand for themselves, except in front of
a quote, where each pair of them is one and an odd one makes the quote a character; two quotes
in a row inside quotes are a character too. The name of the program comes first and has quotes
but no backslashes. A NUL ends the line.

Every rule that gives a character a meaning of its own loses at least one character: the
arguments are never longer than the line, and shorter as soon as the line has a quote
(`width_argumentsFrom_le_of_quote`). So a line that is nothing but its arguments in a row has
no such characters.

## Main results

* `width_argumentsFrom_le`: arguments and separators fit the line.
* `argumentsFrom_spaced_iff`: texts behind blanks **are the arguments that are read** exactly
  when they are plain.
* `arguments_quoted`: a quoted name in front of them is the name of the program.
-/

namespace ArgumentVector

/-- What separates arguments. -/
def isBlank (c : Char) : Bool :=
  c == ' ' || c == '\t'

/-- A character without a meaning of its own. A backslash has none away from quotes. -/
def isPlain (c : Char) : Bool :=
  !isBlank c && c != '"' && c != '\x00'

/-- Texts that stand for themselves. -/
abbrev Plain (text : List Char) : Prop :=
  ∀ c ∈ text, isPlain c = true

/-! ### Reading -/

/-- An argument that is being read: its characters, the backslashes behind them, whether it is
inside quotes, and whether these ended just now. -/
structure Pending where
  text : List Char := []
  slashes : ℕ := 0
  quoted : Bool := false
  closed : Bool := false

namespace Pending

/-- The argument, if it ends here. -/
def done (arg : Pending) : List Char :=
  arg.text ++ List.replicate arg.slashes '\\'

/-- A quote: a character behind an odd number of backslashes and right behind the end of
quotes, and else the beginning or the end of quotes. -/
def readQuote (arg : Pending) : Pending :=
  let text := arg.text ++ List.replicate (arg.slashes / 2) '\\'
  if arg.slashes % 2 = 1 then { text := text ++ ['"'], quoted := arg.quoted }
  else if arg.closed then { text := text ++ ['"'], quoted := true }
  else { text, quoted := !arg.quoted, closed := arg.quoted }

/-- One character. -/
def read (arg : Pending) (c : Char) : Pending :=
  if c = '"' then arg.readQuote
  else if c = '\\' then { arg with slashes := arg.slashes + 1, closed := false }
  else { text := arg.done ++ [c], quoted := arg.quoted }

end Pending

/-- The arguments of a text, with the one that is being read, if there is one. -/
def argumentsFrom : Option Pending → List Char → List (List Char)
  | none, [] => []
  | some arg, [] => [arg.done]
  | none, c :: rest =>
    if isBlank c then argumentsFrom none rest
    else argumentsFrom (some (({} : Pending).read c)) rest
  | some arg, c :: rest =>
    if isBlank c && !arg.quoted then arg.done :: argumentsFrom none rest
    else argumentsFrom (some (arg.read c)) rest

/-- The name of the program, and what follows it. -/
def programName : Bool → List Char → List Char × List Char
  | _, [] => ([], [])
  | quoted, c :: rest =>
    if c = '"' then programName (!quoted) rest
    else if isBlank c && !quoted then ([], c :: rest)
    else
      let name := programName quoted rest
      (c :: name.1, name.2)

/-- A line up to its end. -/
def untilNul (line : List Char) : List Char :=
  line.takeWhile (· ≠ '\x00')

/-- The arguments of a command line. -/
def arguments (line : List Char) : List (List Char) :=
  let name := programName false (untilNul line)
  name.1 :: argumentsFrom none name.2

/-- Texts behind blanks. -/
def spaced (args : List (List Char)) : List Char :=
  args.flatMap (' ' :: ·)

/-- The characters of arguments, with a separator for each. -/
def width : List (List Char) → ℕ
  | [] => 0
  | arg :: args => arg.length + 1 + width args

/-- The characters that the argument being read has for sure. -/
def held : Option Pending → ℕ
  | none => 0
  | some arg => arg.text.length + arg.slashes

variable {arg : Pending} {c : Char} {text : List Char} {args : List (List Char)}

@[simp] theorem width_nil : width [] = 0 := rfl

@[simp] theorem width_cons (arg : List Char) (args : List (List Char)) :
    width (arg :: args) = arg.length + 1 + width args := rfl

@[simp] theorem spaced_nil : spaced [] = [] := rfl

@[simp] theorem spaced_cons (arg : List Char) (args : List (List Char)) :
    spaced (arg :: args) = ' ' :: (arg ++ spaced args) := rfl

@[simp] theorem length_done (arg : Pending) : arg.done.length = held (some arg) := by
  rw [Pending.done, List.length_append, List.length_replicate, held]

/-! ### What a character adds -/

theorem held_readQuote (arg : Pending) (hclosed : arg.closed = false) :
    held (some arg.readQuote) ≤ held (some arg) := by
  rw [Pending.readQuote, held, held]
  by_cases hodd : arg.slashes % 2 = 1
  · rw [if_pos hodd]
    simp only [List.length_append, List.length_replicate, List.length_singleton]
    omega
  · rw [if_neg hodd, hclosed, if_neg Bool.false_ne_true]
    simp only [List.length_append, List.length_replicate]
    omega

theorem held_read_le (arg : Pending) (c : Char) :
    held (some (arg.read c)) ≤ held (some arg) + 1 := by
  rw [Pending.read]
  by_cases hquote : c = '"'
  · rw [if_pos hquote]
    cases hclosed : arg.closed with
    | false => exact Nat.le_succ_of_le (held_readQuote arg hclosed)
    | true =>
        rw [Pending.readQuote, hclosed, held, held]
        split
        · simp only [List.length_append, List.length_replicate, List.length_singleton]
          omega
        · simp only [if_true, List.length_append, List.length_replicate, List.length_singleton]
          omega
  · rw [if_neg hquote]
    by_cases hslash : c = '\\'
    · rw [if_pos hslash]
      exact Nat.le_refl _
    · rw [if_neg hslash, held, List.length_append, length_done, List.length_singleton]
      exact Nat.le_refl _

/-- Quotes end just now only at a quote. -/
theorem closed_read (hquote : c ≠ '"') : (arg.read c).closed = false := by
  rw [Pending.read, if_neg hquote]
  split
  · rfl
  · rfl

/-- Away from quotes a character is added and nothing changes about the quotes. -/
theorem done_read (hquote : c ≠ '"') : (arg.read c).done = arg.done ++ [c] := by
  rw [Pending.read, if_neg hquote]
  split
  · next hslash =>
      rw [hslash, Pending.done, Pending.done, List.replicate_succ', List.append_assoc]
  · rw [Pending.done]
    exact List.append_nil _

theorem quoted_read (hquote : c ≠ '"') : (arg.read c).quoted = arg.quoted := by
  rw [Pending.read, if_neg hquote]
  split
  · rfl
  · rfl

/-! ### Arguments are no longer than the line -/

theorem argumentsFrom_cons_none (c : Char) (text : List Char) :
    argumentsFrom none (c :: text) =
      if isBlank c then argumentsFrom none text
      else argumentsFrom (some (({} : Pending).read c)) text := rfl

/-- A blank between arguments is nothing. -/
theorem argumentsFrom_blank (text : List Char) :
    argumentsFrom none (' ' :: text) = argumentsFrom none text := rfl

theorem argumentsFrom_cons_some (arg : Pending) (c : Char) (text : List Char) :
    argumentsFrom (some arg) (c :: text) =
      if isBlank c && !arg.quoted then arg.done :: argumentsFrom none text
      else argumentsFrom (some (arg.read c)) text := rfl

/-- **The arguments fit the line**, with a separator behind each but the last. -/
theorem width_argumentsFrom_le (state : Option Pending) (text : List Char) :
    width (argumentsFrom state text) ≤ held state + text.length + 1 := by
  induction text generalizing state with
  | nil =>
      cases state with
      | none => exact Nat.zero_le _
      | some arg =>
          rw [argumentsFrom, width_cons, width_nil, length_done]
          exact Nat.le_refl _
  | cons c text ih =>
      rw [List.length_cons]
      cases state with
      | none =>
          have hread := held_read_le {} c
          have hstart : held (some {}) = 0 := rfl
          have hnone := ih none
          have hsome := ih (some (({} : Pending).read c))
          rw [held] at hnone
          rw [argumentsFrom_cons_none, held]
          split
          · omega
          · omega
      | some arg =>
          have hread := held_read_le arg c
          have hnone := ih none
          have hsome := ih (some (arg.read c))
          rw [held] at hnone
          rw [argumentsFrom_cons_some]
          split
          · rw [width_cons, length_done]
            omega
          · omega

/-- **A quote costs a character.** -/
theorem width_argumentsFrom_le_of_quote (state : Option Pending)
    (hopen : ∀ arg, state = some arg → arg.closed = false) (hmem : '"' ∈ text) :
    width (argumentsFrom state text) ≤ held state + text.length := by
  induction text generalizing state with
  | nil => cases hmem
  | cons c text ih =>
      rw [List.length_cons]
      by_cases hquote : c = '"'
      · have hblank : isBlank c = false := by
          rw [hquote]
          rfl
        have hread : ∀ arg : Pending, arg.read c = arg.readQuote := fun arg => if_pos hquote
        cases state with
        | none =>
            have hheld := held_readQuote {} rfl
            have hstart : held (some {}) = 0 := rfl
            have hrest := width_argumentsFrom_le (some (({} : Pending).readQuote)) text
            rw [argumentsFrom_cons_none, hblank, if_neg Bool.false_ne_true, hread, held]
            omega
        | some arg =>
            have hheld := held_readQuote arg (hopen arg rfl)
            have hrest := width_argumentsFrom_le (some arg.readQuote) text
            rw [argumentsFrom_cons_some, hblank, Bool.false_and, if_neg Bool.false_ne_true,
              hread]
            omega
      · have hrest : '"' ∈ text := (List.mem_cons.mp hmem).resolve_left (Ne.symm hquote)
        have hnone := ih none (fun _ h => by cases h) hrest
        have hsome : ∀ arg : Pending, width (argumentsFrom (some (arg.read c)) text) ≤
            held (some (arg.read c)) + text.length := fun arg =>
          ih _ (fun _ h => Option.some_inj.mp h ▸ closed_read hquote) hrest
        rw [held] at hnone
        cases state with
        | none =>
            have hread := held_read_le {} c
            have hstart : held (some {}) = 0 := rfl
            have hsome := hsome {}
            rw [argumentsFrom_cons_none, held]
            split
            · omega
            · omega
        | some arg =>
            have hread := held_read_le arg c
            have hsome := hsome arg
            rw [argumentsFrom_cons_some]
            split
            · rw [width_cons, length_done]
              omega
            · omega

/-! ### Lines without quotes -/

/-- Without quotes no argument has a blank. -/
theorem not_isBlank_of_mem_argumentsFrom (state : Option Pending) (hquote : '"' ∉ text)
    (hstate : ∀ arg, state = some arg →
      arg.quoted = false ∧ ∀ c ∈ arg.done, isBlank c = false)
    {read : List Char} (hread : read ∈ argumentsFrom state text) :
    ∀ c ∈ read, isBlank c = false := by
  induction text generalizing state with
  | nil =>
      cases state with
      | none => cases hread
      | some arg =>
          rw [argumentsFrom, List.mem_singleton] at hread
          rw [hread]
          exact (hstate arg rfl).2
  | cons c text ih =>
      obtain ⟨hc, hrest⟩ := List.ne_and_not_mem_of_not_mem_cons hquote
      have hnext : ∀ arg : Pending, arg.quoted = false → (∀ c ∈ arg.done, isBlank c = false) →
          isBlank c = false → ∀ next, some (arg.read c) = some next →
            next.quoted = false ∧ ∀ c ∈ next.done, isBlank c = false := by
        rintro arg hquoted hdone hblank - ⟨⟩
        rw [quoted_read (Ne.symm hc), done_read (Ne.symm hc)]
        refine ⟨hquoted, fun d hd => ?_⟩
        rcases List.mem_append.mp hd with hd | hd
        · exact hdone d hd
        · rw [List.mem_singleton.mp hd]
          exact hblank
      cases state with
      | none =>
          rw [argumentsFrom_cons_none] at hread
          cases hblank : isBlank c with
          | true =>
              rw [hblank, if_pos rfl] at hread
              exact ih none hrest (fun _ h => by cases h) hread
          | false =>
              rw [hblank, if_neg Bool.false_ne_true] at hread
              exact ih _ hrest (hnext {} rfl (fun d hd => by cases hd) hblank) hread
      | some arg =>
          obtain ⟨hquoted, hdone⟩ := hstate arg rfl
          rw [argumentsFrom_cons_some, hquoted, Bool.not_false, Bool.and_true] at hread
          cases hblank : isBlank c with
          | true =>
              rw [hblank, if_pos rfl] at hread
              rcases List.mem_cons.mp hread with hread | hread
              · rw [hread]
                exact hdone
              · exact ih none hrest (fun _ h => by cases h) hread
          | false =>
              rw [hblank, if_neg Bool.false_ne_true] at hread
              exact ih _ hrest (hnext arg hquoted hdone hblank) hread

theorem isPlain_iff (c : Char) :
    isPlain c = true ↔ isBlank c = false ∧ c ≠ '"' ∧ c ≠ '\x00' := by
  simp [isPlain, and_assoc]

/-- Plain text is added to the argument as it is. -/
theorem argumentsFrom_append_of_plain {plain : List Char} (hplain : Plain plain) (arg : Pending)
    (hquoted : arg.quoted = false) (text : List Char) :
    ∃ next : Pending, next.quoted = false ∧ next.done = arg.done ++ plain ∧
      argumentsFrom (some arg) (plain ++ text) = argumentsFrom (some next) text := by
  induction plain generalizing arg with
  | nil => exact ⟨arg, hquoted, (List.append_nil _).symm, rfl⟩
  | cons c plain ih =>
      obtain ⟨hblank, hquote, -⟩ := (isPlain_iff c).mp (hplain c List.mem_cons_self)
      obtain ⟨next, hnext, hdone, heq⟩ := ih
        (fun d hd => hplain d (List.mem_cons_of_mem c hd)) (arg.read c)
        ((quoted_read hquote).trans hquoted)
      refine ⟨next, hnext, ?_, ?_⟩
      · rw [hdone, done_read hquote, List.append_assoc, List.singleton_append]
      · rw [List.cons_append, argumentsFrom_cons_some, hblank, Bool.false_and,
          if_neg Bool.false_ne_true, heq]

/-- Plain texts behind blanks are read. -/
theorem argumentsFrom_spaced (hplain : ∀ arg ∈ args, Plain arg) (hne : ∀ arg ∈ args, arg ≠ []) :
    argumentsFrom none (spaced args) = args ∧
      ∀ arg : Pending, arg.quoted = false →
        argumentsFrom (some arg) (spaced args) = arg.done :: args := by
  induction args with
  | nil => exact ⟨rfl, fun arg _ => rfl⟩
  | cons first args ih =>
      obtain ⟨-, hsome⟩ := ih (fun arg h => hplain arg (List.mem_cons_of_mem first h))
        fun arg h => hne arg (List.mem_cons_of_mem first h)
      have hfirst := hplain first List.mem_cons_self
      have hnone : argumentsFrom none (spaced (first :: args)) = first :: args := by
        obtain ⟨c, rest, rfl⟩ := List.exists_cons_of_ne_nil (hne first List.mem_cons_self)
        obtain ⟨hblank, hquote, -⟩ := (isPlain_iff c).mp (hfirst c List.mem_cons_self)
        obtain ⟨next, hquoted, hdone, heq⟩ := argumentsFrom_append_of_plain
          (fun d hd => hfirst d (List.mem_cons_of_mem c hd)) (({} : Pending).read c)
          (quoted_read hquote) (spaced args)
        rw [spaced_cons, argumentsFrom_blank, List.cons_append, argumentsFrom_cons_none, hblank,
          if_neg Bool.false_ne_true, heq, hsome next hquoted, hdone, done_read hquote]
        rfl
      refine ⟨hnone, fun arg hquoted => ?_⟩
      rw [spaced_cons, argumentsFrom_blank] at hnone
      rw [spaced_cons, argumentsFrom_cons_some, hquoted, hnone]
      rfl

/-! ### When texts are the arguments -/

theorem length_spaced (args : List (List Char)) : (spaced args).length = width args := by
  induction args with
  | nil => rfl
  | cons arg args ih =>
      rw [spaced_cons, List.length_cons, List.length_append, width_cons, ih]
      omega

theorem mem_spaced_of_mem {read : List Char} (hread : read ∈ args) (hc : c ∈ read) :
    c ∈ spaced args :=
  List.mem_flatMap.mpr ⟨read, hread, List.mem_cons_of_mem ' ' hc⟩

theorem untilNul_eq_self_iff (line : List Char) : untilNul line = line ↔ '\x00' ∉ line := by
  rw [untilNul, List.takeWhile_eq_self_iff]
  constructor
  · intro h hmem
    simpa using h _ hmem
  · intro h c hc
    simpa using fun hnul : c = '\x00' => h (hnul ▸ hc)

/-- Where a line begins with a blank, this makes room for the separator of the last argument. -/
theorem width_argumentsFrom_blank_le (text : List Char) :
    width (argumentsFrom none (' ' :: text)) ≤ (' ' :: text).length := by
  have h := width_argumentsFrom_le none text
  rw [held] at h
  rw [argumentsFrom_blank, List.length_cons]
  omega

/-- A quote in such a line leaves less. -/
theorem width_argumentsFrom_blank_lt (hquote : '"' ∈ text) :
    width (argumentsFrom none (' ' :: text)) < (' ' :: text).length := by
  have h := width_argumentsFrom_le_of_quote none (fun _ h => by cases h) hquote
  rw [held] at h
  rw [argumentsFrom_blank, List.length_cons]
  omega

/-- **Texts behind blanks are the arguments** up to the first NUL exactly when they are plain. -/
theorem argumentsFrom_spaced_iff (hne : ∀ arg ∈ args, arg ≠ []) :
    argumentsFrom none (untilNul (spaced args)) = args ↔ ∀ arg ∈ args, Plain arg := by
  constructor
  · intro heq
    cases args with
    | nil => exact fun arg harg => absurd harg List.not_mem_nil
    | cons first args =>
        have hlength := length_spaced (first :: args)
        have hcut : untilNul (spaced (first :: args)) =
            ' ' :: untilNul (first ++ spaced args) := rfl
        -- the arguments take up the whole line, so it ends at no NUL
        have hline : untilNul (spaced (first :: args)) = spaced (first :: args) := by
          refine (List.takeWhile_prefix _).eq_of_length_le ?_
          have hwidth := width_argumentsFrom_blank_le (untilNul (first ++ spaced args))
          rw [← hcut, heq] at hwidth
          exact hlength.trans_le hwidth
        have hnul := (untilNul_eq_self_iff _).mp hline
        rw [hline] at heq
        have hquote : '"' ∉ spaced (first :: args) := by
          intro hmem
          have hrest : '"' ∈ first ++ spaced args :=
            (List.mem_cons.mp hmem).resolve_left (by decide)
          have hlt := width_argumentsFrom_blank_lt hrest
          rw [← spaced_cons, heq, ← hlength] at hlt
          exact Nat.lt_irrefl _ hlt
        intro arg harg c hc
        have hblank := not_isBlank_of_mem_argumentsFrom none hquote
          (fun _ h => by cases h) (heq.symm ▸ harg) c hc
        exact (isPlain_iff c).mpr ⟨hblank, fun h => hquote (h ▸ mem_spaced_of_mem harg hc),
          fun h => hnul (h ▸ mem_spaced_of_mem harg hc)⟩
  · intro hplain
    have hline : untilNul (spaced args) = spaced args := by
      refine (untilNul_eq_self_iff _).mpr fun hmem => ?_
      obtain ⟨arg, harg, hc⟩ := List.mem_flatMap.mp hmem
      have hc := (List.mem_cons.mp hc).resolve_left (by decide)
      exact ((isPlain_iff _).mp (hplain arg harg _ hc)).2.2 rfl
    rw [hline]
    exact (argumentsFrom_spaced hplain hne).1

/-! ### The name of the program -/

/-- A text without quotes inside quotes belongs to the name. -/
theorem programName_append {name : List Char} (hquote : '"' ∉ name) (text : List Char) :
    programName true (name ++ '"' :: text) =
      (name ++ (programName false text).1, (programName false text).2) := by
  induction name with
  | nil =>
      rw [List.nil_append, programName, if_pos rfl]
      rfl
  | cons c name ih =>
      obtain ⟨hc, hrest⟩ := List.ne_and_not_mem_of_not_mem_cons hquote
      rw [List.cons_append, programName, if_neg (Ne.symm hc), Bool.not_true, Bool.and_false,
        if_neg Bool.false_ne_true, ih hrest]
      rfl

/-- **A quoted name is the name**, and the texts behind it are read up to the first NUL. -/
theorem arguments_quoted {name : List Char} (hquote : '"' ∉ name) (hnul : '\x00' ∉ name)
    (args : List (List Char)) :
    arguments ('"' :: name ++ '"' :: spaced args) =
      name :: argumentsFrom none (untilNul (spaced args)) := by
  have hcut : untilNul ('"' :: name ++ '"' :: spaced args) =
      '"' :: (name ++ '"' :: untilNul (spaced args)) := by
    have hname : ∀ c ∈ name, decide (c ≠ '\x00') = true := fun c hc => by
      simpa using fun h : c = '\x00' => hnul (h ▸ hc)
    rw [untilNul, List.cons_append, List.takeWhile_cons_of_pos (by decide),
      List.takeWhile_append_of_pos hname, List.takeWhile_cons_of_pos (by decide)]
    rfl
  have hname : programName false (untilNul (spaced args)) = ([], untilNul (spaced args)) := by
    cases args with
    | nil => rfl
    | cons first args => rfl
  rw [arguments, hcut, programName, if_pos rfl, Bool.not_false, programName_append hquote, hname,
    List.append_nil]

end ArgumentVector
