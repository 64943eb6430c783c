import Mathlib.Algebra.Group.Nat.Even
import Mathlib.Data.List.Basic
import Mathlib.Tactic.Common

/-!
# Escaped Text

Text in which an escape mark announces that the next symbol stands for something else, over
an arbitrary alphabet. A `Codec` says which symbols are escaped and what stands behind the
mark for them.

Besides encoding and decoding, this module has the ways in which programs look at text with
quoted parts: `readQuoted` reads a quoted literal to its closing quote, `quotedParts` reads
all the literals of a text, and `splitOutside` looks for the first occurrence of a symbol
outside all quotes, where a quote behind a mark does not count.

## Main results

* `Codec.unescape_escape`: **decoding undoes encoding**.
* `Codec.escape_eq_self_iff`: the texts that are their own encoding.
* `Codec.unescape_eq_some_iff`: what can be decoded is a series of `Codec.Items`.
* `Codec.items_iff`: a series of items of which some are not allowed has a first one.
* `Codec.readQuoted_escape`: an encoded text followed by a quote is read back whole, as
  long as no symbol of it is forbidden inside the quotes.
* `Codec.quotedParts_literal`: an encoded text in quotes is one of the quoted parts of a text.
* `splitOutside_append_of_plain`: **a symbol behind plain text** is found.
* `splitOutside_append`: behind a text without the symbol, the search goes on in the state
  that `insideAfter` says.
* `Codec.splitOutside_escape`: nothing is found inside an encoded text.
-/

namespace EscapedText

variable {α : Type*}

/-- An escape scheme: `encode c` is the symbol behind the mark that stands for `c`, if `c`
is escaped at all. -/
structure Codec (α : Type*) where
  mark : α
  encode : α → Option α
  decode : α → Option α
  decode_encode : ∀ c e, encode c = some e → decode e = some c
  encode_mark : encode mark ≠ none

namespace Codec

variable (t : Codec α)

/-- The encoding of one symbol. -/
def escapeOne (c : α) : List α :=
  match t.encode c with
  | some e => [t.mark, e]
  | none => [c]

/-- The encoding of a text. -/
def escape (xs : List α) : List α :=
  xs.flatMap t.escapeOne

@[simp] theorem escape_nil : t.escape [] = [] := rfl

theorem escape_cons (c : α) (xs : List α) : t.escape (c :: xs) = t.escapeOne c ++ t.escape xs :=
  List.flatMap_cons

/-- A symbol that is not escaped is not the mark. -/
theorem ne_mark_of_encode_eq_none {t : Codec α} {c : α} (h : t.encode c = none) :
    c ≠ t.mark := by
  rintro rfl
  exact t.encode_mark h

/-- Every symbol of an encoded text is a mark, an encoding, or a symbol of the text that is
not escaped. -/
theorem mem_escape {t : Codec α} {xs : List α} {x : α} (h : x ∈ t.escape xs) :
    x = t.mark ∨ (∃ c ∈ xs, t.encode c = some x) ∨ (x ∈ xs ∧ t.encode x = none) := by
  obtain ⟨c, hc, hx⟩ := List.mem_flatMap.mp h
  rw [escapeOne] at hx
  cases he : t.encode c with
  | some e =>
      rw [he] at hx
      rcases List.mem_cons.mp hx with rfl | hx
      · exact Or.inl rfl
      · exact Or.inr (Or.inl ⟨c, hc, by rw [he, List.mem_singleton.mp hx]⟩)
  | none =>
      rw [he] at hx
      obtain rfl := List.mem_singleton.mp hx
      exact Or.inr (Or.inr ⟨hc, he⟩)

/-- An encoded text is not shorter. -/
theorem length_le_escape (xs : List α) : xs.length ≤ (t.escape xs).length := by
  induction xs with
  | nil => exact Nat.le_refl 0
  | cons c xs ih =>
      rw [escape_cons, List.length_append, List.length_cons, escapeOne]
      cases t.encode c with
      | some e =>
          rw [List.length_cons, List.length_singleton]
          omega
      | none =>
          rw [List.length_singleton]
          omega

/-- **A text is its own encoding** exactly when no symbol is escaped. -/
theorem escape_eq_self_iff {t : Codec α} {xs : List α} :
    t.escape xs = xs ↔ ∀ x ∈ xs, t.encode x = none := by
  induction xs with
  | nil => exact iff_of_true rfl fun _ h => absurd h List.not_mem_nil
  | cons c xs ih =>
      rw [escape_cons, escapeOne, List.forall_mem_cons]
      cases he : t.encode c with
      | some e =>
          refine iff_of_false (fun h => ?_) (fun h => absurd h.1 (Option.some_ne_none e))
          have hlength := congrArg List.length h
          have hle := t.length_le_escape xs
          simp only [List.length_append, List.length_cons, List.length_nil] at hlength
          omega
      | none =>
          rw [List.singleton_append, List.cons_inj_right, ih]
          exact (and_iff_right rfl).symm

variable [DecidableEq α]

/-- The decoding of a text; `none` if a mark is followed by nothing, or by a symbol that
stands for nothing. -/
def unescape : List α → Option (List α)
  | [] => some []
  | c :: cs =>
    if c = t.mark then
      match cs with
      | [] => none
      | e :: cs => (t.decode e).bind fun d => (unescape cs).map (d :: ·)
    else (unescape cs).map (c :: ·)

/-- Read a quoted text up to its closing quote, and what follows. `bad` symbols are not
allowed outside escapes. -/
def readQuoted (quote : α) (bad : α → Bool) : List α → Option (List α × List α)
  | [] => none
  | c :: cs =>
    if c = quote then some ([], cs)
    else if c = t.mark then
      match cs with
      | [] => none
      | e :: cs => (t.decode e).bind fun d =>
        (readQuoted quote bad cs).map fun r => (d :: r.1, r.2)
    else if bad c then none
    else (readQuoted quote bad cs).map fun r => (c :: r.1, r.2)

@[simp] theorem unescape_mark_cons (e : α) (cs : List α) :
    t.unescape (t.mark :: e :: cs) =
      (t.decode e).bind fun d => (t.unescape cs).map (d :: ·) := by
  rw [unescape, if_pos rfl]

theorem unescape_cons_of_ne {t : Codec α} {c : α} (h : c ≠ t.mark) (cs : List α) :
    t.unescape (c :: cs) = (t.unescape cs).map (c :: ·) := by
  rw [unescape.eq_def]
  simp only [if_neg h]

@[simp] theorem readQuoted_quote_cons (quote : α) (bad : α → Bool) (cs : List α) :
    t.readQuoted quote bad (quote :: cs) = some ([], cs) := by
  rw [readQuoted.eq_def]
  simp only [if_true]

theorem readQuoted_mark_cons {t : Codec α} {quote : α} (h : t.mark ≠ quote) (bad : α → Bool)
    (e : α) (cs : List α) : t.readQuoted quote bad (t.mark :: e :: cs) =
      (t.decode e).bind fun d => (t.readQuoted quote bad cs).map fun r => (d :: r.1, r.2) := by
  rw [readQuoted, if_neg h, if_pos rfl]

theorem readQuoted_cons_of_ne {t : Codec α} {quote c : α} (hq : c ≠ quote) (hm : c ≠ t.mark)
    (bad : α → Bool) (cs : List α) : t.readQuoted quote bad (c :: cs) =
      if bad c then none else (t.readQuoted quote bad cs).map fun r => (c :: r.1, r.2) := by
  rw [readQuoted.eq_def]
  simp only [if_neg hq, if_neg hm]

/-- What follows a quoted text is the end of the text. -/
theorem readQuoted_suffix {t : Codec α} {quote : α} {bad : α → Bool} {text value rest : List α}
    (h : t.readQuoted quote bad text = some (value, rest)) : rest <:+ text := by
  fun_induction readQuoted t quote bad text generalizing value with
  | case1 => cases h
  | case2 cs =>
      obtain ⟨-, rfl⟩ := Prod.mk.inj (Option.some.inj h)
      exact List.suffix_cons _ _
  | case3 => cases h
  | case4 _ e cs ih =>
      obtain ⟨d, -, h⟩ := Option.bind_eq_some_iff.mp h
      obtain ⟨r, hr, heq⟩ := Option.map_eq_some_iff.mp h
      obtain ⟨-, rfl⟩ := Prod.mk.inj heq
      exact (ih hr).trans ((List.suffix_cons _ _).trans (List.suffix_cons _ _))
  | case5 => cases h
  | case6 c cs _ _ _ ih =>
      obtain ⟨r, hr, heq⟩ := Option.map_eq_some_iff.mp h
      obtain ⟨-, rfl⟩ := Prod.mk.inj heq
      exact (ih hr).trans (List.suffix_cons _ _)

/-- **Decoding undoes encoding.** -/
@[simp] theorem unescape_escape (xs : List α) : t.unescape (t.escape xs) = some xs := by
  induction xs with
  | nil => rfl
  | cons c xs ih =>
      rw [escape_cons, escapeOne]
      cases he : t.encode c with
      | some e => simp [t.decode_encode c e he, ih]
      | none => simp [unescape_cons_of_ne (ne_mark_of_encode_eq_none he), ih]

/-- **A quote in an encoded text** is behind a mark, which stands for nothing without it. -/
theorem unescape_of_prefix (t : Codec α) {q : α} (hquote : t.encode q ≠ none) (hmark : q ≠ t.mark)
    {xs ys : List α} (h : ys ++ [q] <+: t.escape xs) : t.unescape ys = none := by
  induction xs generalizing ys with
  | nil => simp at h
  | cons c xs ih =>
      rw [escape_cons, escapeOne] at h
      cases he : t.encode c with
      | some e =>
          rw [he] at h
          match ys with
          | [] => exact absurd (List.cons_prefix_cons.mp h).1 hmark
          | [m] =>
              have hm := (List.cons_prefix_cons.mp h).1
              simp [unescape, hm]
          | m :: d :: ys =>
              obtain ⟨hm, hrest⟩ := List.cons_prefix_cons.mp h
              have hys := ih (List.cons_prefix_cons.mp hrest).2
              simp [unescape, hm, hys]
      | none =>
          rw [he] at h
          match ys with
          | [] =>
              obtain rfl := (List.cons_prefix_cons.mp h).1
              exact absurd he hquote
          | d :: ys =>
              obtain ⟨rfl, hrest⟩ := List.cons_prefix_cons.mp h
              rw [unescape_cons_of_ne (ne_mark_of_encode_eq_none he), ih hrest, Option.map_none]

/-- **An encoded text is read back** up to the closing quote, if the quote is escaped and
no forbidden symbol is left as it is. -/
theorem readQuoted_escape {quote : α} {bad : α → Bool} (hquote : t.encode quote ≠ none)
    (hmark : quote ≠ t.mark) {xs : List α}
    (hbad : ∀ x ∈ xs, t.encode x = none → bad x = false) (rest : List α) :
    t.readQuoted quote bad (t.escape xs ++ quote :: rest) = some (xs, rest) := by
  induction xs with
  | nil => simp
  | cons c xs ih =>
      have ih := ih fun x hx => hbad x (List.mem_cons_of_mem c hx)
      rw [escape_cons, escapeOne]
      cases he : t.encode c with
      | some e => simp [readQuoted_mark_cons hmark.symm, t.decode_encode c e he, ih]
      | none =>
          have hc : c ≠ quote := by
            rintro rfl
            exact hquote he
          simp [readQuoted_cons_of_ne hc (ne_mark_of_encode_eq_none he), ih,
            hbad c List.mem_cons_self he]

/-- **A forbidden symbol that is left as it is** makes the encoded text unreadable. -/
theorem readQuoted_escape_of_bad {quote : α} {bad : α → Bool} (hquote : t.encode quote ≠ none)
    (hmark : quote ≠ t.mark) {xs : List α}
    (hbad : ∃ x ∈ xs, t.encode x = none ∧ bad x = true) (rest : List α) :
    t.readQuoted quote bad (t.escape xs ++ rest) = none := by
  induction xs with
  | nil => simp at hbad
  | cons c xs ih =>
      rw [escape_cons, escapeOne]
      cases he : t.encode c with
      | some e =>
          have hbad' : ∃ x ∈ xs, t.encode x = none ∧ bad x = true := by
            obtain ⟨x, hx, hn, hb⟩ := hbad
            rcases List.mem_cons.mp hx with rfl | hx
            · rw [he] at hn
              cases hn
            · exact ⟨x, hx, hn, hb⟩
          simp [readQuoted_mark_cons hmark.symm, t.decode_encode c e he, ih hbad']
      | none =>
          have hc : c ≠ quote := by
            rintro rfl
            exact hquote he
          cases hb : bad c with
          | true => simp [readQuoted_cons_of_ne hc (ne_mark_of_encode_eq_none he), hb]
          | false =>
              have hbad' : ∃ x ∈ xs, t.encode x = none ∧ bad x = true := by
                obtain ⟨x, hx, hn, hb'⟩ := hbad
                rcases List.mem_cons.mp hx with rfl | hx
                · rw [hb] at hb'
                  cases hb'
                · exact ⟨x, hx, hn, hb'⟩
              simp [readQuoted_cons_of_ne hc (ne_mark_of_encode_eq_none he), hb, ih hbad']

/-! ### The language of the encoded texts -/

/-- **A series of items and what they stand for**: symbols that are `plain` stand for
themselves, a mark with the symbol behind it for what that symbol decodes to. -/
inductive Items (plain : α → Prop) : List α → List α → Prop
  | nil : Items plain [] []
  | plain {c : α} {xs v : List α} (hc : c ≠ t.mark) (hplain : plain c)
      (h : Items plain xs v) : Items plain (c :: xs) (c :: v)
  | escaped {e d : α} {xs v : List α} (he : t.decode e = some d) (h : Items plain xs v) :
      Items plain (t.mark :: e :: xs) (d :: v)

/-- **Decoding accepts exactly the series of items**, whatever symbols are among them. -/
theorem unescape_eq_some_iff {xs v : List α} :
    t.unescape xs = some v ↔ t.Items (fun _ => True) xs v := by
  constructor
  · intro h
    fun_induction t.unescape xs generalizing v with
    | case1 =>
        obtain rfl := Option.some.inj h
        exact .nil
    | case2 => cases h
    | case3 e cs ih =>
        obtain ⟨d, hd, h⟩ := Option.bind_eq_some_iff.mp h
        obtain ⟨w, hw, rfl⟩ := Option.map_eq_some_iff.mp h
        exact .escaped hd (ih hw)
    | case4 c cs hc ih =>
        obtain ⟨w, hw, rfl⟩ := Option.map_eq_some_iff.mp h
        exact .plain hc trivial (ih hw)
  · intro h
    induction h with
    | nil => rfl
    | plain hc _ _ ih => rw [unescape_cons_of_ne hc, ih, Option.map_some]
    | escaped he _ ih => rw [unescape_mark_cons, he, Option.bind_some, ih, Option.map_some]

variable {t}

omit [DecidableEq α] in
/-- A series behind another one. -/
theorem Items.append {plain : α → Prop} {xs ys v w : List α} (hxs : t.Items plain xs v)
    (hys : t.Items plain ys w) : t.Items plain (xs ++ ys) (v ++ w) := by
  induction hxs with
  | nil => exact hys
  | plain hc hplain _ ih => exact .plain hc hplain ih
  | escaped he _ ih => exact .escaped he ih

omit [DecidableEq α] in
/-- Fewer symbols allowed, fewer series. -/
theorem Items.imp {p q : α → Prop} (hpq : ∀ c, p c → q c) {xs v : List α}
    (h : t.Items p xs v) : t.Items q xs v := by
  induction h with
  | nil => exact .nil
  | plain hc hp _ ih => exact .plain hc (hpq _ hp) ih
  | escaped he _ ih => exact .escaped he ih

/-- **Decoding goes on behind a series of items.** -/
theorem unescape_append {xs v : List α} (h : t.unescape xs = some v) (ys : List α) :
    t.unescape (xs ++ ys) = (t.unescape ys).map (v ++ ·) := by
  have hitems := t.unescape_eq_some_iff.mp h
  clear h
  induction hitems with
  | nil => simp
  | plain hc _ _ ih => simp [unescape_cons_of_ne hc, ih, Function.comp_def]
  | escaped he _ ih => simp [he, ih, Function.comp_def]

omit [DecidableEq α] in
/-- A symbol that is not allowed stands nowhere an item starts. -/
theorem Items.not_append_cons {plain : α → Prop} {pre post v w : List α} {c : α}
    (hmark : c ≠ t.mark) (hc : ¬ plain c) (hpre : t.Items plain pre v) :
    ¬ t.Items plain (pre ++ c :: post) w := by
  induction hpre generalizing w with
  | nil =>
      intro h
      cases h with
      | plain _ hplain _ => exact hc hplain
      | escaped _ _ => exact hmark rfl
  | @plain d xs _ hd _ _ ih =>
      intro h
      rw [List.cons_append] at h
      generalize xs ++ c :: post = rest at h ih
      cases h with
      | plain _ _ h => exact ih h
      | escaped _ _ => exact hd rfl
  | escaped he _ ih =>
      intro h
      rw [List.cons_append, List.cons_append] at h
      cases h with
      | plain hd _ _ => exact hd rfl
      | escaped _ h => exact ih h

omit [DecidableEq α] in
/-- **A series of items** has allowed ones only, or a first one that is not allowed. -/
theorem items_iff {plain : α → Prop} {xs v : List α} (h : t.Items (fun _ => True) xs v) :
    t.Items plain xs v ↔ ¬ ∃ pre c post u w, xs = pre ++ c :: post ∧ c ≠ t.mark ∧ ¬ plain c ∧
      t.Items plain pre u ∧ t.Items (fun _ => True) post w := by
  constructor
  · rintro hxs ⟨pre, c, post, u, w, rfl, hmark, hc, hpre, -⟩
    exact hpre.not_append_cons hmark hc hxs
  · intro hnone
    induction h with
    | nil => exact .nil
    | @plain c xs v hc _ hxs ih =>
        by_cases hplain : plain c
        · refine .plain hc hplain (ih ?_)
          rintro ⟨pre, d, post, u, w, rfl, hd, hnot, hpre, hpost⟩
          exact hnone ⟨c :: pre, d, post, _, w, rfl, hd, hnot, .plain hc hplain hpre, hpost⟩
        · exact absurd ⟨[], c, xs, [], v, rfl, hc, hplain, .nil, hxs⟩ hnone
    | @escaped e d xs v he _ ih =>
        refine .escaped he (ih ?_)
        rintro ⟨pre, d', post, u, w, rfl, hd, hnot, hpre, hpost⟩
        exact hnone ⟨t.mark :: e :: pre, d', post, _, w, rfl, hd, hnot, .escaped he hpre, hpost⟩

variable (t)

/-! ### All quoted parts of a text -/

/-- The decoded quoted parts of a text, in their order; `none` if one of them is not well
formed. `part` is what was read of the part in progress, if the scan is inside quotes. -/
def quotedParts (quote : α) (bad : α → Bool) (part : Option (List α)) :
    List α → Option (List (List α))
  | [] => if part.isSome then none else some []
  | c :: cs =>
    match part with
    | none => quotedParts quote bad (if c = quote then some [] else none) cs
    | some read =>
      if c = quote then (quotedParts quote bad none cs).map (read :: ·)
      else if c = t.mark then
        match cs with
        | [] => none
        | e :: cs => (t.decode e).bind fun d => quotedParts quote bad (some (read ++ [d])) cs
      else if bad c then none
      else quotedParts quote bad (some (read ++ [c])) cs

/-- Text without quotes has no quoted parts. -/
theorem quotedParts_append_of_plain {t : Codec α} {quote : α} {bad : α → Bool} {pre : List α}
    (h : quote ∉ pre) (rest : List α) :
    t.quotedParts quote bad none (pre ++ rest) = t.quotedParts quote bad none rest := by
  induction pre with
  | nil => rfl
  | cons c pre ih =>
      have hc : c ≠ quote := fun hc => h (hc ▸ List.mem_cons_self)
      rw [List.cons_append, quotedParts, if_neg hc]
      exact ih fun hmem => h (List.mem_cons_of_mem c hmem)

/-- **Inside quotes** the scan reads to the closing quote. -/
theorem quotedParts_some {t : Codec α} {quote : α} {bad : α → Bool} (read cs : List α) :
    t.quotedParts quote bad (some read) cs =
      (t.readQuoted quote bad cs).bind fun r =>
        (t.quotedParts quote bad none r.2).map ((read ++ r.1) :: ·) := by
  fun_induction t.readQuoted quote bad cs generalizing read with
  | case1 => simp [quotedParts]
  | case2 cs =>
      rw [quotedParts.eq_def]
      simp
  | case3 hq => simp [quotedParts, hq]
  | case4 e cs hq ih =>
      rw [quotedParts, if_neg hq, if_pos rfl]
      simp only [ih, Option.bind_assoc, Option.bind_map, List.append_assoc, List.singleton_append]
      rfl
  | case5 c cs hq hm hbad =>
      rw [quotedParts.eq_def]
      simp only [if_neg hq, if_neg hm, if_pos hbad, Option.bind_none]
  | case6 c cs hq hm hbad ih =>
      rw [quotedParts.eq_def]
      simp only [if_neg hq, if_neg hm, if_neg hbad, ih, Option.bind_map, List.append_assoc,
        List.singleton_append]
      rfl

/-- **An encoded text in quotes** is the next quoted part. -/
theorem quotedParts_literal {t : Codec α} {quote : α} {bad : α → Bool}
    (hquote : t.encode quote ≠ none) (hmark : quote ≠ t.mark) {xs : List α}
    (hbad : ∀ x ∈ xs, t.encode x = none → bad x = false) (rest : List α) :
    t.quotedParts quote bad none (quote :: t.escape xs ++ quote :: rest) =
      (t.quotedParts quote bad none rest).map (xs :: ·) := by
  rw [List.cons_append, quotedParts, if_pos rfl, quotedParts_some,
    t.readQuoted_escape hquote hmark hbad, Option.bind_some, List.nil_append]

/-- An encoded text in quotes with a forbidden symbol spoils the whole text. -/
theorem quotedParts_literal_of_bad {t : Codec α} {quote : α} {bad : α → Bool}
    (hquote : t.encode quote ≠ none) (hmark : quote ≠ t.mark) {xs : List α}
    (hbad : ∃ x ∈ xs, t.encode x = none ∧ bad x = true) (rest : List α) :
    t.quotedParts quote bad none (quote :: t.escape xs ++ rest) = none := by
  rw [List.cons_append, quotedParts, if_pos rfl, quotedParts_some,
    t.readQuoted_escape_of_bad hquote hmark hbad, Option.bind_none]

end Codec

/-! ### Looking for a symbol outside quotes -/

variable [DecidableEq α] (quote mark target : α)

/-- The text before and behind the first `target` outside all quotes. `inside` tells
whether the scan starts inside quotes, `prev` is the symbol before it. A quote behind a
mark does not open or close anything. -/
def splitOutside (inside : Bool) (prev : Option α) : List α → Option (List α × List α)
  | [] => none
  | c :: cs =>
    if c = quote ∧ prev ≠ some mark then
      (splitOutside (!inside) (some c) cs).map fun r => (c :: r.1, r.2)
    else if c = target ∧ inside = false then some ([], cs)
    else (splitOutside inside (some c) cs).map fun r => (c :: r.1, r.2)

variable {quote mark target}

/-- Text without quotes and targets contains nothing to find. -/
theorem splitOutside_eq_none_of_plain {xs : List α} (hq : quote ∉ xs) (ht : target ∉ xs)
    (inside : Bool) (prev : Option α) :
    splitOutside quote mark target inside prev xs = none := by
  induction xs generalizing prev with
  | nil => rfl
  | cons c xs ih =>
      have hcq : c ≠ quote := fun h => hq (h ▸ List.mem_cons_self)
      have hct : c ≠ target := fun h => ht (h ▸ List.mem_cons_self)
      simp [splitOutside, hcq, hct,
        ih (fun h => hq (List.mem_cons_of_mem c h)) (fun h => ht (List.mem_cons_of_mem c h))]

/-- **A symbol behind plain text** is found. -/
theorem splitOutside_append_of_plain {pre : List α} (hq : quote ∉ pre) (ht : target ∉ pre)
    (hne : target ≠ quote) (prev : Option α) (rest : List α) :
    splitOutside quote mark target false prev (pre ++ target :: rest) = some (pre, rest) := by
  induction pre generalizing prev with
  | nil => simp [splitOutside, hne]
  | cons c pre ih =>
      have hcq : c ≠ quote := fun h => hq (h ▸ List.mem_cons_self)
      have hct : c ≠ target := fun h => ht (h ▸ List.mem_cons_self)
      simp [splitOutside, hcq, hct,
        ih (fun h => hq (List.mem_cons_of_mem c h)) (fun h => ht (List.mem_cons_of_mem c h))]

/-- Plain text in front is skipped; its last symbol may matter for what follows. -/
theorem splitOutside_skip {pre : List α} {c : α} (hq : quote ∉ pre ++ [c])
    (ht : target ∉ pre ++ [c]) (inside : Bool) (prev : Option α) (xs : List α) :
    splitOutside quote mark target inside prev (pre ++ c :: xs) =
      (splitOutside quote mark target inside (some c) xs).map
        fun r => (pre ++ c :: r.1, r.2) := by
  induction pre generalizing prev with
  | nil =>
      have hcq : c ≠ quote := fun h => hq (by simp [h])
      have hct : c ≠ target := fun h => ht (by simp [h])
      simp [splitOutside, hcq, hct]
  | cons d pre ih =>
      have hdq : d ≠ quote := fun h => hq (by simp [h])
      have hdt : d ≠ target := fun h => ht (by simp [h])
      rw [List.cons_append, splitOutside, if_neg (fun h => hdq h.1), if_neg (fun h => hdt h.1),
        ih (fun h => hq (List.mem_cons_of_mem d h)) (fun h => ht (List.mem_cons_of_mem d h)),
        Option.map_map]
      rfl

/-- What is found is not affected by what follows. -/
theorem splitOutside_append_of_some {xs before behind : List α} {inside : Bool}
    {prev : Option α}
    (h : splitOutside quote mark target inside prev xs = some (before, behind))
    (ys : List α) :
    splitOutside quote mark target inside prev (xs ++ ys) = some (before, behind ++ ys) := by
  induction xs generalizing inside prev before with
  | nil => simp [splitOutside] at h
  | cons c xs ih =>
      simp only [splitOutside, List.cons_append] at h ⊢
      split at h
      · next hc =>
          obtain ⟨⟨b, r⟩, hr, heq⟩ := Option.map_eq_some_iff.mp h
          obtain ⟨rfl, rfl⟩ := Prod.mk.inj heq
          rw [if_pos hc, ih hr]
          rfl
      · next hc =>
          rw [if_neg hc]
          split at h
          · next ht =>
              rw [if_pos ht]
              simpa using h
          · next ht =>
              obtain ⟨⟨b, r⟩, hr, heq⟩ := Option.map_eq_some_iff.mp h
              obtain ⟨rfl, rfl⟩ := Prod.mk.inj heq
              rw [if_neg ht, ih hr]
              rfl

/-- Whether the scan is inside quotes behind a text. -/
def insideAfter (quote mark : α) (inside : Bool) (prev : Option α) : List α → Bool
  | [] => inside
  | c :: cs =>
    if c = quote ∧ prev ≠ some mark then insideAfter quote mark (!inside) (some c) cs
    else insideAfter quote mark inside (some c) cs

/-- The number of quotes that do not stand directly behind a mark. -/
def countBare (quote mark : α) (prev : Option α) : List α → ℕ
  | [] => 0
  | c :: cs =>
    (if c = quote ∧ prev ≠ some mark then 1 else 0) + countBare quote mark (some c) cs

/-- The scan is where it was, if the quotes are even in number. -/
theorem insideAfter_eq_iff (xs : List α) (inside : Bool) (prev : Option α) :
    insideAfter quote mark inside prev xs = inside ↔ Even (countBare quote mark prev xs) := by
  induction xs generalizing inside prev with
  | nil => simp [insideAfter, countBare]
  | cons c xs ih =>
      rw [insideAfter, countBare]
      split
      · have hflip : insideAfter quote mark (!inside) (some c) xs = inside ↔
            ¬ insideAfter quote mark (!inside) (some c) xs = !inside := by
          cases insideAfter quote mark (!inside) (some c) xs <;> cases inside <;> simp
        rw [hflip, ih, Nat.add_comm, Nat.even_add_one]
      · rw [Nat.zero_add, ih]

/-- Text without quotes opens and closes nothing. -/
theorem insideAfter_of_notMem {xs : List α} (hq : quote ∉ xs) (inside : Bool)
    (prev : Option α) : insideAfter quote mark inside prev xs = inside := by
  induction xs generalizing prev with
  | nil => rfl
  | cons c xs ih =>
      have hc : c ≠ quote := fun h => hq (h ▸ List.mem_cons_self)
      rw [insideAfter, if_neg (fun h => hc h.1)]
      exact ih (fun h => hq (List.mem_cons_of_mem c h)) _

/-- Nothing is found inside quotes. -/
theorem splitOutside_true_of_notMem {xs : List α} (hq : quote ∉ xs) (prev : Option α) :
    splitOutside quote mark target true prev xs = none := by
  induction xs generalizing prev with
  | nil => rfl
  | cons c xs ih =>
      have hc : c ≠ quote := fun h => hq (h ▸ List.mem_cons_self)
      simp [splitOutside, hc, ih (fun h => hq (List.mem_cons_of_mem c h))]

/-- **Behind a text in which nothing is found** the search goes on. -/
theorem splitOutside_append {xs : List α} {inside : Bool} {prev : Option α}
    (h : splitOutside quote mark target inside prev xs = none) (ys : List α) :
    splitOutside quote mark target inside prev (xs ++ ys) =
      (splitOutside quote mark target (insideAfter quote mark inside prev xs)
        (xs.getLast?.or prev) ys).map fun r => (xs ++ r.1, r.2) := by
  induction xs generalizing inside prev with
  | nil => simp [insideAfter]
  | cons c xs ih =>
      have hprev : (c :: xs).getLast?.or prev = xs.getLast?.or (some c) := by
        rw [List.getLast?_cons]
        cases xs.getLast? with
        | none => rfl
        | some d => rfl
      rw [hprev]
      simp only [splitOutside, List.cons_append, insideAfter] at h ⊢
      split at h
      · next hc =>
          rw [if_pos hc, if_pos hc, ih (Option.map_eq_none_iff.mp h), Option.map_map]
          rfl
      · next hc =>
          rw [if_neg hc, if_neg hc]
          split at h
          · cases h
          · next ht =>
              rw [if_neg ht, ih (Option.map_eq_none_iff.mp h), Option.map_map]
              rfl

/-- Nothing to find in two parts, whatever the second one starts with. -/
theorem splitOutside_append_of_none {xs ys : List α} {inside : Bool} {prev : Option α}
    (h : splitOutside quote mark target inside prev xs = none)
    (hys : ∀ i p, splitOutside quote mark target i p ys = none) :
    splitOutside quote mark target inside prev (xs ++ ys) = none := by
  induction xs generalizing inside prev with
  | nil => exact hys inside prev
  | cons c xs ih =>
      simp only [splitOutside, List.cons_append] at h ⊢
      split at h
      · next hc =>
          rw [if_pos hc, ih (Option.map_eq_none_iff.mp h)]
          rfl
      · next hc =>
          rw [if_neg hc]
          split at h
          · cases h
          · next ht =>
              rw [if_neg ht, ih (Option.map_eq_none_iff.mp h)]
              rfl

/-- The text before the found symbol is a part of the text. -/
theorem splitOutside_eq_append {xs before behind : List α} {inside : Bool} {prev : Option α}
    (h : splitOutside quote mark target inside prev xs = some (before, behind)) :
    xs = before ++ target :: behind := by
  induction xs generalizing inside prev before with
  | nil => simp [splitOutside] at h
  | cons c xs ih =>
      simp only [splitOutside] at h
      split at h
      · obtain ⟨⟨b, r⟩, hr, heq⟩ := Option.map_eq_some_iff.mp h
        obtain ⟨rfl, rfl⟩ := Prod.mk.inj heq
        rw [ih hr, List.cons_append]
      · split at h
        · next ht =>
            obtain ⟨rfl, rfl⟩ := Prod.mk.inj (Option.some.inj h)
            rw [ht.1, List.nil_append]
        · obtain ⟨⟨b, r⟩, hr, heq⟩ := Option.map_eq_some_iff.mp h
          obtain ⟨rfl, rfl⟩ := Prod.mk.inj heq
          rw [ih hr, List.cons_append]

/-- **Nothing is found inside an encoded text** that starts inside quotes: every quote in
it stands behind a mark. -/
theorem Codec.splitOutside_escape (t : Codec α) {q target : α} (hquote : t.encode q ≠ none)
    (hmark : q ≠ t.mark) (xs : List α) {ys : List α}
    (hys : ∀ p, splitOutside q t.mark target true (some p) ys = none) (p : α) :
    splitOutside q t.mark target true (some p) (t.escape xs ++ ys) = none := by
  induction xs generalizing p with
  | nil => exact hys p
  | cons c xs ih =>
      rw [escape_cons, escapeOne]
      cases he : t.encode c with
      | some e => simp [splitOutside, hmark.symm, ih]
      | none =>
          have hc : c ≠ q := by
            rintro rfl
            exact hquote he
          simp [splitOutside, hc, ih]

end EscapedText
