import Mathlib.Data.List.Basic
import Mathlib.Data.List.Nodup
import Mathlib.Data.List.TakeWhile
import Mathlib.Tactic.Common

/-!
# Sections

Lines grouped under headers, over arbitrary types. `blocks` is the grouping as one would
describe it: a block for each header, with the lines up to the next one. A `Reader` is the
streaming version: it goes from line to line, keeps the section in progress and closes it
at the next header and at the end.

Inside a section, assignments to keys compete: `firstByKey` keeps the first one for each
key, `lastByKey` looks up the last one.

## Main results

* `Reader.flush_run`: **what a reader outputs** is what it makes of each block.
* `Reader.accepts_iff`: when no line and no section is rejected, block by block.
* `forall_lines_iff`: the same condition on the lines, position by position.
* `foldl_addFirst`: adding assignments one after another keeps the first of each key.
-/

namespace Sections

variable {α β σ γ : Type*}

/-! ### Blocks -/

/-- The lines before the first header. -/
def preamble (header : α → Option β) (lines : List α) : List α :=
  lines.takeWhile fun line => (header line).isNone

/-- One block for each header: the header and the lines up to the next one. -/
def blocks (header : α → Option β) : List α → List (β × List α)
  | [] => []
  | line :: lines =>
    match header line with
    | some h => (h, preamble header lines) :: blocks header lines
    | none => blocks header lines

variable {header : α → Option β} {line : α} {lines : List α}

theorem preamble_of_some {h : β} (hline : header line = some h) :
    preamble header (line :: lines) = [] := by
  simp [preamble, hline]

theorem preamble_of_none (hline : header line = none) :
    preamble header (line :: lines) = line :: preamble header lines := by
  simp [preamble, hline]

theorem blocks_of_some {h : β} (hline : header line = some h) :
    blocks header (line :: lines) = (h, preamble header lines) :: blocks header lines := by
  rw [blocks, hline]

theorem blocks_of_none (hline : header line = none) :
    blocks header (line :: lines) = blocks header lines := by
  rw [blocks, hline]

/-! ### Readers -/

/-- A reader of sections: a header starts a section or skips one, every other line adds to
the section in progress, and a closed section is output or dropped. -/
structure Reader (α β σ γ : Type*) where
  header : α → Option β
  start : β → Option σ
  add : σ → α → σ
  close : σ → Option γ

/-- What a reader has output, and the section in progress. -/
@[ext] structure State (σ γ : Type*) where
  output : List γ
  current : Option σ

namespace Reader

variable (r : Reader α β σ γ)

/-- The output once the section in progress is closed. -/
def flush (s : State σ γ) : List γ :=
  s.output ++ (s.current.bind r.close).toList

/-- One line. -/
def step (s : State σ γ) (line : α) : State σ γ :=
  match r.header line with
  | some h => { output := r.flush s, current := r.start h }
  | none => { s with current := s.current.map (r.add · line) }

/-- What the reader makes of a block. -/
def readBlock (block : β × List α) : Option γ :=
  (r.start block.1).bind fun current => r.close (block.2.foldl r.add current)

/-- **What a reader outputs**: the section in progress goes on up to the first header, and
then every block is read on its own. -/
theorem flush_run (s : State σ γ) (lines : List α) :
    r.flush (lines.foldl r.step s) =
      s.output ++ (s.current.bind fun current =>
          r.close ((preamble r.header lines).foldl r.add current)).toList ++
        (blocks r.header lines).filterMap r.readBlock := by
  induction lines generalizing s with
  | nil => simp [flush, preamble, blocks]
  | cons line lines ih =>
      rw [List.foldl_cons, ih]
      cases hline : r.header line with
      | some h =>
          rw [preamble_of_some hline, blocks_of_some hline, List.filterMap_cons]
          have hstep : r.step s line = { output := r.flush s, current := r.start h } := by
            rw [step, hline]
          rw [hstep, readBlock]
          cases hread : (r.start h).bind fun current =>
              r.close ((preamble r.header lines).foldl r.add current) with
          | none => simp [flush]
          | some c => simp [flush]
      | none =>
          have hstep : r.step s line =
              { s with current := s.current.map (r.add · line) } := by
            rw [step, hline]
          rw [preamble_of_none hline, blocks_of_none hline, hstep]
          cases hcurrent : s.current with
          | none => simp
          | some c => simp

/-- No line is rejected and no section is rejected when it is closed: inside a section a
line has to be `inner`, outside of all sections it has to be `stray`. -/
def Accepts (stray inner : α → Prop) : Option σ → List α → Prop
  | current, [] => ∀ c ∈ current, (r.close c).isSome
  | current, line :: lines =>
    match r.header line with
    | some h => (∀ c ∈ current, (r.close c).isSome) ∧ Accepts stray inner (r.start h) lines
    | none =>
      (if current.isSome then inner line else stray line) ∧
        Accepts stray inner (current.map (r.add · line)) lines

variable {r}

/-- **Acceptance, block by block**, for a reader that skips no section. -/
theorem accepts_iff {stray inner : α → Prop} (hstart : ∀ h, (r.start h).isSome)
    (current : Option σ) (lines : List α) :
    r.Accepts stray inner current lines ↔
      (∀ line ∈ preamble r.header lines, if current.isSome then inner line else stray line) ∧
        (∀ c ∈ current, (r.close ((preamble r.header lines).foldl r.add c)).isSome) ∧
        ∀ block ∈ blocks r.header lines,
          (∀ line ∈ block.2, inner line) ∧ (r.readBlock block).isSome := by
  induction lines generalizing current with
  | nil => simp [Accepts, preamble, blocks]
  | cons line lines ih =>
      cases hline : r.header line with
      | some h =>
          obtain ⟨c, hc⟩ := Option.isSome_iff_exists.mp (hstart h)
          have hread : r.readBlock (h, preamble r.header lines) =
              r.close ((preamble r.header lines).foldl r.add c) := by
            rw [readBlock, hc, Option.bind_some]
          simp only [Accepts, hline, ih, preamble_of_some hline, blocks_of_some hline,
            List.forall_mem_cons, hread, hc]
          simp [and_assoc]
      | none =>
          simp only [Accepts, hline, ih, preamble_of_none hline, blocks_of_none hline,
            List.forall_mem_cons]
          cases current with
          | none => simp [and_assoc]
          | some c => simp [and_assoc]

end Reader

/-- What holds at every position of a list, at its head and behind it. -/
theorem forall_positions_cons (line : α) (lines : List α) (P : List α → α → Prop) :
    (∀ before l after, line :: lines = before ++ l :: after → P before l) ↔
      P [] line ∧ ∀ before l after, lines = before ++ l :: after → P (line :: before) l := by
  constructor
  · intro h
    refine ⟨h [] line lines rfl, fun before l after hlines => h (line :: before) l after ?_⟩
    rw [hlines, List.cons_append]
  · rintro ⟨hhead, htail⟩ before l after hlines
    cases before with
    | nil =>
        obtain ⟨rfl, -⟩ := List.cons.inj hlines
        exact hhead
    | cons first before =>
        obtain ⟨rfl, hrest⟩ := List.cons.inj hlines
        exact htail before l after hrest

/-- **A condition on blocks, position by position**: `stray` before the first header and
`inner` behind one. -/
theorem forall_lines_iff (header : α → Option β) {stray inner : α → Prop}
    (himp : ∀ line, stray line → inner line) (inside : Prop) [Decidable inside] (lines : List α) :
    ((∀ line ∈ preamble header lines, if inside then inner line else stray line) ∧
        ∀ block ∈ blocks header lines, ∀ line ∈ block.2, inner line) ↔
      ∀ before line after, lines = before ++ line :: after → header line = none →
        stray line ∨ inner line ∧ (inside ∨ ∃ l ∈ before, (header l).isSome) := by
  induction lines generalizing inside with
  | nil => simp [preamble, blocks]
  | cons line lines ih =>
      have hpositions := forall_positions_cons line lines fun before l => header l = none →
        stray l ∨ inner l ∧ (inside ∨ ∃ l' ∈ before, (header l').isSome)
      rw [hpositions]
      cases hline : header line with
      | some h =>
          -- behind a header, the rest is inside
          have hrest := ih True
          simp only [if_true, true_or, and_true] at hrest
          simp only [preamble_of_some hline, blocks_of_some hline, List.forall_mem_cons, hrest,
            List.exists_mem_cons_iff, hline]
          simp
      | none =>
          have hhere : (if inside then inner line else stray line) ↔
              stray line ∨ inner line ∧ inside := by
            by_cases hinside : inside
            · simpa [hinside] using himp line
            · simp [hinside]
          have hrest := ih inside
          simp only [preamble_of_none hline, blocks_of_none hline, List.forall_mem_cons, hhere,
            and_assoc, hrest, List.exists_mem_cons_iff, hline]
          simp

/-! ### Assignments -/

variable {κ ν : Type*} [DecidableEq κ]

/-- The first assignment to each key. -/
def firstByKey : List (κ × ν) → List (κ × ν)
  | [] => []
  | pair :: pairs => pair :: (firstByKey pairs).filter fun later => later.1 ≠ pair.1

/-- Add an assignment, unless its key has one. -/
def addFirst (table : List (κ × ν)) (pair : κ × ν) : List (κ × ν) :=
  if pair.1 ∈ table.map Prod.fst then table else table ++ [pair]

/-- The last value assigned to a key. -/
def lastByKey (pairs : List (κ × ν)) (key : κ) : Option ν :=
  ((pairs.filter fun pair => pair.1 = key).getLast?).map Prod.snd

theorem firstByKey_sublist (pairs : List (κ × ν)) : List.Sublist (firstByKey pairs) pairs := by
  induction pairs with
  | nil => exact List.Sublist.refl _
  | cons pair pairs ih => exact (List.filter_sublist.trans ih).cons_cons pair

/-- No key is kept twice. -/
theorem nodup_firstByKey (pairs : List (κ × ν)) : ((firstByKey pairs).map Prod.fst).Nodup := by
  induction pairs with
  | nil => exact List.nodup_nil
  | cons pair pairs ih =>
      rw [firstByKey, List.map_cons, List.nodup_cons]
      refine ⟨fun hmem => ?_, (List.filter_sublist.map Prod.fst).nodup ih⟩
      obtain ⟨later, hlater, heq⟩ := List.mem_map.mp hmem
      have hne := (List.mem_filter.mp hlater).2
      simp [heq] at hne

/-- The pair is the first one with its key. -/
def IsFirst (pairs : List (κ × ν)) (pair : κ × ν) : Prop :=
  ∃ before after, pairs = before ++ pair :: after ∧ ∀ earlier ∈ before, earlier.1 ≠ pair.1

/-- The assignments that are kept are the first ones of their keys. -/
theorem mem_firstByKey_iff {pairs : List (κ × ν)} {pair : κ × ν} :
    pair ∈ firstByKey pairs ↔ IsFirst pairs pair := by
  induction pairs with
  | nil => simp [firstByKey, IsFirst]
  | cons head pairs ih =>
      rw [firstByKey, List.mem_cons, List.mem_filter, ih, decide_eq_true_eq]
      constructor
      · rintro (rfl | ⟨⟨before, after, rfl, hbefore⟩, hne⟩)
        · exact ⟨[], pairs, rfl, fun _ h => absurd h List.not_mem_nil⟩
        · exact ⟨head :: before, after, rfl, List.forall_mem_cons.mpr ⟨hne.symm, hbefore⟩⟩
      · rintro ⟨before, after, hpairs, hbefore⟩
        cases before with
        | nil => exact .inl (List.cons.inj hpairs).1.symm
        | cons first before =>
            obtain ⟨rfl, rfl⟩ := List.cons.inj hpairs
            rw [List.forall_mem_cons] at hbefore
            exact .inr ⟨⟨before, after, rfl, hbefore.2⟩, hbefore.1.symm⟩

/-- Every key has a first assignment. -/
theorem exists_mem_firstByKey {pairs : List (κ × ν)} {pair : κ × ν} (h : pair ∈ pairs) :
    ∃ first ∈ firstByKey pairs, first.1 = pair.1 := by
  induction pairs with
  | nil => cases h
  | cons head pairs ih =>
      by_cases hkey : head.1 = pair.1
      · exact ⟨head, List.mem_cons_self, hkey⟩
      · have hmem : pair ∈ pairs := by
          rcases List.mem_cons.mp h with rfl | hmem
          · exact absurd rfl hkey
          · exact hmem
        obtain ⟨first, hfirst, heq⟩ := ih hmem
        refine ⟨first, List.mem_cons_of_mem _ (List.mem_filter.mpr ⟨hfirst, ?_⟩), heq⟩
        rw [decide_eq_true_eq, heq]
        exact fun h => hkey h.symm

/-- **Adding assignments one after another** keeps the first one of each key. -/
theorem foldl_addFirst (table pairs : List (κ × ν)) :
    pairs.foldl addFirst table =
      table ++ (firstByKey pairs).filter fun pair => pair.1 ∉ table.map Prod.fst := by
  induction pairs generalizing table with
  | nil => simp [firstByKey]
  | cons pair pairs ih =>
      rw [List.foldl_cons, ih, addFirst, firstByKey]
      split
      · next hmem =>
        -- the later assignments to a key of the table are dropped anyway
        rw [List.filter_cons_of_neg (by simpa using hmem), List.filter_filter]
        congr 1
        refine List.filter_congr fun later _ => ?_
        by_cases heq : later.1 = pair.1
        · simp [heq, hmem]
        · simp [heq]
      · next hmem =>
        rw [List.filter_cons_of_pos (by simpa using hmem), List.filter_filter,
          List.append_assoc, List.singleton_append]
        congr 2
        refine List.filter_congr fun later _ => ?_
        by_cases heq : later.1 = pair.1
        · simp [heq]
        · simp [heq]

/-- **Setting one key after another** leaves what was assigned last, for a field that only
the assignments to its key set. -/
theorem get_foldl_set {key : κ} (get : σ → ν) {set : σ → κ × ν → σ}
    (hset : ∀ s pair, get (set s pair) = if pair.1 = key then pair.2 else get s)
    (s : σ) (pairs : List (κ × ν)) :
    get (pairs.foldl set s) = (lastByKey pairs key).getD (get s) := by
  induction pairs generalizing s with
  | nil => rfl
  | cons pair pairs ih =>
      rw [List.foldl_cons, ih, hset, lastByKey, lastByKey]
      by_cases heq : pair.1 = key
      · rw [if_pos heq, List.filter_cons_of_pos (by simpa using heq), List.getLast?_cons]
        cases (pairs.filter fun p => p.1 = key).getLast? <;> rfl
      · rw [if_neg heq, List.filter_cons_of_neg (by simpa using heq)]

end Sections
