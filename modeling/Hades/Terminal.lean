import Mathlib.Data.List.Basic
import Mathlib.Logic.Function.Basic
import Mathlib.Tactic.Common

/-!
# Terminals that Overwrite

A terminal as far as carriage returns matter. Text is written cell by cell into the last row: a
carriage return moves the cursor back to the first cell, and a newline ends the row. A row has no
end on the right, a cell that nothing was written to is blank, and every other character fills
one cell.

A program that draws a line over an older one has to blank what the new line does not cover. It
suffices to know a width from which on the row is blank.

## Main results

* `print_redraw`: **a redraw** leaves nothing but the new line.
* `print_erase`: a row that is overwritten with blanks is fresh.
-/

namespace Terminal

/-- A row, cell by cell. -/
abbrev Row := ℕ → Char

/-- The row that nothing was written to. -/
def blankRow : Row := fun _ => ' '

/-- The rows that have ended, the last row, and the cursor in it. -/
structure Screen where
  finished : List Row := []
  row : Row := blankRow
  column : ℕ := 0

/-- A character is written. -/
def Screen.put (screen : Screen) (c : Char) : Screen :=
  if c = '\r' then { screen with column := 0 }
  else if c = '\n' then { finished := screen.finished ++ [screen.row] }
  else
    { screen with
      row := Function.update screen.row screen.column c
      column := screen.column + 1 }

/-- A text is written. -/
def Screen.print (screen : Screen) (text : List Char) : Screen :=
  text.foldl Screen.put screen

/-- Nothing is written into the last row. -/
def Screen.IsFresh (screen : Screen) : Prop :=
  screen.row = blankRow ∧ screen.column = 0

/-- A row is blank from a column on. -/
def BlankFrom (row : Row) (width : ℕ) : Prop :=
  ∀ i, width ≤ i → row i = ' '

/-- A row with a text written over it, from a column on. -/
def overwrite (row : Row) (column : ℕ) (text : List Char) : Row :=
  fun i => if i < column then row i else (text[i - column]?).getD (row i)

/-- The row of a line. -/
def rowOf (line : List Char) : Row :=
  overwrite blankRow 0 line

/-- A text that stays in its row. -/
def StaysInRow (text : List Char) : Prop :=
  '\r' ∉ text ∧ '\n' ∉ text

variable (screen : Screen)

theorem print_append (text more : List Char) :
    screen.print (text ++ more) = (screen.print text).print more :=
  List.foldl_append

/-! ### Texts in one row -/

@[simp] theorem staysInRow_nil : StaysInRow [] :=
  ⟨List.not_mem_nil, List.not_mem_nil⟩

@[simp] theorem staysInRow_cons {c : Char} {text : List Char} :
    StaysInRow (c :: text) ↔ (c ≠ '\r' ∧ c ≠ '\n') ∧ StaysInRow text := by
  rw [StaysInRow, StaysInRow, List.mem_cons, List.mem_cons, not_or, not_or, ne_comm, ne_comm (a := c)]
  exact and_and_and_comm

@[simp] theorem staysInRow_append {text more : List Char} :
    StaysInRow (text ++ more) ↔ StaysInRow text ∧ StaysInRow more := by
  rw [StaysInRow, StaysInRow, StaysInRow, List.mem_append, List.mem_append, not_or, not_or]
  exact and_and_and_comm

@[simp] theorem staysInRow_replicate_blank (n : ℕ) : StaysInRow (List.replicate n ' ') :=
  ⟨fun h => absurd (List.eq_of_mem_replicate h) (by decide),
    fun h => absurd (List.eq_of_mem_replicate h) (by decide)⟩

/-! ### Rows -/

theorem overwrite_cons (row : Row) (column : ℕ) (c : Char) (text : List Char) :
    overwrite (Function.update row column c) (column + 1) text =
      overwrite row column (c :: text) := by
  funext i
  simp only [overwrite]
  rcases Nat.lt_trichotomy i column with hlt | rfl | hgt
  · rw [if_pos (by omega), if_pos hlt, Function.update_of_ne (by omega)]
  · rw [if_pos (by omega), if_neg (Nat.lt_irrefl i), Function.update_self, Nat.sub_self]
    rfl
  · obtain ⟨k, rfl⟩ := Nat.exists_eq_add_of_lt hgt
    rw [if_neg (by omega), if_neg (by omega), Function.update_of_ne (by omega)]
    rw [(by omega : column + k + 1 - column = k + 1), (by omega : column + k + 1 - (column + 1) = k),
      List.getElem?_cons_succ]

/-- **A text that stays in its row** is written over it. -/
theorem print_staysInRow {text : List Char} (h : StaysInRow text) :
    screen.print text =
      { screen with
        row := overwrite screen.row screen.column text
        column := screen.column + text.length } := by
  induction text generalizing screen with
  | nil =>
      have hrow : overwrite screen.row screen.column [] = screen.row := by
        funext i
        simp [overwrite]
      rw [hrow]
      rfl
  | cons c text ih =>
      obtain ⟨⟨hreturn, hnewline⟩, hrest⟩ := staysInRow_cons.mp h
      have hput : screen.put c =
          { screen with
            row := Function.update screen.row screen.column c
            column := screen.column + 1 } := by
        rw [Screen.put, if_neg hreturn, if_neg hnewline]
      have hprint := ih (screen.put c) hrest
      rw [hput] at hprint
      dsimp only at hprint
      rw [overwrite_cons] at hprint
      rw [Screen.print, List.foldl_cons, ← Screen.print, hput, hprint, List.length_cons,
        Nat.add_assoc, Nat.add_comm 1]

/-- The row of a line, from its end on. -/
theorem blankFrom_rowOf (line : List Char) : BlankFrom (rowOf line) line.length := by
  intro i hi
  simp [rowOf, overwrite, blankRow, List.getElem?_eq_none hi]

/-- **A line with blanks behind it** covers a row that is blank behind them. -/
theorem overwrite_padded {row : Row} {width : ℕ} (h : BlankFrom row width) (line : List Char) :
    overwrite row 0 (line ++ List.replicate (width - line.length) ' ') = rowOf line := by
  funext i
  simp only [rowOf, overwrite, Nat.not_lt_zero, if_false, Nat.sub_zero, blankRow]
  by_cases hline : i < line.length
  · rw [List.getElem?_append_left hline, List.getElem?_eq_getElem hline]
    rfl
  · have hbehind := Nat.le_of_not_lt hline
    rw [List.getElem?_append_right hbehind, List.getElem?_eq_none hbehind, List.getElem?_replicate]
    split
    · rfl
    · next hpad => exact h i (by omega)

/-! ### Drawing over a row -/

/-- **A redraw**: the cursor goes back, and the line is written with blanks behind it. -/
theorem print_redraw {width : ℕ} (h : BlankFrom screen.row width) {line : List Char}
    (hline : StaysInRow line) :
    let drawn := screen.print
      ('\r' :: (line ++ List.replicate (width - line.length) ' '))
    drawn.finished = screen.finished ∧ drawn.row = rowOf line := by
  have hpad : StaysInRow (line ++ List.replicate (width - line.length) ' ') :=
    staysInRow_append.mpr ⟨hline, staysInRow_replicate_blank _⟩
  intro drawn
  have hdrawn : drawn = (screen.put '\r').print
      (line ++ List.replicate (width - line.length) ' ') := rfl
  rw [hdrawn, print_staysInRow _ hpad]
  exact ⟨rfl, overwrite_padded h line⟩

/-- The row of no line is blank. -/
theorem rowOf_nil : rowOf [] = blankRow := by
  funext i
  simp [rowOf, overwrite]

/-- **An overwritten row** is fresh. -/
theorem print_erase {width : ℕ} (h : BlankFrom screen.row width) :
    screen.print ('\r' :: (List.replicate width ' ' ++ ['\r'])) =
      { finished := screen.finished } := by
  obtain ⟨hfinished, hrow⟩ := print_redraw screen h staysInRow_nil
  rw [List.nil_append, List.length_nil, Nat.sub_zero] at hfinished hrow
  rw [← List.cons_append, print_append, ← hfinished]
  -- the blanks are written, and the cursor goes back
  generalize screen.print ('\r' :: List.replicate width ' ') = blanks at hrow ⊢
  have hback : blanks.print ['\r'] = { finished := blanks.finished, row := blanks.row } := rfl
  rw [hback, hrow, rowOf_nil]

/-! ### Ends of lines -/

/-- A newline ends the row. -/
theorem print_newline (text : List Char) :
    screen.print (text ++ ['\n']) =
      { finished := (screen.print text).finished ++ [(screen.print text).row] } := by
  rw [print_append]
  rfl

/-- The end of a line leaves a fresh row. -/
theorem isFresh_print_newline (text : List Char) : (screen.print (text ++ ['\n'])).IsFresh := by
  rw [print_newline]
  exact ⟨rfl, rfl⟩

/-- A line on a fresh row. -/
theorem print_line {screen : Screen} (h : screen.IsFresh) {line : List Char}
    (hline : StaysInRow line) :
    screen.print (line ++ ['\n']) = { finished := screen.finished ++ [rowOf line] } := by
  obtain ⟨finished, row, column⟩ := screen
  obtain ⟨rfl, rfl⟩ := h
  rw [print_newline, print_staysInRow _ hline]
  rfl

/-- Fresh rows are alike. -/
theorem Screen.IsFresh.eq {screen : Screen} (h : screen.IsFresh) :
    screen = { finished := screen.finished } := by
  obtain ⟨finished, row, column⟩ := screen
  obtain ⟨rfl, rfl⟩ := h
  rfl

end Terminal
