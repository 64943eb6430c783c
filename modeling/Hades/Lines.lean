import Mathlib.Data.List.Basic
import Mathlib.Data.List.DropRight
import Mathlib.Tactic.Common

/-!
# Lines

Text as lines between separators, over an arbitrary alphabet. `List.splitOn` splits a text
into its lines; this module has the inverse direction, `unlines`, which ends every line
with the separator, and the last line of a text, the one that further text continues.

## Main results

* `splitOn_unlines_append`: lines written one after another are the lines read.
* `splitOn_append`: **text appended to a text** continues its last line.
* `splitOn_append_unlines`: the same for whole lines.
* `lastLine_rdropWhile`: the last line that is not empty.
-/

namespace Lines

variable {α : Type*} [DecidableEq α]

/-- Every line, ended by the separator. -/
def unlines (sep : α) (lines : List (List α)) : List α :=
  lines.flatMap (· ++ [sep])

/-- The text behind the last separator. -/
def lastLine (sep : α) (text : List α) : List α :=
  (text.splitOn sep).getLastD []

/-- The lines before the last one. -/
def earlierLines (sep : α) (text : List α) : List (List α) :=
  (text.splitOn sep).dropLast

omit [DecidableEq α] in
theorem unlines_cons (sep : α) (line : List α) (lines : List (List α)) :
    unlines sep (line :: lines) = line ++ sep :: unlines sep lines := by
  simp [unlines]

omit [DecidableEq α] in
theorem unlines_append (sep : α) (xs ys : List (List α)) :
    unlines sep (xs ++ ys) = unlines sep xs ++ unlines sep ys :=
  List.flatMap_append

/-- **Lines written one after another** are the lines read, and what follows them is read
as it is. -/
theorem splitOn_unlines_append {sep : α} {lines : List (List α)}
    (h : ∀ line ∈ lines, sep ∉ line) (rest : List α) :
    (unlines sep lines ++ rest).splitOn sep = lines ++ rest.splitOn sep := by
  induction lines with
  | nil => rfl
  | cons line lines ih =>
      have hline : line.splitOn sep = [line] :=
        List.splitOn_eq_singleton (h line List.mem_cons_self)
      rw [unlines_cons, List.append_assoc, List.cons_append, List.splitOn_append_cons_self,
        hline, ih fun l hl => h l (List.mem_cons_of_mem line hl), List.cons_append,
        List.nil_append]
      rfl

/-- Every text is a series of lines and a last one. -/
theorem exists_lines (sep : α) (text : List α) :
    ∃ lines last, text = unlines sep lines ++ last ∧ (∀ line ∈ lines, sep ∉ line) ∧
      sep ∉ last := by
  induction text with
  | nil => exact ⟨[], [], rfl, by simp, by simp⟩
  | cons c text ih =>
      obtain ⟨lines, last, rfl, hlines, hlast⟩ := ih
      by_cases hc : c = sep
      · subst hc
        refine ⟨[] :: lines, last, by simp [unlines_cons], ?_, hlast⟩
        rintro line hl
        rcases List.mem_cons.mp hl with rfl | hl
        · exact List.not_mem_nil
        · exact hlines line hl
      · have hne : sep ≠ c := fun h => hc h.symm
        cases lines with
        | nil => exact ⟨[], c :: last, rfl, by simp, by simp [hne, hlast]⟩
        | cons first lines =>
            refine ⟨(c :: first) :: lines, last, by simp [unlines_cons], ?_, hlast⟩
            rintro line hl
            rcases List.mem_cons.mp hl with rfl | hl
            · simp [hne, hlines first List.mem_cons_self]
            · exact hlines line (List.mem_cons_of_mem first hl)

/-- The lines of a series of lines and a last one. -/
theorem splitOn_unlines_last {sep : α} {lines : List (List α)} {last : List α}
    (hlines : ∀ line ∈ lines, sep ∉ line) (hlast : sep ∉ last) :
    (unlines sep lines ++ last).splitOn sep = lines ++ [last] := by
  rw [splitOn_unlines_append hlines, List.splitOn_eq_singleton hlast]

/-- The last line of a series of lines and a last one. -/
theorem lastLine_unlines {sep : α} {lines : List (List α)} {last : List α}
    (hlines : ∀ line ∈ lines, sep ∉ line) (hlast : sep ∉ last) :
    lastLine sep (unlines sep lines ++ last) = last := by
  rw [lastLine, splitOn_unlines_last hlines hlast]
  simp

/-- The earlier lines of a series of lines and a last one. -/
theorem earlierLines_unlines {sep : α} {lines : List (List α)} {last : List α}
    (hlines : ∀ line ∈ lines, sep ∉ line) (hlast : sep ∉ last) :
    earlierLines sep (unlines sep lines ++ last) = lines := by
  rw [earlierLines, splitOn_unlines_last hlines hlast, List.dropLast_concat]

/-- The lines of a text are the earlier ones and the last one. -/
theorem splitOn_eq (sep : α) (text : List α) :
    text.splitOn sep = earlierLines sep text ++ [lastLine sep text] := by
  obtain ⟨lines, last, rfl, hlines, hlast⟩ := exists_lines sep text
  rw [splitOn_unlines_last hlines hlast, earlierLines_unlines hlines hlast,
    lastLine_unlines hlines hlast]

/-- **Text appended to a text** continues its last line; the earlier lines stay. -/
theorem splitOn_append (sep : α) (text more : List α) :
    (text ++ more).splitOn sep =
      earlierLines sep text ++ (lastLine sep text ++ more).splitOn sep := by
  obtain ⟨lines, last, rfl, hlines, hlast⟩ := exists_lines sep text
  rw [List.append_assoc, splitOn_unlines_append hlines, earlierLines_unlines hlines hlast,
    lastLine_unlines hlines hlast]

/-- The last line has no separator in it. -/
theorem sep_notMem_lastLine (sep : α) (text : List α) :
    sep ∉ lastLine sep text := by
  obtain ⟨lines, last, rfl, hlines, hlast⟩ := exists_lines sep text
  rwa [lastLine_unlines hlines hlast]

/-- No line has a separator in it. -/
theorem sep_notMem_of_mem_splitOn {sep : α} {text line : List α}
    (h : line ∈ text.splitOn sep) : sep ∉ line := by
  obtain ⟨lines, last, rfl, hlines, hlast⟩ := exists_lines sep text
  rw [splitOn_unlines_last hlines hlast, List.mem_append, List.mem_singleton] at h
  rcases h with h | rfl
  · exact hlines line h
  · exact hlast

/-- Lines appended to a text, the last one without its end: the first one continues the last line
of the text. -/
theorem splitOn_append_unlines_last {sep : α} {first last : List α} {lines : List (List α)}
    (hfirst : sep ∉ first) (hlines : ∀ line ∈ lines, sep ∉ line) (hlast : sep ∉ last)
    (text : List α) :
    (text ++ (unlines sep (first :: lines) ++ last)).splitOn sep =
      earlierLines sep text ++ (lastLine sep text ++ first) :: lines ++ [last] := by
  have hno : ∀ line ∈ (lastLine sep text ++ first) :: lines, sep ∉ line := by
    rintro line hl
    rcases List.mem_cons.mp hl with rfl | hl
    · rw [List.mem_append, not_or]
      exact ⟨sep_notMem_lastLine sep text, hfirst⟩
    · exact hlines line hl
  have hsplit := splitOn_unlines_last hno hlast
  rw [splitOn_append]
  simpa [unlines_cons] using hsplit

/-- Whole lines appended to a text: the first one continues its last line. -/
theorem splitOn_append_unlines {sep : α} {first : List α} {lines : List (List α)}
    (hfirst : sep ∉ first) (hlines : ∀ line ∈ lines, sep ∉ line) (text : List α) :
    (text ++ unlines sep (first :: lines)).splitOn sep =
      earlierLines sep text ++ (lastLine sep text ++ first) :: lines ++ [[]] := by
  rw [← splitOn_append_unlines_last hfirst hlines List.not_mem_nil, List.append_nil]

/-- A text that ends with whole lines has an empty last line. -/
theorem lastLine_append_unlines {sep : α} {lines : List (List α)} (hne : lines ≠ [])
    (text : List α) : lastLine sep (text ++ unlines sep lines) = [] := by
  obtain ⟨earlier, last, hsplit, hearlier, hlast⟩ :=
    exists_lines sep (text ++ unlines sep lines.dropLast ++ lines.getLast hne)
  have hend : unlines sep [lines.getLast hne] = lines.getLast hne ++ [sep] := List.append_nil _
  have hall : text ++ unlines sep lines = unlines sep (earlier ++ [last]) ++ [] := by
    rw [← List.dropLast_append_getLast hne, unlines_append, hend, ← List.append_assoc,
      ← List.append_assoc, hsplit]
    simp [unlines]
  rw [hall]
  refine lastLine_unlines ?_ List.not_mem_nil
  intro line hl
  rcases List.mem_append.mp hl with hl | hl
  · exact hearlier line hl
  · exact List.mem_singleton.mp hl ▸ hlast

/-! ### Lines that break off -/

omit [DecidableEq α] in
/-- **A text of lines that breaks off** is some whole lines and the beginning of the next one. -/
theorem exists_take_unlines (sep : α) (lines : List (List α)) (n : ℕ) :
    ∃ k torn, (unlines sep lines).take n = unlines sep (lines.take k) ++ torn ∧
      torn <+: lines.getD k [] := by
  induction lines generalizing n with
  | nil => exact ⟨0, [], by simp [unlines], List.prefix_rfl⟩
  | cons line lines ih =>
      rw [unlines_cons]
      rcases Nat.lt_or_ge line.length n with hlt | hle
      swap
      · refine ⟨0, line.take n, ?_, List.take_prefix n line⟩
        rw [List.take_append_of_le_length hle]
        rfl
      · obtain ⟨m, rfl⟩ := Nat.exists_eq_add_of_lt hlt
        obtain ⟨k, torn, htake, htorn⟩ := ih m
        refine ⟨k + 1, torn, ?_, htorn⟩
        rw [Nat.add_assoc, List.take_length_add_append, List.take_succ_cons, htake,
          List.take_succ_cons, unlines_cons, List.append_assoc, List.cons_append]

omit [DecidableEq α] in
/-- **What is read off lines that break off** is read off the lines, if the beginning of a line
says what the line says, or nothing. -/
theorem filterMap_torn_sublist {β : Type*} {read : List α → Option β} {lines : List (List α)}
    (hread : ∀ line ∈ lines, ∀ torn, torn <+: line → read torn = none ∨ read torn = read line)
    (hnil : read [] = none) {k : ℕ} {torn : List α} (htorn : torn <+: lines.getD k []) :
    List.Sublist ((lines.take k ++ [torn]).filterMap read) (lines.filterMap read) := by
  induction lines generalizing k with
  | nil =>
      obtain rfl := List.prefix_nil.mp htorn
      simp [hnil]
  | cons line lines ih =>
      cases k with
      | zero =>
          rw [List.take_zero, List.nil_append, List.filterMap_cons, List.filterMap_cons,
            List.filterMap_nil]
          rcases hread line List.mem_cons_self torn htorn with hnone | hsame
          · rw [hnone]
            exact List.nil_sublist _
          · rw [hsame]
            cases read line with
            | none => exact List.nil_sublist _
            | some x => exact (List.nil_sublist _).cons_cons x
      | succ k =>
          have hrest := ih (fun l hl => hread l (List.mem_cons_of_mem line hl)) htorn
          rw [List.take_succ_cons, List.cons_append, List.filterMap_cons, List.filterMap_cons]
          cases read line with
          | none => exact hrest
          | some x => exact hrest.cons_cons x

/-! ### The last line that is not empty -/

/-- A separator at the end starts an empty last line. -/
theorem splitOn_concat_sep (sep : α) (text : List α) :
    (text ++ [sep]).splitOn sep = text.splitOn sep ++ [[]] := by
  have hnil : ([] : List α).splitOn sep = [[]] := List.splitOn_eq_singleton List.not_mem_nil
  rw [List.splitOn_append_cons_self, hnil]

/-- Any other element at the end continues the last line. -/
theorem splitOn_concat_of_ne {sep c : α} (h : c ≠ sep) (text : List α) :
    (text ++ [c]).splitOn sep = earlierLines sep text ++ [lastLine sep text ++ [c]] := by
  have hno : sep ∉ lastLine sep text ++ [c] := by
    simpa [h.symm] using sep_notMem_lastLine sep text
  rw [splitOn_append, List.splitOn_eq_singleton hno]

theorem lastLine_concat_sep (sep : α) (text : List α) : lastLine sep (text ++ [sep]) = [] := by
  rw [lastLine, splitOn_concat_sep]
  simp

theorem lastLine_concat_of_ne {sep c : α} (h : c ≠ sep) (text : List α) :
    lastLine sep (text ++ [c]) = lastLine sep text ++ [c] := by
  rw [lastLine, splitOn_concat_of_ne h]
  simp

/-- The last line is a part of the text. -/
theorem lastLine_subset (sep : α) (text : List α) : lastLine sep text ⊆ text := by
  obtain ⟨lines, last, rfl, hlines, hlast⟩ := exists_lines sep text
  rw [lastLine_unlines hlines hlast]
  exact List.subset_append_right _ _

/-- A text whose last line is not empty has no separator at its end. -/
theorem rdropWhile_of_lastLine {sep : α} {text : List α} (h : lastLine sep text ≠ []) :
    text.rdropWhile (· == sep) = text := by
  induction text using List.reverseRecOn with
  | nil => rfl
  | append_singleton text c =>
      refine List.rdropWhile_concat_neg _ _ _ fun hc => h ?_
      obtain rfl := eq_of_beq hc
      exact lastLine_concat_sep _ _

/-- The lines that are not empty. -/
def components (sep : α) (text : List α) : List (List α) :=
  (text.splitOn sep).filter (· ≠ [])

/-- The components of a text are those of its earlier lines, and the last line. -/
theorem components_eq (sep : α) (text : List α) :
    components sep text =
      (earlierLines sep text).filter (· ≠ []) ++ [lastLine sep text].filter (· ≠ []) := by
  rw [components, splitOn_eq, List.filter_append]

theorem earlierLines_concat_sep (sep : α) (text : List α) :
    earlierLines sep (text ++ [sep]) = text.splitOn sep := by
  rw [earlierLines, splitOn_concat_sep, List.dropLast_concat]

theorem earlierLines_concat_of_ne {sep c : α} (h : c ≠ sep) (text : List α) :
    earlierLines sep (text ++ [c]) = earlierLines sep text := by
  rw [earlierLines, splitOn_concat_of_ne h, List.dropLast_concat]

/-- **Without the separators at its end**, the last line of a text is its last component. -/
theorem lastLine_rdropWhile (sep : α) (text : List α) :
    lastLine sep (text.rdropWhile (· == sep)) = (components sep text).getLastD [] := by
  induction text using List.reverseRecOn with
  | nil => simp [lastLine, components]
  | append_singleton text c ih =>
      by_cases hc : c = sep
      · subst hc
        rw [List.rdropWhile_concat_pos _ _ _ (by simp), ih, components, components,
          splitOn_concat_sep, List.filter_append]
        simp
      · rw [List.rdropWhile_concat_neg _ _ _ (by simpa using hc), lastLine_concat_of_ne hc,
          components, splitOn_concat_of_ne hc, List.filter_append]
        simp

end Lines
