import Hades.Lines

/-!
# Lexical Normal Forms of Paths

A path is a text of components between separators, over an arbitrary alphabet. Read from the
root, a component `.` stays where it is, a component `..` goes up, and any other component
goes down; separators in a row and at the end do not matter. The directories that are gone
down in the end are the lexical normal form of the path.

## Main results

* `getLast?_normalForm`: a path that ends with a plain symbol ends with such a name.
* `normalForm_squeeze`: separators in a row may be squeezed into one.
* `normalForm_pathOf`: the path of some names goes down to them.
-/

namespace LexicalPath

open Lines

variable {α : Type*} [DecidableEq α] (sep dot : α)

/-- Follow one component. Nothing is above the root. -/
def enter (dirs : List (List α)) (component : List α) : List (List α) :=
  if component = [dot] then dirs
  else if component = [dot, dot] then dirs.dropLast
  else dirs ++ [component]

/-- The lexical normal form of a path from the root. -/
def normalForm (path : List α) : List (List α) :=
  (components sep path).foldl (enter dot) []

/-- A path that ends with a plain symbol is the path of a name that ends with it. -/
theorem getLast?_normalForm {sep dot : α} {path : List α} {c : α} (h : path.getLast? = some c)
    (hsep : c ≠ sep) (hdot : c ≠ dot) :
    ∃ name, (normalForm sep dot path).getLast? = some name ∧ name.getLast? = some c := by
  obtain ⟨front, rfl⟩ := List.getLast?_eq_some_iff.mp h
  have hname : (lastLine sep front ++ [c]).getLast? = some c := List.getLast?_concat
  refine ⟨lastLine sep front ++ [c], ?_, hname⟩
  have hcomponents : components sep (front ++ [c]) =
      (earlierLines sep front).filter (· ≠ []) ++ [lastLine sep front ++ [c]] := by
    rw [components_eq, earlierLines_concat_of_ne hsep, lastLine_concat_of_ne hsep,
      List.filter_cons_of_pos (by simp), List.filter_nil]
  have hplain : lastLine sep front ++ [c] ≠ [dot] ∧ lastLine sep front ++ [c] ≠ [dot, dot] := by
    constructor
    · intro heq
      rw [heq] at hname
      exact hdot (Option.some.inj hname).symm
    · intro heq
      rw [heq] at hname
      exact hdot (Option.some.inj hname).symm
  rw [normalForm, hcomponents, List.foldl_append, List.foldl_cons, List.foldl_nil, enter,
    if_neg hplain.1, if_neg hplain.2, List.getLast?_concat]

/-! ### Separators in a row -/

/-- Squeeze the separators in a row into one. -/
def squeeze (path : List α) : List α :=
  path.foldl (fun out c => if c = sep ∧ out.getLast? = some sep then out else out ++ [c]) []

theorem squeeze_concat (path : List α) (c : α) :
    squeeze sep (path ++ [c]) =
      if c = sep ∧ (squeeze sep path).getLast? = some sep then squeeze sep path
      else squeeze sep path ++ [c] := by
  rw [squeeze, List.foldl_append]
  rfl

/-- What is squeezed ends as before. -/
theorem getLast?_squeeze (path : List α) : (squeeze sep path).getLast? = path.getLast? := by
  induction path using List.reverseRecOn with
  | nil => rfl
  | append_singleton path c ih =>
      rw [squeeze_concat, List.getLast?_concat]
      split
      next h => rw [h.2, h.1]
      next h => exact List.getLast?_concat

/-- A text that ends with the separator has an empty last line. -/
theorem lastLine_of_getLast? {text : List α} (h : text.getLast? = some sep) :
    lastLine sep text = [] := by
  obtain ⟨front, rfl⟩ := List.getLast?_eq_some_iff.mp h
  exact lastLine_concat_sep sep front

/-- What is squeezed has the same last line, and the same earlier lines but for empty ones. -/
theorem lines_squeeze (path : List α) :
    lastLine sep (squeeze sep path) = lastLine sep path ∧
      (earlierLines sep (squeeze sep path)).filter (· ≠ []) =
        (earlierLines sep path).filter (· ≠ []) := by
  induction path using List.reverseRecOn with
  | nil => exact ⟨rfl, rfl⟩
  | append_singleton path c ih =>
      obtain ⟨hlast, hearlier⟩ := ih
      rw [squeeze_concat]
      by_cases hc : c = sep
      · subst hc
        split
        next h =>
          have hempty := lastLine_of_getLast? c h.2
          rw [lastLine_concat_sep, earlierLines_concat_sep, splitOn_eq, List.filter_append,
            ← hearlier, ← hlast, hempty]
          exact ⟨rfl, (List.append_nil _).symm⟩
        next h =>
          rw [lastLine_concat_sep, lastLine_concat_sep, earlierLines_concat_sep,
            earlierLines_concat_sep, splitOn_eq, splitOn_eq c path, List.filter_append,
            List.filter_append, hearlier, hlast]
          exact ⟨rfl, rfl⟩
      · rw [if_neg fun h => hc h.1, lastLine_concat_of_ne hc, lastLine_concat_of_ne hc,
          earlierLines_concat_of_ne hc, earlierLines_concat_of_ne hc, hlast]
        exact ⟨rfl, hearlier⟩

/-- **Separators in a row** do not matter to the normal form. -/
theorem normalForm_squeeze (path : List α) :
    normalForm sep dot (squeeze sep path) = normalForm sep dot path := by
  obtain ⟨hlast, hearlier⟩ := lines_squeeze sep path
  rw [normalForm, components_eq, hlast, hearlier, ← components_eq]
  rfl

/-! ### Paths of names -/

/-- A name that a path goes down to. -/
structure IsName (name : List α) : Prop where
  ne_nil : name ≠ []
  sep_notMem : sep ∉ name
  ne_here : name ≠ [dot]
  ne_up : name ≠ [dot, dot]

/-- The path that goes down some names. -/
def pathOf (names : List (List α)) : List α :=
  names.flatMap (sep :: ·)

variable {sep dot}

/-- A name at the end of a path. -/
theorem normalForm_concat {name : List α} (h : IsName sep dot name) (path : List α) :
    normalForm sep dot (path ++ sep :: name) = normalForm sep dot path ++ [name] := by
  have hcomponents : components sep (path ++ sep :: name) = components sep path ++ [name] := by
    rw [components, List.splitOn_append_cons_self, List.splitOn_eq_singleton h.sep_notMem,
      List.filter_append, List.filter_cons_of_pos (by simpa using h.ne_nil), List.filter_nil]
    rfl
  rw [normalForm, hcomponents, List.foldl_append, List.foldl_cons, List.foldl_nil, enter,
    if_neg h.ne_here, if_neg h.ne_up]
  rfl

/-- A separator at the end of a path. -/
theorem normalForm_concat_sep (path : List α) :
    normalForm sep dot (path ++ [sep]) = normalForm sep dot path := by
  have hcomponents : components sep (path ++ [sep]) = components sep path := by
    rw [components, splitOn_concat_sep, List.filter_append]
    simp [components]
  rw [normalForm, hcomponents]
  rfl

/-- **The path of some names** goes down to them. -/
theorem normalForm_pathOf {names : List (List α)} (h : ∀ name ∈ names, IsName sep dot name) :
    normalForm sep dot (pathOf sep names) = names := by
  induction names using List.reverseRecOn with
  | nil => rfl
  | append_singleton names name ih =>
      have hpath : pathOf sep (names ++ [name]) = pathOf sep names ++ sep :: name := by
        rw [pathOf, List.flatMap_append, List.flatMap_singleton]
        rfl
      rw [hpath, normalForm_concat (h name (by simp)),
        ih fun other hother => h other (List.mem_append_left _ hother)]

omit [DecidableEq α] in
/-- The path of a name ends with it. -/
theorem getLast?_pathOf {names : List (List α)} {name : List α} (h : names.getLast? = some name)
    (hne : name ≠ []) : (pathOf sep names).getLast? = name.getLast? := by
  obtain ⟨front, rfl⟩ := List.getLast?_eq_some_iff.mp h
  obtain ⟨c, hc⟩ : ∃ c, name.getLast? = some c :=
    Option.ne_none_iff_exists'.mp (mt List.getLast?_eq_none_iff.mp hne)
  rw [pathOf, List.flatMap_append, List.flatMap_singleton, List.getLast?_append,
    List.getLast?_cons, hc]
  rfl

end LexicalPath
