import Hades.DriverMain
import Hades.SuiteHistory

/-!
# Directories of Suites

The files of a suite are found by the text of its directory's path. A directory itself is the
list of the names on the way to it from the root; its path is spelt in one of many ways, and in
one only if it is plain: every name behind one separator, no `.` and no `..`, no separator at
the end, and no line end there either.

There are no links, so that a path denotes what its text says.

## Main results

* `typedSuiteToml_eq`: the manifest of a directory that was typed plainly.
* `isBelow_inDirectory_iff`, `isBelow_markerPath_iff`: which files go with a removed directory.
* `inDirectory_eq_iff`: different directories have different files.
-/

namespace Hades.Runtime

open LexicalPath

/-- A directory: the names on the way to it. -/
abbrev Directory := List Text

/-- The path of a directory. -/
def directoryPath (dir : Directory) : Text :=
  pathOf '/' dir

/-- The path of a directory is plain. -/
structure IsPlainDirectory (dir : Directory) : Prop where
  ne_nil : dir ≠ []
  names : ∀ name ∈ dir, IsName '/' '.' name
  popLineEnds_eq : popLineEnds (directoryPath dir) = directoryPath dir

/-- An argument of a command names a directory, by its plain path. -/
structure Names (cwd arg : Text) (dir : Directory) : Prop where
  arg_ne_nil : arg ≠ []
  path_eq : absolutePath cwd arg = directoryPath dir
  isPlain : IsPlainDirectory dir

/-- The path of a directory denotes it. -/
theorem IsPlainDirectory.denotedDirectory_path {dir : Directory} (h : IsPlainDirectory dir) :
    denotedDirectory (directoryPath dir) = dir :=
  normalForm_pathOf h.names

theorem Names.denotedDirectory_eq {cwd arg : Text} {dir : Directory} (h : Names cwd arg dir) :
    denotedDirectory (absolutePath cwd arg) = dir := by
  rw [h.path_eq, h.isPlain.denotedDirectory_path]

/-- A path that is plain does not end with a separator. -/
theorem IsPlainDirectory.getLast?_path {dir : Directory} (h : IsPlainDirectory dir) :
    ∃ c, (directoryPath dir).getLast? = some c ∧ c ≠ '/' := by
  obtain ⟨name, hname⟩ : ∃ name, dir.getLast? = some name :=
    Option.ne_none_iff_exists'.mp (mt List.getLast?_eq_none_iff.mp h.ne_nil)
  have hisName := h.names name (List.mem_of_getLast? hname)
  obtain ⟨c, hc⟩ : ∃ c, name.getLast? = some c :=
    Option.ne_none_iff_exists'.mp (mt List.getLast?_eq_none_iff.mp hisName.ne_nil)
  refine ⟨c, (getLast?_pathOf hname hisName.ne_nil).trans hc, ?_⟩
  rintro rfl
  exact hisName.sep_notMem (List.mem_of_getLast? hc)

/-- The path of a directory is not empty. -/
theorem IsPlainDirectory.path_ne_nil {dir : Directory} (h : IsPlainDirectory dir) :
    directoryPath dir ≠ [] := by
  obtain ⟨c, hc, -⟩ := h.getLast?_path
  intro hnil
  rw [hnil] at hc
  cases hc

/-- **The manifest of a directory that was typed.** -/
theorem typedSuiteToml_eq {cwd arg : Text} {dir : Directory} (h : Names cwd arg dir) :
    typedSuiteToml cwd arg = suiteTomlPath (directoryPath dir) := by
  have hsep : arg.getLast? ≠ some '/' := by
    intro hlast
    obtain ⟨c, hc, hne⟩ := h.isPlain.getLast?_path
    rw [← h.path_eq, getLast?_absolutePath cwd hlast] at hc
    exact hne (Option.some.inj hc).symm
  rw [typedSuiteToml, pathAppend, if_neg h.arg_ne_nil, if_neg hsep,
    absolutePath_inDirectory h.arg_ne_nil, h.path_eq]
  rfl

/-! ### Different directories -/

/-- What a file in a directory denotes. -/
theorem denotedDirectory_inDirectory {name : Text} (h : IsName '/' '.' name) (path : Text) :
    denotedDirectory (inDirectory path name) = denotedDirectory path ++ [name] :=
  normalForm_concat h path

/-- **Different directories have different files.** -/
theorem inDirectory_eq_iff {name : Text} {dir dir' : Directory} (hdir : IsPlainDirectory dir)
    (hdir' : IsPlainDirectory dir') :
    inDirectory (directoryPath dir) name = inDirectory (directoryPath dir') name ↔ dir = dir' := by
  constructor
  · intro heq
    have hpath : directoryPath dir = directoryPath dir' := List.append_cancel_right heq
    rw [← hdir.denotedDirectory_path, hpath, hdir'.denotedDirectory_path]
  · rintro rfl
    rfl

/-! ### What goes with a removed directory -/

/-- A proper prefix of a longer list is one of the list. -/
theorem prefix_concat_and_ne_iff {α : Type*} {xs ys : List α} {y : α} :
    xs <+: ys ++ [y] ∧ xs ≠ ys ++ [y] ↔ xs <+: ys := by
  rw [List.prefix_concat_iff]
  constructor
  · rintro ⟨heq | hprefix, hne⟩
    · exact absurd heq hne
    · exact hprefix
  · intro hprefix
    refine ⟨Or.inr hprefix, ?_⟩
    rintro rfl
    have hlength := hprefix.length_le
    rw [List.length_append, List.length_singleton] at hlength
    omega

/-- **A file of a suite** is below a directory exactly if its suite is there, or below. -/
theorem isBelow_inDirectory_iff {name : Text} (hname : IsName '/' '.' name) {root dir : Directory}
    (hroot : IsPlainDirectory root) (hdir : IsPlainDirectory dir) :
    IsBelow (directoryPath root) (inDirectory (directoryPath dir) name) ↔ root <+: dir := by
  rw [IsBelow, denotedDirectory_inDirectory hname, hroot.denotedDirectory_path,
    hdir.denotedDirectory_path, prefix_concat_and_ne_iff]

/-- What a file of the working directory denotes. -/
theorem denotedDirectory_absolutePath {name : Text} (h : IsName '/' '.' name) (cwd : Text) :
    denotedDirectory (absolutePath cwd name) = denotedDirectory cwd ++ [name] := by
  have hhead : name.head? ≠ some '/' := fun hhead => h.sep_notMem (List.mem_of_mem_head? hhead)
  rw [absolutePath, if_neg hhead]
  split
  · next hlast =>
    obtain ⟨front, rfl⟩ := List.getLast?_eq_some_iff.mp hlast
    rw [List.append_assoc]
    refine (normalForm_concat h front).trans ?_
    rw [denotedDirectory, normalForm_concat_sep]
  · exact denotedDirectory_inDirectory h cwd

/-- **The marker** is below a directory exactly if the working directory is there, or below. -/
theorem isBelow_markerPath_iff (cwd : Text) {root : Directory} (hroot : IsPlainDirectory root) :
    IsBelow (directoryPath root) (markerPath cwd) ↔ root <+: denotedDirectory cwd := by
  have hname : IsName '/' '.' SUITE_MARKER_FILE := ⟨by decide, by decide, by decide, by decide⟩
  rw [IsBelow, markerPath, denotedDirectory_absolutePath hname, hroot.denotedDirectory_path,
    prefix_concat_and_ne_iff]

end Hades.Runtime
