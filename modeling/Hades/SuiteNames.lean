import Hades.Configuration
import Hades.Lines

/-!
# The Name of a Suite's Executable

The code generator names the executable of a suite in the `CMakeLists.txt` it writes, and
the driver looks for that executable after the build. Both derive the name from the suite's
directory, each with its own implementation (`HadesCodegen.cpp`, `Commands.cpp`).

## Main results

* `suiteExecutableName_eq_iff`: the directories for which the two names agree.
-/

namespace Hades.Runtime

/-- `std::filesystem::path::filename`, where only `/` separates. -/
def filename (path : Text) : Text :=
  Lines.lastLine '/' path

/-- The name of an executable without a name. -/
def defaultSuiteName : Text :=
  "hades_suite".toList

namespace Driver

/-- The name that the driver looks for. -/
def suiteExecutableName (suiteDir : Text) : Text :=
  let name := filename suiteDir
  if name = [] then defaultSuiteName else name

end Driver

/-- A backslash becomes a slash. -/
def toSlash (c : Char) : Char :=
  if c = '\\' then '/' else c

namespace Codegen

/-- The name of the target in the generated `CMakeLists.txt`. -/
def suiteExecutableName (suiteDir : Text) : Text :=
  let path := (suiteDir.map toSlash).rdropWhile (· == '/')
  let name := Lines.lastLine '/' path
  if name = [] then defaultSuiteName else name

end Codegen

/-- The names between the separators of a path, where a backslash separates like a slash. -/
def pathComponents (path : Text) : List Text :=
  Lines.components '/' (path.map toSlash)

/-- The target is named after the last component of the directory. -/
theorem codegen_suiteExecutableName (suiteDir : Text) :
    Codegen.suiteExecutableName suiteDir =
      ((pathComponents suiteDir).getLast?).getD defaultSuiteName := by
  rw [Codegen.suiteExecutableName, Lines.lastLine_rdropWhile, ← pathComponents,
    List.getLastD_eq_getLast?]
  cases hlast : (pathComponents suiteDir).getLast? with
  | none => rfl
  | some name =>
      have hne : name ≠ [] := by
        have hmem := List.mem_of_getLast? hlast
        rw [pathComponents, Lines.components, List.mem_filter] at hmem
        simpa using hmem.2
      exact if_neg hne

/-- No backslash is left. -/
theorem backslash_notMem_map_toSlash (path : Text) : '\\' ∉ path.map toSlash := by
  intro hmem
  obtain ⟨c, -, hc⟩ := List.mem_map.mp hmem
  rw [toSlash] at hc
  split at hc
  · cases hc
  · next hne => exact hne hc

/-- The name of the target has no backslash. -/
theorem backslash_notMem_codegen (suiteDir : Text) :
    '\\' ∉ Codegen.suiteExecutableName suiteDir := by
  rw [Codegen.suiteExecutableName]
  split
  · decide
  · intro hmem
    have hpath := Lines.lastLine_subset '/' _ hmem
    exact backslash_notMem_map_toSlash suiteDir ((List.rdropWhile_prefix _ _).subset hpath)

/-- A filename without a backslash stays the filename. -/
theorem lastLine_map_toSlash {path : Text} (h : '\\' ∉ filename path) :
    Lines.lastLine '/' (path.map toSlash) = filename path := by
  induction path using List.reverseRecOn with
  | nil => rfl
  | append_singleton path c ih =>
      rw [List.map_append, List.map_singleton]
      by_cases hc : c = '/'
      · subst hc
        exact (Lines.lastLine_concat_sep '/' _).trans (Lines.lastLine_concat_sep '/' _).symm
      · rw [filename, Lines.lastLine_concat_of_ne hc, List.mem_append, not_or,
          List.mem_singleton] at h
        have hslash : toSlash c = c := if_neg fun heq => h.2 heq.symm
        rw [hslash, Lines.lastLine_concat_of_ne hc, ih h.1, filename, filename,
          Lines.lastLine_concat_of_ne hc]

/-- **The two names agree** exactly when the part behind the last slash has no backslash,
and, where there is nothing behind it, the last component has the default name. -/
theorem suiteExecutableName_eq_iff (suiteDir : Text) :
    Driver.suiteExecutableName suiteDir = Codegen.suiteExecutableName suiteDir ↔
      '\\' ∉ filename suiteDir ∧ (filename suiteDir = [] →
        ∀ name ∈ (pathComponents suiteDir).getLast?, name = defaultSuiteName) := by
  by_cases hname : filename suiteDir = []
  · have hdriver : Driver.suiteExecutableName suiteDir = defaultSuiteName := if_pos hname
    rw [hdriver, codegen_suiteExecutableName, hname]
    cases (pathComponents suiteDir).getLast? with
    | none => simp
    | some name => simp [eq_comm]
  · have hdriver : Driver.suiteExecutableName suiteDir = filename suiteDir := if_neg hname
    rw [hdriver]
    constructor
    · intro heq
      refine ⟨?_, fun hnil => absurd hnil hname⟩
      rw [heq]
      exact backslash_notMem_codegen suiteDir
    · rintro ⟨hslash, -⟩
      have hlast := lastLine_map_toSlash hslash
      rw [Codegen.suiteExecutableName, Lines.rdropWhile_of_lastLine (by rwa [hlast]), hlast]
      exact (if_neg hname).symm

/-- A directory with a slash at its end: the driver looks for the default name, but the
target is named after the directory. -/
theorem suiteExecutableName_trailing_slash :
    Driver.suiteExecutableName "suite/".toList = "hades_suite".toList ∧
      Codegen.suiteExecutableName "suite/".toList = "suite".toList ∧
      Driver.suiteExecutableName "suite/".toList ≠
        Codegen.suiteExecutableName "suite/".toList := by
  decide

end Hades.Runtime
