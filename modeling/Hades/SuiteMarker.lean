import Hades.LexicalPath
import Hades.SuiteContext

/-!
# Clearing the Marker

`clearSuiteIfCurrent` removes the marker of the working directory if it names the directory
that it is given (`SuiteContext.cpp`). The marker holds the absolute path of the adopted
suite as it was typed, and it is compared as a text, so two spellings of one directory are
the same only if they are spelt alike behind the working directory.

`generic_string` copies a path, and some standard libraries squeeze separators in a row. The
model takes it as a parameter (`GenericFormat`), which keeps what the path denotes.

## Main results

* `popLineEnds_marker`: the marker is read back as it was written.
* `clearSuiteIfCurrent_adoptSuite`: what clearing does after adopting.
* `clearsSameDirectory_iff`: **for which spellings** the marker is removed as it should be.
-/

namespace Hades.Runtime

open LexicalPath

/-- The directory that an absolute path denotes, by its text alone. -/
def denotedDirectory (path : Text) : List Text :=
  normalForm '/' '.' path

/-- `generic_string` of a standard library: it keeps what a path denotes, and its end. -/
structure GenericFormat where
  genericString : Text → Text
  denotes : ∀ path, denotedDirectory (genericString path) = denotedDirectory path
  getLast?_eq : ∀ path, (genericString path).getLast? = path.getLast?

/-- A library that copies the path. -/
def GenericFormat.verbatim : GenericFormat where
  genericString := id
  denotes _ := rfl
  getLast?_eq _ := rfl

/-- A library that squeezes separators in a row. -/
def GenericFormat.singleSlash : GenericFormat where
  genericString := squeeze '/'
  denotes := normalForm_squeeze '/' '.'
  getLast?_eq := getLast?_squeeze '/'

/-- Remove a file. -/
def FileSystem.remove (fs : FileSystem) (path : Text) : FileSystem :=
  Function.update fs path none

namespace GenericFormat

variable (format : GenericFormat)

/-- Make a suite the current one. -/
def adoptSuite (cwd dir : Text) (fs : FileSystem) : Option FileSystem :=
  if dir = [] then none
  else some (fs.write (markerPath cwd) (format.genericString (absolutePath cwd dir) ++ ['\n']))

/-- Remove the marker if it names the directory; without an absolute form, or a marker, there
is nothing to do. -/
def clearSuiteIfCurrent (cwd dir : Text) (fs : FileSystem) : FileSystem :=
  if dir = [] then fs
  else
    match fs (markerPath cwd) with
    | none => fs
    | some content =>
      if popLineEnds content = format.genericString (absolutePath cwd dir) then
        fs.remove (markerPath cwd)
      else fs

end GenericFormat

/-- A text that does not end with a line end keeps everything. -/
theorem popLineEnds_of_getLast? {text : Text} {c : Char} (h : text.getLast? = some c)
    (hn : c ≠ '\n') (hr : c ≠ '\r') : popLineEnds text = text := by
  obtain ⟨front, rfl⟩ := List.getLast?_eq_some_iff.mp h
  exact List.rdropWhile_concat_neg _ _ _ (by simp [hn, hr])

/-- **The marker is read back** as it was written. -/
theorem popLineEnds_marker (format : GenericFormat) (cwd : Text) {dir : Text} (hne : dir ≠ [])
    (hn : '\n' ∉ dir) (hr : '\r' ∉ dir) :
    popLineEnds (format.genericString (absolutePath cwd dir) ++ ['\n']) =
      format.genericString (absolutePath cwd dir) := by
  obtain ⟨c, hc⟩ : ∃ c, dir.getLast? = some c :=
    Option.ne_none_iff_exists'.mp (mt List.getLast?_eq_none_iff.mp hne)
  have hmem : c ∈ dir := List.mem_of_getLast? hc
  have hlast : (format.genericString (absolutePath cwd dir)).getLast? = some c := by
    rw [format.getLast?_eq, getLast?_absolutePath cwd hc]
  have hpop : popLineEnds (format.genericString (absolutePath cwd dir)) =
      format.genericString (absolutePath cwd dir) :=
    popLineEnds_of_getLast? hlast (ne_of_mem_of_not_mem hmem hn) (ne_of_mem_of_not_mem hmem hr)
  rw [popLineEnds, List.rdropWhile_concat_pos _ _ _ (by simp)]
  exact hpop

/-- **Clearing after adopting**: the marker is removed exactly for the same text. -/
theorem clearSuiteIfCurrent_adoptSuite (format : GenericFormat) {cwd a b : Text}
    {fs adopted : FileSystem} (ha : a ≠ []) (hn : '\n' ∉ a) (hr : '\r' ∉ a) (hb : b ≠ [])
    (h : format.adoptSuite cwd a fs = some adopted) :
    format.clearSuiteIfCurrent cwd b adopted =
      if format.genericString (absolutePath cwd a) = format.genericString (absolutePath cwd b) then
        adopted.remove (markerPath cwd)
      else adopted := by
  rw [GenericFormat.adoptSuite, if_neg ha] at h
  obtain rfl := Option.some.inj h
  rw [GenericFormat.clearSuiteIfCurrent, if_neg hb, FileSystem.write_self]
  dsimp only
  rw [popLineEnds_marker format cwd ha hn hr]

/-- **Clearing removes the marker of the same directory**, and leaves it for any other. -/
def ClearsSameDirectory (format : GenericFormat) (cwd a b : Text) (adopted : FileSystem) : Prop :=
  format.clearSuiteIfCurrent cwd b adopted =
    if denotedDirectory (absolutePath cwd a) = denotedDirectory (absolutePath cwd b) then
      adopted.remove (markerPath cwd)
    else adopted

/-- The marker of an adopted suite exists, so removing it is a change. -/
theorem remove_ne_of_adoptSuite {format : GenericFormat} {cwd a : Text}
    {fs adopted : FileSystem} (h : format.adoptSuite cwd a fs = some adopted) :
    adopted.remove (markerPath cwd) ≠ adopted := by
  intro heq
  rw [GenericFormat.adoptSuite] at h
  split at h
  · cases h
  · obtain rfl := Option.some.inj h
    have hmarker := congrFun heq (markerPath cwd)
    rw [FileSystem.write_self, FileSystem.remove, Function.update_self] at hmarker
    cases hmarker

/-- **The marker is removed as it should be** exactly if the two spellings, where they denote
one directory, have the same text behind the working directory. -/
theorem clearsSameDirectory_iff (format : GenericFormat) {cwd a b : Text}
    {fs adopted : FileSystem} (ha : a ≠ []) (hn : '\n' ∉ a) (hr : '\r' ∉ a) (hb : b ≠ [])
    (h : format.adoptSuite cwd a fs = some adopted) :
    ClearsSameDirectory format cwd a b adopted ↔
      (denotedDirectory (absolutePath cwd a) = denotedDirectory (absolutePath cwd b) →
        format.genericString (absolutePath cwd a) =
          format.genericString (absolutePath cwd b)) := by
  rw [ClearsSameDirectory, clearSuiteIfCurrent_adoptSuite format ha hn hr hb h]
  by_cases hsame : denotedDirectory (absolutePath cwd a) = denotedDirectory (absolutePath cwd b)
  · rw [if_pos hsame]
    constructor
    · intro heq _
      by_contra hne
      rw [if_neg hne] at heq
      exact remove_ne_of_adoptSuite h heq.symm
    · intro htext
      rw [if_pos (htext hsame)]
  · rw [if_neg hsame]
    refine ⟨fun _ h' => absurd h' hsame, fun _ => if_neg fun htext => hsame ?_⟩
    rw [← format.denotes, htext, format.denotes]

/-- A suite adopted and cleared by one spelling. -/
theorem clearsSameDirectory_iff_self :
    let adopted : FileSystem := FileSystem.write (fun _ => none) "/w/.hades-suite".toList
      "/w/s\n".toList
    ClearsSameDirectory .singleSlash "/w".toList "s".toList "s".toList adopted ↔
      (denotedDirectory "/w/s".toList = denotedDirectory "/w/s".toList →
        squeeze '/' "/w/s".toList = squeeze '/' "/w/s".toList) :=
  clearsSameDirectory_iff .singleSlash (by decide) (by decide) (by decide) (by decide)
    (rfl : GenericFormat.singleSlash.adoptSuite "/w".toList "s".toList (fun _ => none) = some _)

/-- **A separator at the end** is enough for a suite to be another one: `s` is adopted and
`s/` is cleared, and the marker stays, whichever library is used. -/
theorem not_clearsSameDirectory_slash :
    (∃ adopted, GenericFormat.verbatim.adoptSuite "/w".toList "s".toList (fun _ => none) =
        some adopted ∧
      ¬ ClearsSameDirectory .verbatim "/w".toList "s".toList "s/".toList adopted) ∧
    ∃ adopted, GenericFormat.singleSlash.adoptSuite "/w".toList "s".toList (fun _ => none) =
        some adopted ∧
      ¬ ClearsSameDirectory .singleSlash "/w".toList "s".toList "s/".toList adopted := by
  have hmarker : ∀ (format : GenericFormat) (adopted : FileSystem),
      (format.clearSuiteIfCurrent "/w".toList "s/".toList adopted) (markerPath "/w".toList) ≠ none →
      ¬ ClearsSameDirectory format "/w".toList "s".toList "s/".toList adopted := by
    intro format adopted hkept h
    rw [h, if_pos (by decide), FileSystem.remove, Function.update_self] at hkept
    exact hkept rfl
  exact ⟨⟨_, rfl, hmarker _ _ (by decide)⟩, ⟨_, rfl, hmarker _ _ (by decide)⟩⟩

end Hades.Runtime
