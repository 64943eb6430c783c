import Hades.Codegen
import Hades.DecimalText
import Hades.LexicalPath
import Hades.Sections
import Hades.SuiteNames

/-!
# The Generated `CMakeLists.txt`

A fixture may name a directory with more sources and the target in it that the suite links.
The generator adds each directory with a command of its own and links the targets with a
single one (`collectExtraLinkTargets` and `buildCMakeLists` in `HadesCodegen.cpp`). It drops
a fixture whose target is there already, and never compares the directories.

The directories stand between quotes as they are in the registry, and the targets without
quotes. `quotedValue?` is what CMake reads between quotes; which directory it finds for a value,
with its variables, relative paths and links, is a parameter. So a value keeps which of its
characters were escaped. A variable reference in a target stands for itself.

## Main results

* `buildCMakeLists_eq`: the file is the text of its commands.
* `collectExtraLinkTargets_eq`: what the generator keeps of the fixtures.
* `addsOnce_iff`: when every directory is added, and every target linked, exactly once.
-/

namespace Hades.Runtime

/-! ### The generator -/

/-- The directories and targets that the fixtures name, without a target that is there
already. -/
def collectExtraLinkTargets (fixtures : List FixtureEntry) : List (Text × Text) :=
  fixtures.foldl (fun out fixture =>
    if fixture.m_ExtraLinkDir = [] ∨ fixture.m_ExtraLinkTarget = [] then out
    else if out.any (·.2 = fixture.m_ExtraLinkTarget) then out
    else out ++ [(fixture.m_ExtraLinkDir, fixture.m_ExtraLinkTarget)]) []

/-- The first lines of the file, down to the check of the variable that names the
repository. -/
def cmakePreamble (l_name : Text) : Text :=
  ("# GENERATED by Hades Codegen -- do not edit by hand.\n" ++
    "cmake_minimum_required(VERSION 3.20)\n" ++
    "# No vcpkg dependencies; opt out of a user-wide `vcpkg integrate install` " ++
    "(its post-build step needs pwsh).\n" ++
    "if(NOT DEFINED CMAKE_VS_GLOBALS)\n    set(CMAKE_VS_GLOBALS \"VcpkgEnabled=false\")\n" ++
    "endif()\n").toList ++
  "project(".toList ++ l_name ++ " LANGUAGES CXX)\n\n".toList ++
  ("set(CMAKE_CXX_STANDARD 20)\n" ++ "set(CMAKE_CXX_STANDARD_REQUIRED ON)\n\n" ++
    "# Driver's cmake build backend must supply HADES_BENCHMARK_ROOT (path to\n" ++
    "# the Hades-Benchmark repo root) so this suite can link against Hades-Core.\n" ++
    "if(NOT DEFINED HADES_BENCHMARK_ROOT)\n" ++
    "\tmessage(FATAL_ERROR \"HADES_BENCHMARK_ROOT must be set (path to Hades-Benchmark " ++
    "repo root)\")\n" ++
    "endif()\n\n").toList

/-- The command that copies a library next to the executable. -/
def copyCommand (l_name target : Text) : Text :=
  "add_custom_command(TARGET ".toList ++ l_name ++ " POST_BUILD\n".toList ++
    "\tCOMMAND ${CMAKE_COMMAND} -E copy_if_different\n".toList ++
    "\t\t$<TARGET_FILE:".toList ++ target ++ "> $<TARGET_FILE_DIR:".toList ++ l_name ++
    ">\n".toList ++ "\tCOMMAND_EXPAND_LISTS)\n".toList

/-- The directory of the core library. -/
def coreDirectory : Text :=
  "${HADES_BENCHMARK_ROOT}/src/Core".toList

/-- The target of the core library. -/
def coreTarget : Text :=
  "Hades-Core".toList

/-- The directory in which the core library is built. -/
def coreBinaryDir : Text :=
  "${CMAKE_CURRENT_BINARY_DIR}/hades-core".toList

/-- The directory in which an extra directory is built. -/
def extraBinaryDir (index : ℕ) : Text :=
  "${CMAKE_CURRENT_BINARY_DIR}/extra-".toList ++ DecimalText.natText index

/-- The generated `CMakeLists.txt`. -/
def buildCMakeLists (request : ResolveRequest) : Text :=
  let l_name := Codegen.suiteExecutableName request.m_SuiteDir
  let l_extraTargets := collectExtraLinkTargets request.m_Fixtures
  cmakePreamble l_name ++
  "add_subdirectory(".toList ++ coreDirectory ++ " ".toList ++ coreBinaryDir ++ ")\n".toList ++
  (l_extraTargets.zipIdx.flatMap fun extra =>
    "add_subdirectory(\"".toList ++ extra.1.1 ++ "\" \"".toList ++ extraBinaryDir extra.2 ++
      "\")\n".toList) ++
  "\n".toList ++
  "add_executable(".toList ++ l_name ++ " main.cpp)\n".toList ++
  "target_include_directories(".toList ++ l_name ++
    " PRIVATE ${CMAKE_CURRENT_SOURCE_DIR}/..)\n".toList ++
  "target_link_libraries(".toList ++ l_name ++ " PRIVATE ".toList ++ coreTarget ++
  (l_extraTargets.flatMap fun extra => ' ' :: extra.2) ++
  ")\n".toList ++
  copyCommand l_name coreTarget ++
  l_extraTargets.flatMap fun extra => copyCommand l_name extra.2

/-! ### What CMake reads -/

/-- The character that an escape in a quoted argument stands for. -/
def cmakeEscape? (e : Char) : Option Char :=
  if e = 't' then some '\t' else if e = 'r' then some '\r' else if e = 'n' then some '\n'
  else if e.isAlphanum then none else some e

/-- The value of an argument before its variables are replaced: its characters, and whether each
of them was escaped. -/
abbrev CMakeValue := List (Char × Bool)

/-- A text without escapes. -/
def unescaped (text : Text) : CMakeValue :=
  text.map fun c => (c, false)

/-- The value of a quoted argument, from the text between its quotes; `none` if the argument
does not end where the text does, or has an escape that stands for nothing. -/
def quotedValue? : Text → Option CMakeValue
  | [] => some []
  | c :: rest =>
    if c = '"' then none
    else if c ≠ '\\' then (quotedValue? rest).map ((c, false) :: ·)
    else
      match rest with
      | [] => none
      | e :: rest =>
        if e = '\n' then quotedValue? rest
        else (cmakeEscape? e).bind fun d => (quotedValue? rest).map ((d, true) :: ·)

/-- A text that is one argument, and stands for itself, without quotes. -/
def isWord (text : Text) : Bool :=
  text ≠ [] ∧ text.head? ≠ some '[' ∧
    text.all fun c => !isSpace c && !(";()#\"\\".toList.contains c)

/-- The words that `target_link_libraries` does not take for libraries. -/
def linkKeywords : List Text :=
  ["PRIVATE", "PUBLIC", "INTERFACE", "LINK_PRIVATE", "LINK_PUBLIC", "LINK_INTERFACE_LIBRARIES",
    "debug", "optimized", "general"].map String.toList

/-- A text that names a library there; a hyphen begins an option of the linker. -/
def isLibrary (text : Text) : Bool :=
  isWord text && !linkKeywords.contains text && text.head? ≠ some '-'

/-- An argument, as it is written. -/
inductive CMakeArgument where
  | word (text : Text)
  | quoted (text : Text)

namespace CMakeArgument

/-- The text of an argument. -/
def text : CMakeArgument → Text
  | .word text => text
  | .quoted text => '"' :: text ++ ['"']

/-- The value of an argument. -/
def value? : CMakeArgument → Option CMakeValue
  | .word text => if isWord text then some (unescaped text) else none
  | .quoted text => quotedValue? text

end CMakeArgument

/-- A piece of the file: a command that adds a directory or links targets, or other text. -/
inductive CMakeItem where
  | other (text : Text)
  | addSubdirectory (source binary : CMakeArgument)
  | targetLinkLibraries (target : Text) (libraries : List CMakeArgument)

namespace CMakeItem

/-- The text of a piece. -/
def text : CMakeItem → Text
  | .other text => text
  | .addSubdirectory source binary =>
    "add_subdirectory(".toList ++ source.text ++ " ".toList ++ binary.text ++ ")\n".toList
  | .targetLinkLibraries target libraries =>
    "target_link_libraries(".toList ++ target ++ " PRIVATE".toList ++
      (libraries.flatMap fun library => ' ' :: library.text) ++ ")\n".toList

/-- The directory that a piece adds. -/
def directory? : CMakeItem → Option CMakeValue
  | .addSubdirectory source _ => source.value?
  | _ => none

/-- The libraries that a piece links to a target; one that is no word is another target. -/
def libraries : CMakeItem → List Text
  | .targetLinkLibraries target libraries =>
    if isWord target then
      ((libraries.filterMap CMakeArgument.value?).map (·.map Prod.fst)).filter isLibrary
    else []
  | _ => []

end CMakeItem

/-- The pieces of the generated file. -/
def cmakeItems (request : ResolveRequest) : List CMakeItem :=
  let l_name := Codegen.suiteExecutableName request.m_SuiteDir
  let l_extraTargets := collectExtraLinkTargets request.m_Fixtures
  [.other (cmakePreamble l_name),
    .addSubdirectory (.word coreDirectory) (.word coreBinaryDir)] ++
  (l_extraTargets.zipIdx.map fun extra =>
    .addSubdirectory (.quoted extra.1.1) (.quoted (extraBinaryDir extra.2))) ++
  [.other ("\n".toList ++ "add_executable(".toList ++ l_name ++ " main.cpp)\n".toList ++
      "target_include_directories(".toList ++ l_name ++
      " PRIVATE ${CMAKE_CURRENT_SOURCE_DIR}/..)\n".toList),
    .targetLinkLibraries l_name (.word coreTarget :: l_extraTargets.map (.word ·.2)),
    .other (copyCommand l_name coreTarget ++
      l_extraTargets.flatMap fun extra => copyCommand l_name extra.2)]

/-- The directories that the file adds, where `locate` says which one a value leads to. -/
def addedDirectories {D : Type*} (locate : CMakeValue → D) (request : ResolveRequest) : List D :=
  ((cmakeItems request).filterMap CMakeItem.directory?).map locate

/-- The targets that the file links to the suite's program. -/
def linkedTargets (request : ResolveRequest) : List Text :=
  (cmakeItems request).flatMap CMakeItem.libraries

/-- **The file is the text of its pieces.** -/
theorem buildCMakeLists_eq (request : ResolveRequest) :
    buildCMakeLists request = (cmakeItems request).flatMap CMakeItem.text := by
  have hadd (source binary : CMakeArgument) : (CMakeItem.addSubdirectory source binary).text =
      "add_subdirectory(".toList ++ source.text ++ [' '] ++ binary.text ++ ")\n".toList := rfl
  have hlink (target : Text) (libraries : List CMakeArgument) :
      (CMakeItem.targetLinkLibraries target libraries).text =
        "target_link_libraries(".toList ++ target ++ " PRIVATE".toList ++
          (libraries.flatMap fun library => ' ' :: library.text) ++ ")\n".toList := rfl
  have hother (text : Text) : (CMakeItem.other text).text = text := rfl
  -- the literals of the generator, cut where the pieces are
  have hopen : "add_subdirectory(\"".toList = "add_subdirectory(".toList ++ ['"'] := by simp
  have hmiddle : "\" \"".toList = ['"', ' ', '"'] := by simp
  have hclose : "\")\n".toList = '"' :: ")\n".toList := by simp
  have hblank : " ".toList = [' '] := by simp
  have hprivate : " PRIVATE ".toList = " PRIVATE".toList ++ [' '] := by simp
  unfold buildCMakeLists cmakeItems
  simp only [hadd, hlink, hother, hopen, hmiddle, hclose, hblank, hprivate, CMakeArgument.text,
    List.flatMap_append, List.flatMap_cons, List.flatMap_nil, List.flatMap_map,
    List.append_assoc, List.cons_append, List.nil_append, List.append_nil]

/-! ### What the generator keeps -/

/-- What the fixtures with a directory and a target name: the target, and its directory. -/
def linkPairs (fixtures : List FixtureEntry) : List (Text × Text) :=
  fixtures.filterMap fun fixture =>
    if fixture.m_ExtraLinkDir = [] ∨ fixture.m_ExtraLinkTarget = [] then none
    else some (fixture.m_ExtraLinkTarget, fixture.m_ExtraLinkDir)

/-- **The generator keeps the first directory of each target.** -/
theorem collectExtraLinkTargets_eq (fixtures : List FixtureEntry) :
    collectExtraLinkTargets fixtures =
      (Sections.firstByKey (linkPairs fixtures)).map Prod.swap := by
  have hfold (table : List (Text × Text)) :
      fixtures.foldl (fun out fixture =>
        if fixture.m_ExtraLinkDir = [] ∨ fixture.m_ExtraLinkTarget = [] then out
        else if out.any (·.2 = fixture.m_ExtraLinkTarget) then out
        else out ++ [(fixture.m_ExtraLinkDir, fixture.m_ExtraLinkTarget)])
        (table.map Prod.swap) =
      ((linkPairs fixtures).foldl Sections.addFirst table).map Prod.swap := by
    induction fixtures generalizing table with
    | nil => rfl
    | cons fixture fixtures ih =>
        rw [List.foldl_cons, linkPairs, List.filterMap_cons]
        by_cases hincomplete :
            fixture.m_ExtraLinkDir = [] ∨ fixture.m_ExtraLinkTarget = []
        · rw [if_pos hincomplete, if_pos hincomplete]
          exact ih table
        · rw [if_neg hincomplete, if_neg hincomplete]
          have hany : (table.map Prod.swap).any (·.2 = fixture.m_ExtraLinkTarget) = true ↔
              fixture.m_ExtraLinkTarget ∈ table.map Prod.fst := by
            simp [List.any_eq_true]
          rw [List.foldl_cons, Sections.addFirst]
          by_cases hmem : fixture.m_ExtraLinkTarget ∈ table.map Prod.fst
          · rw [if_pos (hany.mpr hmem), if_pos hmem]
            exact ih table
          · have hrest := ih (table ++ [(fixture.m_ExtraLinkTarget, fixture.m_ExtraLinkDir)])
            rw [List.map_append] at hrest
            rw [if_neg fun h => hmem (hany.mp h), if_neg hmem]
            exact hrest
  have hall := hfold []
  rw [Sections.foldl_addFirst] at hall
  simpa [collectExtraLinkTargets] using hall

/-! ### What the file adds and links -/

section

variable {D : Type*} (locate : CMakeValue → D)

/-- The directory that CMake finds for the text between two quotes. -/
def found? (text : Text) : Option D :=
  (quotedValue? text).map locate

/-- The directories that the file adds. -/
theorem addedDirectories_eq (request : ResolveRequest) :
    addedDirectories locate request = locate (unescaped coreDirectory) ::
      (Sections.firstByKey (linkPairs request.m_Fixtures)).filterMap (found? locate ·.2) := by
  have hcore : CMakeItem.directory? (.addSubdirectory (.word coreDirectory)
      (.word coreBinaryDir)) = some (unescaped coreDirectory) := by decide
  have hextra (directory binary : Text) : CMakeItem.directory? (.addSubdirectory
      (.quoted directory) (.quoted binary)) = quotedValue? directory := rfl
  have hother (text : Text) : CMakeItem.directory? (.other text) = none := rfl
  have hlink (target : Text) (libraries : List CMakeArgument) :
      CMakeItem.directory? (.targetLinkLibraries target libraries) = none := rfl
  have hindex : (collectExtraLinkTargets request.m_Fixtures).zipIdx.filterMap
      (fun extra => quotedValue? extra.1.1) =
        (Sections.firstByKey (linkPairs request.m_Fixtures)).filterMap (quotedValue? ·.2) :=
    calc (collectExtraLinkTargets request.m_Fixtures).zipIdx.filterMap
          (fun extra => quotedValue? extra.1.1)
        = ((collectExtraLinkTargets request.m_Fixtures).zipIdx.map Prod.fst).filterMap
            (quotedValue? ·.1) := by rw [List.filterMap_map]; rfl
      _ = (Sections.firstByKey (linkPairs request.m_Fixtures)).filterMap (quotedValue? ·.2) := by
          rw [List.zipIdx_map_fst, collectExtraLinkTargets_eq, List.filterMap_map]
          rfl
  unfold addedDirectories cmakeItems found?
  simp only [List.filterMap_append, List.filterMap_cons, List.filterMap_nil, List.filterMap_map,
    Function.comp_def, hother, hcore, hextra, hlink, hindex, List.append_nil, List.cons_append,
    List.nil_append, List.map_cons, List.map_filterMap]

end

/-- The targets that the file links. -/
theorem linkedTargets_eq (request : ResolveRequest) :
    linkedTargets request =
      if isWord (Codegen.suiteExecutableName request.m_SuiteDir) then
        coreTarget ::
          ((Sections.firstByKey (linkPairs request.m_Fixtures)).map Prod.fst).filter isLibrary
      else [] := by
  have hcore : isLibrary coreTarget = true := by decide
  have hother (text : Text) : CMakeItem.libraries (.other text) = [] := rfl
  have hadd (source binary : CMakeArgument) :
      CMakeItem.libraries (.addSubdirectory source binary) = [] := rfl
  have hlink (target : Text) (libraries : List CMakeArgument) :
      CMakeItem.libraries (.targetLinkLibraries target libraries) =
        if isWord target then
          ((libraries.filterMap CMakeArgument.value?).map (·.map Prod.fst)).filter isLibrary
        else [] := rfl
  have htext (text : Text) : (unescaped text).map Prod.fst = text := by
    rw [unescaped, List.map_map]
    exact List.map_id text
  have hword : (fun text => (CMakeArgument.value? (.word text)).map (·.map Prod.fst)) =
      Option.guard (isWord ·) := by
    funext text
    rw [CMakeArgument.value?, Option.guard]
    split
    · rw [Option.map_some, htext]
    · rfl
  have hlibraries (targets : List Text) :
      (((targets.map CMakeArgument.word).filterMap CMakeArgument.value?).map
        (·.map Prod.fst)).filter isLibrary = targets.filter isLibrary := by
    rw [List.filterMap_map, List.map_filterMap, Function.comp_def, hword,
      List.filterMap_eq_filter, List.filter_filter]
    refine List.filter_congr fun target _ => ?_
    rw [isLibrary]
    cases isWord target with
    | false => rfl
    | true => exact Bool.and_true _
  have htargets : (collectExtraLinkTargets request.m_Fixtures).map Prod.snd =
      (Sections.firstByKey (linkPairs request.m_Fixtures)).map Prod.fst := by
    rw [collectExtraLinkTargets_eq, List.map_map]
    rfl
  have hall : CMakeArgument.word coreTarget ::
      (collectExtraLinkTargets request.m_Fixtures).map (fun extra => .word extra.2) =
        (coreTarget :: (Sections.firstByKey (linkPairs request.m_Fixtures)).map Prod.fst).map
          CMakeArgument.word := by
    rw [← htargets, List.map_cons, List.map_map]
    rfl
  unfold linkedTargets cmakeItems
  dsimp only
  rw [hall]
  simp only [List.flatMap_append, List.flatMap_cons, List.flatMap_nil, List.flatMap_map, hother,
    hadd, hlink, hlibraries, List.filter_cons, hcore, if_true, List.append_nil, List.nil_append]
  simp

/-- **Every directory is added once, and every target linked once.** -/
structure AddsOnce {D : Type*} [DecidableEq D] (locate : CMakeValue → D)
    (request : ResolveRequest) : Prop where
  nodup : (addedDirectories locate request).Nodup
  directory : ∀ fixture ∈ request.m_Fixtures, fixture.m_ExtraLinkDir ≠ [] →
    fixture.m_ExtraLinkTarget ≠ [] →
      (addedDirectories locate request).count (locate (unescaped fixture.m_ExtraLinkDir)) = 1
  target : ∀ fixture ∈ request.m_Fixtures, fixture.m_ExtraLinkDir ≠ [] →
    fixture.m_ExtraLinkTarget ≠ [] →
      (linkedTargets request).count fixture.m_ExtraLinkTarget = 1

/-- Targets and their directories, as the fixtures name them, fit each other and the name of the
suite's program. -/
structure LinksFit {D : Type*} (locate : CMakeValue → D) (l_name : Text)
    (pairs : List (Text × Text)) : Prop where
  name : ∀ p ∈ pairs, isWord l_name = true
  library : ∀ p ∈ pairs, isLibrary p.1 = true ∧ p.1 ≠ coreTarget
  first : ∀ p q, Sections.IsFirst pairs p → Sections.IsFirst pairs q → ∀ directory,
    found? locate p.2 = some directory → found? locate q.2 = some directory → p = q
  notCore : ∀ p, Sections.IsFirst pairs p →
    found? locate p.2 ≠ some (locate (unescaped coreDirectory))
  covered : ∀ p ∈ pairs, locate (unescaped p.2) = locate (unescaped coreDirectory) ∨
    ∃ q, Sections.IsFirst pairs q ∧ found? locate q.2 = some (locate (unescaped p.2))

/-- What holds of the pairs holds of every fixture with a directory and a target. -/
theorem forall_linkPairs (fixtures : List FixtureEntry) (P : Text × Text → Prop) :
    (∀ p ∈ linkPairs fixtures, P p) ↔ ∀ fixture ∈ fixtures, fixture.m_ExtraLinkDir ≠ [] →
      fixture.m_ExtraLinkTarget ≠ [] →
        P (fixture.m_ExtraLinkTarget, fixture.m_ExtraLinkDir) := by
  simp only [linkPairs, List.mem_filterMap, Option.ite_none_left_eq_some, not_or]
  constructor
  · intro h fixture hf hdir htarget
    exact h _ ⟨fixture, hf, ⟨hdir, htarget⟩, rfl⟩
  · rintro h p ⟨fixture, hf, ⟨hdir, htarget⟩, heq⟩
    obtain rfl := Option.some.inj heq
    exact h fixture hf hdir htarget

/-- Some of the values of a list have no duplicates if no two of its entries have the same. -/
theorem nodup_filterMap_iff {α β : Type*} {l : List α} (hl : l.Nodup) (f : α → Option β) :
    (l.filterMap f).Nodup ↔
      ∀ a ∈ l, ∀ b ∈ l, ∀ value, f a = some value → f b = some value → a = b := by
  rw [List.nodup_iff_pairwise_ne, List.pairwise_filterMap]
  constructor
  · intro h a ha b hb value hfa hfb
    by_contra hne
    have hsymm : Std.Symm fun a b => ∀ v, f a = some v → ∀ w, f b = some w → v ≠ w :=
      ⟨fun a b hab v hv w hw => (hab w hw v hv).symm⟩
    exact h.forall ha hb hne value hfa value hfb rfl
  · intro h
    refine hl.pairwise_of_forall_ne fun a ha b hb hne v hv w hw => ?_
    rintro rfl
    exact hne (h a ha b hb v hv hw)

section

variable {D : Type*} {locate : CMakeValue → D} {l_name : Text} {pairs : List (Text × Text)}

/-- **The directories** of the file are different exactly when those that the first fixtures of
the targets name are. -/
theorem nodup_found_iff :
    (locate (unescaped coreDirectory) ::
        (Sections.firstByKey pairs).filterMap (found? locate ·.2)).Nodup ↔
      (∀ p, Sections.IsFirst pairs p →
        found? locate p.2 ≠ some (locate (unescaped coreDirectory))) ∧
        ∀ p q, Sections.IsFirst pairs p → Sections.IsFirst pairs q → ∀ directory,
          found? locate p.2 = some directory → found? locate q.2 = some directory → p = q := by
  have hnodup : (Sections.firstByKey pairs).Nodup :=
    List.Nodup.of_map Prod.fst (Sections.nodup_firstByKey pairs)
  rw [List.nodup_cons, nodup_filterMap_iff hnodup, List.mem_filterMap]
  simp only [Sections.mem_firstByKey_iff]
  refine and_congr ?_ ?_
  · push Not
    rfl
  · exact ⟨fun h p q hp hq => h p hp q hq, fun h p hp q hq => h p q hp hq⟩

/-- A directory is added when it is the core's or found for the first fixture of a target. -/
theorem mem_found_iff {directory : D} :
    directory ∈ locate (unescaped coreDirectory) ::
        (Sections.firstByKey pairs).filterMap (found? locate ·.2) ↔
      directory = locate (unescaped coreDirectory) ∨
        ∃ q, Sections.IsFirst pairs q ∧ found? locate q.2 = some directory := by
  rw [List.mem_cons, List.mem_filterMap]
  simp only [Sections.mem_firstByKey_iff]

/-- **A target is linked once** exactly when it is a library, and not the core's. -/
theorem count_targets_eq_one_iff {p : Text × Text} (hp : p ∈ pairs) :
    (coreTarget :: ((Sections.firstByKey pairs).map Prod.fst).filter isLibrary).count p.1 = 1 ↔
      isLibrary p.1 = true ∧ p.1 ≠ coreTarget := by
  obtain ⟨q, hq, hqp⟩ := Sections.exists_mem_firstByKey hp
  have hmem : p.1 ∈ (Sections.firstByKey pairs).map Prod.fst := hqp ▸ List.mem_map_of_mem hq
  have hnodup := (Sections.nodup_firstByKey pairs).filter isLibrary
  by_cases hcore : p.1 = coreTarget
  · have hlibrary : isLibrary p.1 = true := by
      rw [hcore]
      decide
    have hpos := List.count_pos_iff.mpr (List.mem_filter.mpr ⟨hmem, hlibrary⟩)
    rw [hcore] at hpos ⊢
    rw [List.count_cons_self]
    exact iff_of_false (by omega) fun h => h.2 rfl
  · rw [List.count_cons_of_ne (Ne.symm hcore)]
    cases hlibrary : isLibrary p.1 with
    | false =>
        have hnone : p.1 ∉ ((Sections.firstByKey pairs).map Prod.fst).filter isLibrary := by
          intro h
          rw [(List.mem_filter.mp h).2] at hlibrary
          cases hlibrary
        rw [List.count_eq_zero_of_not_mem hnone]
        exact iff_of_false Nat.zero_ne_one fun h => Bool.false_ne_true h.1
    | true =>
        rw [List.count_eq_one_of_mem hnodup (List.mem_filter.mpr ⟨hmem, hlibrary⟩)]
        exact iff_of_true rfl ⟨rfl, hcore⟩

end

/-- **Which fixtures are added and linked once**: exactly those whose directories and targets
fit each other, whatever directories CMake finds. -/
theorem addsOnce_iff {D : Type*} [DecidableEq D] (locate : CMakeValue → D)
    (request : ResolveRequest) :
    AddsOnce locate request ↔
      LinksFit locate (Codegen.suiteExecutableName request.m_SuiteDir)
        (linkPairs request.m_Fixtures) := by
  have hdirectory := forall_linkPairs request.m_Fixtures
    fun p => (addedDirectories locate request).count (locate (unescaped p.2)) = 1
  have htarget := forall_linkPairs request.m_Fixtures
    fun p => (linkedTargets request).count p.1 = 1
  rw [addedDirectories_eq] at hdirectory
  rw [linkedTargets_eq] at htarget
  constructor
  · rintro ⟨hnodup, hdirectories, htargets⟩
    rw [addedDirectories_eq] at hnodup hdirectories
    rw [linkedTargets_eq] at htargets
    have hcounts := htarget.mpr htargets
    obtain ⟨hcore, hfirst⟩ := nodup_found_iff.mp hnodup
    have hname : ∀ p ∈ linkPairs request.m_Fixtures,
        isWord (Codegen.suiteExecutableName request.m_SuiteDir) = true := by
      intro p hp
      by_contra hword
      have hzero := hcounts p hp
      rw [if_neg hword, List.count_nil] at hzero
      exact Nat.zero_ne_one hzero
    refine ⟨hname, fun p hp => ?_, hfirst, hcore, fun p hp => ?_⟩
    · have hone := hcounts p hp
      rw [if_pos (hname p hp)] at hone
      exact (count_targets_eq_one_iff hp).mp hone
    · have hone := hdirectory.mpr hdirectories p hp
      exact mem_found_iff.mp (List.count_pos_iff.mp (hone ▸ Nat.one_pos))
  · rintro ⟨hname, hlibrary, hfirst, hcore, hcovered⟩
    have hnodup := nodup_found_iff.mpr ⟨hcore, hfirst⟩
    refine ⟨?_, ?_, ?_⟩
    · rwa [addedDirectories_eq]
    · rw [addedDirectories_eq]
      exact hdirectory.mp fun p hp =>
        List.count_eq_one_of_mem hnodup (mem_found_iff.mpr (hcovered p hp))
    · rw [linkedTargets_eq]
      refine htarget.mp fun p hp => ?_
      rw [if_pos (hname p hp)]
      exact (count_targets_eq_one_iff hp).mpr (hlibrary p hp)

/-- **Two targets in one directory**: the generator compares the targets, and adds the
directory twice. -/
theorem not_addsOnce_sharedDirectory :
    ¬ AddsOnce (fun value => LexicalPath.normalForm '/' '.' (value.map Prod.fst))
      { m_SuiteDir := "/s".toList
        m_Fixtures :=
          [{ m_FixtureName := "F".toList, m_ExtraLinkDir := "/lib".toList
             m_ExtraLinkTarget := "A".toList },
            { m_FixtureName := "G".toList, m_ExtraLinkDir := "/lib".toList
              m_ExtraLinkTarget := "B".toList }] } := by
  intro h
  exact absurd h.nodup (by decide)

end Hades.Runtime
