import Hades.SuiteToml
import Hades.TomlWriting

/-!
# The Manifest Read Back

What `readSuiteToml` makes of the entries that `writeSuiteToml` wrote. Every field with a
key comes back except a floating-point number whose text looks like an integer: the reader
finds an integer under the key and ignores it (`SuiteTestEntry.readBack`).

## Main results

* `mapTableToEntry_entryToTable`: the table of an entry, read back.
* `readSuiteToml_append`: **entries appended behind a blank line** are read after the old
  ones.
* `readSuiteToml_writeSuiteToml_iff`: when a written manifest is read back as it was.
-/

namespace Hades.Runtime

/-- A floating-point field after it was written and read. -/
def rereadDouble (codec : DoubleCodec) (d : ℚ) : ℚ :=
  if (parseInt64 (codec.toChars d)).isSome then 0 else d

/-- An entry after it was written and read. -/
def SuiteTestEntry.readBack (codec : DoubleCodec) (entry : SuiteTestEntry) :
    SuiteTestEntry where
  m_FixtureName := entry.m_FixtureName
  m_Config :=
    { entry.persisted.m_Config with
      m_CvThreshold := rereadDouble codec entry.m_Config.m_CvThreshold
      m_ReadCriticality := rereadDouble codec entry.m_Config.m_ReadCriticality }

/-- The floating-point fields of an entry that are written are values the library can
print. -/
def SuiteTestEntry.HasDoubles (IsDouble : ℚ → Prop) (entry : SuiteTestEntry) : Prop :=
  (entry.m_Config.m_CvThreshold ≠ 0 → IsDouble entry.m_Config.m_CvThreshold) ∧
    (entry.m_Config.m_ReadCriticality ≠ 0 → IsDouble entry.m_Config.m_ReadCriticality)

/-! ### The table of an entry -/

/-- The keys of an optional pair. -/
theorem keys_optionalPair_sublist (present : Bool) (key : Text) (value : TomlValue) :
    List.Sublist ((optionalPair present key value).map Prod.fst) [key] := by
  cases present with
  | true => exact List.Sublist.refl _
  | false => exact List.nil_sublist _

/-- The keys of an entry's table are known keys, each one at most once, in their order. -/
theorem keys_entryToTable_sublist (entry : SuiteTestEntry) :
    List.Sublist ((entryToTable entry).map Prod.fst) KNOWN_KEYS := by
  simp only [entryToTable, List.map_append]
  exact (((((List.Sublist.refl _).append (keys_optionalPair_sublist _ _ _)).append
    (keys_optionalPair_sublist _ _ _)).append (keys_optionalPair_sublist _ _ _)).append
    (keys_optionalPair_sublist _ _ _)).append (keys_optionalPair_sublist _ _ _)

/-- The values of an optional pair. -/
theorem isWritable_optionalPair {IsDouble : ℚ → Prop} {present : Bool} {key : Text}
    {value : TomlValue} {pair : Text × TomlValue} (hpair : pair ∈ optionalPair present key value)
    (h : present = true → value.IsWritable IsDouble) : pair.2.IsWritable IsDouble := by
  cases present with
  | true =>
      obtain rfl : pair = (key, value) := by simpa [optionalPair] using hpair
      exact h rfl
  | false => simp [optionalPair] at hpair

/-- The table of an entry can be written. -/
theorem isWritableTable_entryToTable {IsDouble : ℚ → Prop} {entry : SuiteTestEntry}
    (h : entry.HasDoubles IsDouble) :
    TomlParser.IsWritableTable IsDouble (entryToTable entry) where
  isKey := by
    intro pair hpair
    have hknown : ∀ key ∈ KNOWN_KEYS, IsKey key := by decide
    exact hknown _ ((keys_entryToTable_sublist entry).subset (List.mem_map_of_mem hpair))
  isWritable := by
    intro pair hpair
    simp only [entryToTable, List.mem_append] at hpair
    rcases hpair with ((((hpair | hpair) | hpair) | hpair) | hpair) | hpair
    · simp only [List.mem_cons, List.not_mem_nil, or_false] at hpair
      rcases hpair with rfl | rfl | rfl <;> exact trivial
    · exact isWritable_optionalPair hpair fun _ => trivial
    · exact isWritable_optionalPair hpair fun hne => h.1 (by simpa using hne)
    · exact isWritable_optionalPair hpair fun _ => trivial
    · exact isWritable_optionalPair hpair fun hne => h.2 (by simpa using hne)
    · exact isWritable_optionalPair hpair fun _ => trivial
  nodup := (keys_entryToTable_sublist entry).nodup (by decide)

/-! ### Looking up a written key -/

theorem findToml_append {α : Type} (select : TomlValue → Option α) (xs ys : TomlTable)
    (key : Text) : findToml select (xs ++ ys) key =
      (findToml select xs key).or (findToml select ys key) := by
  rw [findToml, List.findSome?_append]
  rfl

theorem findToml_cons {α : Type} (select : TomlValue → Option α) (k : Text) (v : TomlValue)
    (table : TomlTable) (key : Text) : findToml select ((k, v) :: table) key =
      (if k = key then select v else none).or (findToml select table key) := by
  rw [findToml, List.findSome?_cons]
  dsimp only
  cases (if k = key then select v else none) with
  | none => rfl
  | some a => rfl

theorem findToml_nil {α : Type} (select : TomlValue → Option α) (key : Text) :
    findToml select [] key = none := rfl

/-- An optional pair as it is read. -/
theorem map_rereadPair_optionalPair (codec : DoubleCodec) (present : Bool) (key : Text)
    (value : TomlValue) :
    (optionalPair present key value).map (TomlParser.rereadPair codec) =
      optionalPair present key (value.reread codec) := by
  cases present <;> rfl

theorem findToml_optionalPair {α : Type} (select : TomlValue → Option α) (present : Bool)
    (k : Text) (v : TomlValue) (key : Text) : findToml select (optionalPair present k v) key =
      if present = true ∧ k = key then select v else none := by
  cases present with
  | true => simp [optionalPair, findToml_cons, findToml_nil]
  | false => simp [optionalPair, findToml_nil]

/-- The lower 32 bits of a 32-bit number. -/
@[simp] theorem toUInt32_ofNat_toNat (n : UInt32) : toUInt32 (Int64.ofNat n.toNat) = n := by
  simp [toUInt32]

theorem kindOfName?_kindName (kind : TestKind) : kindOfName? (kindName kind) = some kind := by
  cases kind <;> decide

/-- The floating-point number that is found where one was written. -/
theorem asFloat?_reread (codec : DoubleCodec) (d : ℚ) :
    ((TomlValue.float d).reread codec).asFloat? =
      if (parseInt64 (codec.toChars d)).isSome then none else some d := by
  rw [TomlValue.reread]
  cases parseInt64 (codec.toChars d) <;> rfl

/-- A floating-point field that is written only if it is not zero. -/
theorem getD_rereadDouble (codec : DoubleCodec) (d : ℚ) :
    (if d = 0 then none
      else if (parseInt64 (codec.toChars d)).isSome then none else some d).getD 0 =
      rereadDouble codec d := by
  rw [rereadDouble]
  by_cases hd : d = 0
  · simp [hd]
  · rw [if_neg hd]
    split <;> rfl

/-- A counter that is written only if it is not zero. -/
theorem elim_toUInt32 (n : UInt32) :
    (if n = 0 then none else some (Int64.ofNat n.toNat)).elim 0 toUInt32 = n := by
  by_cases hn : n = 0
  · simp [hn]
  · simp [hn]

/-- The keys of an entry's table are known. -/
theorem reportUnknownKeys_entryToTable (codec : DoubleCodec) (entry : SuiteTestEntry)
    (entryIndex : ℕ) :
    reportUnknownKeys ((entryToTable entry).map (TomlParser.rereadPair codec)) entryIndex =
      [] := by
  rw [reportUnknownKeys, List.map_eq_nil_iff, List.filter_eq_nil_iff]
  intro pair hpair
  obtain ⟨written, hwritten, rfl⟩ := List.mem_map.mp hpair
  have hknown : written.1 ∈ KNOWN_KEYS :=
    (keys_entryToTable_sublist entry).subset (List.mem_map_of_mem hwritten)
  simpa [TomlParser.rereadPair] using hknown

/-- **The table of an entry, read back.** -/
theorem mapTableToEntry_entryToTable (codec : DoubleCodec) (entry : SuiteTestEntry)
    (entryIndex : ℕ) :
    mapTableToEntry ((entryToTable entry).map (TomlParser.rereadPair codec)) entryIndex =
      (some (entry.readBack codec), []) := by
  have hunknown := reportUnknownKeys_entryToTable codec entry entryIndex
  obtain ⟨table, ht⟩ : ∃ table, (entryToTable entry).map (TomlParser.rereadPair codec) = table :=
    ⟨_, rfl⟩
  rw [ht] at hunknown ⊢
  simp only [entryToTable, List.map_append, map_rereadPair_optionalPair] at ht
  have hid : findTomlString table "id".toList = some entry.m_Config.m_Id := by
    simp [← ht, findTomlString, findToml_append, findToml_cons, TomlParser.rereadPair,
      TomlValue.reread, TomlValue.asString?]
  have hfixture : findTomlString table "fixture".toList = some entry.m_FixtureName := by
    simp [← ht, findTomlString, findToml_append, findToml_cons, TomlParser.rereadPair,
      TomlValue.reread, TomlValue.asString?]
  have hkind : findTomlString table "kind".toList = some (kindName entry.m_Config.m_Kind) := by
    simp [← ht, findTomlString, findToml_append, findToml_cons, TomlParser.rereadPair,
      TomlValue.reread, TomlValue.asString?]
  have hwarmup : findTomlInt table "warmup_count".toList =
      if entry.m_Config.m_WarmupCount = 0 then none
      else some (Int64.ofNat entry.m_Config.m_WarmupCount.toNat) := by
    simp [← ht, findTomlInt, findToml_append, findToml_cons, findToml_optionalPair,
      TomlParser.rereadPair, TomlValue.reread, TomlValue.asInt?]
  have hcv : findTomlFloat table "cv_threshold".toList =
      if entry.m_Config.m_CvThreshold = 0 then none
      else if (parseInt64 (codec.toChars entry.m_Config.m_CvThreshold)).isSome then none
      else some entry.m_Config.m_CvThreshold := by
    simp [← ht, findTomlFloat, findToml_append, findToml_cons, findToml_optionalPair,
      TomlParser.rereadPair, asFloat?_reread]
  have hhelpers : findTomlInt table "helper_thread_count".toList =
      if entry.m_Config.m_HelperThreadCount = 0 then none
      else some (Int64.ofNat entry.m_Config.m_HelperThreadCount.toNat) := by
    simp [← ht, findTomlInt, findToml_append, findToml_cons, findToml_optionalPair,
      TomlParser.rereadPair, TomlValue.reread, TomlValue.asInt?]
  have hcriticality : findTomlFloat table "read_criticality".toList =
      if entry.m_Config.m_ReadCriticality = 0 then none
      else if (parseInt64 (codec.toChars entry.m_Config.m_ReadCriticality)).isSome then none
      else some entry.m_Config.m_ReadCriticality := by
    simp [← ht, findTomlFloat, findToml_append, findToml_cons, findToml_optionalPair,
      TomlParser.rereadPair, asFloat?_reread]
  have hslices : findTomlInt table "fixed_slice_count".toList =
      if entry.m_Config.m_FixedSliceCount = 0 then none
      else some (Int64.ofNat entry.m_Config.m_FixedSliceCount.toNat) := by
    simp [← ht, findTomlInt, findToml_append, findToml_cons, findToml_optionalPair,
      TomlParser.rereadPair, TomlValue.reread, TomlValue.asInt?]
  simp only [mapTableToEntry, hid, hfixture, hkind, Option.map_some, kindOfName?_kindName,
    hunknown, setOptionalKeys, hwarmup, hcv, hhelpers, hcriticality, hslices,
    getD_rereadDouble, elim_toUInt32]
  rfl

/-! ### Whole manifests -/

theorem mapTables_append (entryIndex : ℕ) (xs ys : List TomlTable) :
    mapTables entryIndex (xs ++ ys) =
      ((mapTables entryIndex xs).1 ++ (mapTables (entryIndex + xs.length) ys).1,
        (mapTables entryIndex xs).2 ++ (mapTables (entryIndex + xs.length) ys).2) := by
  induction xs generalizing entryIndex with
  | nil => rfl
  | cons x xs ih =>
      simp only [List.cons_append, mapTables, ih, List.length_cons, List.append_assoc]
      rw [Nat.add_assoc entryIndex 1 xs.length, Nat.add_comm 1 xs.length]

/-- The tables of a series of entries, read back. -/
theorem mapTables_entryToTable (codec : DoubleCodec) (entries : List SuiteTestEntry)
    (entryIndex : ℕ) :
    mapTables entryIndex
        ((entries.map entryToTable).map (List.map (TomlParser.rereadPair codec))) =
      (entries.map (SuiteTestEntry.readBack codec), []) := by
  induction entries generalizing entryIndex with
  | nil => rfl
  | cons entry entries ih =>
      rw [List.map_cons, List.map_cons, mapTables, mapTableToEntry_entryToTable, ih]
      rfl

/-- **Entries appended behind a blank line** are read after the old ones, and add no
error. -/
theorem readSuiteToml_append {codec : DoubleCodec} {IsDouble : ℚ → Prop}
    (hcodec : codec.Lawful IsDouble) {entries : List SuiteTestEntry}
    (h : ∀ entry ∈ entries, entry.HasDoubles IsDouble) {content : Text}
    (hblank : ∀ c ∈ Lines.lastLine '\n' content, isSpace c = true) (path : Text) :
    readSuiteToml codec path (some (content ++ suiteText codec entries)) =
      ((readSuiteToml codec path (some content)).1 ++
          entries.map (SuiteTestEntry.readBack codec),
        (readSuiteToml codec path (some content)).2) := by
  have hwritable : ∀ table ∈ entries.map entryToTable,
      TomlParser.IsWritableTable IsDouble table := by
    intro table htable
    obtain ⟨entry, hentry, rfl⟩ := List.mem_map.mp htable
    exact isWritableTable_entryToTable (h entry hentry)
  have hread := readToml_append hcodec (by decide : IsKey testArray) hwritable hblank path
  simp only [readSuiteToml, suiteText, hread, mapTables_append, mapTables_entryToTable,
    List.append_nil]

/-- An entry without floating-point overrides. -/
def SuiteTestEntry.NoDoubles (entry : SuiteTestEntry) : Prop :=
  entry.m_Config.m_CvThreshold = 0 ∧ entry.m_Config.m_ReadCriticality = 0

theorem SuiteTestEntry.NoDoubles.hasDoubles {entry : SuiteTestEntry} (h : entry.NoDoubles) :
    entry.HasDoubles fun _ => False :=
  ⟨fun hne => hne h.1, fun hne => hne h.2⟩

/-- An entry without floating-point overrides comes back as it was. -/
theorem SuiteTestEntry.NoDoubles.readBack_eq {entry : SuiteTestEntry} (h : entry.NoDoubles)
    (codec : DoubleCodec) : entry.readBack codec = entry.persisted := by
  have hzero : rereadDouble codec 0 = 0 := by
    rw [rereadDouble]
    split <;> rfl
  rw [readBack, persisted, h.1, h.2, hzero]

/-- Writing and reading keep a floating-point field that is zero, or whose text is not an
integer's. -/
theorem rereadDouble_eq_iff (codec : DoubleCodec) (d : ℚ) :
    rereadDouble codec d = d ↔ (d ≠ 0 → parseInt64 (codec.toChars d) = none) := by
  rw [rereadDouble]
  cases parseInt64 (codec.toChars d) with
  | none => simp
  | some n => simp [eq_comm]

/-- The floating-point fields of an entry that are written have no integer's text. -/
def SuiteTestEntry.KeepsDoubles (codec : DoubleCodec) (entry : SuiteTestEntry) : Prop :=
  (entry.m_Config.m_CvThreshold ≠ 0 →
      parseInt64 (codec.toChars entry.m_Config.m_CvThreshold) = none) ∧
    (entry.m_Config.m_ReadCriticality ≠ 0 →
      parseInt64 (codec.toChars entry.m_Config.m_ReadCriticality) = none)

/-- An entry comes back as it was exactly when its floating-point fields do. -/
theorem persisted_readBack_eq_iff (codec : DoubleCodec) (entry : SuiteTestEntry) :
    (entry.readBack codec).persisted = entry.persisted ↔ entry.KeepsDoubles codec := by
  rw [SuiteTestEntry.KeepsDoubles, ← rereadDouble_eq_iff, ← rereadDouble_eq_iff]
  constructor
  · intro h
    have hconfig := congrArg SuiteTestEntry.m_Config h
    exact ⟨congrArg Config.m_CvThreshold hconfig, congrArg Config.m_ReadCriticality hconfig⟩
  · rintro ⟨hcv, hcriticality⟩
    simp only [SuiteTestEntry.persisted, SuiteTestEntry.readBack, hcv, hcriticality]

/-- **A written manifest is read back as it was** exactly when every floating-point field
that is not zero has a text that is not an integer's. -/
theorem readSuiteToml_writeSuiteToml_iff {codec : DoubleCodec} {IsDouble : ℚ → Prop}
    (hcodec : codec.Lawful IsDouble) (entries : List SuiteTestEntry)
    (h : ∀ entry ∈ entries, entry.HasDoubles IsDouble) (path : Text) (file : Option Text) :
    let read := readSuiteToml codec path (writeSuiteToml codec entries false file)
    (read.2 = [] ∧
        read.1.map SuiteTestEntry.persisted = entries.map SuiteTestEntry.persisted) ↔
      ∀ entry ∈ entries, entry.KeepsDoubles codec := by
  intro read
  have hblank : ∀ c ∈ Lines.lastLine '\n' [], isSpace c = true := by simp [Lines.lastLine]
  have hread : read = (entries.map (SuiteTestEntry.readBack codec), []) :=
    readSuiteToml_append hcodec h hblank path
  rw [hread, List.map_map, List.map_inj_left]
  simp only [true_and, Function.comp_apply, persisted_readBack_eq_iff]

/-- The codec's behaviour on a few values. -/
def sampleCodec : DoubleCodec where
  toChars d := if d = 1 / 4 then "0.25".toList else if d = 1 then "1".toList else "0".toList
  fromChars t :=
    if t = "0.25".toList then some (1 / 4) else if t = "1".toList then some 1
    else if t = "0".toList then some 0 else none

/-- The values on which `sampleCodec` is the library's codec. -/
def IsSample (d : ℚ) : Prop :=
  d = 0 ∨ d = 1 ∨ d = 1 / 4

theorem lawful_sampleCodec : sampleCodec.Lawful IsSample where
  fromChars_toChars := by
    rintro d (rfl | rfl | rfl) <;> decide +kernel
  toChars_ne_nil := by
    rintro d (rfl | rfl | rfl) <;> decide +kernel
  toChars_chars := by
    rintro d (rfl | rfl | rfl) <;> decide +kernel

/-- An entry with a threshold. -/
def sampleEntry (cvThreshold : ℚ) : SuiteTestEntry where
  m_FixtureName := "F".toList
  m_Config := { m_Id := "a".toList, m_CvThreshold := cvThreshold }

/-- The threshold `1` is written as `1`, read as an integer and lost. -/
theorem readSuiteToml_sampleEntry_one :
    suiteText sampleCodec [sampleEntry 1] =
        "[[test]]\nid = \"a\"\nfixture = \"F\"\nkind = \"performance\"\ncv_threshold = 1\n\n".toList ∧
      readSuiteToml sampleCodec "suite.toml".toList
        (writeSuiteToml sampleCodec [sampleEntry 1] false none) = ([sampleEntry 0], []) ∧
      (sampleEntry 0).persisted ≠ (sampleEntry 1).persisted := by
  refine ⟨by decide +kernel, by decide +kernel, by decide +kernel⟩

/-- A threshold that is not integral comes back. -/
theorem readSuiteToml_sampleEntry_quarter :
    let read := readSuiteToml sampleCodec "suite.toml".toList
      (writeSuiteToml sampleCodec [sampleEntry (1 / 4)] false none)
    (read.2 = [] ∧ read.1.map SuiteTestEntry.persisted =
        [sampleEntry (1 / 4)].map SuiteTestEntry.persisted) ↔
      ∀ entry ∈ [sampleEntry (1 / 4)], entry.KeepsDoubles sampleCodec := by
  refine readSuiteToml_writeSuiteToml_iff lawful_sampleCodec [sampleEntry (1 / 4)] ?_ _ none
  intro entry hentry
  obtain rfl := List.mem_singleton.mp hentry
  exact ⟨fun _ => Or.inr (Or.inr rfl), fun hne => absurd rfl hne⟩

end Hades.Runtime
