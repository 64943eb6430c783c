import Hades.AppendLaw
import Hades.TomlBlocks

/-!
# What an Accepted Manifest Means

The mapping from the tables of a manifest to its entries looks a key up together with a
type, and converts integers to 32 bits. A value of another type is not found, and leaves
the default in place. This module says which tables of an accepted manifest are mapped
faithfully.

## Main results

* `forall₂_readSuiteToml`: an accepted manifest has **one entry per declared table**, with
  the fields that the lookups find.
* `toNat_toUInt32_eq_iff`: the conversion keeps exactly the numbers in the range of 32 bits.
* `keepsCounts_iff`: when the counters of an accepted manifest are kept.
* `honours_iff`: when no known key of an accepted manifest is ignored.
-/

namespace Hades.Runtime

/-! ### Looking up a key that is there once -/

/-- A key that is there once has the value that is found. -/
theorem findToml_of_mem {α : Type} (select : TomlValue → Option α) {table : TomlTable}
    (hnodup : (table.map Prod.fst).Nodup) {key : Text} {value : TomlValue}
    (h : (key, value) ∈ table) : findToml select table key = select value := by
  induction table with
  | nil => cases h
  | cons pair table ih =>
      obtain ⟨k, v⟩ := pair
      rw [List.map_cons, List.nodup_cons] at hnodup
      rw [findToml_cons]
      rcases List.mem_cons.mp h with heq | h
      · obtain ⟨rfl, rfl⟩ := Prod.mk.inj heq
        have hrest : findToml select table key = none := by
          rw [findToml, List.findSome?_eq_none_iff]
          intro pair hpair
          rw [if_neg]
          intro heq
          exact hnodup.1 (List.mem_map.mpr ⟨pair, hpair, heq⟩)
        rw [if_pos rfl, hrest, Option.or_none]
      · have hne : k ≠ key := by
          intro heq
          exact hnodup.1 (List.mem_map.mpr ⟨(key, value), h, heq.symm⟩)
        rw [if_neg hne, Option.none_or, ih hnodup.2 h]

/-! ### The entries of an accepted manifest -/

/-- An entry with the fields that the lookups find in a table. -/
structure IsEntryOf (table : TomlTable) (entry : SuiteTestEntry) : Prop where
  id : findTomlString table "id".toList = some entry.m_Config.m_Id
  fixture : findTomlString table "fixture".toList = some entry.m_FixtureName
  kind : ∀ name, findTomlString table "kind".toList = some name →
    name = kindName entry.m_Config.m_Kind
  warmup : entry.m_Config.m_WarmupCount =
    (findTomlInt table "warmup_count".toList).elim 0 toUInt32
  cv : entry.m_Config.m_CvThreshold = (findTomlFloat table "cv_threshold".toList).getD 0
  helpers : entry.m_Config.m_HelperThreadCount =
    (findTomlInt table "helper_thread_count".toList).elim 0 toUInt32
  criticality : entry.m_Config.m_ReadCriticality =
    (findTomlFloat table "read_criticality".toList).getD 0
  slices : entry.m_Config.m_FixedSliceCount =
    (findTomlInt table "fixed_slice_count".toList).elim 0 toUInt32

/-- The name of a kind that is recognised. -/
theorem kindName_of_kindOfName? {name : Text} {kind : TestKind}
    (h : kindOfName? name = some kind) : name = kindName kind := by
  rw [kindOfName?] at h
  split_ifs at h with h1 h2
  · rw [h1, Option.some.inj h]
  · rw [h2, Option.some.inj h]

/-- A table that is mapped without an error has its entry. -/
theorem isEntryOf_of_mapTableToEntry {table : TomlTable} {entryIndex : ℕ}
    {entry : SuiteTestEntry} (h : (mapTableToEntry table entryIndex).1 = some entry) :
    IsEntryOf table entry := by
  rw [mapTableToEntry] at h
  split at h
  · next id fixture hid hfixture =>
    cases hkind : findTomlString table "kind".toList with
    | none =>
        simp only [hkind, Option.map_none] at h
        obtain rfl := Option.some.inj h
        refine ⟨hid, hfixture, fun name hname => ?_, rfl, rfl, rfl, rfl, rfl⟩
        rw [hkind] at hname
        cases hname
    | some name =>
        cases hname : kindOfName? name with
        | none =>
            simp only [hkind, Option.map_some, hname] at h
            cases h
        | some kind =>
            simp only [hkind, Option.map_some, hname] at h
            obtain rfl := Option.some.inj h
            refine ⟨hid, hfixture, fun name' hname' => ?_, rfl, rfl, rfl, rfl, rfl⟩
            rw [hkind] at hname'
            obtain rfl := Option.some.inj hname'
            exact kindName_of_kindOfName? hname
  · cases h

/-- A series of tables that is mapped without an error. -/
theorem forall₂_mapTables {entryIndex : ℕ} {tables : List TomlTable}
    (h : (mapTables entryIndex tables).2 = []) :
    List.Forall₂ IsEntryOf tables (mapTables entryIndex tables).1 := by
  induction tables generalizing entryIndex with
  | nil => exact List.Forall₂.nil
  | cons table tables ih =>
      simp only [mapTables, List.append_eq_nil_iff] at h ⊢
      obtain ⟨entry, hentry⟩ := Option.isSome_iff_exists.mp (isSome_mapTableToEntry h.1)
      rw [hentry]
      exact List.Forall₂.cons (isEntryOf_of_mapTableToEntry hentry) (ih h.2)

/-- **An accepted manifest has one entry per declared table**, in their order. -/
theorem forall₂_readSuiteToml {codec : DoubleCodec} {path content : Text}
    (h : (readSuiteToml codec path (some content)).2 = []) :
    List.Forall₂ IsEntryOf (declaredTables codec testArray content)
      (readSuiteToml codec path (some content)).1 := by
  rw [← fst_readToml codec path]
  simp only [readSuiteToml, List.append_eq_nil_iff] at h ⊢
  exact forall₂_mapTables h.2

/-! ### Counters -/

/-- An integer in the range of an unsigned 32-bit number. -/
def InUInt32Range (n : Int64) : Prop :=
  0 ≤ n.toInt ∧ n.toInt < 2 ^ 32

/-- **The conversion keeps exactly the numbers in range.** -/
theorem toNat_toUInt32_eq_iff (n : Int64) :
    ((toUInt32 n).toNat : ℤ) = n.toInt ↔ InUInt32Range n := by
  -- both sides in terms of the 64 bits of the number
  have hbits : (toUInt32 n).toNat = n.toBitVec.toNat % 2 ^ 32 := by
    rw [toUInt32, UInt64.toNat_toUInt32, Int64.toNat_toBitVec]
  have hvalue := BitVec.toInt_eq_toNat_cond n.toBitVec
  have hlt := n.toBitVec.isLt
  have hint : n.toInt = n.toBitVec.toInt := rfl
  rw [hbits, InUInt32Range, hint, hvalue]
  split <;> omega

/-- The counters of an entry, with their keys. -/
def counterKeys : List (Text × (Config → UInt32)) :=
  [("warmup_count".toList, Config.m_WarmupCount),
    ("helper_thread_count".toList, Config.m_HelperThreadCount),
    ("fixed_slice_count".toList, Config.m_FixedSliceCount)]

/-- An entry with the integers that its table has under the keys of the counters. -/
def KeepsCounts (table : TomlTable) (entry : SuiteTestEntry) : Prop :=
  ∀ counter ∈ counterKeys, ∀ n, (counter.1, .integer n) ∈ table →
    ((counter.2 entry.m_Config).toNat : ℤ) = n.toInt

/-- A table whose integers under the keys of the counters are in range. -/
def HasCountsInRange (table : TomlTable) : Prop :=
  ∀ counter ∈ counterKeys, ∀ n, (counter.1, .integer n) ∈ table → InUInt32Range n

/-- The counter that the lookup of an integer leaves. -/
theorem IsEntryOf.counter_eq {table : TomlTable} {entry : SuiteTestEntry}
    (h : IsEntryOf table entry) {counter : Text × (Config → UInt32)}
    (hcounter : counter ∈ counterKeys) :
    counter.2 entry.m_Config = (findTomlInt table counter.1).elim 0 toUInt32 := by
  simp only [counterKeys, List.mem_cons, List.not_mem_nil, or_false] at hcounter
  rcases hcounter with rfl | rfl | rfl
  · exact h.warmup
  · exact h.helpers
  · exact h.slices

/-- When the counters of one entry are kept. -/
theorem IsEntryOf.keepsCounts_iff {table : TomlTable} {entry : SuiteTestEntry}
    (h : IsEntryOf table entry) (hnodup : (table.map Prod.fst).Nodup) :
    KeepsCounts table entry ↔ HasCountsInRange table := by
  refine forall₂_congr fun counter hcounter => forall₂_congr fun n hn => ?_
  have hfind : findTomlInt table counter.1 = some n :=
    findToml_of_mem TomlValue.asInt? hnodup hn
  rw [h.counter_eq hcounter, hfind, Option.elim_some, toNat_toUInt32_eq_iff]

/-- Two lists that correspond, under a condition that depends on the first one. -/
theorem forall₂_iff_of_forall₂ {α β : Type} {R S : α → β → Prop} {P Q : α → Prop}
    {xs : List α} {ys : List β} (hR : List.Forall₂ R xs ys) (hP : ∀ x ∈ xs, P x)
    (h : ∀ x y, R x y → P x → (S x y ↔ Q x)) :
    List.Forall₂ S xs ys ↔ ∀ x ∈ xs, Q x := by
  induction hR with
  | nil => simp
  | cons hxy _ ih =>
      rw [List.forall₂_cons, List.forall_mem_cons, h _ _ hxy (hP _ List.mem_cons_self),
        ih fun x hx => hP x (List.mem_cons_of_mem _ hx)]

/-- **The counters of an accepted manifest are kept** exactly when every integer under their
keys is in the range of an unsigned 32-bit number. -/
theorem keepsCounts_readSuiteToml_iff {codec : DoubleCodec} {path content : Text}
    (haccepted : (readSuiteToml codec path (some content)).2 = []) :
    List.Forall₂ KeepsCounts (declaredTables codec testArray content)
        (readSuiteToml codec path (some content)).1 ↔
      ∀ table ∈ declaredTables codec testArray content, HasCountsInRange table :=
  forall₂_iff_of_forall₂ (forall₂_readSuiteToml haccepted)
    (fun _ htable => nodup_of_mem_declaredTables htable)
    fun _ _ hentry hnodup => hentry.keepsCounts_iff hnodup

/-- A manifest with one more line in its only table. -/
def manifestWith (line : String) : Text :=
  "[[test]]\nid = \"a\"\nfixture = \"F\"\n".toList ++ line.toList ++ ['\n']

/-- A warmup count of `-1` is accepted, and becomes the largest 32-bit number. -/
theorem readSuiteToml_manifestWith_negative :
    readSuiteToml sampleCodec [] (some (manifestWith "warmup_count = -1")) =
        ([{ m_FixtureName := "F".toList
            m_Config := { m_Id := "a".toList, m_WarmupCount := 4294967295 } }], []) ∧
      ¬ List.Forall₂ KeepsCounts
        (declaredTables sampleCodec testArray (manifestWith "warmup_count = -1"))
        (readSuiteToml sampleCodec [] (some (manifestWith "warmup_count = -1"))).1 := by
  have hread : readSuiteToml sampleCodec [] (some (manifestWith "warmup_count = -1")) =
      ([{ m_FixtureName := "F".toList
          m_Config := { m_Id := "a".toList, m_WarmupCount := 4294967295 } }], []) := by
    decide +kernel
  have htables : declaredTables sampleCodec testArray (manifestWith "warmup_count = -1") =
      [[("id".toList, .string "a".toList), ("fixture".toList, .string "F".toList),
        ("warmup_count".toList, .integer (-1))]] := by
    decide +kernel
  refine ⟨hread, ?_⟩
  rw [htables, hread]
  intro hkeeps
  obtain ⟨hkeeps, -⟩ := List.forall₂_cons.mp hkeeps
  have hwarmup := hkeeps ("warmup_count".toList, Config.m_WarmupCount) (by simp [counterKeys])
    (-1) (by simp)
  exact absurd hwarmup (by decide)

/-- A warmup count in range is kept. -/
theorem keepsCounts_manifestWith_positive :
    List.Forall₂ KeepsCounts
        (declaredTables sampleCodec testArray (manifestWith "warmup_count = 7"))
        (readSuiteToml sampleCodec [] (some (manifestWith "warmup_count = 7"))).1 ↔
      ∀ table ∈ declaredTables sampleCodec testArray (manifestWith "warmup_count = 7"),
        HasCountsInRange table :=
  keepsCounts_readSuiteToml_iff (by decide +kernel)

/-! ### Known keys -/

/-- A text is the value of its key, if the key is there. -/
def HonoursString (table : TomlTable) (key text : Text) : Prop :=
  ∀ value, (key, value) ∈ table → value = .string text

/-- A counter is the value of its key, if the key is there. -/
def HonoursCount (table : TomlTable) (key : Text) (count : UInt32) : Prop :=
  ∀ value, (key, value) ∈ table → ∃ n, value = .integer n ∧ (count.toNat : ℤ) = n.toInt

/-- A number is the value of its key, if the key is there. An integer is a number. -/
def HonoursNumber (table : TomlTable) (key : Text) (number : ℚ) : Prop :=
  ∀ value, (key, value) ∈ table →
    value = .float number ∨ ∃ n, value = .integer n ∧ number = n.toInt

/-- **No known key of a table is ignored**: whatever it has is in the entry. -/
structure Honours (table : TomlTable) (entry : SuiteTestEntry) : Prop where
  id : HonoursString table "id".toList entry.m_Config.m_Id
  fixture : HonoursString table "fixture".toList entry.m_FixtureName
  kind : HonoursString table "kind".toList (kindName entry.m_Config.m_Kind)
  warmup : HonoursCount table "warmup_count".toList entry.m_Config.m_WarmupCount
  cv : HonoursNumber table "cv_threshold".toList entry.m_Config.m_CvThreshold
  helpers : HonoursCount table "helper_thread_count".toList entry.m_Config.m_HelperThreadCount
  criticality : HonoursNumber table "read_criticality".toList entry.m_Config.m_ReadCriticality
  slices : HonoursCount table "fixed_slice_count".toList entry.m_Config.m_FixedSliceCount

/-- A key has a string, if it is there. -/
def HasString (table : TomlTable) (key : Text) : Prop :=
  ∀ value, (key, value) ∈ table → ∃ text, value = .string text

/-- A key has an integer in the range of an unsigned 32-bit number, if it is there. -/
def HasCount (table : TomlTable) (key : Text) : Prop :=
  ∀ value, (key, value) ∈ table → ∃ n, value = .integer n ∧ InUInt32Range n

/-- A key has a floating-point number or the integer zero, if it is there. -/
def HasNumber (table : TomlTable) (key : Text) : Prop :=
  ∀ value, (key, value) ∈ table → (∃ number, value = .float number) ∨ value = .integer 0

/-- A table that has values of the types that are looked up. -/
structure IsWellTyped (table : TomlTable) : Prop where
  kind : HasString table "kind".toList
  warmup : HasCount table "warmup_count".toList
  cv : HasNumber table "cv_threshold".toList
  helpers : HasCount table "helper_thread_count".toList
  criticality : HasNumber table "read_criticality".toList
  slices : HasCount table "fixed_slice_count".toList

section

variable {table : TomlTable} (hnodup : (table.map Prod.fst).Nodup)

include hnodup

/-- A string that is found is the value of its key. -/
theorem honoursString_of_find {key text : Text} (h : findTomlString table key = some text) :
    HonoursString table key text := by
  intro value hvalue
  have hfind : findTomlString table key = value.asString? :=
    findToml_of_mem TomlValue.asString? hnodup hvalue
  rw [h] at hfind
  cases value with
  | string text' =>
      obtain rfl := Option.some.inj hfind
      rfl
  | _ => cases hfind

/-- A text that is found under its key, unless there is no string. -/
theorem honoursString_iff {key text : Text}
    (h : ∀ found, findTomlString table key = some found → found = text) :
    HonoursString table key text ↔ HasString table key := by
  constructor
  · exact fun hhonours value hvalue => ⟨text, hhonours value hvalue⟩
  · intro hstring value hvalue
    obtain ⟨found, rfl⟩ := hstring value hvalue
    rw [h found (findToml_of_mem TomlValue.asString? hnodup hvalue)]

/-- When a counter is the value of its key. -/
theorem honoursCount_iff (key : Text) :
    HonoursCount table key ((findTomlInt table key).elim 0 toUInt32) ↔ HasCount table key := by
  refine forall₂_congr fun value hvalue => exists_congr fun n => and_congr_right fun heq => ?_
  have hfind : findTomlInt table key = value.asInt? :=
    findToml_of_mem TomlValue.asInt? hnodup hvalue
  subst heq
  rw [hfind, TomlValue.asInt?, Option.elim_some, toNat_toUInt32_eq_iff]

/-- When a number is the value of its key. -/
theorem honoursNumber_iff (key : Text) :
    HonoursNumber table key ((findTomlFloat table key).getD 0) ↔ HasNumber table key := by
  refine forall₂_congr fun value hvalue => ?_
  have hfind : findTomlFloat table key = value.asFloat? :=
    findToml_of_mem TomlValue.asFloat? hnodup hvalue
  rw [hfind]
  cases value with
  | float number => simp [TomlValue.asFloat?]
  | integer n =>
      have hzero : n.toInt = 0 ↔ n = 0 := ⟨fun h => Int64.toInt_inj.mp h, fun h => by rw [h]; rfl⟩
      simp [TomlValue.asFloat?, eq_comm, hzero]
  | _ => simp

end

/-- When no known key of one table is ignored. -/
theorem IsEntryOf.honours_iff {table : TomlTable} {entry : SuiteTestEntry}
    (h : IsEntryOf table entry) (hnodup : (table.map Prod.fst).Nodup) :
    Honours table entry ↔ IsWellTyped table := by
  have hkind := honoursString_iff hnodup h.kind
  have hwarmup := honoursCount_iff hnodup "warmup_count".toList
  have hcv := honoursNumber_iff hnodup "cv_threshold".toList
  have hhelpers := honoursCount_iff hnodup "helper_thread_count".toList
  have hcriticality := honoursNumber_iff hnodup "read_criticality".toList
  have hslices := honoursCount_iff hnodup "fixed_slice_count".toList
  rw [← h.warmup] at hwarmup
  rw [← h.cv] at hcv
  rw [← h.helpers] at hhelpers
  rw [← h.criticality] at hcriticality
  rw [← h.slices] at hslices
  constructor
  · intro hall
    exact ⟨hkind.mp hall.kind, hwarmup.mp hall.warmup, hcv.mp hall.cv,
      hhelpers.mp hall.helpers, hcriticality.mp hall.criticality, hslices.mp hall.slices⟩
  · intro htyped
    exact ⟨honoursString_of_find hnodup h.id, honoursString_of_find hnodup h.fixture,
      hkind.mpr htyped.kind, hwarmup.mpr htyped.warmup, hcv.mpr htyped.cv,
      hhelpers.mpr htyped.helpers, hcriticality.mpr htyped.criticality,
      hslices.mpr htyped.slices⟩

/-- **No known key of an accepted manifest is ignored** exactly when every one has a value
of the type that is looked up, and every counter is in range. -/
theorem honours_readSuiteToml_iff {codec : DoubleCodec} {path content : Text}
    (haccepted : (readSuiteToml codec path (some content)).2 = []) :
    List.Forall₂ Honours (declaredTables codec testArray content)
        (readSuiteToml codec path (some content)).1 ↔
      ∀ table ∈ declaredTables codec testArray content, IsWellTyped table :=
  forall₂_iff_of_forall₂ (forall₂_readSuiteToml haccepted)
    (fun _ htable => nodup_of_mem_declaredTables htable)
    fun _ _ hentry hnodup => hentry.honours_iff hnodup

/-- A threshold of `1` is accepted and ignored. -/
theorem readSuiteToml_manifestWith_integer :
    readSuiteToml sampleCodec [] (some (manifestWith "cv_threshold = 1")) =
        ([{ m_FixtureName := "F".toList, m_Config := { m_Id := "a".toList } }], []) ∧
      ¬ List.Forall₂ Honours
        (declaredTables sampleCodec testArray (manifestWith "cv_threshold = 1"))
        (readSuiteToml sampleCodec [] (some (manifestWith "cv_threshold = 1"))).1 := by
  have hread : readSuiteToml sampleCodec [] (some (manifestWith "cv_threshold = 1")) =
      ([{ m_FixtureName := "F".toList, m_Config := { m_Id := "a".toList } }], []) := by
    decide +kernel
  have htables : declaredTables sampleCodec testArray (manifestWith "cv_threshold = 1") =
      [[("id".toList, .string "a".toList), ("fixture".toList, .string "F".toList),
        ("cv_threshold".toList, .integer 1)]] := by
    decide +kernel
  refine ⟨hread, ?_⟩
  rw [htables, hread]
  intro hhonours
  obtain ⟨hhonours, -⟩ := List.forall₂_cons.mp hhonours
  rcases hhonours.cv (.integer 1) (by simp) with hfloat | ⟨n, heq, hzero⟩
  · cases hfloat
  · obtain rfl := TomlValue.integer.inj heq
    exact absurd hzero (by decide +kernel)

/-- A threshold with a point is honoured. -/
theorem honours_manifestWith_float :
    List.Forall₂ Honours
        (declaredTables sampleCodec testArray (manifestWith "cv_threshold = 0.25"))
        (readSuiteToml sampleCodec [] (some (manifestWith "cv_threshold = 0.25"))).1 ↔
      ∀ table ∈ declaredTables sampleCodec testArray (manifestWith "cv_threshold = 0.25"),
        IsWellTyped table :=
  honours_readSuiteToml_iff (by decide +kernel)

end Hades.Runtime
