import Mathlib.Data.List.Induction
import Mathlib.Tactic.Common

/-!
# The Determinism Validator

The validator compares the hash of each slice with that of the first one (`Validator.h`).
The per-thread hashes of a slice go through an accumulator first (`HadesHash.h`).

The array of hashes seen is a list whose bound is part of the structure; the counters are
`UInt32` with their wrap-around.

## Main results

* `DeterminismValidator.tracks_validateSlices`: what the validator knows after any number
  of slices with one thread each.
* `DeterminismValidator.isDeterministic_validateSlices_iff`: it reports the slices as
  deterministic exactly when their hashes are all equal.
-/

namespace Hades.Runtime

/-- A hash accumulator: fed the hashes of a slice, it returns their combination and is
then fresh again. -/
class IHashAccumulator (α : Type) where
  fresh : α
  accumulate : α → UInt64 → α
  finalize : α → UInt64 × α

/-- The accumulator that combines by exclusive or. -/
structure XorHashAccumulator where
  m_state : UInt64 := 0
  deriving DecidableEq

instance : IHashAccumulator XorHashAccumulator where
  fresh := {}
  accumulate a hash := { m_state := a.m_state ^^^ hash }
  finalize a := (a.m_state, { m_state := 0 })

/-- Hashes remembered at most. -/
abbrev MAX_UNIQUE_HASHES : ℕ := 32

/-- The validator of one run. -/
structure DeterminismValidator (α : Type) where
  m_Accumulator : α
  m_referenceHash : UInt64
  m_hasReference : Bool
  m_deterministic : Bool
  m_firstDivergenceSlice : UInt32
  m_currentSlice : UInt32
  m_uniqueHashes : List UInt64
  length_uniqueHashes_le : m_uniqueHashes.length ≤ MAX_UNIQUE_HASHES

namespace DeterminismValidator

variable {α : Type}

/-- The validator before any slice. -/
def init (accumulator : α) : DeterminismValidator α where
  m_Accumulator := accumulator
  m_referenceHash := 0
  m_hasReference := false
  m_deterministic := true
  m_firstDivergenceSlice := 0
  m_currentSlice := 0
  m_uniqueHashes := []
  length_uniqueHashes_le := Nat.zero_le _

/-- How many different hashes have been seen, up to the limit. -/
def uniqueHashCount (v : DeterminismValidator α) : UInt32 :=
  UInt32.ofNat v.m_uniqueHashes.length

/-- Remember a hash that is new, unless the list is full. -/
def internalTrackUniqueHash (v : DeterminismValidator α) (hash : UInt64) :
    DeterminismValidator α :=
  if hash ∈ v.m_uniqueHashes then v
  else if h : v.m_uniqueHashes.length < MAX_UNIQUE_HASHES then
    { v with
      m_uniqueHashes := v.m_uniqueHashes ++ [hash]
      length_uniqueHashes_le := by
        rw [List.length_append, List.length_singleton]
        exact h }
  else v

/-- Feed one per-thread hash. -/
def feedThreadHash [IHashAccumulator α] (v : DeterminismValidator α) (hash : UInt64) :
    DeterminismValidator α :=
  { v with m_Accumulator := IHashAccumulator.accumulate v.m_Accumulator hash }

/-- Compare the hash of the slice with the reference. -/
def validateSlice [IHashAccumulator α] (v : DeterminismValidator α) :
    DeterminismValidator α :=
  let (sliceHash, accumulator) := IHashAccumulator.finalize v.m_Accumulator
  let v := { v with m_Accumulator := accumulator }
  let v :=
    if !v.m_hasReference then
      { v with m_referenceHash := sliceHash, m_hasReference := true }.internalTrackUniqueHash
        sliceHash
    else if sliceHash != v.m_referenceHash then
      (if v.m_deterministic then
          { v with m_deterministic := false, m_firstDivergenceSlice := v.m_currentSlice }
        else v).internalTrackUniqueHash sliceHash
    else v
  { v with m_currentSlice := v.m_currentSlice + 1 }

/-- The runner's two calls for a slice of its single thread. -/
def validateHash [IHashAccumulator α] (v : DeterminismValidator α) (hash : UInt64) :
    DeterminismValidator α :=
  (v.feedThreadHash hash).validateSlice

/-- The validator after slices with the given hashes. -/
def validateSlices [IHashAccumulator α] (v : DeterminismValidator α)
    (hashes : List UInt64) : DeterminismValidator α :=
  hashes.foldl validateHash v

/-- Remembering a hash writes the list of hashes and nothing else. -/
theorem internalTrackUniqueHash_eq (v : DeterminismValidator α) (hash : UInt64) :
    ∃ hashes hle, v.internalTrackUniqueHash hash =
      { v with m_uniqueHashes := hashes, length_uniqueHashes_le := hle } := by
  rw [internalTrackUniqueHash]
  split
  · exact ⟨_, v.length_uniqueHashes_le, rfl⟩
  split
  · next hlt => exact ⟨v.m_uniqueHashes ++ [hash], by simpa using Nat.succ_le_of_lt hlt, rfl⟩
  · exact ⟨_, v.length_uniqueHashes_le, rfl⟩

@[simp] theorem accumulator_internalTrackUniqueHash (v : DeterminismValidator α)
    (hash : UInt64) :
    (v.internalTrackUniqueHash hash).m_Accumulator = v.m_Accumulator := by
  obtain ⟨hashes, hle, h⟩ := v.internalTrackUniqueHash_eq hash
  rw [h]

@[simp] theorem hasReference_internalTrackUniqueHash (v : DeterminismValidator α)
    (hash : UInt64) :
    (v.internalTrackUniqueHash hash).m_hasReference = v.m_hasReference := by
  obtain ⟨hashes, hle, h⟩ := v.internalTrackUniqueHash_eq hash
  rw [h]

@[simp] theorem referenceHash_internalTrackUniqueHash (v : DeterminismValidator α)
    (hash : UInt64) :
    (v.internalTrackUniqueHash hash).m_referenceHash = v.m_referenceHash := by
  obtain ⟨hashes, hle, h⟩ := v.internalTrackUniqueHash_eq hash
  rw [h]

@[simp] theorem deterministic_internalTrackUniqueHash (v : DeterminismValidator α)
    (hash : UInt64) :
    (v.internalTrackUniqueHash hash).m_deterministic = v.m_deterministic := by
  obtain ⟨hashes, hle, h⟩ := v.internalTrackUniqueHash_eq hash
  rw [h]

/-- **What the validator knows** after slices with the given hashes: the first one is the
reference, and the verdict is that all of them equal it. -/
structure Tracks (v : DeterminismValidator XorHashAccumulator) (hashes : List UInt64) :
    Prop where
  accumulator_eq : v.m_Accumulator = {}
  hasReference_eq : v.m_hasReference = !hashes.isEmpty
  referenceHash_eq : ∀ hash ∈ hashes.head?, v.m_referenceHash = hash
  deterministic_iff :
    v.m_deterministic = true ↔ ∀ hash ∈ hashes, some hash = hashes.head?

/-- The fresh validator has seen nothing. -/
theorem tracks_init : (init ({} : XorHashAccumulator)).Tracks [] :=
  ⟨rfl, rfl, by simp, by simp [init]⟩

/-- The hash of a slice with one thread is the thread's hash. -/
theorem finalize_feedThreadHash {v : DeterminismValidator XorHashAccumulator}
    (h : v.m_Accumulator = {}) (hash : UInt64) :
    IHashAccumulator.finalize (v.feedThreadHash hash).m_Accumulator =
      (hash, ({} : XorHashAccumulator)) := by
  simp [feedThreadHash, h, IHashAccumulator.finalize, IHashAccumulator.accumulate]

/-- What one slice does to the verdict, before and after there is a reference. -/
theorem validateHash_fields {v : DeterminismValidator XorHashAccumulator}
    (h : v.m_Accumulator = {}) (hash : UInt64) :
    (v.validateHash hash).m_Accumulator = {} ∧
      (v.validateHash hash).m_hasReference = true ∧
      (v.validateHash hash).m_referenceHash =
        (if v.m_hasReference then v.m_referenceHash else hash) ∧
      (v.validateHash hash).m_deterministic =
        (v.m_deterministic && (!v.m_hasReference || hash == v.m_referenceHash)) := by
  have hfinal := finalize_feedThreadHash h hash
  have href : (v.feedThreadHash hash).m_referenceHash = v.m_referenceHash := rfl
  have hhas : (v.feedThreadHash hash).m_hasReference = v.m_hasReference := rfl
  have hdet : (v.feedThreadHash hash).m_deterministic = v.m_deterministic := rfl
  simp only [DeterminismValidator.validateHash, validateSlice, hfinal, href, hhas, hdet]
  cases hr : v.m_hasReference with
  | false => simp
  | true =>
      by_cases hne : hash = v.m_referenceHash
      · simp [hne]
      · cases hd : v.m_deterministic <;> simp [hne]

/-- One more slice. -/
theorem Tracks.validateHash {v : DeterminismValidator XorHashAccumulator}
    {hashes : List UInt64} (h : v.Tracks hashes) (hash : UInt64) :
    (v.validateHash hash).Tracks (hashes ++ [hash]) := by
  obtain ⟨hacc, hhas, href, hdet⟩ := validateHash_fields h.accumulator_eq hash
  refine ⟨hacc, by rw [hhas]; cases hashes <;> rfl, ?_, ?_⟩
  · cases hashes with
    | nil => simpa [h.hasReference_eq] using href
    | cons first rest => simpa [h.hasReference_eq, h.referenceHash_eq first rfl] using href
  · rw [hdet, Bool.and_eq_true, h.deterministic_iff, h.hasReference_eq]
    cases hashes with
    | nil => simp
    | cons first rest => simp [h.referenceHash_eq first rfl, or_imp, forall_and]

/-- **What the validator knows** after any number of slices. -/
theorem tracks_validateSlices (hashes : List UInt64) :
    ((init ({} : XorHashAccumulator)).validateSlices hashes).Tracks hashes := by
  induction hashes using List.reverseRecOn with
  | nil => exact tracks_init
  | append_singleton hashes hash ih =>
      rw [validateSlices, List.foldl_append]
      exact ih.validateHash hash

/-- **The verdict**: the slices are deterministic exactly when their hashes are all equal. -/
theorem isDeterministic_validateSlices_iff (hashes : List UInt64) :
    ((init ({} : XorHashAccumulator)).validateSlices hashes).m_deterministic = true ↔
      ∀ a ∈ hashes, ∀ b ∈ hashes, a = b := by
  rw [(tracks_validateSlices hashes).deterministic_iff]
  cases hashes with
  | nil => simp
  | cons first rest =>
      refine ⟨fun h a ha b hb => ?_, fun h a ha => ?_⟩
      · exact Option.some.inj ((h a ha).trans (h b hb).symm)
      · exact congrArg some (h a ha first List.mem_cons_self)

end DeterminismValidator

end Hades.Runtime
