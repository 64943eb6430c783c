import Hades.SliceHashes

/-!
# Slices of Several Threads

The hashes of the threads of a slice go through an accumulator (`HadesHash.h`) before the
validator compares the slice with the first one (`Validator.h`). `XorHashAccumulator` combines
them by exclusive or, `FnvChainHashAccumulator` feeds their bytes to an FNV-1a chain in the order
of the threads, the bytes of a hash as they lie in memory, lowest first.

A chain of multiplications by an odd number keeps states apart, so one changed byte changes the
hash of the slice. The exclusive or sees any change of one thread, but not their order.

## Main results

* `forget_validateThreads`: the validator behind any accumulator is the validator of the
  combined hashes.
* `FnvChainHashAccumulator.reportsSlices_of_byteApart`: **one changed byte a slice** is reported
  exactly.
* `XorHashAccumulator.reportsSlices_of_threadApart`: **one changed thread a slice** is reported
  exactly, and an exchange of threads never.
-/

namespace Hades.Runtime

open Chaining

/-! ### The chain -/

/-- The state of an empty chain. -/
abbrev FNV_OFFSET_BASIS : UInt64 := 14695981039346656037

/-- The multiplier of the chain. -/
abbrev FNV_PRIME : UInt64 := 1099511628211

/-- The accumulator that chains the bytes of the hashes. -/
structure FnvChainHashAccumulator where
  m_state : UInt64 := FNV_OFFSET_BASIS
  deriving DecidableEq

/-- The bytes of a hash, lowest first. -/
def bytesOf (v_Hash : UInt64) : List UInt8 :=
  (List.range 8).map fun i => (v_Hash >>> UInt64.ofNat (8 * i)).toUInt8

/-- One byte more in the chain. -/
def mixByte (m_state : UInt64) (byte : UInt8) : UInt64 :=
  (m_state ^^^ byte.toUInt64) * FNV_PRIME

instance : IHashAccumulator FnvChainHashAccumulator where
  fresh := {}
  accumulate a hash := { m_state := (bytesOf hash).foldl mixByte a.m_state }
  finalize a := (a.m_state, { m_state := FNV_OFFSET_BASIS })

/-! ### Slices -/

namespace DeterminismValidator

variable {α : Type} [IHashAccumulator α]

/-- One slice: the hashes of its threads in order, and then the comparison. -/
def validateThreads (v : DeterminismValidator α) (hashes : List UInt64) :
    DeterminismValidator α :=
  (hashes.foldl feedThreadHash v).validateSlice

/-- The validator after slices with the given hashes of their threads. -/
def validateAll (v : DeterminismValidator α) (slices : List (List UInt64)) :
    DeterminismValidator α :=
  slices.foldl validateThreads v

/-- The hash of a slice. -/
def combined (α : Type) [IHashAccumulator α] (hashes : List UInt64) : UInt64 :=
  (IHashAccumulator.finalize (hashes.foldl IHashAccumulator.accumulate
    (IHashAccumulator.fresh : α))).1

/-- A validator without its accumulator: that of slices with one thread. -/
def forget (v : DeterminismValidator α) : DeterminismValidator XorHashAccumulator where
  m_Accumulator := {}
  m_referenceHash := v.m_referenceHash
  m_hasReference := v.m_hasReference
  m_deterministic := v.m_deterministic
  m_firstDivergenceSlice := v.m_firstDivergenceSlice
  m_currentSlice := v.m_currentSlice
  m_uniqueHashes := v.m_uniqueHashes
  length_uniqueHashes_le := v.length_uniqueHashes_le

/-- **What is reported of slices** with the hashes `slices`, up to what does not matter of a
slice: whether all are the same as the first one, and which is the first that is not. -/
structure ReportsSlices (v : DeterminismValidator α) (Same : List UInt64 → List UInt64 → Prop)
    (slices : List (List UInt64)) : Prop where
  deterministic_iff : v.m_deterministic = true ↔
    ∀ first ∈ slices.head?, ∀ slice ∈ slices, Same slice first
  firstDivergence_eq : ∀ i,
    IsLeast {i : ℕ | ∃ first ∈ slices.head?, ∃ slice ∈ slices[i]?, ¬ Same slice first} i →
      v.m_firstDivergenceSlice = UInt32.ofNat i

/-! ### The combined hashes -/

theorem foldl_feedThreadHash (v : DeterminismValidator α) (hashes : List UInt64) :
    hashes.foldl feedThreadHash v =
      { v with m_Accumulator := hashes.foldl IHashAccumulator.accumulate v.m_Accumulator } := by
  induction hashes generalizing v with
  | nil => rfl
  | cons hash hashes ih => exact ih (v.feedThreadHash hash)

/-- **A comparison** is that of the combined hash. -/
theorem forget_validateSlice (v : DeterminismValidator α) :
    v.validateSlice.forget = v.forget.validateHash (IHashAccumulator.finalize v.m_Accumulator).1 ∧
      v.validateSlice.m_Accumulator = (IHashAccumulator.finalize v.m_Accumulator).2 := by
  have hhash := finalize_feedThreadHash (v := v.forget) rfl (IHashAccumulator.finalize
    v.m_Accumulator).1
  have hfed : v.forget.feedThreadHash (IHashAccumulator.finalize v.m_Accumulator).1 =
      { v.forget with m_Accumulator := (v.forget.feedThreadHash
        (IHashAccumulator.finalize v.m_Accumulator).1).m_Accumulator } := rfl
  rw [validateHash, validateSlice, validateSlice, hhash, hfed]
  cases hhas : v.m_hasReference with
  | false => simp [forget, hhas, uniqueHashes_internalTrackUniqueHash]
  | true =>
      by_cases hne : (IHashAccumulator.finalize v.m_Accumulator).1 = v.m_referenceHash
      · simp [forget, hhas, hne]
      · cases hdet : v.m_deterministic <;>
          simp [forget, hhas, hne, hdet, uniqueHashes_internalTrackUniqueHash]

/-- An accumulator that is fresh again behind every slice. -/
class Restarts (α : Type) [IHashAccumulator α] : Prop where
  finalize_snd : ∀ a : α, (IHashAccumulator.finalize a).2 = IHashAccumulator.fresh

variable [Restarts α]

/-- **One slice** is the slice of one thread with the combined hash. -/
theorem forget_validateThreads {v : DeterminismValidator α}
    (h : v.m_Accumulator = IHashAccumulator.fresh) (hashes : List UInt64) :
    (v.validateThreads hashes).forget = v.forget.validateHash (combined α hashes) ∧
      (v.validateThreads hashes).m_Accumulator = IHashAccumulator.fresh := by
  obtain ⟨hforget, hacc⟩ := forget_validateSlice (hashes.foldl feedThreadHash v)
  have hfed := v.foldl_feedThreadHash hashes
  rw [h] at hfed
  refine ⟨?_, hacc.trans (Restarts.finalize_snd _)⟩
  rw [validateThreads, hforget, hfed]
  rfl

/-- **A series of slices** is the series of the combined hashes. -/
theorem forget_validateAll {v : DeterminismValidator α}
    (h : v.m_Accumulator = IHashAccumulator.fresh) (slices : List (List UInt64)) :
    (v.validateAll slices).forget = v.forget.validateSlices (slices.map (combined α)) := by
  induction slices generalizing v with
  | nil => rfl
  | cons hashes slices ih =>
      obtain ⟨hforget, hacc⟩ := forget_validateThreads h hashes
      have hrest := ih hacc
      rw [hforget] at hrest
      exact hrest

/-- What is reported of any slices is about their combined hashes. -/
theorem reportsHashes_validateAll (slices : List (List UInt64)) :
    ReportsHashes ((init (IHashAccumulator.fresh : α)).validateAll slices).forget
      (slices.map (combined α)) := by
  rw [forget_validateAll rfl]
  exact (watches_validateSlices _).reportsHashes

/-- **Slices that the accumulator tells apart from the first one** are reported exactly. -/
theorem reportsSlices_of_combined {Same : List UInt64 → List UInt64 → Prop}
    {slices : List (List UInt64)}
    (h : ∀ first ∈ slices.head?, ∀ slice ∈ slices,
      (combined α slice = combined α first ↔ Same slice first)) :
    ((init (IHashAccumulator.fresh : α)).validateAll slices).ReportsSlices Same slices := by
  have hreports := reportsHashes_validateAll (α := α) slices
  cases slices with
  | nil =>
      refine ⟨hreports.deterministic_iff.trans (by simp), fun i hi => ?_⟩
      obtain ⟨⟨first, hfirst, -⟩, -⟩ := hi
      cases hfirst
  | cons first rest =>
      have hsame : ∀ slice ∈ first :: rest,
          some (combined α slice) = ((first :: rest).map (combined α)).head? ↔
            Same slice first := fun slice hslice =>
        Option.some_inj.trans (h first rfl slice hslice)
      have hfirst : ∀ P : List UInt64 → Prop,
          (∀ first' ∈ (first :: rest).head?, P first') ↔ P first := fun P =>
        ⟨fun hall => hall first rfl, fun hP first' heq => Option.some.inj heq ▸ hP⟩
      constructor
      · refine hreports.deterministic_iff.trans ?_
        rw [List.forall_mem_map, hfirst]
        exact forall₂_congr hsame
      · rintro i ⟨⟨first', heq, slice, hget, hne⟩, hleast⟩
        obtain rfl : first = first' := Option.some.inj heq
        refine hreports.firstDivergence_eq i ⟨⟨combined α slice, ?_, ?_⟩, ?_⟩
        · rw [List.getElem?_map, hget]
          rfl
        · exact mt (hsame slice (List.mem_of_getElem? hget)).mp hne
        · rintro j ⟨hash, hhash, hdiffers⟩
          rw [List.getElem?_map] at hhash
          obtain ⟨other, hother, rfl⟩ := Option.map_eq_some_iff.mp hhash
          exact hleast ⟨first, rfl, other, hother,
            mt (hsame other (List.mem_of_getElem? hother)).mpr hdiffers⟩

end DeterminismValidator

open DeterminismValidator

/-! ### The chain of bytes -/

/-- Two hashes that differ in one byte. -/
def ByteApart (a b : UInt64) : Prop :=
  OneApart (· ≠ ·) (bytesOf a) (bytesOf b)

/-- The multiplier of the chain has an inverse. -/
theorem mul_FNV_PRIME_injective : Function.Injective fun x : UInt64 => x * FNV_PRIME := by
  intro x y h
  have hinverse : FNV_PRIME * 14886173955864302971 = 1 := by decide
  have hmul : x * FNV_PRIME * 14886173955864302971 = y * FNV_PRIME * 14886173955864302971 :=
    congrArg (· * 14886173955864302971) h
  rwa [UInt64.mul_assoc, UInt64.mul_assoc, hinverse, UInt64.mul_one, UInt64.mul_one] at hmul

/-- **One byte** of the chain. -/
theorem separates_mixByte : Separates mixByte (· ≠ ·) where
  states := fun _ _ _ h => (UInt64.xor_left_inj _).mp (mul_FNV_PRIME_injective h)
  inputs := fun _ _ _ hne h => hne (UInt8.toUInt64_inj.mp
    ((UInt64.xor_right_inj _).mp (mul_FNV_PRIME_injective h)))

/-- **The hashes of some threads**, each one a chain of bytes itself. -/
theorem separates_bytesOf :
    Separates (fun s hash => (bytesOf hash).foldl mixByte s) ByteApart :=
  separates_mixByte.foldl.comap bytesOf

namespace FnvChainHashAccumulator

instance : Restarts FnvChainHashAccumulator := ⟨fun _ => rfl⟩

/-- The state after some hashes. -/
theorem m_state_foldl (a : FnvChainHashAccumulator) (hashes : List UInt64) :
    (hashes.foldl IHashAccumulator.accumulate a).m_state =
      hashes.foldl (fun s hash => (bytesOf hash).foldl mixByte s) a.m_state := by
  induction hashes generalizing a with
  | nil => rfl
  | cons hash hashes ih => exact ih _

/-- **A changed byte**: where each slice agrees with the first one, or differs from it in one
byte of the hash of one thread, the verdict and the first divergence are those of the slices. -/
theorem reportsSlices_of_byteApart (slices : List (List UInt64))
    (h : ∀ first ∈ slices.head?, ∀ slice ∈ slices,
      slice = first ∨ OneApart ByteApart slice first) :
    ((init ({} : FnvChainHashAccumulator)).validateAll slices).ReportsSlices (· = ·) slices := by
  refine reportsSlices_of_combined fun first hfirst slice hslice => ?_
  have hstate : ∀ hashes, combined FnvChainHashAccumulator hashes =
      hashes.foldl (fun s hash => (bytesOf hash).foldl mixByte s) FNV_OFFSET_BASIS :=
    fun hashes => m_state_foldl {} hashes
  rw [hstate, hstate]
  exact separates_bytesOf.foldl_eq_iff _ (h first hfirst slice hslice)

/-- Three slices of two threads, with one bit flipped in the last one. -/
def flippedBit : List (List UInt64) := [[7, 2], [7, 2], [7, 258]]

/-- The flipped bit is reported. -/
theorem reportsSlices_of_byteApart_flippedBit :
    (∀ first ∈ flippedBit.head?, ∀ slice ∈ flippedBit,
        slice = first ∨ OneApart ByteApart slice first) ∧
      ((init ({} : FnvChainHashAccumulator)).validateAll flippedBit).ReportsSlices (· = ·)
        flippedBit := by
  have happly : OneApart ByteApart [7, 258] [7, 2] :=
    ⟨[7], 258, 2, [], rfl, rfl, [2], 1, 0, List.replicate 6 0, by decide, by decide, by decide⟩
  have hall : ∀ first ∈ flippedBit.head?, ∀ slice ∈ flippedBit,
      slice = first ∨ OneApart ByteApart slice first := by
    intro first hfirst
    obtain rfl : [7, 2] = first := Option.some.inj hfirst
    exact List.forall_mem_cons.mpr ⟨Or.inl rfl, List.forall_mem_cons.mpr ⟨Or.inl rfl,
      List.forall_mem_singleton.mpr (Or.inr happly)⟩⟩
  exact ⟨hall, reportsSlices_of_byteApart flippedBit hall⟩

/-- The order of the threads does matter to a chain. -/
example : combined FnvChainHashAccumulator [1, 2] ≠ combined FnvChainHashAccumulator [2, 1] := by
  decide +kernel

end FnvChainHashAccumulator

/-! ### The exclusive or -/

namespace XorHashAccumulator

instance : Restarts XorHashAccumulator := ⟨fun _ => rfl⟩

/-- The state after some hashes. -/
theorem m_state_foldl (a : XorHashAccumulator) (hashes : List UInt64) :
    (hashes.foldl IHashAccumulator.accumulate a).m_state =
      hashes.foldl (· ^^^ ·) a.m_state := by
  induction hashes generalizing a with
  | nil => rfl
  | cons hash hashes ih => exact ih _

/-- One hash. -/
theorem separates_xor : Separates (fun s hash : UInt64 => s ^^^ hash) (· ≠ ·) where
  states := fun _ _ _ h => (UInt64.xor_left_inj _).mp h
  inputs := fun _ _ _ hne h => hne ((UInt64.xor_right_inj _).mp h)

/-- The combined hash is the exclusive or. -/
theorem combined_eq (hashes : List UInt64) :
    combined XorHashAccumulator hashes = hashes.foldl (· ^^^ ·) 0 :=
  m_state_foldl {} hashes

/-- **The order of the threads** does not matter to the combined hash. -/
theorem combined_perm {hashes hashes' : List UInt64} (h : hashes.Perm hashes') :
    combined XorHashAccumulator hashes = combined XorHashAccumulator hashes' := by
  rw [combined_eq, combined_eq]
  refine h.foldl_eq' (fun x _ y _ s => ?_) 0
  rw [UInt64.xor_assoc, UInt64.xor_comm x y, ← UInt64.xor_assoc]

/-- **A changed thread**: where the threads of each slice are those of the first one in some
order, or all but one are, the verdict and the first divergence are those of the slices up to
the order of their threads. -/
theorem reportsSlices_of_threadApart (slices : List (List UInt64))
    (h : ∀ first ∈ slices.head?, ∀ slice ∈ slices,
      ∃ ordered, ordered.Perm slice ∧ (ordered = first ∨ OneApart (· ≠ ·) ordered first)) :
    ((init ({} : XorHashAccumulator)).validateAll slices).ReportsSlices List.Perm slices := by
  refine reportsSlices_of_combined fun first hfirst slice hslice => ⟨fun heq => ?_, combined_perm⟩
  obtain ⟨ordered, hperm, hapart⟩ := h first hfirst slice hslice
  rw [← combined_perm hperm, combined_eq, combined_eq] at heq
  rw [← (separates_xor.foldl_eq_iff _ hapart).mp heq]
  exact hperm.symm

/-- Three slices of two threads: the threads of the second one are exchanged, and one of the
third one has another hash. -/
def exchangedThreads : List (List UInt64) := [[1, 2], [2, 1], [2, 5]]

/-- The changed thread is reported, and not the exchange. -/
theorem reportsSlices_of_threadApart_exchanged :
    (∀ first ∈ exchangedThreads.head?, ∀ slice ∈ exchangedThreads,
        ∃ ordered, ordered.Perm slice ∧ (ordered = first ∨ OneApart (· ≠ ·) ordered first)) ∧
      ((init ({} : XorHashAccumulator)).validateAll exchangedThreads).ReportsSlices List.Perm
        exchangedThreads := by
  have hall : ∀ first ∈ exchangedThreads.head?, ∀ slice ∈ exchangedThreads,
      ∃ ordered, ordered.Perm slice ∧ (ordered = first ∨ OneApart (· ≠ ·) ordered first) := by
    intro first hfirst
    obtain rfl : [1, 2] = first := Option.some.inj hfirst
    refine List.forall_mem_cons.mpr ⟨⟨_, List.Perm.refl _, Or.inl rfl⟩, List.forall_mem_cons.mpr
      ⟨⟨_, List.Perm.swap 2 1 [], Or.inl rfl⟩, List.forall_mem_singleton.mpr ?_⟩⟩
    exact ⟨_, List.Perm.swap 2 5 [], Or.inr ⟨[], 5, 1, [2], rfl, rfl, by decide⟩⟩
  exact ⟨hall, reportsSlices_of_threadApart exchangedThreads hall⟩

end XorHashAccumulator

end Hades.Runtime
