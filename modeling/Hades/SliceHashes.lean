import Hades.Series
import Hades.Validator
import Mathlib.Algebra.Group.Nat.Defs
import Mathlib.Order.Bounds.Basic

/-!
# What the Validator Reports

The validator keeps a few numbers about the hashes of the slices as they come (`Validator.h`).
This module says what they are of the whole series of hashes: the first one, the first one
that differs from it, and how many different ones there are.

The array of the hashes seen is a capped set (`CappedSet.Collects`). A hash that equals the
reference is not tracked, because the first slice has entered it already. The slice counter
is `UInt32` and wraps.

## Main results

* `Watches.validateHash` and `watches_validateSlices`: what the validator has kept, over a
  slice and over a series.
* `reportsHashes_validateSlices`: **what is reported** is about the whole series.
-/

namespace Hades.Runtime.DeterminismValidator

open CappedSet

/-- The position of the first hash that differs from the first one. -/
def divergence? (hashes : List UInt64) : Option ℕ :=
  hashes.findIdx? fun hash => decide (some hash ≠ hashes.head?)

/-- Nothing diverges from the first hash exactly if all hashes equal it. -/
theorem divergence?_eq_none_iff {hashes : List UInt64} :
    divergence? hashes = none ↔ ∀ hash ∈ hashes, some hash = hashes.head? := by
  simp [divergence?]

/-- One more hash, behind the first one. -/
theorem divergence?_concat {hashes : List UInt64} (hne : hashes ≠ []) (hash : UInt64) :
    divergence? (hashes ++ [hash]) = (divergence? hashes).or
      (if some hash = hashes.head? then none else some hashes.length) := by
  rw [divergence?, List.head?_append_of_ne_nil _ hne, List.findIdx?_append, divergence?]
  by_cases h : some hash = hashes.head?
  · simp [List.findIdx?_singleton, h]
  · simp [List.findIdx?_singleton, h]

/-- **What the validator has kept** of the hashes: the number of slices, where they diverge,
and the different ones up to the limit. -/
structure Watches (v : DeterminismValidator XorHashAccumulator) (hashes : List UInt64) :
    Prop where
  tracks : v.Tracks hashes
  currentSlice_eq : v.m_currentSlice = UInt32.ofNat hashes.length
  firstDivergence_eq :
    v.m_firstDivergenceSlice = UInt32.ofNat ((divergence? hashes).getD 0)
  collects : Collects MAX_UNIQUE_HASHES v.m_uniqueHashes hashes
  reference_mem : ∀ hash ∈ hashes.head?, hash ∈ v.m_uniqueHashes

/-- The fresh validator has kept nothing. -/
theorem watches_init : Watches (init {}) [] where
  tracks := tracks_init
  currentSlice_eq := rfl
  firstDivergence_eq := rfl
  collects := collects_nil _
  reference_mem := fun hash h => by cases h

/-! ### One slice -/

@[simp] theorem currentSlice_internalTrackUniqueHash {α : Type}
    (v : DeterminismValidator α) (hash : UInt64) :
    (v.internalTrackUniqueHash hash).m_currentSlice = v.m_currentSlice := by
  obtain ⟨hashes, hle, h⟩ := v.internalTrackUniqueHash_eq hash
  rw [h]

@[simp] theorem firstDivergenceSlice_internalTrackUniqueHash {α : Type}
    (v : DeterminismValidator α) (hash : UInt64) :
    (v.internalTrackUniqueHash hash).m_firstDivergenceSlice = v.m_firstDivergenceSlice := by
  obtain ⟨hashes, hle, h⟩ := v.internalTrackUniqueHash_eq hash
  rw [h]

/-- Tracking a hash, as an operation on the list. -/
theorem uniqueHashes_internalTrackUniqueHash {α : Type} (v : DeterminismValidator α)
    (hash : UInt64) :
    (v.internalTrackUniqueHash hash).m_uniqueHashes =
      if hash ∈ v.m_uniqueHashes ∨ MAX_UNIQUE_HASHES ≤ v.m_uniqueHashes.length then
        v.m_uniqueHashes
      else v.m_uniqueHashes ++ [hash] := by
  rw [internalTrackUniqueHash]
  by_cases hmem : hash ∈ v.m_uniqueHashes
  · simp [hmem]
  by_cases hlt : v.m_uniqueHashes.length < MAX_UNIQUE_HASHES
  · simp [hmem, hlt]
  · simp [hmem, hlt, not_lt.mp hlt]

/-- Tracking a hash loses none. -/
theorem subset_internalTrackUniqueHash (v : DeterminismValidator XorHashAccumulator)
    (hash : UInt64) : v.m_uniqueHashes ⊆ (v.internalTrackUniqueHash hash).m_uniqueHashes := by
  rw [uniqueHashes_internalTrackUniqueHash]
  split
  · exact List.Subset.refl _
  · exact List.subset_append_left _ _

/-- Tracking a hash enters it, unless it is there already or the list is full. -/
theorem collects_internalTrackUniqueHash {v : DeterminismValidator XorHashAccumulator}
    {hashes : List UInt64} (h : Collects MAX_UNIQUE_HASHES v.m_uniqueHashes hashes)
    (hash : UInt64) :
    Collects MAX_UNIQUE_HASHES (v.internalTrackUniqueHash hash).m_uniqueHashes
      (hashes ++ [hash]) := by
  rw [uniqueHashes_internalTrackUniqueHash]
  split
  · next hskip =>
      refine h.skip fun hlt => ?_
      rcases hskip with hmem | hfull
      · exact hmem
      · omega
  · next hnew =>
      rw [not_or, not_le] at hnew
      exact h.insert hnew.1 hnew.2

/-- **What one slice does** to the numbers that are reported. -/
theorem validateHash_reported {v : DeterminismValidator XorHashAccumulator}
    (h : v.m_Accumulator = {}) (hash : UInt64) :
    (v.validateHash hash).m_currentSlice = v.m_currentSlice + 1 ∧
      (v.validateHash hash).m_firstDivergenceSlice =
        (if v.m_hasReference ∧ hash ≠ v.m_referenceHash ∧ v.m_deterministic then
          v.m_currentSlice else v.m_firstDivergenceSlice) ∧
      (v.validateHash hash).m_uniqueHashes =
        if v.m_hasReference ∧ hash = v.m_referenceHash then v.m_uniqueHashes
        else (v.internalTrackUniqueHash hash).m_uniqueHashes := by
  have hfinal := finalize_feedThreadHash h hash
  have hfed : v.feedThreadHash hash =
      { v with m_Accumulator := (v.feedThreadHash hash).m_Accumulator } := rfl
  rw [DeterminismValidator.validateHash, validateSlice, hfinal, hfed]
  cases hr : v.m_hasReference with
  | false => simp [uniqueHashes_internalTrackUniqueHash]
  | true =>
      by_cases hne : hash = v.m_referenceHash
      · simp [hne]
      · cases hd : v.m_deterministic <;> simp [hne, uniqueHashes_internalTrackUniqueHash]

/-- The slice of the first divergence, after one more slice. -/
theorem Watches.firstDivergence_validateHash {v : DeterminismValidator XorHashAccumulator}
    {first : UInt64} {rest : List UInt64} (h : Watches v (first :: rest)) (hash : UInt64) :
    (v.validateHash hash).m_firstDivergenceSlice =
      UInt32.ofNat ((divergence? (first :: rest ++ [hash])).getD 0) := by
  obtain ⟨-, hfirst, -⟩ := validateHash_reported h.tracks.accumulator_eq hash
  have hhas : v.m_hasReference = true := h.tracks.hasReference_eq
  have href : v.m_referenceHash = first := h.tracks.referenceHash_eq first rfl
  have hdet : v.m_deterministic = true ↔ divergence? (first :: rest) = none :=
    h.tracks.deterministic_iff.trans divergence?_eq_none_iff.symm
  have hkept := h.firstDivergence_eq
  rw [hhas, href] at hfirst
  simp only [true_and] at hfirst
  rw [hfirst, divergence?_concat (List.cons_ne_nil first rest), List.head?_cons]
  cases hdiv : divergence? (first :: rest) with
  | none =>
      rw [hdiv] at hkept
      by_cases heq : hash = first
      · simpa [heq] using hkept
      · simpa [heq, hdet.mpr hdiv] using h.currentSlice_eq
  | some i =>
      rw [hdiv] at hkept
      have hnot : v.m_deterministic ≠ true := fun htrue => by
        rw [hdet.mp htrue] at hdiv
        cases hdiv
      simpa [hnot] using hkept

/-- **The step lemma**: one more slice. The first one enters the reference; a later one that
equals the reference is not tracked, because the reference is there already. -/
theorem Watches.validateHash {v : DeterminismValidator XorHashAccumulator}
    {hashes : List UInt64} (h : Watches v hashes) (hash : UInt64) :
    Watches (v.validateHash hash) (hashes ++ [hash]) := by
  obtain ⟨hcurrent, hfirst, hunique⟩ := validateHash_reported h.tracks.accumulator_eq hash
  have hnext : (v.validateHash hash).m_currentSlice =
      UInt32.ofNat (hashes ++ [hash]).length := by
    rw [hcurrent, h.currentSlice_eq, List.length_append, UInt32.ofNat_add]
    rfl
  cases hashes with
  | nil =>
      have hhas : v.m_hasReference = false := h.tracks.hasReference_eq
      have hempty : v.m_uniqueHashes = [] := List.subset_nil.mp h.collects.subset
      rw [hhas] at hfirst hunique
      simp only [Bool.false_eq_true, false_and, if_false] at hfirst hunique
      refine ⟨h.tracks.validateHash hash, hnext, ?_, ?_, ?_⟩
      · rw [hfirst, h.firstDivergence_eq]
        simp [divergence?]
      · rw [hunique]
        exact collects_internalTrackUniqueHash h.collects hash
      · rw [hunique, uniqueHashes_internalTrackUniqueHash, hempty]
        simp
  | cons first rest =>
      have hmem : first ∈ v.m_uniqueHashes := h.reference_mem first rfl
      rw [h.tracks.hasReference_eq, h.tracks.referenceHash_eq first rfl] at hunique
      refine ⟨h.tracks.validateHash hash, hnext, h.firstDivergence_validateHash hash, ?_, ?_⟩
      · rw [hunique]
        split
        · next heq => exact h.collects.skip fun _ => heq.2 ▸ hmem
        · exact collects_internalTrackUniqueHash h.collects hash
      · intro hash' hhash'
        obtain rfl : first = hash' := Option.some.inj hhash'
        rw [hunique]
        split
        · exact hmem
        · exact subset_internalTrackUniqueHash v hash hmem

/-- **The run lemma**: any number of slices. -/
theorem watches_validateSlices (hashes : List UInt64) :
    Watches ((init {}).validateSlices hashes) hashes := by
  induction hashes using List.reverseRecOn with
  | nil => exact watches_init
  | append_singleton hashes hash ih =>
      rw [validateSlices, List.foldl_append]
      exact ih.validateHash hash

/-! ### The report -/

/-- **What is reported of a series of hashes.** The slice of the first divergence is a 32-bit
number. -/
structure ReportsHashes (v : DeterminismValidator XorHashAccumulator) (hashes : List UInt64) :
    Prop where
  deterministic_iff : v.m_deterministic = true ↔ ∀ hash ∈ hashes, some hash = hashes.head?
  referenceHash_eq : ∀ hash ∈ hashes.head?, v.m_referenceHash = hash
  firstDivergence_eq : ∀ slice,
    IsLeast {i | ∃ hash, hashes[i]? = some hash ∧ some hash ≠ hashes.head?} slice →
      v.m_firstDivergenceSlice = UInt32.ofNat slice
  firstDivergence_none : (∀ hash ∈ hashes, some hash = hashes.head?) →
    v.m_firstDivergenceSlice = 0
  uniqueHashCount_eq :
    v.uniqueHashCount.toNat = min MAX_UNIQUE_HASHES hashes.toFinset.card

/-- The least slice whose hash differs from the first one. -/
theorem divergence?_of_isLeast {hashes : List UInt64} {slice : ℕ}
    (h : IsLeast {i | ∃ hash, hashes[i]? = some hash ∧ some hash ≠ hashes.head?} slice) :
    divergence? hashes = some slice := by
  obtain ⟨⟨hash, hget, hne⟩, hleast⟩ := h
  obtain ⟨hlt, rfl⟩ := List.getElem?_eq_some_iff.mp hget
  rw [divergence?, List.findIdx?_eq_some_iff_getElem]
  refine ⟨hlt, by simpa using hne, fun j hj hdiffers => ?_⟩
  have hle := hleast ⟨hashes[j], List.getElem?_eq_getElem _, by simpa using hdiffers⟩
  omega

/-- What the validator has kept is what it reports. -/
theorem Watches.reportsHashes {v : DeterminismValidator XorHashAccumulator}
    {hashes : List UInt64} (h : Watches v hashes) : ReportsHashes v hashes where
  deterministic_iff := h.tracks.deterministic_iff
  referenceHash_eq := h.tracks.referenceHash_eq
  firstDivergence_eq := fun slice hslice => by
    rw [h.firstDivergence_eq, divergence?_of_isLeast hslice]
    rfl
  firstDivergence_none := fun hsame => by
    rw [h.firstDivergence_eq, divergence?_eq_none_iff.mpr hsame]
    rfl
  uniqueHashCount_eq := by
    rw [uniqueHashCount, h.collects.length_eq, UInt32.toNat_ofNat']
    exact Nat.mod_eq_of_lt (lt_of_le_of_lt (min_le_left _ _) (by decide))

/-- **What is reported** of every series of slices with one thread each. -/
theorem reportsHashes_validateSlices (hashes : List UInt64) :
    ReportsHashes ((init {}).validateSlices hashes) hashes :=
  (watches_validateSlices hashes).reportsHashes

/-- The first hash that differs behind a series of equal ones. -/
theorem isLeast_replicate_concat {n : ℕ} (hn : 0 < n) :
    let hashes : List UInt64 := List.replicate n 0 ++ [1]
    IsLeast {i | ∃ hash, hashes[i]? = some hash ∧ some hash ≠ hashes.head?} n := by
  intro hashes
  have hlength : (List.replicate n (0 : UInt64)).length = n := List.length_replicate
  have hhead : hashes.head? = some 0 := by
    rw [List.head?_append_of_ne_nil _ (List.ne_nil_of_length_pos (by omega)),
      List.head?_replicate, if_neg hn.ne']
  refine ⟨⟨1, ?_, by rw [hhead]; decide⟩, ?_⟩
  · rw [List.getElem?_append_right hlength.le, hlength, Nat.sub_self]
    rfl
  · rintro i ⟨hash, hget, hne⟩
    by_contra hlt
    rw [List.getElem?_append_left (by omega), List.getElem?_replicate, if_pos (by omega)] at hget
    rw [hhead, ← hget] at hne
    exact hne rfl

/-- **A first divergence behind `2 ^ 32` equal slices** is not reported. -/
theorem firstDivergenceSlice_wraps :
    let hashes : List UInt64 := List.replicate (2 ^ 32) 0 ++ [1]
    IsLeast {i | ∃ hash, hashes[i]? = some hash ∧ some hash ≠ hashes.head?} (2 ^ 32) ∧
      ((init ({} : XorHashAccumulator)).validateSlices hashes).m_firstDivergenceSlice.toNat ≠
        2 ^ 32 := by
  intro hashes
  exact ⟨isLeast_replicate_concat (Nat.two_pow_pos 32), (UInt32.toNat_lt _).ne⟩

/-- Forty different hashes, of which there is room for 32. -/
example :
    let v := (init ({} : XorHashAccumulator)).validateSlices ((List.range 40).map UInt64.ofNat)
    v.m_deterministic = false ∧ v.m_firstDivergenceSlice = 1 ∧ v.uniqueHashCount = 32 := by
  decide +kernel

end Hades.Runtime.DeterminismValidator
