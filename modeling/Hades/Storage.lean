import Hades.InPlaceSort
import Hades.SuiteEndings

/-!
# Storage of Results

A storage backend takes one result after another (`Storage.h`), and a listener hands it the
results of a suite (`StorageListener`). The backend in memory (`HadesStorage.h`) keeps them in
an array of fixed size: a result for which there is no room is dropped, and a build with checks
traps on it.

## Main results

* `StorageListener.foldl_handle_run`: a backend behind a listener stores **the results of the
  queued tests**, in order.
* `MemoryStorageBackend.history_holds`: after any history of calls the memory holds **the first
  results since it was cleared last**, as many as fit, and a build with checks gets through
  exactly the histories that never store more.
-/

namespace Hades.Runtime

/-- A storage backend. -/
class IStorageBackend (D : Type) where
  storeImpl : D → BenchmarkResult → D

/-- Hand a result to the backend. -/
def IStorageBackend.store {D : Type} [IStorageBackend D] (backend : D)
    (result : BenchmarkResult) : D :=
  storeImpl backend result

/-! ### The listener -/

namespace StorageListener

variable {D : Type} [IStorageBackend D]

/-- A call of the listener: it stores the result of a test that completes. -/
def handle (m_backend : D) : ListenerEvent → D
  | .onTestComplete _ result => IStorageBackend.store m_backend result
  | _ => m_backend

/-- The calls of a run store the results that complete. -/
theorem foldl_handle (m_backend : D) (listener : ℕ) (actions : List DriverAction) :
    (eventsFor listener actions).foldl handle m_backend =
      (completedResults listener actions).foldl IStorageBackend.store m_backend := by
  rw [completedResults]
  induction eventsFor listener actions generalizing m_backend with
  | nil => rfl
  | cons event events ih =>
      rw [List.foldl_cons, ih]
      cases event <;> rfl

/-- **A backend behind a listener** stores the results of the queued tests, in order. -/
theorem foldl_handle_run (m_backend : D) (driver : SuiteDriver) {listener listeners : ℕ}
    (h : listener < listeners) :
    (eventsFor listener (driver.run listeners)).foldl handle m_backend =
      (driver.m_tests.zipIdx.map fun t => driver.testResult t.2 t.1).foldl
        IStorageBackend.store m_backend := by
  rw [foldl_handle, driver.completedResults_run h]

end StorageListener

/-! ### Results in memory -/

/-- The results that fit. -/
abbrev MAX_STORED_RESULTS : ℕ := 1024

/-- Results in memory. The count never exceeds the array. -/
structure MemoryStorageBackend where
  m_Results : Vector BenchmarkResult MAX_STORED_RESULTS := Vector.replicate _ {}
  m_Count : UInt32 := 0
  count_le : m_Count.toNat ≤ MAX_STORED_RESULTS := by decide

/-- A call of the backend in memory. -/
inductive StorageCall where
  | store (result : BenchmarkResult)
  | clear

/-- The result that a call stores. -/
def StorageCall.result? : StorageCall → Option BenchmarkResult
  | .store result => some result
  | .clear => none

namespace MemoryStorageBackend

/-- The count after one more result that fits. -/
theorem toNat_succ {count : UInt32} (h : count.toNat < MAX_STORED_RESULTS) :
    (count + 1).toNat = count.toNat + 1 := by
  have hmax : MAX_STORED_RESULTS = 1024 := rfl
  rw [UInt32.toNat_add, UInt32.toNat_one]
  omega

/-- Store a result, if there is room for it. -/
def storeImpl (backend : MemoryStorageBackend) (result : BenchmarkResult) :
    MemoryStorageBackend :=
  if h : backend.m_Count.toNat < MAX_STORED_RESULTS then
    { m_Results := backend.m_Results.set backend.m_Count.toNat result h
      m_Count := backend.m_Count + 1
      count_le := (toNat_succ h).trans_le h }
  else backend

instance : IStorageBackend MemoryStorageBackend where
  storeImpl := storeImpl

/-- Store a result in a build with checks, which traps where there is no room for it. -/
def storeChecked (backend : MemoryStorageBackend) (result : BenchmarkResult) :
    Option MemoryStorageBackend :=
  if MAX_STORED_RESULTS ≤ backend.m_Count.toNat then none else some (backend.storeImpl result)

/-- The number of results. -/
def count (backend : MemoryStorageBackend) : UInt32 :=
  backend.m_Count

/-- The result at a position, unless the check of the position traps. -/
def resultAt (backend : MemoryStorageBackend) (v_Index : UInt32) : Option BenchmarkResult :=
  if v_Index < backend.m_Count then backend.m_Results[v_Index.toNat]? else none

/-- Forget all results; the array stays as it is. -/
def clear (backend : MemoryStorageBackend) : MemoryStorageBackend :=
  { backend with m_Count := 0, count_le := Nat.zero_le _ }

/-- The results that are in use. -/
def stored (backend : MemoryStorageBackend) : List BenchmarkResult :=
  backend.m_Results.toList.take backend.m_Count.toNat

@[simp] theorem length_stored (backend : MemoryStorageBackend) :
    backend.stored.length = backend.m_Count.toNat := by
  rw [stored, List.length_take, Vector.length_toList]
  exact min_eq_left backend.count_le

/-- **The result at a position** is the one that was stored there. -/
theorem resultAt_eq (backend : MemoryStorageBackend) (v_Index : UInt32) :
    backend.resultAt v_Index = backend.stored[v_Index.toNat]? := by
  have hlt : v_Index < backend.m_Count ↔ v_Index.toNat < backend.m_Count.toNat :=
    UInt32.lt_iff_toNat_lt
  rw [resultAt, stored]
  by_cases h : v_Index.toNat < backend.m_Count.toNat
  · rw [if_pos (hlt.mpr h), List.getElem?_take_of_lt h, Vector.getElem?_toList]
  · rw [if_neg (mt hlt.mp h), List.getElem?_eq_none]
    rw [List.length_take]
    omega

/-- **A result is stored behind the others**, or dropped if there is no room. -/
theorem stored_storeImpl (backend : MemoryStorageBackend) (result : BenchmarkResult) :
    (backend.storeImpl result).stored =
      (backend.stored ++ [result]).take MAX_STORED_RESULTS := by
  have hlength := backend.length_stored
  have hle := backend.count_le
  rw [storeImpl]
  split
  next h =>
    have hfits : (backend.stored ++ [result]).length ≤ MAX_STORED_RESULTS := by
      rw [List.length_append, List.length_singleton]
      omega
    have hsucc := InPlaceSort.take_succ
      (backend.m_Results.set backend.m_Count.toNat result h) h
    rw [List.take_of_length_le hfits, stored, stored, toNat_succ h, hsucc,
      InPlaceSort.take_set_self, Vector.getElem_set_self]
  next h =>
    rw [List.take_append_of_le_length (by omega), List.take_of_length_le (by omega)]

/-! ### Histories -/

/-- One call. -/
def call (backend : MemoryStorageBackend) : StorageCall → MemoryStorageBackend
  | .store result => IStorageBackend.store backend result
  | .clear => backend.clear

/-- One call in a build with checks. -/
def callChecked (backend : MemoryStorageBackend) : StorageCall → Option MemoryStorageBackend
  | .store result => backend.storeChecked result
  | .clear => some backend.clear

/-- A series of calls of a fresh backend. -/
def history (calls : List StorageCall) : MemoryStorageBackend :=
  calls.foldl call {}

/-- A series of calls in a build with checks. -/
def historyChecked (calls : List StorageCall) : Option MemoryStorageBackend :=
  calls.foldlM callChecked {}

/-- **The results since the last clear**, or since the start. -/
def sinceClear (calls : List StorageCall) : List BenchmarkResult :=
  (calls.rtakeWhile fun c => c.result?.isSome).filterMap StorageCall.result?

theorem take_concat_take {α : Type} (n : ℕ) (xs : List α) (x : α) :
    (xs.take n ++ [x]).take n = (xs ++ [x]).take n := by
  rcases Nat.le_total xs.length n with h | h
  · rw [List.take_of_length_le h]
  · have hlength : n ≤ (xs.take n).length := by rw [List.length_take, min_eq_left h]
    rw [List.take_append_of_le_length hlength, List.take_append_of_le_length h, List.take_take,
      min_self]

theorem sinceClear_concat_store (calls : List StorageCall) (result : BenchmarkResult) :
    sinceClear (calls ++ [.store result]) = sinceClear calls ++ [result] := by
  rw [sinceClear, List.rtakeWhile_concat_pos _ _ _ rfl, List.filterMap_append]
  rfl

theorem sinceClear_concat_clear (calls : List StorageCall) :
    sinceClear (calls ++ [.clear]) = [] := by
  rw [sinceClear, List.rtakeWhile_concat_neg _ _ _ (by decide)]
  rfl

/-- **The memory after any history** holds the first results since the last clear. -/
theorem stored_history (calls : List StorageCall) :
    (history calls).stored = (sinceClear calls).take MAX_STORED_RESULTS := by
  induction calls using List.reverseRecOn with
  | nil => rfl
  | append_singleton calls last ih =>
      have hlast : history (calls ++ [last]) = (history calls).call last := by
        rw [history, List.foldl_append]
        rfl
      cases last with
      | store result =>
          have hstore : (history calls).call (.store result) =
              (history calls).storeImpl result := rfl
          rw [hlast, hstore, stored_storeImpl, ih, sinceClear_concat_store, take_concat_take]
      | clear =>
          rw [hlast, sinceClear_concat_clear]
          rfl

/-- The count after any history. -/
theorem toNat_count_history (calls : List StorageCall) :
    (history calls).count.toNat = min MAX_STORED_RESULTS (sinceClear calls).length := by
  rw [count, ← length_stored, stored_history, List.length_take]

/-- No period between two clears stores more results than fit. -/
def Fits (calls : List StorageCall) : Prop :=
  ∀ pre, pre <+: calls → (sinceClear pre).length ≤ MAX_STORED_RESULTS

/-- One more call. -/
theorem fits_concat (calls : List StorageCall) (last : StorageCall) :
    Fits (calls ++ [last]) ↔
      Fits calls ∧ (sinceClear (calls ++ [last])).length ≤ MAX_STORED_RESULTS := by
  constructor
  · exact fun h => ⟨fun pre hpre => h pre (hpre.trans (List.prefix_append _ _)),
      h _ (List.prefix_refl _)⟩
  · rintro ⟨hcalls, hlast⟩ pre hpre
    rcases List.prefix_concat_iff.mp hpre with rfl | hpre
    · exact hlast
    · exact hcalls pre hpre

/-- One more call of a build with checks, which traps where there is no room. -/
theorem callChecked_history {calls : List StorageCall} (h : Fits calls) (last : StorageCall) :
    (history calls).callChecked last =
      if (sinceClear (calls ++ [last])).length ≤ MAX_STORED_RESULTS then
        some (history (calls ++ [last])) else none := by
  have hlast : history (calls ++ [last]) = (history calls).call last := by
    rw [history, List.foldl_append]
    rfl
  cases last with
  | store result =>
      have hcount : (history calls).m_Count.toNat = (sinceClear calls).length :=
        (toNat_count_history calls).trans (min_eq_right (h calls (List.prefix_refl _)))
      rw [callChecked, storeChecked, hcount, sinceClear_concat_store, List.length_append,
        List.length_singleton, hlast]
      by_cases hfull : MAX_STORED_RESULTS ≤ (sinceClear calls).length
      · rw [if_pos hfull, if_neg (by omega)]
      · rw [if_neg hfull, if_pos (by omega)]
        rfl
  | clear =>
      have hnone : (sinceClear (calls ++ [.clear])).length ≤ MAX_STORED_RESULTS := by
        rw [sinceClear_concat_clear]
        exact Nat.zero_le _
      rw [if_pos hnone, hlast]
      rfl

/-- **A build with checks** gets through exactly the histories in which every result fits, and
does the same there. -/
theorem historyChecked_eq_some_iff (calls : List StorageCall) (backend : MemoryStorageBackend) :
    historyChecked calls = some backend ↔ Fits calls ∧ history calls = backend := by
  induction calls using List.reverseRecOn generalizing backend with
  | nil =>
      have hfits : Fits [] := by
        intro pre hpre
        rw [List.prefix_nil.mp hpre]
        exact Nat.zero_le _
      simp only [hfits, true_and]
      exact Option.some_inj
  | append_singleton calls last ih =>
      have hlast : historyChecked (calls ++ [last]) =
          (historyChecked calls).bind fun backend => backend.callChecked last := by
        rw [historyChecked, List.foldlM_append]
        simp only [List.foldlM_cons, List.foldlM_nil, bind_pure]
        rfl
      rw [hlast, Option.bind_eq_some_iff, fits_concat]
      constructor
      · rintro ⟨before, hbefore, hcall⟩
        obtain ⟨hfits, rfl⟩ := (ih before).mp hbefore
        rw [callChecked_history hfits] at hcall
        split at hcall
        next hlength => exact ⟨⟨hfits, hlength⟩, Option.some.inj hcall⟩
        next => cases hcall
      · rintro ⟨⟨hfits, hlength⟩, rfl⟩
        refine ⟨history calls, (ih _).mpr ⟨hfits, rfl⟩, ?_⟩
        rw [callChecked_history hfits, if_pos hlength]

/-- **The memory after any history of calls**: it holds the first results since it was cleared
last, as many as fit, each at its position; a build with checks gets through exactly the
histories in which all of them fit. -/
theorem history_holds (calls : List StorageCall) :
    (history calls).stored = (sinceClear calls).take MAX_STORED_RESULTS ∧
      (∀ v_Index : UInt32, (history calls).resultAt v_Index =
        ((sinceClear calls).take MAX_STORED_RESULTS)[v_Index.toNat]?) ∧
      ∀ backend, historyChecked calls = some backend ↔ Fits calls ∧ history calls = backend := by
  refine ⟨stored_history calls, fun v_Index => ?_, historyChecked_eq_some_iff calls⟩
  rw [resultAt_eq, stored_history]

end MemoryStorageBackend

end Hades.Runtime
