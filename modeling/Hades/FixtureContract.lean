import Hades.FixtureCalls

/-!
# The Fixture's Contract

What the interface of a fixture promises its implementer (`Fixture.h`, `Adapter.h`), as a
monitor of the calls: one `startup()` at the start and one `teardown()` at the end, no other
call outside of these two, every `reset()` followed by the adapter's `synchronize()`, and a
hash that is taken only when the device has nothing left to do.

The life cycle of a run is a word of calls, and the monitor reads it part by part: a slice
leaves the device idle, so any number of slices does.

## Main results

* `monitor_append`, `monitor_flatten_replicate`: the monitor on a concatenation and on a
  repetition.
* `keepsContract_lifecycle_iff`: **the life cycle of a run keeps the contract exactly when it
  is a performance run**; a correctness run tears the fixture down before the reset is done.
* `exists_contract_iff`: the same of the runs themselves.
-/

namespace Hades.Runtime.SequentialRunner

variable {σ ε τ : Type}

/-- What the contract has seen of a fixture. -/
inductive Phase where
  /-- Nothing yet. -/
  | fresh
  /-- Started, possibly with device work under way. -/
  | busy
  /-- Started, with the device synchronised. -/
  | idle
  /-- Reset, and not synchronised since. -/
  | resetting
  /-- Torn down. -/
  | down
  deriving DecidableEq

/-- **The contract**: the calls that are allowed in a phase, and the phase after them. -/
def Phase.next : Phase → Call → Option Phase
  | .fresh, .startup => some .busy
  | .busy, .execute | .idle, .execute => some .busy
  | .busy, .recordEvent | .idle, .recordEvent => some .busy
  | .busy, .synchronize | .idle, .synchronize | .resetting, .synchronize => some .idle
  | .busy, .reset | .idle, .reset => some .resetting
  | .idle, .getDeterminismHash => some .idle
  | .busy, .teardown | .idle, .teardown => some .down
  | .down, .synchronize => some .down
  | _, _ => none

/-- The monitor: the phase after a series of calls, if the contract allows them all. -/
def monitor : Phase → List Call → Option Phase
  | phase, [] => some phase
  | phase, call :: rest => (phase.next call).bind fun after => monitor after rest

/-- **The contract of a whole run**: every call is allowed, and the fixture is torn down. -/
def KeepsContract (log : List Call) : Prop :=
  monitor .fresh log = some .down

instance (log : List Call) : Decidable (KeepsContract log) :=
  inferInstanceAs (Decidable (_ = _))

/-- One series of calls after another. -/
theorem monitor_append (phase : Phase) (xs ys : List Call) :
    monitor phase (xs ++ ys) = (monitor phase xs).bind fun after => monitor after ys := by
  induction xs generalizing phase with
  | nil => rfl
  | cons call xs ih =>
      rw [List.cons_append, monitor, monitor]
      cases phase.next call with
      | none => rfl
      | some after => exact ih after

/-- One series of calls after another that is allowed. -/
theorem monitor_append_of_some {phase after : Phase} {xs : List Call}
    (h : monitor phase xs = some after) (ys : List Call) :
    monitor phase (xs ++ ys) = monitor after ys := by
  rw [monitor_append, h, Option.bind_some]

/-- **A series that comes back to its phase** can be repeated. -/
theorem monitor_flatten_replicate {phase : Phase} {xs : List Call}
    (h : monitor phase xs = some phase) (n : ℕ) :
    monitor phase (List.replicate n xs).flatten = some phase := by
  induction n with
  | zero => rfl
  | succ n ih =>
      rw [List.replicate_succ, List.flatten_cons, monitor_append_of_some h]
      exact ih

/-! ### The parts of a run -/

/-- The executions of a slice. -/
theorem monitor_executions (n : ℕ) :
    monitor .busy (List.replicate n .execute) = some .busy := by
  have hone : monitor .busy [Call.execute] = some .busy := rfl
  have hmany := monitor_flatten_replicate hone n
  rwa [List.flatten_replicate_singleton] at hmany

/-- **A slice** leaves the device idle. -/
theorem monitor_sliceCalls {phase : Phase} (h : phase = .busy ∨ phase = .idle)
    (iterations : UInt64) : monitor phase (sliceCalls iterations) = some .idle := by
  have hevent : monitor phase [.recordEvent] = some .busy := by
    rcases h with rfl | rfl <;> rfl
  rw [sliceCalls, List.cons_append, ← List.singleton_append, monitor_append_of_some hevent,
    monitor_append_of_some (monitor_executions _)]
  rfl

/-- **A measured slice** is hashed with the device idle. -/
theorem monitor_measuredCalls (iterations : UInt64) :
    monitor .idle (measuredCalls iterations) = some .idle := by
  rw [measuredCalls, monitor_append_of_some (monitor_sliceCalls (.inr rfl) iterations)]
  rfl

/-- The warmup. -/
theorem monitor_warmup (n : ℕ) : ∃ after, (after = .busy ∨ after = .idle) ∧
    monitor .busy (List.replicate n [Call.execute, .synchronize]).flatten = some after := by
  cases n with
  | zero => exact ⟨.busy, .inl rfl, rfl⟩
  | succ n =>
      have hone : monitor .busy [Call.execute, .synchronize] = some .idle := rfl
      have hmore : monitor .idle [Call.execute, .synchronize] = some .idle := rfl
      refine ⟨.idle, .inr rfl, ?_⟩
      rw [List.replicate_succ, List.flatten_cons, monitor_append_of_some hone,
        monitor_flatten_replicate hmore]

/-- The sizing of the slices. -/
theorem monitor_sizingCalls {phase : Phase} (h : phase = .busy ∨ phase = .idle)
    (config : Config) : ∃ after, (after = .busy ∨ after = .idle) ∧
      monitor phase (sizingCalls config) = some after := by
  rw [sizingCalls]
  split
  · exact ⟨phase, h, rfl⟩
  · refine ⟨.idle, .inr rfl, ?_⟩
    rw [List.replicate_succ, List.flatten_cons,
      monitor_append_of_some (monitor_sliceCalls h 1)]
    exact monitor_flatten_replicate (monitor_sliceCalls (.inr rfl) 1) _

/-! ### Whole runs -/

/-- **The life cycle of a run** keeps the contract exactly in a performance run. -/
theorem keepsContract_lifecycle_iff (config : Config) (iterations : UInt64) (slices : ℕ) :
    KeepsContract (lifecycle config iterations slices) ↔ config.m_Kind = .Performance := by
  cases hkind : config.m_Kind with
  | Correctness =>
      rw [KeepsContract, lifecycle, hkind]
      simp [monitor, Phase.next]
  | Performance =>
      simp only [iff_true]
      have hstart : monitor .fresh [.startup] = some .busy := rfl
      obtain ⟨warm, hwarm, hwarmup⟩ := monitor_warmup config.m_WarmupCount.toNat
      obtain ⟨after, hafter, hsizing⟩ := monitor_sizingCalls hwarm config
      rw [KeepsContract, lifecycle, hkind]
      simp only [List.cons_append, List.append_assoc]
      rw [← List.singleton_append, monitor_append_of_some hstart,
        monitor_append_of_some hwarmup, monitor_append_of_some hsizing,
        monitor_append_of_some (monitor_sliceCalls hafter iterations),
        monitor_append_of_some
          (monitor_flatten_replicate (monitor_measuredCalls iterations) slices)]
      rfl

/-- **The contract of a run**, whatever the fixture, the adapter and the clock: every run ends,
and its calls keep the contract exactly when it is a performance run. -/
theorem exists_contract_iff (r : SequentialRunner σ ε τ) (sqrt : ℚ → ℚ) (config : Config)
    (state : σ) :
    ∃ n result w,
      (∀ fuel, r.logged.runThrough sqrt config (state, []) fuel =
        if n ≤ fuel then some (result, w) else none) ∧
      (KeepsContract (calls w) ↔ config.m_Kind = .Performance) := by
  cases hkind : config.m_Kind with
  | Correctness =>
      obtain ⟨result, w, hthrough, hcalls⟩ := r.exists_lifecycle_correctness sqrt hkind state
      exact ⟨0, result, w, hthrough, by rw [hcalls, keepsContract_lifecycle_iff, hkind]⟩
  | Performance =>
      obtain ⟨n, result, w, -, hthrough, hcalls⟩ :=
        r.exists_lifecycle_performance sqrt hkind state
      exact ⟨n, result, w, hthrough, by rw [hcalls, keepsContract_lifecycle_iff, hkind]⟩

end Hades.Runtime.SequentialRunner
