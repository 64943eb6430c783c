import Hades.SequentialRunner
import Mathlib.Data.Rat.Floor

/-!
# The Clocks

The two clocks of a run (`HadesChrono.cpp`). The steady clock counts nanoseconds; the other
one reads the time-stamp counter, 64 bits of a count of ticks, and scales the difference of
two readings by a calibrated number of nanoseconds for each tick.

A run adds up spans between readings. It counts on a clock that **loses nothing**: two spans
next to each other are together no longer than the span over both. The difference of two
readings of the counter is taken modulo `2 ^ 64`, so the counter may start over in between.

## Main results

* `toNat_delta_rdtscClock`: the span between two readings of the counter is exact, up to the
  fraction of a nanosecond, also where the counter starts over.
* `losesNothing_steadyClock`, `losesNothing_rdtscClock`: **both clocks lose nothing** over a
  span that their results can hold.
-/

namespace Hades.Runtime

variable {τ : Type}

/-- **The clock loses nothing** over its first `n` readings. -/
def IChronoPoint.LosesNothing (chrono : IChronoPoint τ) (n : ℕ) : Prop :=
  ∀ i j k, i ≤ j → j ≤ k → k < n →
    (chrono.delta (chrono.now i) (chrono.now j)).toNat +
      (chrono.delta (chrono.now j) (chrono.now k)).toNat ≤
        (chrono.delta (chrono.now i) (chrono.now k)).toNat

/-- The steady clock, at the given nanoseconds. -/
def steadyClock (time : ℕ → ℤ) : IChronoPoint ℤ where
  now := time
  delta v_Begin v_End := UInt64.ofInt (v_End - v_Begin)

/-- The time-stamp counter, at the given ticks since it was last zero. -/
def rdtscClock (ticks : ℕ → ℕ) (s_nsPerTick : ℚ) : IChronoPoint UInt64 where
  now n := UInt64.ofNat (ticks n)
  delta v_Begin v_End := UInt64.ofNat ⌊((v_End - v_Begin).toNat : ℚ) * s_nsPerTick⌋.toNat

/-- The calibration of the counter against the steady clock, from the readings around it. -/
def internalCalibrate (tscStart tscEnd : UInt64) (t0 t1 : ℤ) : ℚ :=
  let ticks := tscEnd - tscStart
  let ns := t1 - t0
  if ticks > 0 then ns / ticks.toNat else 1

/-- A calibration over some time gives a positive rate. -/
theorem internalCalibrate_pos (tscStart tscEnd : UInt64) {t0 t1 : ℤ} (h : t0 < t1) :
    0 < internalCalibrate tscStart tscEnd t0 t1 := by
  rw [internalCalibrate]
  split
  next hticks =>
    have hpos : 0 < (tscEnd - tscStart).toNat := UInt64.lt_iff_toNat_lt.mp hticks
    have hns : (0 : ℚ) < ((t1 - t0 : ℤ) : ℚ) := by exact_mod_cast sub_pos.mpr h
    exact div_pos hns (by exact_mod_cast hpos)
  next => exact one_pos

/-! ### The steady clock -/

/-- A span of the steady clock that fits its result. -/
theorem toNat_delta_steadyClock {time : ℕ → ℤ} {i j : ℕ} (hle : time i ≤ time j)
    (hlt : time j - time i < 2 ^ 64) :
    (((steadyClock time).delta ((steadyClock time).now i) ((steadyClock time).now j)).toNat : ℤ) =
      time j - time i := by
  have hdelta : (steadyClock time).delta ((steadyClock time).now i) ((steadyClock time).now j) =
      UInt64.ofNat ((time j - time i) % 2 ^ 64).toNat := rfl
  rw [hdelta, UInt64.toNat_ofNat']
  omega

/-- **The steady clock loses nothing** as long as it does not go back. -/
theorem losesNothing_steadyClock {time : ℕ → ℤ} {n : ℕ} (hmono : ∀ i j, i ≤ j → time i ≤ time j)
    (hspan : ∀ k < n, time k - time 0 < 2 ^ 64) : (steadyClock time).LosesNothing n := by
  intro i j k hij hjk hk
  have h0 := hmono 0 i (Nat.zero_le i)
  have h1 := hmono i j hij
  have h2 := hmono j k hjk
  have h3 := hspan k hk
  have hfirst := toNat_delta_steadyClock h1 (by omega)
  have hsecond := toNat_delta_steadyClock h2 (by omega)
  have hwhole := toNat_delta_steadyClock (h1.trans h2) (by omega)
  omega

/-! ### The time-stamp counter -/

/-- The ticks between two readings, also where the counter starts over. -/
theorem toNat_sub_ofNat {a b : ℕ} (hle : a ≤ b) (hlt : b - a < 2 ^ 64) :
    (UInt64.ofNat b - UInt64.ofNat a).toNat = b - a := by
  rw [UInt64.toNat_sub, UInt64.toNat_ofNat', UInt64.toNat_ofNat']
  omega

/-- **A span of the counter** is its ticks in nanoseconds, rounded down. -/
theorem toNat_delta_rdtscClock {ticks : ℕ → ℕ} {s_nsPerTick : ℚ} {i j : ℕ}
    (hle : ticks i ≤ ticks j) (hlt : ticks j - ticks i < 2 ^ 64) (hrate : 0 ≤ s_nsPerTick)
    (hfits : ((ticks j - ticks i : ℕ) : ℚ) * s_nsPerTick < 2 ^ 64) :
    (((rdtscClock ticks s_nsPerTick).delta ((rdtscClock ticks s_nsPerTick).now i)
      ((rdtscClock ticks s_nsPerTick).now j)).toNat : ℤ) =
        ⌊((ticks j - ticks i : ℕ) : ℚ) * s_nsPerTick⌋ := by
  have hnonneg : 0 ≤ ⌊((ticks j - ticks i : ℕ) : ℚ) * s_nsPerTick⌋ :=
    Int.floor_nonneg.mpr (mul_nonneg (Nat.cast_nonneg _) hrate)
  have hsmall : ⌊((ticks j - ticks i : ℕ) : ℚ) * s_nsPerTick⌋ < 2 ^ 64 := by
    rw [Int.floor_lt]
    exact_mod_cast hfits
  have hdelta : (rdtscClock ticks s_nsPerTick).delta ((rdtscClock ticks s_nsPerTick).now i)
      ((rdtscClock ticks s_nsPerTick).now j) =
        UInt64.ofNat ⌊((UInt64.ofNat (ticks j) - UInt64.ofNat (ticks i)).toNat : ℚ) *
          s_nsPerTick⌋.toNat := rfl
  rw [hdelta, toNat_sub_ofNat hle hlt, UInt64.toNat_ofNat']
  omega

/-- **The counter loses nothing**, and may start over during the run: it is enough that it
does not go back, and that the whole span fits the counter and the result. -/
theorem losesNothing_rdtscClock {ticks : ℕ → ℕ} {s_nsPerTick : ℚ} {n : ℕ}
    (hmono : ∀ i j, i ≤ j → ticks i ≤ ticks j) (hrate : 0 ≤ s_nsPerTick)
    (hspan : ∀ k < n, ticks k - ticks 0 < 2 ^ 64)
    (hfits : ∀ k < n, ((ticks k - ticks 0 : ℕ) : ℚ) * s_nsPerTick < 2 ^ 64) :
    (rdtscClock ticks s_nsPerTick).LosesNothing n := by
  intro i j k hij hjk hk
  have h0 := hmono 0 i (Nat.zero_le i)
  have h1 := hmono i j hij
  have h2 := hmono j k hjk
  have h3 := hspan k hk
  have hwithin : ∀ a ≤ ticks k - ticks 0, ((a : ℕ) : ℚ) * s_nsPerTick < 2 ^ 64 := by
    intro a ha
    refine lt_of_le_of_lt (mul_le_mul_of_nonneg_right ?_ hrate) (hfits k hk)
    exact_mod_cast ha
  have hfirst := toNat_delta_rdtscClock h1 (by omega) hrate (hwithin _ (by omega))
  have hsecond := toNat_delta_rdtscClock h2 (by omega) hrate (hwithin _ (by omega))
  have hwhole := toNat_delta_rdtscClock (h1.trans h2) (by omega) hrate (hwithin _ (by omega))
  have hsum : ((ticks j - ticks i : ℕ) : ℚ) * s_nsPerTick +
      ((ticks k - ticks j : ℕ) : ℚ) * s_nsPerTick =
        ((ticks k - ticks i : ℕ) : ℚ) * s_nsPerTick := by
    rw [← add_mul, ← Nat.cast_add]
    congr 2
    omega
  have hfloor := Int.le_floor_add (((ticks j - ticks i : ℕ) : ℚ) * s_nsPerTick)
    (((ticks k - ticks j : ℕ) : ℚ) * s_nsPerTick)
  rw [hsum, ← hfirst, ← hsecond, ← hwhole] at hfloor
  exact_mod_cast hfloor

end Hades.Runtime
