import Mathlib.Data.Rat.Defs
import Mathlib.Tactic.Common

/-!
# Benchmark Results

The result record of one benchmark run (`BenchmarkResult.h`). A `double` is modelled by
the rational it stands for. The default value of the structure is the value-initialised
`BenchmarkResult{}` of the source: every field is zero, and the zero of `StopReason` is its
first enumerator.
-/

namespace Hades.Runtime

/-- Why a slice loop ended. -/
inductive StopReason where
  | CvConverged
  | HardCapReached
  | ConsecutiveDiscards
  | TotalDiscards
  | NotStopped
  deriving DecidableEq, Repr

/-- The name of a stop reason as the listeners print it. -/
def stopReasonName : StopReason → String
  | .CvConverged => "cv-converged"
  | .HardCapReached => "hard-cap"
  | .ConsecutiveDiscards => "consecutive-discards"
  | .TotalDiscards => "total-discards"
  | .NotStopped => "not-stopped"

/-- The result of one run, with the source's fields in the source's order. -/
structure BenchmarkResult where
  totalRunTime : ℚ := 0
  meanThroughput : ℚ := 0
  stddev : ℚ := 0
  cv : ℚ := 0
  finalSliceWallTime : ℚ := 0
  sliceCount : UInt32 := 0
  threadCount : UInt32 := 0
  iterationsPerSlice : UInt64 := 0
  minSlices : UInt32 := 0
  maxSlices : UInt32 := 0
  cvThreshold : ℚ := 0
  warmupCount : UInt32 := 0
  uniqueHashCount : UInt32 := 0
  referenceHash : UInt64 := 0
  firstDivergenceSlice : UInt32 := 0
  deterministic : Bool := false
  runFailed : Bool := false
  stopReason : StopReason := .CvConverged
  totalDiscards : UInt32 := 0
  maxConsecutiveDiscards : UInt32 := 0
  levelShifts : UInt32 := 0
  medianSliceWallTime : ℚ := 0
  isGpuRun : Bool := false
  cpuWallTimeMean : ℚ := 0
  cpuWallTimeStddev : ℚ := 0
  deviceKernelTimeMean : ℚ := 0
  deviceKernelTimeStddev : ℚ := 0
  driverOverheadMean : ℚ := 0
  driverOverheadStddev : ℚ := 0
  pcieTransferTime : ℚ := 0
  isHotspotRun : Bool := false
  readDivergenceRatio : ℚ := 0
  writeDivergenceRatio : ℚ := 0
  deriving DecidableEq

end Hades.Runtime
