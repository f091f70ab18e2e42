import TickForge.BinaryRounding
import Mathlib.Data.List.Sort

/-!
# The latency profiler

A transcription of `LatencyProfiler`. Where floating-point arithmetic rounds is a
parameter: at every conversion and operation, as the machine does, only at the
conversions and sums, with products and quotients read as exact, or nowhere.
-/

namespace TickForge.LatencyProfilerModel

open BinaryRounding

set_option autoImplicit false

section Arithmetic

/-- What becomes of the exact results of `double` and `long double` arithmetic:
conversions of either type, sums of `long double`, products and quotients of either. -/
structure FloatArithmetic where
  toDouble : Rat → Rat
  toLongDouble : Rat → Rat
  addLongDouble : Rat → Rat
  doubleResult : Rat → Rat
  longDoubleResult : Rat → Rat

/-- Every result is rounded to the digits of its type; `long double` has as many as the
platform gives it. -/
def machineArithmetic (longDigits : Nat) : FloatArithmetic where
  toDouble := roundDigits 53
  toLongDouble := roundDigits longDigits
  addLongDouble := roundDigits longDigits
  doubleResult := roundDigits 53
  longDoubleResult := roundDigits longDigits

/-- Nothing is rounded. -/
def exactArithmetic : FloatArithmetic where
  toDouble := id
  toLongDouble := id
  addLongDouble := id
  doubleResult := id
  longDoubleResult := id

/-- Products and quotients are exact; conversions and sums are rounded. -/
def exactProducts (longDigits : Nat) : FloatArithmetic :=
  { machineArithmetic longDigits with doubleResult := id, longDoubleResult := id }

end Arithmetic

section Profiler

structure LatencyProfiler where
  samples : List Nat := []
  deriving DecidableEq, Repr

structure LatencyStats where
  count : Nat := 0
  minNs : Nat := 0
  maxNs : Nat := 0
  meanNs : Rat := 0
  p50Ns : Rat := 0
  p95Ns : Rat := 0
  p99Ns : Rat := 0
  throughputEventsPerSec : Rat := 0
  deriving DecidableEq, Repr

def clear (_ : LatencyProfiler) : LatencyProfiler := { samples := [] }

def record (profiler : LatencyProfiler) (latencyNs : Nat) : LatencyProfiler :=
  { samples := profiler.samples ++ [latencyNs] }

variable (arithmetic : FloatArithmetic)

/-- The index of the nearest-rank percentile `q`, clamped as the code clamps it. -/
def percentileIndex (count : Nat) (q : Rat) : Nat :=
  let rank := ⌈arithmetic.doubleResult (q * arithmetic.toDouble count)⌉.toNat
  if rank = 0 then 0 else min (rank - 1) (count - 1)

theorem percentile_index_lt {count : Nat} (counted : 0 < count) (q : Rat) :
    percentileIndex arithmetic count q < count := by
  unfold percentileIndex
  dsimp only
  split_ifs <;> omega

/-- The lambda `percentile`; the literal it is called with is a quotient of decimals. -/
def percentile (sorted : List Nat) (q : Rat) : Rat :=
  let index := percentileIndex arithmetic sorted.length (arithmetic.doubleResult q)
  arithmetic.toDouble (sorted.getD index 0)

/-- The running sum in `long double`. -/
def sampleSum (samples : List Nat) : Rat :=
  samples.foldl (fun (acc : Rat) (value : Nat) =>
    arithmetic.addLongDouble (acc + arithmetic.toLongDouble value)) 0

def stats (profiler : LatencyProfiler) (elapsedNs : Nat) : LatencyStats :=
  if profiler.samples = [] then {}
  else
    let sorted := profiler.samples.mergeSort
    let sum := sampleSum arithmetic profiler.samples
    let count : Rat := profiler.samples.length
    { count := profiler.samples.length
      minNs := sorted.head?.getD 0
      maxNs := sorted.getLast?.getD 0
      meanNs := arithmetic.toDouble
        (arithmetic.longDoubleResult (sum / arithmetic.toLongDouble count))
      p50Ns := percentile arithmetic sorted (50 / 100)
      p95Ns := percentile arithmetic sorted (95 / 100)
      p99Ns := percentile arithmetic sorted (99 / 100)
      throughputEventsPerSec :=
        if 0 < elapsedNs then
          arithmetic.doubleResult
            (arithmetic.doubleResult (arithmetic.toDouble count * 1000000000) /
              arithmetic.toDouble elapsedNs)
        else 0 }

theorem stats_count (profiler : LatencyProfiler) (elapsedNs : Nat) :
    (stats arithmetic profiler elapsedNs).count = profiler.samples.length := by
  unfold stats
  by_cases empty : profiler.samples = []
  · rw [if_pos empty, empty]
    rfl
  · rw [if_neg empty]

end Profiler

end TickForge.LatencyProfilerModel
