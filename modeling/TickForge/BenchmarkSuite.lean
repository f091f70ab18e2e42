import TickForge.BenchmarkWorkload
import TickForge.PipelineCompletion
import TickForge.SpscHandoff

/-!
# The benchmarks do the same work

The order book benchmark, the replay benchmark and the ring benchmark run one
workload. The first two store the quantity the generator has left in its list,
whatever the threads of the second do; the third passes every event on.
-/

namespace TickForge.BenchmarkSuite

open StepRuns MarketEventModel OrderBookModel StrictReference Int64DepthModel Int64Depth
open RingBufferModel LatencyProfilerModel ReplayEngineModel ReplayAgreement PipelineCompletion
open ActiveOrders BenchmarkWorkload QueueHandoffModel SpscHandoff

set_option autoImplicit false

section Benchmarks

/-- The operations `run_order_book_benchmark` reports and the depth it stores; `none`
where an `int64_t` addition overflows. -/
def runOrderBookBenchmark (eventCount : Nat) : Option (Nat × Int) :=
  let events := generateBenchmarkEvents eventCount
  (run64 {} events).bind fun book =>
    (totalDepth64 book .buy).bind fun bids =>
      (totalDepth64 book .sell).bind fun asks =>
        (addInt64 bids asks).map fun sink => (events.length, sink)

/-- The engine of `run_replay_benchmark`. -/
def benchmarkEngine : ReplayEngine := { config := { mode := .max } }

/-- The depth `run_replay_benchmark` stores. -/
def replaySink (summary : ReplaySummary) : Option Int :=
  addInt64 summary.finalTotalBuyDepth summary.finalTotalSellDepth

/-- The capacity `run_ring_buffer_benchmark` asks for. -/
def benchmarkRingCapacity : Nat := 1024

end Benchmarks

section Agreement

variable {count : Nat}

/-- What the generator has left in its list. -/
def leftQuantity (count : Nat) : Int := ((workloadAfter count).active.map ActiveOrder.quantity).sum

theorem workload_produced (bounded : count ≤ 2 ^ 56) :
    ∀ seen ≤ (generateBenchmarkEvents count).length,
      Produces ((generateBenchmarkEvents count).take seen) (workloadAfter seen).active := by
  intro seen within
  have early : seen ≤ count := within.trans (workload_length count bounded).le
  rcases Nat.exists_eq_add_of_le early with ⟨later, rfl⟩
  have taken : (generateBenchmarkEvents (seen + later)).take seen = (workloadAfter seen).events :=
    workload_take seen later bounded
  rw [taken]
  exact (workload_invariant seen (early.trans bounded)).produces

theorem workload_fed (bounded : count ≤ 2 ^ 56) :
    outputs applyEvent {} (generateBenchmarkEvents count) = List.replicate count true ∧
      run64 {} (generateBenchmarkEvents count) =
        some (finalState applyEvent {} (generateBenchmarkEvents count)) := by
  have length := workload_length count bounded
  have fed := tracked_feed (workload_produced bounded) (by
    intro seen within
    have early : seen ≤ 2 ^ 56 := (within.trans length.le).trans bounded
    exact workload_quantity (workload_invariant seen early) early)
  refine ⟨?_, fed.2⟩
  have answered := fed.1
  rwa [show (generateBenchmarkEvents count).length = count from length] at answered

/-- The two sides of the list make up the whole of it. -/
theorem sides_make_up (active : List ActiveOrder) :
    (active.map (sideQuantity .buy)).sum + (active.map (sideQuantity .sell)).sum =
      (active.map ActiveOrder.quantity).sum := by
  induction active with
  | nil => rfl
  | cons order rest ih =>
      have here : sideQuantity .buy order + sideQuantity .sell order = order.quantity := by
        unfold sideQuantity
        cases order.side <;> simp
      simp only [List.map_cons, List.sum_cons]
      omega

theorem side_quantity_nonneg {active : List ActiveOrder}
    (positive : ∀ order ∈ active, 0 < order.quantity) (side : Side) :
    0 ≤ (active.map (sideQuantity side)).sum := by
  apply List.sum_nonneg
  intro quantity listed
  rcases List.mem_map.mp listed with ⟨order, member, rfl⟩
  have held := positive order member
  unfold sideQuantity
  split_ifs <;> omega

/-- The final book of the workload holds what is left, and both sides fit together in
64 bits. -/
theorem workload_depths (bounded : count ≤ 2 ^ 56) :
    let book := finalState applyEvent {} (generateBenchmarkEvents count)
    addInt64 (totalDepth book .buy) (totalDepth book .sell) = some (leftQuantity count) ∧
      ∀ side, totalDepth64 book side = some (totalDepth book side) := by
  intro book
  have invariant := workload_invariant count bounded
  have small : leftQuantity count < 2 ^ 63 := workload_quantity invariant bounded
  have whole : _ + _ = leftQuantity count := sides_make_up (workloadAfter count).active
  have nonneg := side_quantity_nonneg (produces_positive invariant.produces)
  have refines := (strict_run_refines (generateBenchmarkEvents count)).2.2
  have depth : ∀ side, totalDepth book side =
      ((workloadAfter count).active.map (sideQuantity side)).sum := by
    intro side
    rw [refined_total_depth refines]
    exact produces_side_depth invariant.produces side
  constructor
  · rw [add_int64_eq_some_iff, depth, depth, whole]
    have buys := nonneg .buy
    have sells := nonneg .sell
    refine ⟨rfl, ?_, small⟩
    omega
  · intro side
    have buys := nonneg .buy
    have sells := nonneg .sell
    have fits : totalDepth book side < 2 ^ 63 := by
      rw [depth]
      cases side <;> omega
    rw [refined_total_depth refines] at fits
    rw [refined_total_depth64 refines side fits, refined_resting_on_side refines,
      refined_total_depth refines]

/-- For every count the three benchmarks run that many operations. The order book
benchmark and, in every interleaving that ends, the replay benchmark store the same
depth, which is what the generator has left, and the ring benchmark counts every id. -/
theorem benchmarks_finish_the_same_work (count : Nat) (bounded : count < 2 ^ 56) :
    let events := generateBenchmarkEvents count
    runOrderBookBenchmark count = some (count, leftQuantity count) ∧
      (∃ ring, construct benchmarkEngine.config.ringCapacity = some ring ∧
        ∀ state,
          Relation.ReflTransGen PipelineStep (startPipeline benchmarkEngine ring events) state →
            (∃ last, Relation.ReflTransGen PipelineStep state last ∧ Finished last) ∧
              (Finished state → ∀ (arithmetic : FloatArithmetic) (elapsedNs : Nat),
                let summary := summarize arithmetic state.body elapsedNs
                summary.eventsProcessed = count ∧ summary.rejectedEvents = 0 ∧
                  replaySink summary = some (leftQuantity count))) ∧
      ∃ finished, runRingBufferBenchmark benchmarkRingCapacity events = some finished ∧
        finished.checksum = (events.map fun event => BitVec.ofNat 64 event.orderId).sum := by
  intro events
  have length : events.length = count := workload_length count bounded.le
  have fed := workload_fed bounded.le
  have depths := workload_depths bounded.le
  refine ⟨?_, ?_, ?_⟩
  · simp only [runOrderBookBenchmark, fed.2, depths.1, depths.2, Option.bind_some, Option.map_some]
    rw [show (generateBenchmarkEvents count).length = count from length]
  · have positive : 1 ≤ benchmarkEngine.config.ringCapacity := by decide
    have small : benchmarkEngine.config.ringCapacity + 1 < 2 ^ 64 := by decide
    refine ⟨_, construct_some positive, ?_⟩
    intro state reached
    have started : Reached benchmarkEngine.config benchmarkEngine.config.ringCapacity events _ :=
      start_reached positive small (construct_some positive)
    have atState := reached_run (by omega) started reached
    refine ⟨state_finishes positive small (construct_some positive) reached, ?_⟩
    intro finished arithmetic elapsedNs summary
    have handled := (exited_handled atState finished.2).2
    have answers : outputs applyEvent (configuredBook benchmarkEngine.config) events =
        List.replicate count true := fed.1
    refine ⟨handled.processed.trans length, ?_, ?_⟩
    · apply handled.rejected.trans
      rw [answers, List.count_replicate]
      rfl
    · change addInt64 (totalDepth state.body.book .buy) (totalDepth state.body.book .sell) = _
      rw [handled.book]
      exact depths.1
  · rcases ring_benchmark_checksum benchmarkRingCapacity (by decide) (by decide) events with
      ⟨finished, ran, _, counted⟩
    exact ⟨finished, ran, counted⟩

theorem twelve_events_benchmark_alike :
    let events := generateBenchmarkEvents 12
    runOrderBookBenchmark 12 = some (12, leftQuantity 12) ∧
      (∃ ring, construct benchmarkEngine.config.ringCapacity = some ring ∧
        ∃ last,
          Relation.ReflTransGen PipelineStep (startPipeline benchmarkEngine ring events) last ∧
          Finished last ∧
            replaySink (summarize (machineArithmetic 64) last.body 0) = some (leftQuantity 12)) ∧
      ∃ finished, runRingBufferBenchmark benchmarkRingCapacity events = some finished ∧
        finished.checksum = (events.map fun event => BitVec.ofNat 64 event.orderId).sum := by
  intro events
  rcases benchmarks_finish_the_same_work 12 (by decide) with
    ⟨booked, ⟨ring, constructed, runs⟩, counted⟩
  rcases (runs _ .refl).1 with ⟨last, run, finished⟩
  have summed := (runs last run).2 finished (machineArithmetic 64) 0
  exact ⟨booked, ⟨ring, constructed, last, run, finished, summed.2.2⟩, counted⟩

end Agreement

end TickForge.BenchmarkSuite
