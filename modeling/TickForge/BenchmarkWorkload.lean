import TickForge.ActiveOrders
import Mathlib.Algebra.Order.BigOperators.Group.List

/-!
# The benchmark workload

A transcription of `generate_benchmark_events` and the proof that its events are
all valid: the generator's list stays in step with the book it will be applied
to, inside a price band for each side, so the benchmark times accepted updates
only.
-/

namespace TickForge.BenchmarkWorkload

open StepRuns MarketEventModel OrderBookModel StrictReference KeyedLists Int64DepthModel
open Int64Depth ActiveOrders

set_option autoImplicit false

section Generator

/-- The vectors and counters of the generator. -/
structure WorkloadState where
  events : List MarketEvent := []
  active : List ActiveOrder := []
  timestampNs : Nat := 1000000000
  nextOrderId : Nat := 1
  deriving DecidableEq, Repr

def appendAdd (i : Nat) (state : WorkloadState) : WorkloadState :=
  let side : Side := if i % 2 = 0 then .buy else .sell
  let price : Int :=
    if side = .buy then 10000 - ((i % 100 : Nat) : Int) else 10005 + ((i % 100 : Nat) : Int)
  let quantity : Int := 10 + ((i % 50 : Nat) : Int)
  let orderId := state.nextOrderId
  { events := state.events ++
      [{ timestampNs := state.timestampNs
         type := .add
         orderId := orderId
         side := side
         price := price
         quantity := quantity }]
    active := state.active ++
      [{ orderId := orderId, side := side, price := price, quantity := quantity }]
    timestampNs := (state.timestampNs + 10) % 2 ^ 64
    nextOrderId := (state.nextOrderId + 1) % 2 ^ 64 }

/-- The turns that pick the order at an index of the active list. -/
def updateActive (i index : Nat) (order : ActiveOrder) (state : WorkloadState) : WorkloadState :=
  if i % 10 < 7 then
    let priceDelta : Int := ((i % 5 : Nat) : Int) - 2
    let candidatePrice := max 1 (order.price + priceDelta)
    let newPrice := if order.side = .buy then min 10000 candidatePrice else max 10005 candidatePrice
    let newQuantity : Int := 5 + ((i % 75 : Nat) : Int)
    { state with
      events := state.events ++
        [{ timestampNs := state.timestampNs
           type := .modify
           orderId := order.orderId
           side := order.side
           price := newPrice
           quantity := newQuantity }]
      active := state.active.set index { order with price := newPrice, quantity := newQuantity }
      timestampNs := (state.timestampNs + 10) % 2 ^ 64 }
  else if i % 10 < 9 then
    let tradedQuantity := min order.quantity (1 + ((i % 7 : Nat) : Int))
    let left := order.quantity - tradedQuantity
    { state with
      events := state.events ++
        [{ timestampNs := state.timestampNs
           type := .trade
           orderId := order.orderId
           side := order.side
           price := order.price
           quantity := tradedQuantity }]
      active :=
        if left = 0 then state.active.eraseIdx index
        else state.active.set index { order with quantity := left }
      timestampNs := (state.timestampNs + 10) % 2 ^ 64 }
  else
    { state with
      events := state.events ++
        [{ timestampNs := state.timestampNs
           type := .cancel
           orderId := order.orderId
           side := order.side
           price := order.price
           quantity := 0 }]
      active := state.active.eraseIdx index
      timestampNs := (state.timestampNs + 10) % 2 ^ 64 }

/-- One turn of the loop; the index is a `size_t` product reduced by the size. -/
def benchmarkTurn (state : WorkloadState) (i : Nat) : WorkloadState :=
  if state.active = [] ∨ i % 10 < 5 then appendAdd i state
  else
    let index := i * 17 % 2 ^ 64 % state.active.length
    match state.active[index]? with
    | some order => updateActive i index order state
    | none => state

/-- The generator after its first `turns` turns. -/
def workloadAfter (turns : Nat) : WorkloadState := (List.range turns).foldl benchmarkTurn {}

def generateBenchmarkEvents (count : Nat) : List MarketEvent := (workloadAfter count).events

end Generator

section Bounds

/-- Both bands, and how far a sell price can have moved up after some turns. -/
structure Bounded (turns : Nat) (order : ActiveOrder) : Prop where
  inBand : InBand 79 order
  capped : order.price ≤ 10104 + 2 * turns

structure WorkloadInvariant (turns : Nat) (state : WorkloadState) : Prop where
  produces : Produces state.events state.active
  stamped : state.events.map MarketEvent.timestampNs =
    (List.range turns).map fun index => 1000000000 + 10 * index
  clock : state.timestampNs = 1000000000 + 10 * turns
  issued : state.nextOrderId ≤ turns + 1
  listed : ∀ order ∈ state.active, order.orderId < state.nextOrderId ∧ Bounded turns order
  shorter : state.active.length ≤ turns

/-- A turn keeps the invariant and writes one event behind the others. -/
def Advances (turns : Nat) (state after : WorkloadState) : Prop :=
  WorkloadInvariant (turns + 1) after ∧ ∃ event, after.events = state.events ++ [event]

variable {turns : Nat} {state : WorkloadState}

theorem start_workload_invariant : WorkloadInvariant 0 {} where
  produces := .start
  stamped := rfl
  clock := rfl
  issued := le_rfl
  listed := by simp
  shorter := le_rfl

theorem listed_later (invariant : WorkloadInvariant turns state) :
    ∀ order ∈ state.active, order.orderId < state.nextOrderId ∧ Bounded (turns + 1) order := by
  intro order listed
  obtain ⟨older, bounded⟩ := invariant.listed order listed
  have capped := bounded.capped
  exact ⟨older, bounded.inBand, by omega⟩

/-- What a turn of the generator has to show of its event and its new list. -/
theorem workload_advances (invariant : WorkloadInvariant turns state) (early : turns < 2 ^ 56)
    {event : MarketEvent} {next : List ActiveOrder} (nextOrderId : Nat)
    (turn : Turn state.active event next) (now : event.timestampNs = state.timestampNs)
    (issued : nextOrderId ≤ turns + 2)
    (listed : ∀ order ∈ next, order.orderId < nextOrderId ∧ Bounded (turns + 1) order)
    (shorter : next.length ≤ state.active.length + 1) :
    Advances turns state
      { events := state.events ++ [event]
        active := next
        timestampNs := (state.timestampNs + 10) % 2 ^ 64
        nextOrderId := nextOrderId } := by
  have clock := invariant.clock
  refine ⟨⟨invariant.produces.turn turn, ?_, ?_, issued, listed, ?_⟩, event, rfl⟩
  · rw [List.map_append, invariant.stamped, List.map_singleton, now, clock, List.range_succ,
      List.map_append, List.map_singleton]
  · dsimp only
    omega
  · exact shorter.trans (Nat.add_le_add_right invariant.shorter 1)

end Bounds

section TurnsOfTheLoop

variable {turns : Nat} {state : WorkloadState}

theorem append_add_advances (invariant : WorkloadInvariant turns state) (early : turns < 2 ^ 56) :
    Advances turns state (appendAdd turns state) := by
  let side : Side := if turns % 2 = 0 then .buy else .sell
  let price : Int :=
    if side = .buy then 10000 - ((turns % 100 : Nat) : Int) else 10005 + ((turns % 100 : Nat) : Int)
  let added : ActiveOrder := ⟨state.nextOrderId, side, price, 10 + ((turns % 50 : Nat) : Int)⟩
  have issued := invariant.issued
  have noWrap : (state.nextOrderId + 1) % 2 ^ 64 = state.nextOrderId + 1 :=
    Nat.mod_eq_of_lt (by omega)
  have quotedBuy : added.side = .buy → added.price = 10000 - ((turns % 100 : Nat) : Int) :=
    fun isBuy => if_pos isBuy
  have quotedSell : added.side = .sell → added.price = 10005 + ((turns % 100 : Nat) : Int) := by
    intro isSell
    apply if_neg
    rw [show side = .sell from isSell]
    decide
  have bounded : Bounded (turns + 1) added := by
    refine ⟨⟨?_, ?_, ?_⟩, ?_⟩
    · intro isBuy
      rw [quotedBuy isBuy]
      omega
    · intro isSell
      rw [quotedSell isSell]
      omega
    · simp only [added]
      omega
    · cases isSide : added.side with
      | buy =>
          rw [quotedBuy isSide]
          omega
      | sell =>
          rw [quotedSell isSide]
          omega
  have fresh : ∀ other ∈ state.active, other.orderId ≠ added.orderId := by
    intro other listed
    exact (invariant.listed other listed).1.ne
  have turn := Turn.adds state.timestampNs added fresh (in_band_priced bounded.inBand)
    (zero_lt_one.trans_le bounded.inBand.quantity.1)
  apply workload_advances invariant early _ turn rfl (by omega)
  · rw [noWrap]
    apply all_append
    · intro order listed
      obtain ⟨older, still⟩ := listed_later invariant order listed
      exact ⟨older.trans (Nat.lt_succ_self _), still⟩
    · exact ⟨Nat.lt_succ_self _, bounded⟩
  · rw [List.length_append, List.length_singleton]

/-- A modified price moves up by two at most, whatever the clamp does. -/
theorem clamped_bounded {order : ActiveOrder} (bounded : Bounded turns order) (i : Nat)
    {quantity : Int} (sized : 1 ≤ quantity ∧ quantity ≤ 79) :
    Bounded (turns + 1)
      { order with
        price :=
          if order.side = .buy then min 10000 (max 1 (order.price + (((i % 5 : Nat) : Int) - 2)))
          else max 10005 (max 1 (order.price + (((i % 5 : Nat) : Int) - 2)))
        quantity := quantity } where
  inBand := clamped_in_band order _ sized
  capped := by
    have capped := bounded.capped
    dsimp only
    split_ifs <;> omega

theorem update_active_advances (invariant : WorkloadInvariant turns state)
    (early : turns < 2 ^ 56) (index : Nat) (inside : index < state.active.length) :
    Advances turns state (updateActive turns index state.active[index] state) := by
  have listed := listed_later invariant
  obtain ⟨older, bounded⟩ := invariant.listed _ (List.getElem_mem inside)
  have later := (listed _ (List.getElem_mem inside)).2
  have issued : state.nextOrderId ≤ turns + 2 := invariant.issued.trans (Nat.le_succ _)
  have setLength : ∀ changed, (state.active.set index changed).length ≤ state.active.length + 1 := by
    intro changed
    rw [List.length_set]
    exact Nat.le_succ _
  have eraseLength : (state.active.eraseIdx index).length ≤ state.active.length + 1 :=
    (List.length_eraseIdx_le _ _).trans (Nat.le_succ _)
  unfold updateActive
  by_cases modifies : turns % 10 < 7
  · rw [if_pos modifies]
    have sized : 1 ≤ 5 + ((turns % 75 : Nat) : Int) ∧ 5 + ((turns % 75 : Nat) : Int) ≤ 79 := by
      omega
    have clamped := clamped_bounded bounded turns sized
    have turn := Turn.modifies state.timestampNs index inside _ (by exact rfl)
      (in_band_priced clamped.inBand) (zero_lt_one.trans_le sized.1)
    exact workload_advances invariant early _ turn rfl issued
      (all_set listed index ⟨older, clamped⟩) (setLength _)
  rw [if_neg modifies]
  by_cases trades : turns % 10 < 9
  · rw [if_pos trades]
    by_cases exhausts : state.active[index].quantity ≤ 1 + ((turns % 7 : Nat) : Int)
    · have turn := Turn.exhausts state.timestampNs index inside
        (zero_lt_one.trans_le bounded.inBand.quantity.1)
      simp only [min_eq_left exhausts, sub_self, if_true]
      exact workload_advances invariant early _ turn rfl issued (all_erase listed index) eraseLength
    · have partially := not_le.mp exhausts
      have turn := Turn.fills state.timestampNs index inside _ (by omega) partially
      have left := filled_in_band later.inBand (by omega) partially
      have remains : ¬state.active[index].quantity - (1 + ((turns % 7 : Nat) : Int)) = 0 := by omega
      simp only [min_eq_right partially.le, if_neg remains]
      exact workload_advances invariant early _ turn rfl issued
        (all_set listed index ⟨older, left, later.capped⟩) (setLength _)
  rw [if_neg trades]
  exact workload_advances invariant early _ (.cancels state.timestampNs index inside) rfl issued
    (all_erase listed index) eraseLength

theorem benchmark_turn_advances (invariant : WorkloadInvariant turns state)
    (early : turns < 2 ^ 56) : Advances turns state (benchmarkTurn state turns) := by
  by_cases appends : state.active = [] ∨ turns % 10 < 5
  · rw [benchmarkTurn, if_pos appends]
    exact append_add_advances invariant early
  · have nonempty := (not_or.mp appends).1
    have inside : turns * 17 % 2 ^ 64 % state.active.length < state.active.length :=
      Nat.mod_lt _ (List.length_pos_iff.mpr nonempty)
    rw [benchmarkTurn, if_neg appends]
    simp only [List.getElem?_eq_getElem inside]
    exact update_active_advances invariant early _ inside

end TurnsOfTheLoop

section Workload

theorem workload_after_succ (turns : Nat) :
    workloadAfter (turns + 1) = benchmarkTurn (workloadAfter turns) turns := by
  rw [workloadAfter, List.range_succ, List.foldl_append]
  rfl

theorem workload_invariant (turns : Nat) (bounded : turns ≤ 2 ^ 56) :
    WorkloadInvariant turns (workloadAfter turns) := by
  induction turns with
  | zero => exact start_workload_invariant
  | succ turns ih =>
      rw [workload_after_succ]
      exact (benchmark_turn_advances (ih (by omega)) (by omega)).1

theorem workload_length (turns : Nat) (bounded : turns ≤ 2 ^ 56) :
    (workloadAfter turns).events.length = turns := by
  have stamped := congrArg List.length (workload_invariant turns bounded).stamped
  rwa [List.length_map, List.length_map, List.length_range] at stamped

/-- The first events of a longer workload are those of a shorter one. -/
theorem workload_take (turns later : Nat) (bounded : turns + later ≤ 2 ^ 56) :
    (workloadAfter (turns + later)).events.take turns = (workloadAfter turns).events := by
  induction later with
  | zero => exact List.take_of_length_le (workload_length turns bounded).le
  | succ later ih =>
      have invariant := workload_invariant (turns + later) (by omega)
      obtain ⟨_, event, written⟩ := benchmark_turn_advances invariant (by omega)
      rw [← Nat.add_assoc, workload_after_succ, written, List.take_append_of_le_length, ih (by omega)]
      rw [workload_length _ (by omega)]
      exact Nat.le_add_right turns later

/-- The quantities of the list stay far below `2^63`. -/
theorem workload_quantity {turns : Nat} {state : WorkloadState}
    (invariant : WorkloadInvariant turns state) (bounded : turns ≤ 2 ^ 56) :
    (state.active.map ActiveOrder.quantity).sum < 2 ^ 63 := by
  have each := List.sum_le_card_nsmul (state.active.map ActiveOrder.quantity) 79 (by
    intro quantity listed
    obtain ⟨order, member, rfl⟩ := List.mem_map.mp listed
    exact (invariant.listed order member).2.inBand.quantity.2)
  have shorter := invariant.shorter
  rw [List.length_map, nsmul_eq_mul] at each
  omega

/-- For every count the workload has that many events at their times, the book
accepts all of them within 64 bits, and after each of them it holds the
generator's list, with a spread of at least five. -/
theorem benchmark_workload_is_valid (count : Nat) (bounded : count < 2 ^ 56) :
    (generateBenchmarkEvents count).length = count ∧
      let events := generateBenchmarkEvents count
      events.map MarketEvent.timestampNs =
        (List.range count).map (fun index => 1000000000 + 10 * index) ∧
      outputs applyEvent {} events = List.replicate count true ∧
      run64 {} events = some (finalState applyEvent {} events) ∧
      ∀ seen ≤ count,
        let active := (workloadAfter seen).active
        let book := finalState applyEvent {} (events.take seen)
        events.take seen = (workloadAfter seen).events ∧
          DistinctKeys ActiveOrder.orderId active ∧
          (∀ orderId : Nat, book.orders[orderId]? =
            (find ActiveOrder.orderId active orderId).map ActiveOrder.entry) ∧
          orderCount book = active.length ∧
          (∀ (orderId : Nat) (order : Order), book.orders[orderId]? = some order →
            (order.side = .buy → 1 ≤ order.price ∧ order.price ≤ 10000) ∧
              (order.side = .sell → 10005 ≤ order.price ∧ order.price < 2 ^ 63)) ∧
          (book.bids ≠ ∅ → book.asks ≠ ∅ → ∃ width, spread book = some width ∧ 5 ≤ width) := by
  have length := workload_length count bounded.le
  have prefixes : ∀ seen ≤ count,
      (generateBenchmarkEvents count).take seen = (workloadAfter seen).events := by
    intro seen within
    obtain ⟨later, rfl⟩ := Nat.exists_eq_add_of_le within
    exact workload_take seen later bounded.le
  have reached : ∀ seen ≤ count, WorkloadInvariant seen (workloadAfter seen) :=
    fun seen within => workload_invariant seen (within.trans bounded.le)
  have produced : ∀ seen ≤ count,
      Produces ((generateBenchmarkEvents count).take seen) (workloadAfter seen).active := by
    intro seen within
    rw [prefixes seen within]
    exact (reached seen within).produces
  have small : ∀ seen ≤ count,
      ((workloadAfter seen).active.map ActiveOrder.quantity).sum < 2 ^ 63 :=
    fun seen within => workload_quantity (reached seen within) (within.trans bounded.le)
  have fed := tracked_feed (fun seen within => produced seen (within.trans length.le))
    fun seen within => small seen (within.trans length.le)
  refine ⟨length, (reached count le_rfl).stamped, ?_, fed.2, ?_⟩
  · have answered := fed.1
    rwa [show (generateBenchmarkEvents count).length = count from length] at answered
  · intro seen within active book
    have run := produced seen within
    have bounds := (reached seen within).listed
    obtain ⟨_, sameOrders, sameCount⟩ := produces_book run
    refine ⟨prefixes seen within, produces_distinct run, sameOrders, sameCount, ?_, ?_⟩
    · intro orderId order stored
      obtain ⟨live, listed, rfl⟩ := book_order_listed run stored
      have bound := (bounds live listed).2
      have capped := bound.capped
      refine ⟨bound.inBand.buy, fun isSell => ⟨bound.inBand.sell isSell, ?_⟩⟩
      simp only [ActiveOrder.entry]
      omega
    · exact spread_by_bands run fun order listed => (bounds order listed).2.inBand

/-- Twelve turns, with every kind of event. -/
theorem twelve_event_workload_is_valid :
    (generateBenchmarkEvents 12).length = 12 ∧
      let events := generateBenchmarkEvents 12
      events.map MarketEvent.timestampNs =
        (List.range 12).map (fun index => 1000000000 + 10 * index) ∧
      outputs applyEvent {} events = List.replicate 12 true ∧
      run64 {} events = some (finalState applyEvent {} events) ∧
      ∀ seen ≤ 12,
        let active := (workloadAfter seen).active
        let book := finalState applyEvent {} (events.take seen)
        events.take seen = (workloadAfter seen).events ∧
          DistinctKeys ActiveOrder.orderId active ∧
          (∀ orderId : Nat, book.orders[orderId]? =
            (find ActiveOrder.orderId active orderId).map ActiveOrder.entry) ∧
          orderCount book = active.length ∧
          (∀ (orderId : Nat) (order : Order), book.orders[orderId]? = some order →
            (order.side = .buy → 1 ≤ order.price ∧ order.price ≤ 10000) ∧
              (order.side = .sell → 10005 ≤ order.price ∧ order.price < 2 ^ 63)) ∧
          (book.bids ≠ ∅ → book.asks ≠ ∅ → ∃ width, spread book = some width ∧ 5 ≤ width) := by
  exact benchmark_workload_is_valid 12 (by decide)

end Workload

end TickForge.BenchmarkWorkload
