import TickForge.DepthLedger
import Mathlib.Order.Bounds.Basic

/-!
# The strict book against a machine without price levels

The reference keeps one entry per order id and nothing else. In strict mode
nothing is ever drained, so every level holds exactly what rests at it and no
depth check can fail; the book then answers and stores what the reference does.
Orders do not meet in the reference, hence they do not interfere in the book.
-/

namespace TickForge.StrictReference

open Std (ExtTreeMap TransCmp LawfulEqCmp)
open KeyedTotals StepRuns MarketEventModel OrderBookModel OrderBookStep DepthLedger

set_option autoImplicit false

section Reference

/-- What the reference machine remembers of a resting order. -/
structure Resting where
  side : Side
  price : Int
  quantity : Int
  deriving DecidableEq, Repr

abbrev RestingTable := ExtTreeMap Nat Resting compare

def referenceAccepts (known : Option Resting) (event : MarketEvent) : Bool :=
  match event.type, known with
  | .add, none => decide (0 ≤ event.price ∧ 0 < event.quantity)
  | .add, some _ => false
  | .cancel, known => known.isSome
  | .modify, some _ => decide (0 ≤ event.price ∧ 0 ≤ event.quantity)
  | .modify, none => false
  | .trade, some resting =>
      decide (0 < event.quantity ∧ event.side = resting.side ∧ event.price = resting.price)
  | .trade, none => false

/-- The entry an accepted event leaves behind. -/
def referenceEntry (known : Option Resting) (event : MarketEvent) : Option Resting :=
  match event.type, known with
  | .add, _ => some ⟨event.side, event.price, event.quantity⟩
  | .cancel, _ => none
  | .modify, _ =>
      if event.quantity = 0 then none else some ⟨event.side, event.price, event.quantity⟩
  | .trade, some resting =>
      let left := resting.quantity - min event.quantity resting.quantity
      if left = 0 then none else some { resting with quantity := left }
  | .trade, none => none

def referenceEntryStep (known : Option Resting) (event : MarketEvent) : Bool × Option Resting :=
  if referenceAccepts known event then (true, referenceEntry known event) else (false, known)

def referenceStep (table : RestingTable) (event : MarketEvent) : Bool × RestingTable :=
  keyedStep MarketEvent.orderId referenceEntryStep table event

def referenceDepth (table : RestingTable) (side : Side) (price : Int) : Int :=
  total (fun _ resting =>
    if resting.side = side ∧ resting.price = price then resting.quantity else 0) table

def referenceSideDepth (table : RestingTable) (side : Side) : Int :=
  total (fun _ resting => if resting.side = side then resting.quantity else 0) table

def restingPrices (table : RestingTable) (side : Side) : Set Int :=
  {price | ∃ (orderId : Nat) (resting : Resting), table[orderId]? = some resting ∧
    resting.side = side ∧ resting.price = price}

end Reference

section Feasibility

/-- A plan asks at most the known order's own quantity of that order's level. -/
theorem feasible_of_order_covered {book : OrderBook} {acceptUnknown : Bool} {event : MarketEvent}
    {order : Order} {plan : Plan} (planned : Planned acceptUnknown event (some order) plan)
    (covered : Covered book (orderMove order)) : plan.Feasible book := by
  intro move taken
  cases planned with
  | removes _ leaves => cases taken; exact covered
  | moves _ isModify priced positive => cases taken; exact covered
  | fills _ isTrade positive sameSide samePrice partially =>
      cases taken
      have deep := covered.2
      simp only [orderMove] at deep
      refine ⟨positive, ?_⟩
      simp only [eventMove, sameSide, samePrice]
      omega

/-- With nothing drained, a known order's level holds at least that order. -/
theorem order_covered {book : OrderBook} (ledgered : Ledgered book fun _ _ => 0) (orderId : Nat)
    (order : Order) (stored : book.orders[orderId]? = some order) :
    Covered book (orderMove order) := by
  have bounded := order_le_resting ledgered orderId order stored
  have account := ledgered.balanced order.side order.price
  refine ⟨(ledgered.sound orderId order stored).quantity, ?_⟩
  simp only [orderMove]
  omega

theorem strict_feasible {book : OrderBook} (ledgered : Ledgered book fun _ _ => 0)
    (event : MarketEvent) (plan : Plan)
    (planned : Planned false event book.orders[event.orderId]? plan) : plan.Feasible book := by
  cases known : book.orders[event.orderId]? with
  | none =>
      rw [known] at planned
      cases planned with
      | adds isAdd priced positive => intro move taken; cases taken
      | drains isOrphan accepted positive => cases accepted
  | some order =>
      rw [known] at planned
      exact feasible_of_order_covered planned (order_covered ledgered event.orderId order known)

theorem strict_drains_nothing (known : Option Order) (event : MarketEvent) (plan : Plan)
    (planned : Planned false event known plan) : orphanTake known plan = none := by
  cases planned with
  | adds isAdd priced positive => rfl
  | drains isOrphan accepted positive => cases accepted
  | removes order leaves => rfl
  | moves order isModify priced positive => rfl
  | fills order isTrade positive sameSide samePrice partially => rfl

end Feasibility

section Refinement

def restingOrder (orderId : Nat) (resting : Resting) : Order :=
  ⟨orderId, resting.side, resting.price, resting.quantity⟩

/-- A strict, undrained book whose table is the reference's. -/
structure Refines (book : OrderBook) (table : RestingTable) : Prop where
  strict : book.config.acceptUnknownOrderOps = false
  ledgered : Ledgered book fun _ _ => 0
  orders : ∀ orderId : Nat,
    book.orders[orderId]? = table[orderId]?.map (restingOrder orderId)

theorem empty_refines : Refines {} ∅ where
  strict := rfl
  ledgered := empty_ledgered {}
  orders := by
    intro orderId
    simp

/-- Strict planning is the reference's decision and its new entry. -/
theorem strict_plan_eq (known : Option Resting) (event : MarketEvent) :
    (planOf false (known.map (restingOrder event.orderId)) event).map Plan.entry =
      if referenceAccepts known event then
        some ((referenceEntry known event).map (restingOrder event.orderId))
      else none := by
  cases kind : event.type with
  | add =>
      cases known with
      | none =>
          simp only [planOf, referenceAccepts, referenceEntry, kind, Option.map_none,
            decide_eq_true_eq]
          split_ifs <;> rfl
      | some resting => simp [planOf, referenceAccepts, kind]
  | cancel =>
      cases known with
      | none => simp [planOf, referenceAccepts, kind]
      | some resting => simp [planOf, referenceAccepts, referenceEntry, kind]
  | modify =>
      cases known with
      | none => simp [planOf, referenceAccepts, kind]
      | some resting =>
          simp only [planOf, referenceAccepts, referenceEntry, kind, Option.map_some,
            decide_eq_true_eq]
          split_ifs <;> rfl
  | trade =>
      cases known with
      | none => simp [planOf, referenceAccepts, kind]
      | some resting =>
          simp only [planOf, referenceAccepts, referenceEntry, kind, Option.map_some,
            decide_eq_true_eq, restingOrder]
          by_cases matching : 0 < event.quantity ∧ event.side = resting.side ∧
              event.price = resting.price
          · rw [if_pos matching, if_pos matching]
            by_cases filled : resting.quantity ≤ event.quantity
            · have emptied : resting.quantity - min event.quantity resting.quantity = 0 := by omega
              rw [if_pos filled, if_pos emptied]
              rfl
            · have remains : resting.quantity - min event.quantity resting.quantity ≠ 0 := by omega
              have partially : min event.quantity resting.quantity = event.quantity := by omega
              rw [if_neg filled, if_neg remains]
              simp only [partially]
              rfl
          · rw [if_neg matching, if_neg matching]
            rfl

theorem apply_event_refines {book : OrderBook} {table : RestingTable}
    (refines : Refines book table) (event : MarketEvent) :
    (applyEvent book event).1 = (referenceStep table event).1 ∧
      Refines (applyEvent book event).2 (referenceStep table event).2 := by
  have sameEntry := strict_plan_eq table[event.orderId]? event
  rw [← refines.orders event.orderId] at sameEntry
  rw [apply_event_eq, refines.strict]
  unfold referenceStep keyedStep referenceEntryStep
  cases planned : planOf false book.orders[event.orderId]? event with
  | none =>
      rw [planned, Option.map_none] at sameEntry
      split_ifs at sameEntry with accepts
      simp only [if_neg accepts, carryOut]
      refine ⟨trivial, refines.strict, refines.ledgered, ?_⟩
      intro orderId
      rw [lookup_put, refines.orders orderId]
      split_ifs with same
      · rw [same]
      · rfl
  | some plan =>
      rw [planned, Option.map_some] at sameEntry
      split_ifs at sameEntry with accepts
      have shape := planned_of_plan _ _ _ _ planned
      have feasible := strict_feasible refines.ledgered event plan shape
      have drainsNothing := strict_drains_nothing _ event plan shape
      have executed := execute_ledgered refines.ledgered event plan
        (by rw [refines.strict]; exact shape) feasible
      simp only [if_pos accepts, carryOut, if_pos feasible]
      refine ⟨trivial, ?_, ?_, ?_⟩
      · rw [execute_config, refines.strict]
      · simpa [drainsNothing, carried] using executed
      · intro orderId
        rw [execute_lookup, lookup_put]
        split_ifs with same
        · rw [← same]
          exact Option.some.inj sameEntry
        · exact refines.orders orderId

theorem strict_run_refines (events : List MarketEvent) :
    outputs applyEvent {} events = outputs referenceStep ∅ events ∧
      trace applyEvent {} events = trace referenceStep ∅ events ∧
      Refines (finalState applyEvent {} events) (finalState referenceStep ∅ events) := by
  exact simulation_run applyEvent referenceStep Refines
    (fun _ _ event refines => apply_event_refines refines event) {} ∅ events empty_refines

end Refinement

section Levels

variable {book : OrderBook} {table : RestingTable}

/-- The book's table is the reference's with the id written into each entry. -/
theorem refined_orders (refines : Refines book table) : book.orders = table.map restingOrder := by
  apply ExtTreeMap.ext_getElem?
  intro orderId
  rw [refines.orders orderId, ExtTreeMap.getElem?_map]

theorem refined_depth (refines : Refines book table) (side : Side) (price : Int) :
    depthAtPrice book side price = referenceDepth table side price := by
  have account := refines.ledgered.balanced side price
  calc
    depthAtPrice book side price = restingAt book side price := by omega
    _ = total (restingWeight side price) (table.map restingOrder) := by
      rw [restingAt, refined_orders refines]
    _ = referenceDepth table side price := total_map _ _ _

/-- Levels stand exactly where orders rest. -/
theorem refined_level_iff (refines : Refines book table) (side : Side) (price : Int) :
    (levelAt book side price).isSome ↔ price ∈ restingPrices table side := by
  constructor
  · intro level
    obtain ⟨orderId, order, stored, here⟩ := exists_order_of_level refines.ledgered side price level
    rw [refines.orders orderId, Option.map_eq_some_iff] at stored
    obtain ⟨resting, found, rfl⟩ := stored
    exact ⟨orderId, resting, found, here⟩
  · rintro ⟨orderId, resting, found, rfl, rfl⟩
    have stored : book.orders[orderId]? = some (restingOrder orderId resting) := by
      rw [refines.orders orderId, found, Option.map_some]
    have covered := order_covered refines.ledgered orderId _ stored
    exact (depth_pos_iff refines.ledgered.tidy _ _).mp (covered.1.trans_le covered.2)

/-- Two strict books over one table are the same book. -/
theorem refines_unique {other : OrderBook} (refines : Refines book table)
    (alsoRefines : Refines other table) : book = other := by
  have undrained : ∀ {refined : OrderBook}, Refines refined table → ∀ side price,
      levelAt refined side price =
        if referenceDepth table side price = 0 then none
        else some (referenceDepth table side price) := by
    intro refined same side price
    rw [← refined_depth same side price, depth_at_price_eq]
    cases level : levelAt refined side price with
    | none => rfl
    | some quantity =>
        have positive := (same.ledgered.tidy side price quantity level).1
        exact (if_neg positive.ne').symm
  apply book_ext
  · cases sameBook : book.config
    cases sameOther : other.config
    have strict := refines.strict
    have alsoStrict := alsoRefines.strict
    simp_all
  · intro orderId
    rw [refines.orders orderId, alsoRefines.orders orderId]
  · intro side price
    rw [undrained refines side price, undrained alsoRefines side price]

section Ladders

variable {cmp : Int → Int → Ordering} [TransCmp cmp] [LawfulEqCmp cmp]
variable (levels : ExtTreeMap Int Int cmp) (prices : Set Int)
variable (standing : ∀ price : Int, (levels[price]?).isSome ↔ price ∈ prices)
include standing

/-- The first level of a ladder is the best of the prices that stand in it. -/
theorem first_level_iff (price : Int) :
    (levels.toList.head?).map Prod.fst = some price ↔
      price ∈ prices ∧ ∀ other ∈ prices, (cmp price other).isLE := by
  rw [first_key_eq_some_iff, standing]
  apply and_congr_right
  intro _
  apply forall_congr'
  intro other
  rw [standing]

theorem no_level_iff : (levels.toList.head?).map Prod.fst = none ↔ prices = ∅ := by
  rw [first_key_eq_none_iff, Set.eq_empty_iff_forall_notMem]
  apply forall_congr'
  intro price
  rw [← standing, Bool.not_eq_true, Option.isSome_eq_false_iff, Option.isNone_iff_eq_none]

end Ladders

theorem refined_best_bid (refines : Refines book table) (price : Int) :
    bestBid book = some price ↔ IsGreatest (restingPrices table .buy) price := by
  rw [bestBid, first_level_iff book.bids _ (refined_level_iff refines .buy)]
  apply and_congr_right
  intro _
  apply forall₂_congr
  intro other _
  exact greater_isLE_iff price other

theorem refined_best_ask (refines : Refines book table) (price : Int) :
    bestAsk book = some price ↔ IsLeast (restingPrices table .sell) price := by
  rw [bestAsk, first_level_iff book.asks _ (refined_level_iff refines .sell)]
  apply and_congr_right
  intro _
  apply forall₂_congr
  intro other _
  exact less_isLE_iff price other

theorem refined_no_bid (refines : Refines book table) :
    bestBid book = none ↔ restingPrices table .buy = ∅ := by
  exact no_level_iff book.bids _ (refined_level_iff refines .buy)

theorem refined_no_ask (refines : Refines book table) :
    bestAsk book = none ↔ restingPrices table .sell = ∅ := by
  exact no_level_iff book.asks _ (refined_level_iff refines .sell)

theorem spread_eq_some_iff (book : OrderBook) (width : Int) :
    spread book = some width ↔
      ∃ bid ask, bestBid book = some bid ∧ bestAsk book = some ask ∧ ask - bid = width := by
  unfold spread
  cases bestBid book <;> cases bestAsk book <;> simp

/-- A ladder that lists every resting price of its side sums to the side. -/
theorem ladder_total {cmp : Int → Int → Ordering} [TransCmp cmp] [LawfulEqCmp cmp]
    (levels : ExtTreeMap Int Int cmp) (side : Side)
    (held : ∀ price quantity, levels[price]? = some quantity →
      quantity = referenceDepth table side price)
    (listed : ∀ price ∈ restingPrices table side, (levels[price]?).isSome) :
    levels.foldl (fun total _ quantity => total + quantity) 0 = referenceSideDepth table side := by
  rw [total_of_fold]
  apply total_by_groups levels table _ fun _ resting => resting.price
  · intro price quantity stored
    rw [held price quantity stored]
    apply total_congr
    intro orderId resting found
    simp only [← ite_and, and_comm]
  · intro orderId resting found weighs
    apply listed
    have sameSide : resting.side = side := by
      by_contra otherSide
      exact weighs (if_neg otherSide)
    exact ⟨orderId, resting, found, sameSide, rfl⟩

theorem refined_total_depth (refines : Refines book table) (side : Side) :
    totalDepth book side = referenceSideDepth table side := by
  have held : ∀ price quantity, levelAt book side price = some quantity →
      quantity = referenceDepth table side price := by
    intro price quantity level
    rw [← refined_depth refines side price, depth_at_price_eq, level, Option.getD_some]
  have listed : ∀ price ∈ restingPrices table side, (levelAt book side price).isSome :=
    fun price => (refined_level_iff refines side price).mpr
  cases side with
  | buy => exact ladder_total book.bids .buy held listed
  | sell => exact ladder_total book.asks .sell held listed

theorem refined_order_count (refines : Refines book table) : orderCount book = table.size := by
  rw [orderCount, refined_orders refines, ExtTreeMap.size_map]

end Levels

/-- After every prefix the strict book has answered as the reference does, holds
the same orders, and shows at each level, at the best prices and in its totals
exactly what the reference's orders add up to. -/
theorem strict_book_refines_reference (events : List MarketEvent) (count : Nat) :
    let seen := events.take count
    let book := finalState applyEvent {} seen
    let table := finalState referenceStep ∅ seen
    outputs applyEvent {} seen = outputs referenceStep ∅ seen ∧
      (∀ orderId : Nat, book.orders[orderId]? = table[orderId]?.map (restingOrder orderId)) ∧
      (∀ side price, depthAtPrice book side price = referenceDepth table side price) ∧
      (∀ side price, (levelAt book side price).isSome ↔ price ∈ restingPrices table side) ∧
      (∀ price, bestBid book = some price ↔ IsGreatest (restingPrices table .buy) price) ∧
      (bestBid book = none ↔ restingPrices table .buy = ∅) ∧
      (∀ price, bestAsk book = some price ↔ IsLeast (restingPrices table .sell) price) ∧
      (bestAsk book = none ↔ restingPrices table .sell = ∅) ∧
      (∀ width, spread book = some width ↔ ∃ bid ask, IsGreatest (restingPrices table .buy) bid ∧
        IsLeast (restingPrices table .sell) ask ∧ ask - bid = width) ∧
      (∀ side, totalDepth book side = referenceSideDepth table side) ∧
      orderCount book = table.size := by
  intro seen book table
  obtain ⟨sameAnswers, _, refines⟩ := strict_run_refines seen
  refine ⟨sameAnswers, refines.orders, refined_depth refines, refined_level_iff refines,
    refined_best_bid refines, refined_no_bid refines, refined_best_ask refines,
    refined_no_ask refines, ?_, refined_total_depth refines, refined_order_count refines⟩
  intro width
  simp only [spread_eq_some_iff, book, table, refined_best_bid refines, refined_best_ask refines]

section Interference

/-- A rearrangement that keeps the order of the events of each id. -/
structure KeepsOrderWithinIds (events shuffled : List MarketEvent) : Prop where
  rearranged : events.Perm shuffled
  within : ∀ orderId : Nat, events.filter (fun event => event.orderId = orderId) =
    shuffled.filter (fun event => event.orderId = orderId)

/-- The answers an id gets are those of the run of its own events. -/
theorem strict_trace_filter (events : List MarketEvent) (orderId : Nat) :
    (trace applyEvent {} events).filter (fun pair => pair.1.orderId = orderId) =
      trace referenceEntryStep none (events.filter fun event => event.orderId = orderId) := by
  rw [(strict_run_refines events).2.1]
  exact keyed_trace_filter MarketEvent.orderId referenceEntryStep ∅ events orderId

theorem strict_trace_alone (events : List MarketEvent) (orderId : Nat) :
    trace applyEvent {} (events.filter fun event => event.orderId = orderId) =
      trace referenceEntryStep none (events.filter fun event => event.orderId = orderId) := by
  rw [(strict_run_refines _).2.1]
  exact keyed_trace_own MarketEvent.orderId referenceEntryStep ∅ events orderId

theorem reference_final_lookup (events : List MarketEvent) (orderId : Nat) :
    (finalState referenceStep ∅ events)[orderId]? =
      finalState referenceEntryStep none (events.filter fun event => event.orderId = orderId) := by
  exact keyed_final_lookup MarketEvent.orderId referenceEntryStep ∅ events orderId

/-- Orders do not interfere: rearranging events across ids leaves the same book
and the same answers, and each id fares as if it were alone. -/
theorem orders_do_not_interfere (events shuffled : List MarketEvent)
    (keeps : KeepsOrderWithinIds events shuffled) :
    finalState applyEvent {} events = finalState applyEvent {} shuffled ∧
      ∀ orderId : Nat,
        let own := events.filter fun event => event.orderId = orderId
        (trace applyEvent {} events).filter (fun pair => pair.1.orderId = orderId) =
            (trace applyEvent {} shuffled).filter (fun pair => pair.1.orderId = orderId) ∧
          (trace applyEvent {} events).filter (fun pair => pair.1.orderId = orderId) =
            trace applyEvent {} own ∧
          (finalState applyEvent {} events).orders[orderId]? =
            (finalState applyEvent {} own).orders[orderId]? := by
  obtain ⟨_, _, refines⟩ := strict_run_refines events
  obtain ⟨_, _, alsoRefines⟩ := strict_run_refines shuffled
  have sameTable : finalState referenceStep ∅ events = finalState referenceStep ∅ shuffled := by
    apply ExtTreeMap.ext_getElem?
    intro orderId
    rw [reference_final_lookup, reference_final_lookup, keeps.within orderId]
  refine ⟨refines_unique refines (sameTable ▸ alsoRefines), ?_⟩
  intro orderId own
  refine ⟨?_, ?_, ?_⟩
  · rw [strict_trace_filter, strict_trace_filter, keeps.within orderId]
  · rw [strict_trace_filter, strict_trace_alone]
  · obtain ⟨_, _, ownRefines⟩ := strict_run_refines own
    rw [refines.orders orderId, ownRefines.orders orderId, reference_final_lookup,
      reference_final_lookup, List.filter_filter]
    simp only [Bool.and_self]

/-- Two orders entered in either order, the first one cancelled after both. -/
theorem swapped_entries_do_not_interfere :
    let bid : MarketEvent := { orderId := 1, side := .buy, price := 100, quantity := 5 }
    let ask : MarketEvent := { orderId := 2, side := .sell, price := 105, quantity := 3 }
    let gone : MarketEvent := { orderId := 1, type := .cancel }
    finalState applyEvent {} [bid, ask, gone] = finalState applyEvent {} [ask, bid, gone] ∧
      ∀ orderId : Nat,
        let own := [bid, ask, gone].filter fun event => event.orderId = orderId
        (trace applyEvent {} [bid, ask, gone]).filter (fun pair => pair.1.orderId = orderId) =
            (trace applyEvent {} [ask, bid, gone]).filter (fun pair => pair.1.orderId = orderId) ∧
          (trace applyEvent {} [bid, ask, gone]).filter (fun pair => pair.1.orderId = orderId) =
            trace applyEvent {} own ∧
          (finalState applyEvent {} [bid, ask, gone]).orders[orderId]? =
            (finalState applyEvent {} own).orders[orderId]? := by
  refine orders_do_not_interfere _ _ ⟨.swap _ _ _, ?_⟩
  intro orderId
  by_cases first : orderId = 1
  · subst first
    decide
  · have others : ¬1 = orderId := fun same => first same.symm
    simp [List.filter_cons, others]

end Interference

end TickForge.StrictReference
