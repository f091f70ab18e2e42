import TickForge.EventLaws
import TickForge.Int64Depth
import TickForge.KeyedLists

/-!
# Generators that track their own orders

A feed generator keeps a list of the orders it has live and writes events about
them. Where each of its turns enters a fresh order, replaces a listed one, fills
it in part or whole or cancels it, and keeps its list in step, the strict book
accepts every event and holds exactly the listed orders. The generators here
also keep the prices of the two sides apart.
-/

namespace TickForge.ActiveOrders

open Std (ExtTreeMap)
open KeyedTotals StepRuns MarketEventModel OrderBookModel OrderBookStep StrictReference EventLaws
open KeyedLists Int64DepthModel Int64Depth

set_option autoImplicit false

section Turns

/-- A live order as the generators keep it. -/
structure ActiveOrder where
  orderId : Nat
  side : Side
  price : Int
  quantity : Int
  deriving DecidableEq, Repr

def ActiveOrder.resting (order : ActiveOrder) : Resting := ⟨order.side, order.price, order.quantity⟩

/-- The engine's record of a live order. -/
def ActiveOrder.entry (order : ActiveOrder) : Order :=
  ⟨order.orderId, order.side, order.price, order.quantity⟩

/-- An event that names an order by its id, side and price. -/
def orderEvent (timestampNs : Nat) (type : EventType) (order : ActiveOrder) (quantity : Int) :
    MarketEvent where
  timestampNs := timestampNs
  type := type
  orderId := order.orderId
  side := order.side
  price := order.price
  quantity := quantity

/-- One turn of a generator: the event it writes and the list it goes on with. -/
inductive Turn (active : List ActiveOrder) : MarketEvent → List ActiveOrder → Prop where
  | adds (timestampNs : Nat) (order : ActiveOrder)
      (fresh : ∀ other ∈ active, other.orderId ≠ order.orderId) (priced : 0 ≤ order.price)
      (positive : 0 < order.quantity) :
      Turn active (orderEvent timestampNs .add order order.quantity) (active ++ [order])
  | modifies (timestampNs index : Nat) (inside : index < active.length) (changed : ActiveOrder)
      (sameId : changed.orderId = active[index].orderId) (priced : 0 ≤ changed.price)
      (positive : 0 < changed.quantity) :
      Turn active (orderEvent timestampNs .modify changed changed.quantity)
        (active.set index changed)
  | fills (timestampNs index : Nat) (inside : index < active.length) (traded : Int)
      (positive : 0 < traded) (partially : traded < active[index].quantity) :
      Turn active (orderEvent timestampNs .trade active[index] traded)
        (active.set index { active[index] with quantity := active[index].quantity - traded })
  | exhausts (timestampNs index : Nat) (inside : index < active.length)
      (positive : 0 < active[index].quantity) :
      Turn active (orderEvent timestampNs .trade active[index] active[index].quantity)
        (active.eraseIdx index)
  | cancels (timestampNs index : Nat) (inside : index < active.length) :
      Turn active (orderEvent timestampNs .cancel active[index] 0) (active.eraseIdx index)

/-- The events written so far and the list they leave. -/
inductive Produces : List MarketEvent → List ActiveOrder → Prop where
  | start : Produces [] []
  | turn {events : List MarketEvent} {active next : List ActiveOrder} {event : MarketEvent}
      (earlier : Produces events active) (turn : Turn active event next) :
      Produces (events ++ [event]) next

end Turns

section Tracking

variable {active next : List ActiveOrder} {table : RestingTable} {event : MarketEvent}

/-- The table holds the listed orders and nothing else. -/
structure Tracks (active : List ActiveOrder) (table : RestingTable) : Prop where
  distinct : DistinctKeys ActiveOrder.orderId active
  alike : ∀ orderId : Nat,
    table[orderId]? = (find ActiveOrder.orderId active orderId).map ActiveOrder.resting

theorem empty_tracks : Tracks [] ∅ where
  distinct := List.nodup_nil
  alike := by
    intro orderId
    simp [find]

theorem tracked_entry (tracks : Tracks active table) (index : Nat) (inside : index < active.length) :
    table[active[index].orderId]? = some active[index].resting := by
  rw [tracks.alike, find_of_mem _ tracks.distinct (List.getElem_mem inside), Option.map_some]

/-- What an entry step does to its entry, the table step does to the table. -/
theorem tracks_of_entry (tracks : Tracks active table)
    (distinct : DistinctKeys ActiveOrder.orderId next) (left : Option ActiveOrder)
    (stepped : referenceEntryStep table[event.orderId]? event =
      (true, left.map ActiveOrder.resting))
    (updated : ∀ orderId, find ActiveOrder.orderId next orderId =
      if event.orderId = orderId then left else find ActiveOrder.orderId active orderId) :
    (referenceStep table event).1 = true ∧ Tracks next (referenceStep table event).2 := by
  refine ⟨congrArg Prod.fst stepped, distinct, ?_⟩
  intro orderId
  have written : (referenceStep table event).2 =
      put table event.orderId (left.map ActiveOrder.resting) :=
    congrArg (fun answered : Bool × Option Resting => put table event.orderId answered.2) stepped
  rw [written, lookup_put, updated orderId]
  split_ifs
  · rfl
  · exact tracks.alike orderId

/-- Every turn writes an event the book accepts and keeps the list in step. -/
theorem turn_tracks (tracks : Tracks active table) (turn : Turn active event next) :
    (referenceStep table event).1 = true ∧ Tracks next (referenceStep table event).2 := by
  cases turn with
  | adds timestampNs order fresh priced positive =>
      have absent : table[order.orderId]? = none := by
        rw [tracks.alike, (find_eq_none_iff _ _).mpr fresh, Option.map_none]
      apply tracks_of_entry tracks (distinct_append _ tracks.distinct fresh) (some order)
      · exact (congrArg (referenceEntryStep · _) absent).trans (add_entry _ rfl priced positive)
      · exact find_fresh _ fresh
  | modifies timestampNs index inside changed sameId priced positive =>
      have known := tracked_entry tracks index inside
      rw [← sameId] at known
      apply tracks_of_entry tracks (distinct_set _ tracks.distinct index inside sameId)
        (some changed)
      · exact (congrArg (referenceEntryStep · _) known).trans
          (modify_entry_at_level _ _ rfl priced positive)
      · exact find_set _ tracks.distinct index inside sameId
  | fills timestampNs index inside traded positive partially =>
      have known := tracked_entry tracks index inside
      let left : ActiveOrder := { active[index] with quantity := active[index].quantity - traded }
      have sameId : left.orderId = active[index].orderId := rfl
      apply tracks_of_entry tracks (distinct_set _ tracks.distinct index inside sameId) (some left)
      · exact (congrArg (referenceEntryStep · _) known).trans
          (partial_trade_entry _ _ rfl rfl rfl positive partially)
      · exact find_set _ tracks.distinct index inside sameId
  | exhausts timestampNs index inside positive =>
      have known := tracked_entry tracks index inside
      apply tracks_of_entry tracks (distinct_erase _ tracks.distinct index) none
      · exact (congrArg (referenceEntryStep · _) known).trans
          (whole_trade_entry _ _ rfl rfl rfl positive le_rfl)
      · exact find_erase _ tracks.distinct index inside
  | cancels timestampNs index inside =>
      have known := tracked_entry tracks index inside
      apply tracks_of_entry tracks (distinct_erase _ tracks.distinct index) none
      · exact (congrArg (referenceEntryStep · _) known).trans (cancel_entry _ _ rfl)
      · exact find_erase _ tracks.distinct index inside

theorem turn_positive (sound : ∀ order ∈ active, 0 < order.quantity)
    (turn : Turn active event next) : ∀ order ∈ next, 0 < order.quantity := by
  cases turn with
  | adds timestampNs added fresh priced positive => exact all_append sound positive
  | modifies timestampNs index inside changed sameId priced positive =>
      exact all_set sound index positive
  | fills timestampNs index inside traded positive partially =>
      exact all_set sound index (sub_pos.mpr partially)
  | exhausts timestampNs index inside positive => exact all_erase sound index
  | cancels timestampNs index inside => exact all_erase sound index

end Tracking

section Runs

variable {events : List MarketEvent} {active : List ActiveOrder}

theorem produces_run (produces : Produces events active) :
    outputs referenceStep ∅ events = List.replicate events.length true ∧
      Tracks active (finalState referenceStep ∅ events) := by
  induction produces with
  | start => exact ⟨rfl, empty_tracks⟩
  | turn earlier turn ih =>
      obtain ⟨answers, tracks⟩ := ih
      obtain ⟨accepted, still⟩ := turn_tracks tracks turn
      constructor
      · rw [outputs_append, answers, List.length_append, List.length_singleton,
          List.replicate_succ', outputs, accepted, outputs]
      · rwa [final_state_append]

theorem produces_positive (produces : Produces events active) :
    ∀ order ∈ active, 0 < order.quantity := by
  induction produces with
  | start => simp
  | turn earlier turn ih => exact turn_positive ih turn

/-- The strict book accepts everything and holds the listed orders. -/
theorem produces_book (produces : Produces events active) :
    outputs applyEvent {} events = List.replicate events.length true ∧
      (∀ orderId : Nat, (finalState applyEvent {} events).orders[orderId]? =
        (find ActiveOrder.orderId active orderId).map ActiveOrder.entry) ∧
      orderCount (finalState applyEvent {} events) = active.length := by
  obtain ⟨answers, tracks⟩ := produces_run produces
  obtain ⟨sameAnswers, _, refines⟩ := strict_run_refines events
  refine ⟨sameAnswers.trans answers, ?_, ?_⟩
  · intro orderId
    rw [refines.orders, tracks.alike]
    cases found : find ActiveOrder.orderId active orderId with
    | none => rfl
    | some order =>
        have sameId := (find_sound _ found).2
        rw [Option.map_some, Option.map_some, Option.map_some, ← sameId]
        rfl
  · rw [refined_order_count refines]
    exact size_eq_length _ tracks.distinct tracks.alike

theorem produces_distinct (produces : Produces events active) :
    DistinctKeys ActiveOrder.orderId active := (produces_run produces).2.distinct

def sideQuantity (side : Side) (order : ActiveOrder) : Int :=
  if order.side = side then order.quantity else 0

/-- A side's depth is what the listed orders of the side add up to. -/
theorem produces_side_depth (produces : Produces events active) (side : Side) :
    referenceSideDepth (finalState referenceStep ∅ events) side =
      (active.map (sideQuantity side)).sum := by
  have tracks := (produces_run produces).2
  rw [referenceSideDepth, total_eq_items _ tracks.distinct tracks.alike]
  rfl

theorem side_depth_le (produces : Produces events active) (side : Side) :
    referenceSideDepth (finalState referenceStep ∅ events) side ≤
      (active.map ActiveOrder.quantity).sum := by
  rw [produces_side_depth produces]
  apply List.sum_le_sum
  intro order listed
  have positive := produces_positive produces order listed
  unfold sideQuantity
  split_ifs <;> omega

/-- A feed whose every prefix leaves a list of small enough total is accepted
throughout, and none of its depths overflows. -/
theorem tracked_feed {activeAfter : Nat → List ActiveOrder}
    (produced : ∀ seen ≤ events.length, Produces (events.take seen) (activeAfter seen))
    (small : ∀ seen ≤ events.length,
      ((activeAfter seen).map ActiveOrder.quantity).sum < 2 ^ 63) :
    outputs applyEvent {} events = List.replicate events.length true ∧
      run64 {} events = some (finalState applyEvent {} events) := by
  constructor
  · have whole := produced events.length le_rfl
    rw [List.take_length] at whole
    exact (produces_book whole).1
  · apply run64_of_fits
    intro seen isPrefix side
    have within := isPrefix.length_le
    have before := produced seen.length within
    rw [← List.prefix_iff_eq_take.mp isPrefix] at before
    exact (side_depth_le before side).trans_lt (small seen.length within)

/-- Every order of the book is a listed one. -/
theorem book_order_listed (produces : Produces events active) {orderId : Nat} {order : Order}
    (stored : (finalState applyEvent {} events).orders[orderId]? = some order) :
    ∃ live ∈ active, live.entry = order := by
  rw [(produces_book produces).2.1, Option.map_eq_some_iff] at stored
  obtain ⟨live, found, entered⟩ := stored
  exact ⟨live, (find_sound _ found).1, entered⟩

theorem produced_price (produces : Produces events active) {side : Side} {price : Int}
    (stands : price ∈ restingPrices (finalState referenceStep ∅ events) side) :
    ∃ order ∈ active, order.side = side ∧ order.price = price := by
  rcases stands with ⟨orderId, resting, stored, here⟩
  rw [(produces_run produces).2.alike, Option.map_eq_some_iff] at stored
  obtain ⟨order, found, rfl⟩ := stored
  exact ⟨order, (find_sound _ found).1, here⟩

theorem produced_bid (produces : Produces events active) {bid : Int}
    (best : bestBid (finalState applyEvent {} events) = some bid) :
    ∃ order ∈ active, order.side = .buy ∧ order.price = bid :=
  produced_price produces ((refined_best_bid (strict_run_refines events).2.2 bid).mp best).1

theorem produced_ask (produces : Produces events active) {ask : Int}
    (best : bestAsk (finalState applyEvent {} events) = some ask) :
    ∃ order ∈ active, order.side = .sell ∧ order.price = ask :=
  produced_price produces ((refined_best_ask (strict_run_refines events).2.2 ask).mp best).1

end Runs

section Bands

variable {events : List MarketEvent} {active : List ActiveOrder} {most : Int}

/-- The price bands of the two sides and the greatest quantity of an order. -/
structure InBand (most : Int) (order : ActiveOrder) : Prop where
  buy : order.side = .buy → 1 ≤ order.price ∧ order.price ≤ 10000
  sell : order.side = .sell → 10005 ≤ order.price
  quantity : 1 ≤ order.quantity ∧ order.quantity ≤ most

theorem in_band_priced {order : ActiveOrder} (inBand : InBand most order) : 0 ≤ order.price := by
  cases isSide : order.side with
  | buy =>
      have band := inBand.buy isSide
      omega
  | sell =>
      have band := inBand.sell isSide
      omega

/-- The clamp of both generators puts any price into the band of its side. -/
theorem clamped_in_band (order : ActiveOrder) (candidatePrice : Int) {quantity : Int}
    (sized : 1 ≤ quantity ∧ quantity ≤ most) :
    InBand most
      { order with
        price :=
          if order.side = .buy then min 10000 (max 1 candidatePrice)
          else max 10005 (max 1 candidatePrice)
        quantity := quantity } where
  buy := by
    intro isBuy
    dsimp only at isBuy ⊢
    rw [if_pos isBuy]
    omega
  sell := by
    intro isSell
    have notBuy : order.side ≠ .buy := by
      rw [show order.side = .sell from isSell]
      decide
    dsimp only
    rw [if_neg notBuy]
    omega
  quantity := sized

theorem filled_in_band {order : ActiveOrder} (inBand : InBand most order) {traded : Int}
    (positive : 0 ≤ traded) (partially : traded < order.quantity) :
    InBand most { order with quantity := order.quantity - traded } where
  buy := inBand.buy
  sell := inBand.sell
  quantity := by
    have sized := inBand.quantity
    dsimp only
    omega

variable (produces : Produces events active) (banded : ∀ order ∈ active, InBand most order)
include produces banded

theorem uncrossed_by_bands {bid ask : Int}
    (bestOfBids : bestBid (finalState applyEvent {} events) = some bid)
    (bestOfAsks : bestAsk (finalState applyEvent {} events) = some ask) : bid + 5 ≤ ask := by
  obtain ⟨buyer, buyerListed, buying, rfl⟩ := produced_bid produces bestOfBids
  obtain ⟨seller, sellerListed, selling, rfl⟩ := produced_ask produces bestOfAsks
  have below := (banded buyer buyerListed).buy buying
  have above := (banded seller sellerListed).sell selling
  omega

/-- Where both sides of the book are occupied the spread is at least five. -/
theorem spread_by_bands (someBids : (finalState applyEvent {} events).bids ≠ ∅)
    (someAsks : (finalState applyEvent {} events).asks ≠ ∅) :
    ∃ width, spread (finalState applyEvent {} events) = some width ∧ 5 ≤ width := by
  cases bestOfBids : bestBid (finalState applyEvent {} events) with
  | none =>
      rw [bestBid, Option.map_eq_none_iff, List.head?_eq_none_iff,
        ExtTreeMap.toList_eq_nil_iff] at bestOfBids
      exact absurd bestOfBids someBids
  | some bid =>
      cases bestOfAsks : bestAsk (finalState applyEvent {} events) with
      | none =>
          rw [bestAsk, Option.map_eq_none_iff, List.head?_eq_none_iff,
            ExtTreeMap.toList_eq_nil_iff] at bestOfAsks
          exact absurd bestOfAsks someAsks
      | some ask =>
          have apart := uncrossed_by_bands produces banded bestOfBids bestOfAsks
          refine ⟨ask - bid, ?_, by omega⟩
          rw [spread_eq_some_iff]
          exact ⟨bid, ask, bestOfBids, bestOfAsks, rfl⟩

end Bands

end TickForge.ActiveOrders
