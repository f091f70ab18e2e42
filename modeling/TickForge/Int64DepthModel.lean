import TickForge.DepthLedger
import TickForge.PartialRuns

/-!
# The order book in 64-bit arithmetic

`add_depth` and `total_depth` add signed 64-bit quantities without a check. Here each of
their additions is defined only inside the 64-bit range, and so is every step and run that
makes one; `reduce_depth` subtracts at most what is there. The rest of the handlers is that
of the exact book.
-/

namespace TickForge.Int64DepthModel

open PartialRuns MarketEventModel OrderBookModel DepthLedger

set_option autoImplicit false

section Handlers

/-- Signed 64-bit addition; `none` is overflow, which C++ leaves undefined. -/
def addInt64 (left right : Int) : Option Int :=
  if -2 ^ 63 ≤ left + right ∧ left + right < 2 ^ 63 then some (left + right) else none

def addDepth64 (book : OrderBook) (side : Side) (price quantity : Int) : Option OrderBook :=
  if quantity ≤ 0 then some book
  else match side with
    | .buy => (addInt64 (book.bids[price]?.getD 0) quantity).map fun held =>
        { book with bids := book.bids.insert price held }
    | .sell => (addInt64 (book.asks[price]?.getD 0) quantity).map fun held =>
        { book with asks := book.asks.insert price held }

def addOrder64 (book : OrderBook) (event : MarketEvent) : Option (Bool × OrderBook) :=
  if event.price < 0 ∨ event.quantity ≤ 0 then some (false, book)
  else match book.orders[event.orderId]? with
    | some _ => some (false, book)
    | none =>
        let order : Order :=
          { orderId := event.orderId
            side := event.side
            price := event.price
            quantity := event.quantity }
        let stored := { book with orders := book.orders.insert event.orderId order }
        (addDepth64 stored event.side event.price event.quantity).map (Prod.mk true)

def modifyOrder64 (book : OrderBook) (event : MarketEvent) : Option (Bool × OrderBook) :=
  if event.price < 0 ∨ event.quantity < 0 then some (false, book)
  else match book.orders[event.orderId]? with
    | none => some (false, book)
    | some oldOrder =>
        let reduced := reduceDepth book oldOrder.side oldOrder.price oldOrder.quantity
        if !reduced.1 then some (false, reduced.2)
        else if event.quantity = 0 then
          some (true, { reduced.2 with orders := reduced.2.orders.erase event.orderId })
        else
          let order : Order :=
            { oldOrder with side := event.side, price := event.price, quantity := event.quantity }
          let stored := { reduced.2 with orders := reduced.2.orders.insert event.orderId order }
          (addDepth64 stored event.side event.price event.quantity).map (Prod.mk true)

/-- CANCEL and TRADE only subtract, and never below zero. -/
def applyEvent64 (book : OrderBook) (event : MarketEvent) : Option (Bool × OrderBook) :=
  match event.type with
  | .add => addOrder64 book event
  | .cancel => some (cancelOrder book event)
  | .modify => modifyOrder64 book event
  | .trade => some (tradeOrder book event)

def run64 (book : OrderBook) (events : List MarketEvent) : Option OrderBook :=
  partialFinal applyEvent64 book events

def answers64 (book : OrderBook) (events : List MarketEvent) : List (Option Bool) :=
  partialOutputs applyEvent64 book events

def levelQuantities (book : OrderBook) (side : Side) : List Int :=
  match side with
  | .buy => book.bids.toList.map Prod.snd
  | .sell => book.asks.toList.map Prod.snd

def totalDepth64 (book : OrderBook) (side : Side) : Option Int :=
  (levelQuantities book side).foldlM addInt64 0

/-- A client's call; only an event makes additions. -/
def callStep64 (book : OrderBook) (call : BookCall) : Option (Option Bool × OrderBook) :=
  match call with
  | .applyEvent event =>
      (applyEvent64 book event).map fun applied => (some applied.1, applied.2)
  | .setConfig _ | .clear => some (callStep book call)

/-- Every addition of a run is defined, those of the final totals included. -/
def DepthDefined (book : OrderBook) (events : List MarketEvent) : Prop :=
  ∃ after, run64 book events = some after ∧ ∀ side, (totalDepth64 after side).isSome = true

instance (book : OrderBook) (events : List MarketEvent) : Decidable (DepthDefined book events) :=
  decidable_of_iff
    ((run64 book events).any (fun after =>
      (totalDepth64 after .buy).isSome && (totalDepth64 after .sell).isSome) = true) (by
    rw [Option.any_eq_true, DepthDefined]
    apply exists_congr
    intro after
    rw [Bool.and_eq_true]
    apply and_congr_right
    intro _
    constructor
    · rintro ⟨bought, sold⟩ side
      cases side
      · exact bought
      · exact sold
    · exact fun totals => ⟨totals .buy, totals .sell⟩)

end Handlers

end TickForge.Int64DepthModel
