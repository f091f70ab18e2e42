import TickForge.KeyedTotals
import TickForge.MarketEventModel

/-!
# The order book

A transcription of `OrderBook`: the order table, the two ladders of price
levels and the four event handlers that update them in place. Quantities and
prices are exact integers; a handler returns its answer beside the book it
leaves. `std::vector::reserve` is taken to succeed.
-/

namespace TickForge.OrderBookModel

open Std (ExtTreeMap TransCmp LawfulEqCmp)
open KeyedTotals MarketEventModel

set_option autoImplicit false

structure Order where
  orderId : Nat
  side : Side
  price : Int
  quantity : Int
  deriving DecidableEq, Repr

structure OrderBookConfig where
  acceptUnknownOrderOps : Bool := false
  deriving DecidableEq, Repr

/-- `std::greater<>`: the highest bid comes first. -/
def greater (left right : Int) : Ordering := compare right left

/-- `std::less<>`: the lowest ask comes first. -/
def less (left right : Int) : Ordering := compare left right

instance : TransCmp greater := inferInstanceAs (TransCmp fun left right : Int => compare right left)

instance : TransCmp less := inferInstanceAs (TransCmp fun left right : Int => compare left right)

instance : LawfulEqCmp greater where
  eq_of_compare := by
    intro left right same
    have swapped : compare right left = .eq := same
    exact (LawfulEqCmp.eq_of_compare swapped).symm

instance : LawfulEqCmp less := inferInstanceAs (LawfulEqCmp fun left right : Int => compare left right)

theorem greater_isLE_iff (left right : Int) : (greater left right).isLE ↔ right ≤ left :=
  Std.isLE_compare

theorem less_isLE_iff (left right : Int) : (less left right).isLE ↔ left ≤ right :=
  Std.isLE_compare

abbrev PriceLevel := Int × Int

structure OrderBook where
  config : OrderBookConfig := {}
  orders : ExtTreeMap Nat Order compare := ∅
  bids : ExtTreeMap Int Int greater := ∅
  asks : ExtTreeMap Int Int less := ∅

def bestBid (book : OrderBook) : Option Int := (book.bids.toList.head?).map Prod.fst

def bestAsk (book : OrderBook) : Option Int := (book.asks.toList.head?).map Prod.fst

def spread (book : OrderBook) : Option Int :=
  match bestBid book, bestAsk book with
  | some bid, some ask => some (ask - bid)
  | _, _ => none

def depthAtPrice (book : OrderBook) (side : Side) (price : Int) : Int :=
  match side with
  | .buy => book.bids[price]?.getD 0
  | .sell => book.asks[price]?.getD 0

/-- The loop of `top_n`: it stops as soon as `n` levels are collected. -/
def collectLevels (n : Nat) : List PriceLevel → List PriceLevel → List PriceLevel
  | levels, [] => levels
  | levels, level :: rest =>
      if levels.length = n then levels else collectLevels n (levels ++ [level]) rest

def topN (book : OrderBook) (side : Side) (n : Nat) : List PriceLevel :=
  match side with
  | .buy => collectLevels n [] book.bids.toList
  | .sell => collectLevels n [] book.asks.toList

def totalDepth (book : OrderBook) (side : Side) : Int :=
  match side with
  | .buy => book.bids.foldl (fun total _ quantity => total + quantity) 0
  | .sell => book.asks.foldl (fun total _ quantity => total + quantity) 0

def orderCount (book : OrderBook) : Nat := book.orders.size

def setConfig (book : OrderBook) (config : OrderBookConfig) : OrderBook :=
  { book with config := config }

def clear (book : OrderBook) : OrderBook :=
  { book with orders := ∅, bids := ∅, asks := ∅ }

def addDepth (book : OrderBook) (side : Side) (price quantity : Int) : OrderBook :=
  if quantity ≤ 0 then book
  else match side with
    | .buy => { book with bids := book.bids.insert price (book.bids[price]?.getD 0 + quantity) }
    | .sell => { book with asks := book.asks.insert price (book.asks[price]?.getD 0 + quantity) }

/-- The two branches of `reduce_depth` do the same to their own ladder. -/
def reduceLevels {cmp : Int → Int → Ordering} [TransCmp cmp]
    (levels : ExtTreeMap Int Int cmp) (price quantity : Int) :
    Bool × ExtTreeMap Int Int cmp :=
  match levels[price]? with
  | none => (false, levels)
  | some held =>
      if held < quantity then (false, levels)
      else
        let lowered := levels.insert price (held - quantity)
        if held - quantity = 0 then (true, lowered.erase price) else (true, lowered)

def reduceDepth (book : OrderBook) (side : Side) (price quantity : Int) : Bool × OrderBook :=
  if quantity ≤ 0 then (false, book)
  else match side with
    | .buy =>
        let reduced := reduceLevels book.bids price quantity
        (reduced.1, { book with bids := reduced.2 })
    | .sell =>
        let reduced := reduceLevels book.asks price quantity
        (reduced.1, { book with asks := reduced.2 })

def addOrder (book : OrderBook) (event : MarketEvent) : Bool × OrderBook :=
  if event.price < 0 ∨ event.quantity ≤ 0 then (false, book)
  else match book.orders[event.orderId]? with
    | some _ => (false, book)
    | none =>
        let order : Order :=
          { orderId := event.orderId
            side := event.side
            price := event.price
            quantity := event.quantity }
        let stored := { book with orders := book.orders.insert event.orderId order }
        (true, addDepth stored event.side event.price event.quantity)

def cancelOrder (book : OrderBook) (event : MarketEvent) : Bool × OrderBook :=
  match book.orders[event.orderId]? with
  | none =>
      -- Orphan fallback: displayed depth only, and only for a positive quantity.
      if book.config.acceptUnknownOrderOps = true ∧ 0 < event.quantity then
        reduceDepth book event.side event.price event.quantity
      else (false, book)
  | some order =>
      let reduced := reduceDepth book order.side order.price order.quantity
      if reduced.1 then
        (true, { reduced.2 with orders := reduced.2.orders.erase event.orderId })
      else (false, reduced.2)

def modifyOrder (book : OrderBook) (event : MarketEvent) : Bool × OrderBook :=
  if event.price < 0 ∨ event.quantity < 0 then (false, book)
  else match book.orders[event.orderId]? with
    | none => (false, book)
    | some oldOrder =>
        let reduced := reduceDepth book oldOrder.side oldOrder.price oldOrder.quantity
        if !reduced.1 then (false, reduced.2)
        else if event.quantity = 0 then
          (true, { reduced.2 with orders := reduced.2.orders.erase event.orderId })
        else
          let order : Order :=
            { oldOrder with side := event.side, price := event.price, quantity := event.quantity }
          let stored := { reduced.2 with orders := reduced.2.orders.insert event.orderId order }
          (true, addDepth stored event.side event.price event.quantity)

def tradeOrder (book : OrderBook) (event : MarketEvent) : Bool × OrderBook :=
  if event.quantity ≤ 0 then (false, book)
  else match book.orders[event.orderId]? with
    | none =>
        if book.config.acceptUnknownOrderOps = true then
          reduceDepth book event.side event.price event.quantity
        else (false, book)
    | some order =>
        if event.side ≠ order.side ∨ event.price ≠ order.price then (false, book)
        else
          let tradedQuantity := min event.quantity order.quantity
          let reduced := reduceDepth book order.side order.price tradedQuantity
          if !reduced.1 then (false, reduced.2)
          else if tradedQuantity = order.quantity then
            (true, { reduced.2 with orders := reduced.2.orders.erase event.orderId })
          else
            let order := { order with quantity := order.quantity - tradedQuantity }
            (true, { reduced.2 with orders := reduced.2.orders.insert event.orderId order })

def applyEvent (book : OrderBook) (event : MarketEvent) : Bool × OrderBook :=
  match event.type with
  | .add => addOrder book event
  | .cancel => cancelOrder book event
  | .modify => modifyOrder book event
  | .trade => tradeOrder book event

end TickForge.OrderBookModel
