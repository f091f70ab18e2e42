import TickForge.LobsterAdapterModel
import Mathlib.Algebra.Order.Group.Int

/-!
# The exchange book behind the messages

The exchange holds every displayed order under its id, and a message reports
what happened to one of them. The book, its messages and what makes them valid
are stated without reference to the adapter or the engine.
-/

namespace TickForge.LobsterExchange

open Std (ExtTreeMap)
open KeyedTotals MarketEventModel LobsterAdapterModel

set_option autoImplicit false

section Exchange

structure ExchangeOrder where
  side : Side
  price : Int
  remaining : Int
  deriving DecidableEq, Repr

/-- The order-level book the messages report on. -/
abbrev ExchangeBook := ExtTreeMap Nat ExchangeOrder compare

def exchangeWeight (side : Side) (price : Int) (_ : Nat) (order : ExchangeOrder) : Int :=
  if order.side = side ∧ order.price = price then order.remaining else 0

/-- The remaining sizes of the exchange orders at one level. -/
def exchangeDepth (book : ExchangeBook) (side : Side) (price : Int) : Int :=
  total (exchangeWeight side price) book

/-- Direction 1 buys, direction -1 sells. -/
def directedSide (message : Message) : Side := if message.direction = 1 then .buy else .sell

/-- What is left of an order; one that is used up is gone. -/
def afterReduction (order : ExchangeOrder) (size : Int) : Option ExchangeOrder :=
  if order.remaining = size then none else some { order with remaining := order.remaining - size }

/-- The order a message leaves displayed at its id. -/
def exchangeEntry (resting : Option ExchangeOrder) (message : Message) : Option ExchangeOrder :=
  if message.type = 1 then some ⟨directedSide message, message.price, message.size⟩
  else if message.type = 2 ∨ message.type = 4 then
    resting.bind fun order => afterReduction order message.size
  else if message.type = 3 then none
  else resting

def exchangeStep (book : ExchangeBook) (message : Message) : ExchangeBook :=
  put book message.orderId (exchangeEntry book[message.orderId]? message)

/-- A displayed order: below the seed ids, priced and not used up. -/
structure SoundExchangeOrder (seedIdBase orderId : Nat) (order : ExchangeOrder) : Prop where
  id : orderId < seedIdBase
  price : 0 ≤ order.price
  remaining : 0 < order.remaining

/-- The message names a resting order by its own side and price. -/
structure NamesOrder (resting : Option ExchangeOrder) (message : Message) (order : ExchangeOrder) :
    Prop where
  rests : resting = some order
  side : directedSide message = order.side
  price : message.price = order.price

/-- What a message may say of the order resting at its id. -/
inductive ValidMessage (seedIdBase : Nat) (resting : Option ExchangeOrder) (message : Message) :
    Prop where
  | submission (isType : message.type = 1) (fresh : resting = none) (positive : 0 < message.size)
      (priced : 0 ≤ message.price) (below : message.orderId < seedIdBase) :
      ValidMessage seedIdBase resting message
  | reduction (order : ExchangeOrder) (isType : message.type = 2 ∨ message.type = 4)
      (names : NamesOrder resting message order) (positive : 0 < message.size)
      (bounded : message.size ≤ order.remaining) : ValidMessage seedIdBase resting message
  | deletion (order : ExchangeOrder) (isType : message.type = 3)
      (names : NamesOrder resting message order) (whole : message.size = order.remaining) :
      ValidMessage seedIdBase resting message
  | undisplayed (isType : message.type ≠ 1 ∧ message.type ≠ 2 ∧ message.type ≠ 3 ∧
      message.type ≠ 4) : ValidMessage seedIdBase resting message

/-- Every message is valid for the book it meets. -/
def ValidRun (seedIdBase : Nat) : ExchangeBook → List Message → Prop
  | _, [] => True
  | book, message :: rest =>
      ValidMessage seedIdBase book[message.orderId]? message ∧
        ValidRun seedIdBase (exchangeStep book message) rest

theorem exchange_step_lookup (book : ExchangeBook) (message : Message) (orderId : Nat) :
    (exchangeStep book message)[orderId]? =
      if message.orderId = orderId then exchangeEntry book[message.orderId]? message
      else book[orderId]? := by
  exact lookup_put book message.orderId orderId _

theorem exchange_step_depth (book : ExchangeBook) (message : Message) (side : Side) (price : Int) :
    exchangeDepth (exchangeStep book message) side price =
      exchangeDepth book side price -
        share (exchangeWeight side price) message.orderId book[message.orderId]? +
        share (exchangeWeight side price) message.orderId
          (exchangeEntry book[message.orderId]? message) := by
  exact total_put (exchangeWeight side price) book message.orderId _

/-- Types 2, 3 and 4 take their size off the order they name. -/
structure Reduces (resting : Option ExchangeOrder) (message : Message) (order : ExchangeOrder) :
    Prop where
  names : NamesOrder resting message order
  positive : 0 < message.size
  bounded : message.size ≤ order.remaining
  leaves : exchangeEntry resting message = afterReduction order message.size

theorem reduction_reduces {resting : Option ExchangeOrder} {message : Message}
    {order : ExchangeOrder} (isType : message.type = 2 ∨ message.type = 4)
    (names : NamesOrder resting message order) (positive : 0 < message.size)
    (bounded : message.size ≤ order.remaining) : Reduces resting message order where
  names := names
  positive := positive
  bounded := bounded
  leaves := by
    have notSubmitted : message.type ≠ 1 := by omega
    rw [exchangeEntry, if_neg notSubmitted, if_pos isType, names.rests, Option.bind_some]

theorem deletion_reduces {resting : Option ExchangeOrder} {message : Message}
    {order : ExchangeOrder} (isType : message.type = 3)
    (names : NamesOrder resting message order) (whole : message.size = order.remaining)
    (positive : 0 < order.remaining) : Reduces resting message order where
  names := names
  positive := whole ▸ positive
  bounded := whole.le
  leaves := by
    have notSubmitted : message.type ≠ 1 := by omega
    have notReduced : ¬(message.type = 2 ∨ message.type = 4) := by omega
    rw [exchangeEntry, if_neg notSubmitted, if_neg notReduced, if_pos isType, afterReduction,
      if_pos whole.symm]

theorem undisplayed_entry (resting : Option ExchangeOrder) (message : Message)
    (isType : message.type ≠ 1 ∧ message.type ≠ 2 ∧ message.type ≠ 3 ∧ message.type ≠ 4) :
    exchangeEntry resting message = resting := by
  have notReduced : ¬(message.type = 2 ∨ message.type = 4) := by omega
  rw [exchangeEntry, if_neg isType.1, if_neg notReduced, if_neg isType.2.2.1]

/-- A valid message leaves a displayed order at its id, or none. -/
theorem exchange_entry_sound {seedIdBase : Nat} {resting : Option ExchangeOrder}
    {message : Message} (valid : ValidMessage seedIdBase resting message)
    (sound : ∀ order ∈ resting, SoundExchangeOrder seedIdBase message.orderId order) :
    ∀ order ∈ exchangeEntry resting message,
      SoundExchangeOrder seedIdBase message.orderId order := by
  intro left entry
  cases valid with
  | submission isType fresh positive priced below =>
      rw [exchangeEntry, if_pos isType] at entry
      cases entry
      exact ⟨below, priced, positive⟩
  | reduction order isType names positive bounded =>
      have held := sound order names.rests
      rw [(reduction_reduces isType names positive bounded).leaves, afterReduction] at entry
      split_ifs at entry with whole
      · cases entry
      · cases entry
        have remaining : 0 < order.remaining - message.size := by omega
        exact ⟨held.id, held.price, remaining⟩
  | deletion order isType names whole =>
      have held := sound order names.rests
      rw [(deletion_reduces isType names whole held.remaining).leaves, afterReduction,
        if_pos whole.symm] at entry
      cases entry
  | undisplayed isType =>
      rw [undisplayed_entry resting message isType] at entry
      exact sound left entry

theorem exchange_weight_nonneg {seedIdBase : Nat} {exchange : ExchangeBook}
    (sound : ∀ (orderId : Nat) (order : ExchangeOrder), exchange[orderId]? = some order →
      SoundExchangeOrder seedIdBase orderId order) (side : Side) (price : Int) :
    ∀ (orderId : Nat) (order : ExchangeOrder), exchange[orderId]? = some order →
      0 ≤ exchangeWeight side price orderId order := by
  intro orderId order stored
  unfold exchangeWeight
  split_ifs
  · exact (sound orderId order stored).remaining.le
  · exact le_refl 0

/-- A book of displayed orders, none at the sentinel price. -/
def SoundExchange (seedIdBase : Nat) (exchange : ExchangeBook) : Prop :=
  ∀ (orderId : Nat) (order : ExchangeOrder), exchange[orderId]? = some order →
    SoundExchangeOrder seedIdBase orderId order ∧ order.price ≠ 9999999999

theorem sound_depth_nonneg {seedIdBase : Nat} {exchange : ExchangeBook}
    (sound : SoundExchange seedIdBase exchange) (side : Side) (price : Int) :
    0 ≤ exchangeDepth exchange side price := by
  apply total_nonneg
  exact exchange_weight_nonneg (fun orderId order stored => (sound orderId order stored).1)
    side price

theorem sound_depth_priced {seedIdBase : Nat} {exchange : ExchangeBook}
    (sound : SoundExchange seedIdBase exchange) (side : Side) (price : Int)
    (shown : 0 < exchangeDepth exchange side price) : 0 ≤ price ∧ price ≠ 9999999999 := by
  rcases exists_of_total_ne_zero _ _ (ne_of_gt shown) with ⟨orderId, order, stored, weighs⟩
  have here : order.side = side ∧ order.price = price := by
    by_contra elsewhere
    exact weighs (if_neg elsewhere)
  rw [← here.2]
  exact ⟨(sound orderId order stored).1.price, (sound orderId order stored).2⟩

end Exchange

end TickForge.LobsterExchange
