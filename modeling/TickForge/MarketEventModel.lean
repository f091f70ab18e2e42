import Mathlib.Tactic.Common

/-!
# Market events

The event record of the replay engine and the names its feeds use for event
types and sides.
-/

namespace TickForge.MarketEventModel

set_option autoImplicit false

/-- A character sequence as the parser and the feed writers handle it. -/
abbrev Text := List Char

inductive EventType where
  | add
  | cancel
  | modify
  | trade
  deriving DecidableEq, Repr, Inhabited

inductive Side where
  | buy
  | sell
  deriving DecidableEq, Repr, Inhabited

structure MarketEvent where
  timestampNs : Nat := 0
  type : EventType := .add
  orderId : Nat := 0
  side : Side := .buy
  price : Int := 0
  quantity : Int := 0
  deriving DecidableEq, Repr, Inhabited

def eventTypeToString : EventType → Text
  | .add => "ADD".toList
  | .cancel => "CANCEL".toList
  | .modify => "MODIFY".toList
  | .trade => "TRADE".toList

def sideToString : Side → Text
  | .buy => "BUY".toList
  | .sell => "SELL".toList

def parseEventType (value : Text) : Option EventType :=
  if value = "ADD".toList then some .add
  else if value = "CANCEL".toList then some .cancel
  else if value = "MODIFY".toList then some .modify
  else if value = "TRADE".toList then some .trade
  else none

def parseSide (value : Text) : Option Side :=
  if value = "BUY".toList then some .buy
  else if value = "SELL".toList then some .sell
  else none

/-- Exactly the written names are read back. -/
theorem parse_event_type_eq_some_iff (value : Text) (type : EventType) :
    parseEventType value = some type ↔ value = eventTypeToString type := by
  constructor
  · intro parsed
    unfold parseEventType at parsed
    split_ifs at parsed with isAdd isCancel isModify isTrade <;> cases parsed <;> assumption
  · rintro rfl
    cases type <;> decide

theorem parse_side_eq_some_iff (value : Text) (side : Side) :
    parseSide value = some side ↔ value = sideToString side := by
  constructor
  · intro parsed
    unfold parseSide at parsed
    split_ifs at parsed with isBuy isSell <;> cases parsed <;> assumption
  · rintro rfl
    cases side <;> decide

end TickForge.MarketEventModel
