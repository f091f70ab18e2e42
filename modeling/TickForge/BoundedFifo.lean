import TickForge.StepRuns

/-!
# Bounded first-in first-out queues

The contract of a queue that stores at most `capacity` items, as a list with the
oldest item first. Items and capacity are arbitrary.
-/

namespace TickForge.BoundedFifo

open StepRuns

set_option autoImplicit false

variable {Item : Type*}

inductive QueueCall (Item : Type*) where
  | push (item : Item)
  | pop
  | empty
  | full

inductive QueueAnswer (Item : Type*) where
  | pushed (accepted : Bool)
  | popped (item : Option Item)
  | held (answer : Bool)

def fifoStep (capacity : Nat) (items : List Item) : QueueCall Item → QueueAnswer Item × List Item
  | .push item =>
      if items.length < capacity then (.pushed true, items ++ [item]) else (.pushed false, items)
  | .pop =>
      match items with
      | [] => (.popped none, [])
      | oldest :: rest => (.popped (some oldest), rest)
  | .empty => (.held items.isEmpty, items)
  | .full => (.held (decide (items.length = capacity)), items)

theorem fifo_push_room {capacity : Nat} {items : List Item} (room : items.length < capacity)
    (item : Item) :
    fifoStep capacity items (.push item) = (.pushed true, items ++ [item]) := by
  exact if_pos room

theorem fifo_push_full {capacity : Nat} {items : List Item} (noRoom : ¬items.length < capacity)
    (item : Item) : fifoStep capacity items (.push item) = (.pushed false, items) := by
  exact if_neg noRoom

end TickForge.BoundedFifo
