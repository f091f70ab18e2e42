import Mathlib.Algebra.Ring.Nat
import Mathlib.Tactic.Common

/-!
# The single-producer single-consumer ring

A transcription of `SpscRingBuffer` as one thread sees it: the constructor and
whole calls made one after another. `size_t` arithmetic wraps at `2^64`, and an
access outside the slot vector has no result.
-/

namespace TickForge.RingBufferModel

set_option autoImplicit false

variable {Item : Type}

/-- `size_t` addition. -/
def addSize (left right : Nat) : Nat := (left + right) % 2 ^ 64

structure SpscRingBuffer (Item : Type) where
  buffer : List Item
  capacityWithSentinel : Nat
  head : Nat := 0
  tail : Nat := 0
  deriving DecidableEq, Repr

/-- The constructor; `none` is its `invalid_argument`. The requested vector is
taken to be allocated. -/
def construct [Inhabited Item] (capacity : Nat) : Option (SpscRingBuffer Item) :=
  if capacity = 0 then none
  else some
    { buffer := List.replicate (addSize capacity 1) default
      capacityWithSentinel := addSize capacity 1 }

def increment (capacityWithSentinel index : Nat) : Nat :=
  let next := addSize index 1
  if next = capacityWithSentinel then 0 else next

/-- Incrementing moves an index unless there is one slot only. -/
theorem increment_ne {capacityWithSentinel : Nat} (wide : capacityWithSentinel ≠ 1)
    (index : Nat) : increment capacityWithSentinel index ≠ index := by
  by_cases atEnd : addSize index 1 = capacityWithSentinel
  · have first : increment capacityWithSentinel index = 0 := if_pos atEnd
    rw [first]
    rintro rfl
    exact wide atEnd.symm
  · have next : increment capacityWithSentinel index = addSize index 1 := if_neg atEnd
    rw [next, addSize]
    omega

/-- `none` where the slot written does not exist. -/
def push (ring : SpscRingBuffer Item) (item : Item) : Option (Bool × SpscRingBuffer Item) :=
  let nextTail := increment ring.capacityWithSentinel ring.tail
  if nextTail = ring.head then some (false, ring)
  else if ring.tail < ring.buffer.length then
    some (true, { ring with buffer := ring.buffer.set ring.tail item, tail := nextTail })
  else none

/-- `none` where the slot read does not exist; the inner option is the item a
successful call hands out. -/
def pop (ring : SpscRingBuffer Item) : Option (Option Item × SpscRingBuffer Item) :=
  if ring.head = ring.tail then some (none, ring)
  else match ring.buffer[ring.head]? with
    | none => none
    | some item =>
        some (some item, { ring with head := increment ring.capacityWithSentinel ring.head })

def empty (ring : SpscRingBuffer Item) : Bool := ring.head = ring.tail

def full (ring : SpscRingBuffer Item) : Bool :=
  increment ring.capacityWithSentinel ring.tail = ring.head

def capacity (ring : SpscRingBuffer Item) : Nat := (ring.capacityWithSentinel + 2 ^ 64 - 1) % 2 ^ 64

section Construction

variable [Inhabited Item]

theorem construct_some {capacity : Nat} (positive : 1 ≤ capacity) :
    construct capacity = some
      ({ buffer := List.replicate (addSize capacity 1) default
         capacityWithSentinel := addSize capacity 1 } : SpscRingBuffer Item) :=
  if_neg (by omega)

/-- At the greatest `size_t` the slot count wraps to zero; the guard on the
capacity does not see it. -/
theorem greatest_capacity_constructs {capacity : Nat} (greatest : capacity + 1 = 2 ^ 64) :
    construct capacity = some (⟨[], 0, 0, 0⟩ : SpscRingBuffer Item) := by
  have wrapped : addSize capacity 1 = 0 := by rw [addSize, greatest, Nat.mod_self]
  rw [construct_some (by omega), wrapped]
  rfl

end Construction

end TickForge.RingBufferModel
