import TickForge.BoundedFifo
import TickForge.PartialRuns
import TickForge.RingInterleaving

/-!
# The ring as a bounded queue

Whole calls made one after another. The length of the queue is never stored; a
ring holds a list when its indices are the slots of two positions that many
apart and the slots in between hold the items. Every call then answers as the
bounded queue does and no slot outside the vector is touched. The vector has
these slots exactly if `capacity + 1` does not wrap.
-/

namespace TickForge.RingQueue

open CyclicSlots StepRuns PartialRuns RingBufferModel RingInterleaving BoundedFifo

set_option autoImplicit false

variable {Item : Type}

section Calls

/-- One whole call; `none` where it touches a slot that does not exist. -/
def callRing (ring : SpscRingBuffer Item) :
    QueueCall Item → Option (QueueAnswer Item × SpscRingBuffer Item)
  | .push item => (push ring item).map fun answered => (.pushed answered.1, answered.2)
  | .pop => (pop ring).map fun answered => (.popped answered.1, answered.2)
  | .empty => some (.held (empty ring), ring)
  | .full => some (.held (full ring), ring)

/-- The slots from head to tail, in ring order. -/
def contents (ring : SpscRingBuffer Item) : List Item :=
  (List.range ((ring.tail + ring.capacityWithSentinel - ring.head) %
    ring.capacityWithSentinel)).filterMap fun offset =>
      ring.buffer[(ring.head + offset) % ring.capacityWithSentinel]?

/-- The index a call uses on the slot vector, if it uses one. -/
def slotUsed (ring : SpscRingBuffer Item) : QueueCall Item → Option Nat
  | .push _ =>
      if increment ring.capacityWithSentinel ring.tail = ring.head then none else some ring.tail
  | .pop => if ring.head = ring.tail then none else some ring.head
  | .empty | .full => none

theorem refused_push_unchanged (ring : SpscRingBuffer Item) (item : Item)
    (next : SpscRingBuffer Item) (refused : push ring item = some (false, next)) :
    next = ring := by
  simp only [push] at refused
  split_ifs at refused
  · cases refused
    rfl
  · cases refused

theorem refused_pop_unchanged (ring next : SpscRingBuffer Item)
    (refused : pop ring = some (none, next)) : next = ring := by
  simp only [pop] at refused
  split_ifs at refused
  · cases refused
    rfl
  · cases slot : ring.buffer[ring.head]? with
    | none => simp [slot] at refused
    | some item => simp [slot] at refused

end Calls

section Representation

variable {capacity popped : Nat} {ring : SpscRingBuffer Item} {items : List Item}

/-- After `popped` pops the ring holds `items`, oldest first. -/
structure RingHolds (capacity popped : Nat) (ring : SpscRingBuffer Item) (items : List Item) :
    Prop where
  sentinel : ring.capacityWithSentinel = capacity + 1
  slots : ring.buffer.length = capacity + 1
  head : ring.head = slotOf capacity popped
  tail : ring.tail = slotOf capacity (popped + items.length)
  room : items.length ≤ capacity
  stored : ∀ offset, offset < items.length →
    ring.buffer[slotOf capacity (popped + offset)]? = items[offset]?

theorem slot_inside (position : Nat) : slotOf capacity position < capacity + 1 :=
  Nat.mod_lt position (Nat.succ_pos capacity)

theorem indices_inside (holds : RingHolds capacity popped ring items) :
    ring.head ≤ capacity ∧ ring.tail ≤ capacity := by
  rw [holds.head, holds.tail]
  exact ⟨Nat.le_of_lt_succ (slot_inside _), Nat.le_of_lt_succ (slot_inside _)⟩

/-- Every index a call uses lies inside the vector. -/
theorem slot_used_inside (holds : RingHolds capacity popped ring items) (call : QueueCall Item)
    (index : Nat) (used : slotUsed ring call = some index) : index < ring.buffer.length := by
  have inside := indices_inside holds
  rw [holds.slots]
  cases call with
  | push item =>
      simp only [slotUsed] at used
      split_ifs at used
      cases used
      exact Nat.lt_succ_of_le inside.2
  | pop =>
      simp only [slotUsed] at used
      split_ifs at used
      cases used
      exact Nat.lt_succ_of_le inside.1
  | empty => cases used
  | full => cases used

theorem head_eq_tail_iff (holds : RingHolds capacity popped ring items) :
    ring.head = ring.tail ↔ items = [] := by
  have room := holds.room
  rw [holds.head, holds.tail, slotOf, slotOf, same_slot_iff (Nat.le_add_right _ _) (by omega),
    Nat.left_eq_add, List.length_eq_zero_iff]

/-- One more increment of the tail meets the head when a whole lap is stored. -/
theorem next_tail_eq_head_iff (bounded : capacity ≤ 2 ^ 64 - 2)
    (holds : RingHolds capacity popped ring items) :
    increment ring.capacityWithSentinel ring.tail = ring.head ↔ items.length = capacity := by
  have room := holds.room
  rw [holds.sentinel, holds.tail, increment_slot_of bounded, holds.head]
  constructor
  · intro met
    by_contra partially
    have apart := (same_slot_iff (show popped ≤ popped + items.length + 1 by omega)
      (show popped + items.length + 1 < popped + (capacity + 1) by omega)).mp met.symm
    omega
  · intro whole
    rw [slotOf, whole, Nat.add_assoc, Nat.add_mod_right]
    rfl

theorem push_holds (bounded : capacity ≤ 2 ^ 64 - 2)
    (holds : RingHolds capacity popped ring items) (hasRoom : items.length < capacity)
    (item : Item) :
    ∃ next, push ring item = some (true, next) ∧
      RingHolds capacity popped next (items ++ [item]) := by
  have notFull : increment ring.capacityWithSentinel ring.tail ≠ ring.head := fun met =>
    hasRoom.ne ((next_tail_eq_head_iff bounded holds).mp met)
  have slot : ring.tail < ring.buffer.length := by
    rw [holds.slots]
    exact Nat.lt_succ_of_le (indices_inside holds).2
  refine ⟨{ ring with
    buffer := ring.buffer.set ring.tail item
    tail := increment ring.capacityWithSentinel ring.tail }, ?_, ?_⟩
  · simp only [push, if_neg notFull, if_pos slot]
  · exact
      { sentinel := holds.sentinel
        slots := by rw [List.length_set, holds.slots]
        head := holds.head
        tail := by
          rw [holds.sentinel, holds.tail, increment_slot_of bounded, List.length_append,
            List.length_singleton, Nat.add_assoc]
        room := by
          rw [List.length_append, List.length_singleton]
          exact hasRoom
        stored := by
          intro offset inside
          rw [List.length_append, List.length_singleton] at inside
          by_cases last : offset = items.length
          · rw [last, List.getElem?_concat_length, ← holds.tail]
            exact List.getElem?_set_self slot
          · have earlier : offset < items.length := by omega
            have apart : slotOf capacity (popped + offset) ≠ ring.tail := by
              rw [holds.tail]
              intro same
              have equal := (same_slot_iff (show popped + offset ≤ popped + items.length by omega)
                (by omega)).mp same
              omega
            rw [List.getElem?_set_ne apart.symm, List.getElem?_append_left earlier]
            exact holds.stored offset earlier }

theorem pop_holds (bounded : capacity ≤ 2 ^ 64 - 2) {oldest : Item} {rest : List Item}
    (holds : RingHolds capacity popped ring (oldest :: rest)) :
    ∃ next, pop ring = some (some oldest, next) ∧ RingHolds capacity (popped + 1) next rest := by
  have notEmpty : ring.head ≠ ring.tail := fun met =>
    List.cons_ne_nil _ _ ((head_eq_tail_iff holds).mp met)
  have first := holds.stored 0 (Nat.succ_pos _)
  rw [Nat.add_zero, ← holds.head, List.getElem?_cons_zero] at first
  refine ⟨{ ring with head := increment ring.capacityWithSentinel ring.head }, ?_, ?_⟩
  · simp only [pop, if_neg notEmpty, first]
  · exact
      { sentinel := holds.sentinel
        slots := holds.slots
        head := by rw [holds.sentinel, holds.head, increment_slot_of bounded]
        tail := by rw [holds.tail, List.length_cons, Nat.add_right_comm, Nat.add_assoc]
        room := Nat.le_of_succ_le holds.room
        stored := by
          intro offset inside
          have later := holds.stored (offset + 1) (Nat.succ_lt_succ inside)
          rwa [List.getElem?_cons_succ, Nat.add_comm offset 1, ← Nat.add_assoc] at later }

/-- One call on a ring that holds a list answers as the bounded queue does, and
the ring then holds what the queue stores. -/
theorem call_ring_refines (bounded : capacity ≤ 2 ^ 64 - 2) (call : QueueCall Item)
    (holds : ∃ popped, RingHolds capacity popped ring items) :
    ∃ next, callRing ring call = some ((fifoStep capacity items call).1, next) ∧
      ∃ popped, RingHolds capacity popped next (fifoStep capacity items call).2 := by
  obtain ⟨popped, holds⟩ := holds
  cases call with
  | push item =>
      by_cases hasRoom : items.length < capacity
      · obtain ⟨next, pushed, stillHolds⟩ := push_holds bounded holds hasRoom item
        rw [fifo_push_room hasRoom]
        refine ⟨next, ?_, popped, stillHolds⟩
        simp only [callRing, pushed, Option.map_some]
      · have whole : items.length = capacity := le_antisymm holds.room (not_lt.mp hasRoom)
        rw [fifo_push_full hasRoom]
        refine ⟨ring, ?_, popped, holds⟩
        simp only [callRing, push, if_pos ((next_tail_eq_head_iff bounded holds).mpr whole),
          Option.map_some]
  | pop =>
      cases items with
      | nil =>
          refine ⟨ring, ?_, popped, holds⟩
          simp only [callRing, pop, if_pos ((head_eq_tail_iff holds).mpr rfl), Option.map_some,
            fifoStep]
      | cons oldest rest =>
          obtain ⟨next, handedOut, stillHolds⟩ := pop_holds bounded holds
          refine ⟨next, ?_, popped + 1, stillHolds⟩
          simp only [callRing, handedOut, Option.map_some, fifoStep]
  | empty =>
      have same : empty ring = items.isEmpty := by
        rw [Bool.eq_iff_iff, empty, decide_eq_true_iff, List.isEmpty_iff]
        exact head_eq_tail_iff holds
      refine ⟨ring, ?_, popped, holds⟩
      simp only [callRing, fifoStep, same]
  | full =>
      refine ⟨ring, ?_, popped, holds⟩
      simp only [callRing, full, fifoStep, next_tail_eq_head_iff bounded holds]

theorem contents_eq (holds : RingHolds capacity popped ring items) : contents ring = items := by
  have room := holds.room
  have distance : (ring.tail + ring.capacityWithSentinel - ring.head) %
      ring.capacityWithSentinel = items.length := by
    rw [holds.head, holds.tail, holds.sentinel, slotOf, slotOf,
      slot_distance (Nat.le_add_right _ _) (by omega), Nat.add_sub_cancel_left]
  rw [contents, distance]
  apply lookups_range
  intro offset inside
  rw [holds.head, holds.sentinel, slotOf, slot_offset]
  exact holds.stored offset inside

end Representation

section Runs

variable [Inhabited Item] {capacity : Nat}

theorem constructed_holds (positive : 1 ≤ capacity) (bounded : capacity ≤ 2 ^ 64 - 2)
    (ring : SpscRingBuffer Item) (constructed : construct capacity = some ring) :
    RingHolds capacity 0 ring [] := by
  have slotCount : addSize capacity 1 = capacity + 1 := Nat.mod_eq_of_lt (by omega)
  rw [construct_some positive, slotCount] at constructed
  cases constructed
  exact
    { sentinel := rfl
      slots := List.length_replicate
      head := (Nat.zero_mod _).symm
      tail := (Nat.zero_mod _).symm
      room := Nat.zero_le capacity
      stored := by
        intro offset inside
        exact absurd inside (Nat.not_lt_zero offset) }

/-- Any calls on a new ring have results, answer as the bounded queue does and
end in a ring that holds what the queue stores. -/
theorem ring_run_refines (positive : 1 ≤ capacity) (bounded : capacity ≤ 2 ^ 64 - 2)
    (ring : SpscRingBuffer Item) (constructed : construct capacity = some ring)
    (calls : List (QueueCall Item)) :
    ∃ after, finalState (partialStep callRing) (some ring) calls = some after ∧
      outputs (partialStep callRing) (some ring) calls =
        (outputs (fifoStep capacity) [] calls).map some ∧
      ∃ popped, RingHolds capacity popped after (finalState (fifoStep capacity) [] calls) := by
  apply partial_simulation_run callRing (fifoStep capacity)
    fun ring items => ∃ popped, RingHolds capacity popped ring items
  · intro ring items call holds
    exact call_ring_refines bounded call holds
  · exact ⟨0, constructed_holds positive bounded ring constructed⟩

/-- From construction on, any whole calls made one after another are answered
exactly as by a queue of at most `capacity` items; the slots from head to tail
hold that queue, refused pushes and pops change nothing and both indices stay
within `0 .. capacity`. -/
theorem ring_is_bounded_queue (capacity : Nat) (positive : 1 ≤ capacity)
    (bounded : capacity ≤ 2 ^ 64 - 2) (calls : List (QueueCall Item)) :
    ∃ start after, construct capacity = some start ∧
      finalState (partialStep callRing) (some start) calls = some after ∧
      outputs (partialStep callRing) (some start) calls =
        (outputs (fifoStep capacity) [] calls).map some ∧
      contents after = finalState (fifoStep capacity) [] calls ∧
      (∀ item next, push after item = some (false, next) → next = after) ∧
      (∀ next, pop after = some (none, next) → next = after) ∧
      after.head ≤ capacity ∧ after.tail ≤ capacity := by
  have constructed := @construct_some Item _ _ positive
  obtain ⟨after, ended, answered, popped, holds⟩ :=
    ring_run_refines positive bounded _ constructed calls
  exact ⟨_, after, constructed, ended, answered, contents_eq holds, refused_push_unchanged after,
    refused_pop_unchanged after, indices_inside holds⟩

/-- Three pushes into two slots, a pop and a push over the wrap. -/
theorem two_slots_wrap_as_queue :
    let calls : List (QueueCall Nat) :=
      [.push 10, .push 20, .push 30, .full, .pop, .push 30, .pop, .pop, .pop, .empty]
    ∃ start after, construct 2 = some start ∧
      finalState (partialStep callRing) (some start) calls = some after ∧
      outputs (partialStep callRing) (some start) calls =
        (outputs (fifoStep 2) [] calls).map some ∧
      contents after = finalState (fifoStep 2) [] calls ∧
      (∀ item next, push after item = some (false, next) → next = after) ∧
      (∀ next, pop after = some (none, next) → next = after) ∧
      after.head ≤ 2 ∧ after.tail ≤ 2 := by
  exact ring_is_bounded_queue 2 (by decide) (by decide) _

end Runs

section Slots

variable [Inhabited Item]

/-- The constructor refuses the capacity, or the vector has one slot more than
`capacity()` and every index any calls use on it is inside. -/
def SlotsSafe (Item : Type) [Inhabited Item] (size : Nat) : Prop :=
  (construct size : Option (SpscRingBuffer Item)) = none ∨
    ∃ ring : SpscRingBuffer Item, construct size = some ring ∧
      ring.buffer.length = capacity ring + 1 ∧
      ∀ calls after call index, finalState (partialStep callRing) (some ring) calls = some after →
        slotUsed after call = some index → index < after.buffer.length

theorem unwrapped_slots_safe {size : Nat} (unwrapped : size + 1 < 2 ^ 64) :
    SlotsSafe Item size := by
  by_cases refused : size = 0
  · exact .inl (if_pos refused)
  · have positive : 1 ≤ size := Nat.one_le_iff_ne_zero.mpr refused
    have bounded : size ≤ 2 ^ 64 - 2 := by omega
    have slotCount : addSize size 1 = size + 1 := Nat.mod_eq_of_lt unwrapped
    have constructed := @construct_some Item _ _ positive
    refine .inr ⟨_, constructed, ?_, ?_⟩
    · simp only [capacity, List.length_replicate, slotCount]
      omega
    · intro calls after call index reached used
      obtain ⟨ended, alsoReached, _, popped, holds⟩ :=
        ring_run_refines positive bounded _ constructed calls
      cases Option.some.inj (reached.symm.trans alsoReached)
      exact slot_used_inside holds call index used

/-- A wrapped slot count leaves no slot for the first push. -/
theorem wrapped_slots_unsafe {size : Nat} (wrapped : size + 1 = 2 ^ 64) :
    ¬SlotsSafe Item size := by
  rintro (refused | ⟨ring, constructed, _, safe⟩)
  · rw [greatest_capacity_constructs wrapped] at refused
    cases refused
  · rw [greatest_capacity_constructs wrapped] at constructed
    cases constructed
    have nextSlot : increment 0 0 ≠ 0 := by decide
    have used : slotUsed (⟨[], 0, 0, 0⟩ : SpscRingBuffer Item) (.push default) = some 0 := by
      rw [slotUsed]
      exact if_neg nextSlot
    exact Nat.not_lt_zero 0 (safe [] _ (.push default) 0 rfl used)

/-- For a `size_t` capacity the ring has its slots and never leaves them exactly
when one more slot than the capacity can be counted in 64 bits. -/
theorem slots_safe_iff (Item : Type) [Inhabited Item] (size : Nat) (isSize : size < 2 ^ 64) :
    SlotsSafe Item size ↔ size + 1 < 2 ^ 64 := by
  constructor
  · intro safe
    by_contra wraps
    exact wrapped_slots_unsafe (show size + 1 = 2 ^ 64 by omega) safe
  · exact unwrapped_slots_safe

theorem two_slot_ring_safe : SlotsSafe Nat 1 ↔ 1 + 1 < 2 ^ 64 := by
  exact slots_safe_iff Nat 1 (by decide)

/-- A ring of capacity `18446744073709551615` has no slots. -/
theorem greatest_capacity_unsafe : ¬SlotsSafe Nat 18446744073709551615 := by
  exact wrapped_slots_unsafe (by decide)

end Slots

end TickForge.RingQueue
