import TickForge.CyclicSlots
import TickForge.RingBufferModel
import TickForge.StepRuns

/-!
# The ring under every interleaving

One producer pushes and one consumer pops, each index load, slot access and
index store being a step of its own. A load of the other party's index returns
any published value that is not older than the last one loaded. Positions count
pushes and pops without wrapping; the invariant ties both published indices,
both program points and both stale views to them.
-/

namespace TickForge.RingInterleaving

open CyclicSlots RingBufferModel StepRuns

set_option autoImplicit false

variable {Item : Type}

section Steps

/-- Where the producer stands inside `push`. -/
inductive PushPoint (Item : Type) where
  | idle
  | loadedTail (item : Item) (tail : Nat)
  | room (item : Item) (tail : Nat)
  | written (item : Item) (tail : Nat)

/-- Where the consumer stands inside `pop`. -/
inductive PopPoint (Item : Type) where
  | idle
  | loadedHead (head : Nat)
  | filled (head : Nat)
  | read (head : Nat) (item : Item)

/-- Shared memory, both program points and what a run has handed over so far.
`headStores` and `tailStores` are all values stored to an index, oldest first;
`headSeen` and `tailSeen` say which of them the other party loaded last. -/
structure RingState (Item : Type) where
  buffer : List Item
  capacityWithSentinel : Nat
  headStores : List Nat
  tailStores : List Nat
  pushPoint : PushPoint Item
  popPoint : PopPoint Item
  headSeen : Nat
  tailSeen : Nat
  pushed : List Item
  popped : List Item
  faulted : Bool

/-- A party's load of its own index gives its own latest store. -/
def RingState.head (state : RingState Item) : Nat := state.headStores.getLast?.getD 0

def RingState.tail (state : RingState Item) : Nat := state.tailStores.getLast?.getD 0

def RingState.next (state : RingState Item) (index : Nat) : Nat :=
  increment state.capacityWithSentinel index

def startRing (ring : SpscRingBuffer Item) : RingState Item where
  buffer := ring.buffer
  capacityWithSentinel := ring.capacityWithSentinel
  headStores := [ring.head]
  tailStores := [ring.tail]
  pushPoint := .idle
  popPoint := .idle
  headSeen := 0
  tailSeen := 0
  pushed := []
  popped := []
  faulted := false

inductive ProducerLabel (Item : Type) where
  | begins (item : Item)
  | inside
  | refused
  | accepted

inductive ProducerStep :
    RingState Item → ProducerLabel Item → RingState Item → Prop where
  | loadTail (state : RingState Item) (item : Item) (idle : state.pushPoint = .idle) :
      ProducerStep state (.begins item) { state with pushPoint := .loadedTail item state.tail }
  | findFull (state : RingState Item) (item : Item) (tail version head : Nat)
      (atPoint : state.pushPoint = .loadedTail item tail) (fresh : state.headSeen ≤ version)
      (loaded : state.headStores[version]? = some head) (isFull : state.next tail = head) :
      ProducerStep state .refused { state with pushPoint := .idle, headSeen := version }
  | findRoom (state : RingState Item) (item : Item) (tail version head : Nat)
      (atPoint : state.pushPoint = .loadedTail item tail) (fresh : state.headSeen ≤ version)
      (loaded : state.headStores[version]? = some head) (hasRoom : state.next tail ≠ head) :
      ProducerStep state .inside { state with pushPoint := .room item tail, headSeen := version }
  | write (state : RingState Item) (item : Item) (tail : Nat)
      (atPoint : state.pushPoint = .room item tail) (slotExists : tail < state.buffer.length) :
      ProducerStep state .inside
        { state with buffer := state.buffer.set tail item, pushPoint := .written item tail }
  | writeOutside (state : RingState Item) (item : Item) (tail : Nat)
      (atPoint : state.pushPoint = .room item tail) (noSlot : state.buffer.length ≤ tail) :
      ProducerStep state .inside { state with faulted := true }
  | storeTail (state : RingState Item) (item : Item) (tail : Nat)
      (atPoint : state.pushPoint = .written item tail) :
      ProducerStep state .accepted
        { state with
          tailStores := state.tailStores ++ [state.next tail]
          pushPoint := .idle
          pushed := state.pushed ++ [item] }

inductive ConsumerLabel (Item : Type) where
  | begins
  | inside
  | refused
  | delivered (item : Item)
  | observed (version : Nat)

/-- Besides its pops, the consumer may learn of newer tail stores, as its calls
of `empty` do. -/
inductive ConsumerStep :
    RingState Item → ConsumerLabel Item → RingState Item → Prop where
  | loadHead (state : RingState Item) (idle : state.popPoint = .idle) :
      ConsumerStep state .begins { state with popPoint := .loadedHead state.head }
  | findEmpty (state : RingState Item) (head version tail : Nat)
      (atPoint : state.popPoint = .loadedHead head) (fresh : state.tailSeen ≤ version)
      (loaded : state.tailStores[version]? = some tail) (isEmpty : head = tail) :
      ConsumerStep state .refused { state with popPoint := .idle, tailSeen := version }
  | findItem (state : RingState Item) (head version tail : Nat)
      (atPoint : state.popPoint = .loadedHead head) (fresh : state.tailSeen ≤ version)
      (loaded : state.tailStores[version]? = some tail) (hasItem : head ≠ tail) :
      ConsumerStep state .inside { state with popPoint := .filled head, tailSeen := version }
  | read (state : RingState Item) (head : Nat) (item : Item)
      (atPoint : state.popPoint = .filled head) (stored : state.buffer[head]? = some item) :
      ConsumerStep state .inside { state with popPoint := .read head item }
  | readOutside (state : RingState Item) (head : Nat)
      (atPoint : state.popPoint = .filled head) (noSlot : state.buffer[head]? = none) :
      ConsumerStep state .inside { state with faulted := true }
  | storeHead (state : RingState Item) (head : Nat) (item : Item)
      (atPoint : state.popPoint = .read head item) :
      ConsumerStep state (.delivered item)
        { state with
          headStores := state.headStores ++ [state.next head]
          popPoint := .idle
          popped := state.popped ++ [item] }
  | observe (state : RingState Item) (version : Nat) (fresh : state.tailSeen ≤ version)
      (published : version < state.tailStores.length) :
      ConsumerStep state (.observed version) { state with tailSeen := version }

def RingStep (state next : RingState Item) : Prop :=
  (∃ label, ProducerStep state label next) ∨ (∃ label, ConsumerStep state label next)

/-- The slots from the published head to the published tail, in ring order. -/
def RingState.unread (state : RingState Item) : List Item :=
  (List.range ((state.tail + state.capacityWithSentinel - state.head) %
    state.capacityWithSentinel)).filterMap fun offset =>
      state.buffer[(state.head + offset) % state.capacityWithSentinel]?

end Steps

section Invariant

variable (capacity : Nat)

/-- The slot that serves a position. -/
def slotOf (position : Nat) : Nat := position % (capacity + 1)

def PushPointHolds (state : RingState Item) : Prop :=
  match state.pushPoint with
  | .idle => True
  | .loadedTail _ tail => tail = slotOf capacity state.pushed.length
  | .room _ tail => tail = slotOf capacity state.pushed.length ∧
      state.pushed.length < state.headSeen + capacity
  | .written item tail => tail = slotOf capacity state.pushed.length ∧
      state.pushed.length < state.headSeen + capacity ∧ state.buffer[tail]? = some item

def PopPointHolds (state : RingState Item) : Prop :=
  match state.popPoint with
  | .idle => True
  | .loadedHead head => head = slotOf capacity state.popped.length
  | .filled head => head = slotOf capacity state.popped.length ∧
      state.popped.length < state.tailSeen
  | .read head item => head = slotOf capacity state.popped.length ∧
      state.popped.length < state.tailSeen ∧ state.pushed[state.popped.length]? = some item

/-- Pushes and pops counted as positions: each published index is the slot of
its position, a stale view lags behind but stays within one lap, and the slots
between head and tail hold what was pushed there. -/
structure RingInvariant (state : RingState Item) : Prop where
  sentinel : state.capacityWithSentinel = capacity + 1
  slots : state.buffer.length = capacity + 1
  heads : state.headStores = slotHistory (capacity + 1) state.popped.length
  tails : state.tailStores = slotHistory (capacity + 1) state.pushed.length
  headSeen : state.headSeen ≤ state.popped.length
  tailSeen : state.popped.length ≤ state.tailSeen ∧ state.tailSeen ≤ state.pushed.length
  oneLap : state.pushed.length ≤ state.headSeen + capacity
  stored : ∀ position, state.popped.length ≤ position → position < state.pushed.length →
    state.buffer[slotOf capacity position]? = state.pushed[position]?
  delivered : state.popped <+: state.pushed
  pushing : PushPointHolds capacity state
  popping : PopPointHolds capacity state
  noFault : state.faulted = false

theorem start_invariant [Inhabited Item] (positive : 1 ≤ capacity) (bounded : capacity ≤ 2 ^ 64 - 2)
    (ring : SpscRingBuffer Item) (constructed : construct capacity = some ring) :
    RingInvariant capacity (startRing ring) := by
  have slotCount : addSize capacity 1 = capacity + 1 := Nat.mod_eq_of_lt (by omega)
  unfold construct at constructed
  rw [if_neg (by omega), slotCount] at constructed
  cases constructed
  exact
    { sentinel := rfl
      slots := List.length_replicate
      heads := by simp [startRing, slotHistory]
      tails := by simp [startRing, slotHistory]
      headSeen := le_rfl
      tailSeen := ⟨le_rfl, le_rfl⟩
      oneLap := Nat.zero_le _
      stored := by
        intro position _ below
        exact absurd below (Nat.not_lt_zero _)
      delivered := List.prefix_rfl
      pushing := trivial
      popping := trivial
      noFault := rfl }

variable {capacity}

/-- Incrementing an index goes to the slot of the next position. -/
theorem increment_slot_of (bounded : capacity ≤ 2 ^ 64 - 2) (position : Nat) :
    increment (capacity + 1) (slotOf capacity position) = slotOf capacity (position + 1) := by
  have inside := Nat.mod_lt position (show 0 < capacity + 1 by omega)
  have noWrap : addSize (position % (capacity + 1)) 1 = position % (capacity + 1) + 1 :=
    Nat.mod_eq_of_lt (by omega)
  simp only [increment, slotOf, noWrap]
  exact (next_slot (capacity + 1) position (by omega)).symm

theorem next_slot_of {state : RingState Item} (bounded : capacity ≤ 2 ^ 64 - 2)
    (sentinel : state.capacityWithSentinel = capacity + 1) (position : Nat) :
    state.next (slotOf capacity position) = slotOf capacity (position + 1) := by
  rw [RingState.next, sentinel, increment_slot_of bounded]

theorem head_eq {state : RingState Item} (invariant : RingInvariant capacity state) :
    state.head = slotOf capacity state.popped.length := by
  rw [RingState.head, invariant.heads, slot_history_last]
  rfl

theorem tail_eq {state : RingState Item} (invariant : RingInvariant capacity state) :
    state.tail = slotOf capacity state.pushed.length := by
  rw [RingState.tail, invariant.tails, slot_history_last]
  rfl

/-- Unread positions never share a slot with the position to be written. -/
theorem unread_slot_apart {state : RingState Item} (invariant : RingInvariant capacity state)
    (hasRoom : state.pushed.length < state.headSeen + capacity) (position : Nat)
    (unread : state.popped.length ≤ position) (published : position < state.pushed.length) :
    slotOf capacity position ≠ slotOf capacity state.pushed.length := by
  intro same
  have lag := invariant.headSeen
  have equal := (same_slot_iff published.le (by omega)).mp same
  omega

/-- The consumer's point keeps holding as its view and the pushes advance. -/
theorem pop_point_advances {state next : RingState Item} (holds : PopPointHolds capacity state)
    (samePoint : next.popPoint = state.popPoint) (samePopped : next.popped = state.popped)
    (seen : state.tailSeen ≤ next.tailSeen) (published : state.pushed <+: next.pushed) :
    PopPointHolds capacity next := by
  unfold PopPointHolds at holds ⊢
  rw [samePoint, samePopped]
  cases point : state.popPoint with
  | idle => trivial
  | loadedHead head => simpa only [point] using holds
  | filled head =>
      simp only [point] at holds ⊢
      exact ⟨holds.1, holds.2.trans_le seen⟩
  | read head item =>
      simp only [point] at holds ⊢
      obtain ⟨rest, whole⟩ := published
      have inside := (List.getElem?_eq_some_iff.mp holds.2.2).1
      refine ⟨holds.1, holds.2.1.trans_le seen, ?_⟩
      rw [← whole, List.getElem?_append_left inside]
      exact holds.2.2

theorem producer_step_invariant (bounded : capacity ≤ 2 ^ 64 - 2) {state next : RingState Item}
    {label : ProducerLabel Item} (invariant : RingInvariant capacity state)
    (stepped : ProducerStep state label next) : RingInvariant capacity next := by
  have pushing := invariant.pushing
  have lag := invariant.headSeen
  cases stepped with
  | loadTail item idle => exact { invariant with pushing := tail_eq invariant }
  | findFull item tail version head atPoint fresh loaded isFull =>
      rw [invariant.heads, slot_history_lookup] at loaded
      have lap := invariant.oneLap
      exact { invariant with headSeen := loaded.1, oneLap := (by dsimp only; omega), pushing := trivial }
  | findRoom item tail version head atPoint fresh loaded hasRoom =>
      rw [invariant.heads, slot_history_lookup] at loaded
      have lap := invariant.oneLap
      have order := invariant.tailSeen
      simp only [PushPointHolds, atPoint] at pushing
      -- A full lap ahead of the loaded head would have shown the same slot.
      have roomLeft : state.pushed.length < version + capacity := by
        by_contra noRoom
        apply hasRoom
        rw [pushing, next_slot_of bounded invariant.sentinel, loaded.2]
        have lapped : state.pushed.length + 1 = version + (capacity + 1) := by omega
        rw [slotOf, lapped, Nat.add_mod_right]
      exact { invariant with
        headSeen := loaded.1
        oneLap := (by dsimp only; omega)
        pushing := ⟨pushing, roomLeft⟩ }
  | write item tail atPoint slotExists =>
      simp only [PushPointHolds, atPoint] at pushing
      obtain ⟨isTail, hasRoom⟩ := pushing
      exact { invariant with
        slots := by rw [List.length_set, invariant.slots]
        stored := by
          intro position unread published
          have apart := unread_slot_apart invariant hasRoom position unread published
          rw [isTail, List.getElem?_set_ne (Ne.symm apart)]
          exact invariant.stored position unread published
        pushing := ⟨isTail, hasRoom, List.getElem?_set_self slotExists⟩ }
  | writeOutside item tail atPoint noSlot =>
      simp only [PushPointHolds, atPoint] at pushing
      have inside := Nat.mod_lt state.pushed.length (show 0 < capacity + 1 by omega)
      rw [invariant.slots, pushing.1] at noSlot
      exact absurd inside (not_lt.mpr noSlot)
  | storeTail item tail atPoint =>
      simp only [PushPointHolds, atPoint] at pushing
      obtain ⟨isTail, hasRoom, holds⟩ := pushing
      have seen := invariant.tailSeen
      exact { invariant with
        tails := by
          rw [isTail, next_slot_of bounded invariant.sentinel, invariant.tails,
            List.length_append, List.length_singleton]
          exact slot_history_extend _ _
        tailSeen := by
          rw [List.length_append, List.length_singleton]
          dsimp only
          omega
        oneLap := by
          rw [List.length_append, List.length_singleton]
          dsimp only
          omega
        stored := by
          intro position unread published
          rw [List.length_append, List.length_singleton] at published
          by_cases last : position = state.pushed.length
          · rw [last, List.getElem?_concat_length, ← isTail]
            exact holds
          · have earlier : position < state.pushed.length := by omega
            rw [List.getElem?_append_left earlier]
            exact invariant.stored position unread earlier
        delivered := invariant.delivered.trans (List.prefix_append _ _)
        pushing := trivial
        popping := pop_point_advances invariant.popping rfl rfl le_rfl (List.prefix_append _ _) }

theorem consumer_step_invariant (bounded : capacity ≤ 2 ^ 64 - 2) {state next : RingState Item}
    {label : ConsumerLabel Item} (invariant : RingInvariant capacity state)
    (stepped : ConsumerStep state label next) : RingInvariant capacity next := by
  have popping := invariant.popping
  have seen := invariant.tailSeen
  cases stepped with
  | loadHead idle => exact { invariant with popping := head_eq invariant }
  | findEmpty head version tail atPoint fresh loaded isEmpty =>
      rw [invariant.tails, slot_history_lookup] at loaded
      exact { invariant with tailSeen := ⟨seen.1.trans fresh, loaded.1⟩, popping := trivial }
  | findItem head version tail atPoint fresh loaded hasItem =>
      rw [invariant.tails, slot_history_lookup] at loaded
      simp only [PopPointHolds, atPoint] at popping
      have ahead : state.popped.length ≠ version := by
        intro same
        apply hasItem
        rw [popping, loaded.2, same]
        rfl
      exact { invariant with
        tailSeen := ⟨seen.1.trans fresh, loaded.1⟩
        popping := ⟨popping, lt_of_le_of_ne (seen.1.trans fresh) ahead⟩ }
  | read head item atPoint stored =>
      simp only [PopPointHolds, atPoint] at popping
      have held := invariant.stored _ le_rfl (popping.2.trans_le seen.2)
      rw [← popping.1, stored] at held
      exact { invariant with popping := ⟨popping.1, popping.2, held.symm⟩ }
  | readOutside head atPoint noSlot =>
      simp only [PopPointHolds, atPoint] at popping
      have inside := Nat.mod_lt state.popped.length (show 0 < capacity + 1 by omega)
      rw [List.getElem?_eq_none_iff, invariant.slots, popping.1] at noSlot
      exact absurd inside (not_lt.mpr noSlot)
  | storeHead head item atPoint =>
      simp only [PopPointHolds, atPoint] at popping
      obtain ⟨isHead, behind, holds⟩ := popping
      have lag := invariant.headSeen
      exact { invariant with
        heads := by
          rw [isHead, next_slot_of bounded invariant.sentinel, invariant.heads,
            List.length_append, List.length_singleton]
          exact slot_history_extend _ _
        headSeen := by
          rw [List.length_append, List.length_singleton]
          exact Nat.le_succ_of_le lag
        tailSeen := by
          rw [List.length_append, List.length_singleton]
          exact ⟨behind, seen.2⟩
        stored := by
          intro position unread published
          rw [List.length_append, List.length_singleton] at unread
          exact invariant.stored position (by omega) published
        delivered := by
          obtain ⟨rest, whole⟩ := invariant.delivered
          rw [← whole, List.getElem?_append_right le_rfl, Nat.sub_self] at holds
          obtain ⟨later, rfl⟩ : ∃ later, rest = item :: later := by
            cases rest with
            | nil => cases holds
            | cons first later => exact ⟨later, by rw [Option.some.inj holds]⟩
          exact ⟨later, by rw [← whole, List.append_assoc, List.singleton_append]⟩
        popping := trivial }
  | observe version fresh published =>
      rw [invariant.tails, slot_history_length] at published
      exact { invariant with
        tailSeen := ⟨seen.1.trans fresh, by dsimp only; omega⟩
        popping := pop_point_advances popping rfl rfl fresh List.prefix_rfl }

theorem ring_step_invariant (bounded : capacity ≤ 2 ^ 64 - 2) (state next : RingState Item)
    (invariant : RingInvariant capacity state) (stepped : RingStep state next) :
    RingInvariant capacity next := by
  rcases stepped with ⟨label, produced⟩ | ⟨label, consumed⟩
  · exact producer_step_invariant bounded invariant produced
  · exact consumer_step_invariant bounded invariant consumed

/-- What was pushed is what was popped followed by what the slots still hold. -/
theorem pushed_eq_popped_unread {state : RingState Item} (invariant : RingInvariant capacity state) :
    state.pushed = state.popped ++ state.unread := by
  have ordered := invariant.delivered.length_le
  have lag := invariant.headSeen
  have lap := invariant.oneLap
  have distance : (state.tail + state.capacityWithSentinel - state.head) %
      state.capacityWithSentinel = state.pushed.length - state.popped.length := by
    rw [head_eq invariant, tail_eq invariant, invariant.sentinel]
    exact slot_distance ordered (by omega)
  obtain ⟨rest, whole⟩ := invariant.delivered
  have restLength : rest.length = state.pushed.length - state.popped.length := by
    rw [← whole, List.length_append]
    omega
  rw [← whole]
  congr 1
  rw [RingState.unread, distance, ← restLength]
  refine (lookups_range rest _ ?_).symm
  intro offset inside
  have held := invariant.stored (state.popped.length + offset) (by omega) (by omega)
  rw [head_eq invariant, invariant.sentinel, slotOf, slot_offset]
  rw [← whole, List.getElem?_append_right (by omega), Nat.add_sub_cancel_left] at held
  exact held

end Invariant

/-- What a state of the ring must satisfy. Position `p` is the `p`-th push or
pop, counted from zero. -/
structure RingSafe (capacity : Nat) (state : RingState Item) : Prop where
  noFault : state.faulted = false
  writesFreeSlot : ∀ item tail, state.pushPoint = .room item tail →
    tail = slotOf capacity state.pushed.length ∧ tail < state.buffer.length ∧
      ∀ position, state.popped.length ≤ position → position < state.pushed.length →
        slotOf capacity position ≠ tail
  readsPublished : ∀ head, state.popPoint = .filled head →
    head = slotOf capacity state.popped.length ∧
      ∃ item, state.pushed[state.popped.length]? = some item ∧ state.buffer[head]? = some item
  unreadStored : ∀ position, state.popped.length ≤ position → position < state.pushed.length →
    state.buffer[slotOf capacity position]? = state.pushed[position]?
  atMostCapacity : state.unread.length ≤ capacity
  inOrder : state.popped <+: state.pushed
  nothingLost : state.pushed = state.popped ++ state.unread

/-- The ring is safe whatever the interleaving and the stale loads: the slot to
be written holds no unread element, the slot to be read holds the element
pushed at its position, at most `capacity` elements are unread, and the pops
hand out the pushed items in order. -/
theorem ring_safe_under_every_interleaving [Inhabited Item] (capacity : Nat)
    (positive : 1 ≤ capacity) (bounded : capacity ≤ 2 ^ 64 - 2) (ring : SpscRingBuffer Item)
    (constructed : construct capacity = some ring) (state : RingState Item)
    (reached : Relation.ReflTransGen RingStep (startRing ring) state) :
    RingSafe capacity state := by
  have invariant := invariant_reached (RingInvariant capacity) (ring_step_invariant bounded)
    (start_invariant capacity positive bounded ring constructed) reached
  have pushing := invariant.pushing
  have popping := invariant.popping
  have split := pushed_eq_popped_unread invariant
  refine ⟨invariant.noFault, ?_, ?_, invariant.stored, ?_, invariant.delivered, split⟩
  · intro item tail atPoint
    simp only [PushPointHolds, atPoint] at pushing
    obtain ⟨rfl, hasRoom⟩ := pushing
    refine ⟨rfl, ?_, unread_slot_apart invariant hasRoom⟩
    rw [invariant.slots]
    exact Nat.mod_lt _ (by omega)
  · intro head atPoint
    simp only [PopPointHolds, atPoint] at popping
    obtain ⟨rfl, behind⟩ := popping
    have published := behind.trans_le invariant.tailSeen.2
    refine ⟨rfl, state.pushed[state.popped.length], List.getElem?_eq_getElem published, ?_⟩
    rw [invariant.stored _ le_rfl published, List.getElem?_eq_getElem published]
  · have counted := congrArg List.length split
    rw [List.length_append] at counted
    have lag := invariant.headSeen
    have lap := invariant.oneLap
    omega

/-- A ring of two slots and a sentinel in its second lap: the producer was refused on an old
head and is about to write over the first slot, the third item is unread, and the consumer
is inside `pop` with a tail older than the last. -/
def lappedRing : RingState Nat where
  buffer := [7, 8, 9]
  capacityWithSentinel := 3
  headStores := [0, 1, 2]
  tailStores := [0, 1, 2, 0]
  pushPoint := .room 10 0
  popPoint := .loadedHead 2
  headSeen := 2
  tailSeen := 2
  pushed := [7, 8, 9]
  popped := [7, 8]
  faulted := false

theorem lapped_ring_reached :
    Relation.ReflTransGen RingStep (startRing ⟨[0, 0, 0], 3, 0, 0⟩) lappedRing := by
  -- 7 and 8 are pushed.
  refine .head (.inl ⟨_, .loadTail _ 7 rfl⟩) ?_
  refine .head (.inl ⟨_, .findRoom _ 7 0 0 0 rfl (by decide) rfl (by decide)⟩) ?_
  refine .head (.inl ⟨_, .write _ 7 0 rfl (by decide)⟩) ?_
  refine .head (.inl ⟨_, .storeTail _ 7 0 rfl⟩) ?_
  refine .head (.inl ⟨_, .loadTail _ 8 rfl⟩) ?_
  refine .head (.inl ⟨_, .findRoom _ 8 1 0 0 rfl (by decide) rfl (by decide)⟩) ?_
  refine .head (.inl ⟨_, .write _ 8 1 rfl (by decide)⟩) ?_
  refine .head (.inl ⟨_, .storeTail _ 8 1 rfl⟩) ?_
  -- 7 is popped behind the first tail store; the producer still sees the first head.
  refine .head (.inr ⟨_, .loadHead _ rfl⟩) ?_
  refine .head (.inr ⟨_, .findItem _ 0 1 1 rfl (by decide) rfl (by decide)⟩) ?_
  refine .head (.inr ⟨_, .read _ 0 7 rfl rfl⟩) ?_
  refine .head (.inr ⟨_, .storeHead _ 0 7 rfl⟩) ?_
  refine .head (.inl ⟨_, .loadTail _ 9 rfl⟩) ?_
  refine .head (.inl ⟨_, .findFull _ 9 2 0 0 rfl (by decide) rfl rfl⟩) ?_
  -- The second try sees the pop, and the tail wraps.
  refine .head (.inl ⟨_, .loadTail _ 9 rfl⟩) ?_
  refine .head (.inl ⟨_, .findRoom _ 9 2 1 1 rfl (by decide) rfl (by decide)⟩) ?_
  refine .head (.inl ⟨_, .write _ 9 2 rfl (by decide)⟩) ?_
  refine .head (.inl ⟨_, .storeTail _ 9 2 rfl⟩) ?_
  -- 8 is popped behind an old tail, and the producer finds room in the first slot.
  refine .head (.inr ⟨_, .loadHead _ rfl⟩) ?_
  refine .head (.inr ⟨_, .findItem _ 1 2 2 rfl (by decide) rfl (by decide)⟩) ?_
  refine .head (.inr ⟨_, .read _ 1 8 rfl rfl⟩) ?_
  refine .head (.inr ⟨_, .storeHead _ 1 8 rfl⟩) ?_
  refine .head (.inl ⟨_, .loadTail _ 10 rfl⟩) ?_
  refine .head (.inl ⟨_, .findRoom _ 10 0 2 2 rfl (by decide) rfl (by decide)⟩) ?_
  exact .single (.inr ⟨_, .loadHead _ rfl⟩)

theorem lapped_ring_is_safe : RingSafe 2 lappedRing :=
  ring_safe_under_every_interleaving 2 (by decide) (by decide) ⟨[0, 0, 0], 3, 0, 0⟩ (by decide)
    lappedRing lapped_ring_reached

end TickForge.RingInterleaving
