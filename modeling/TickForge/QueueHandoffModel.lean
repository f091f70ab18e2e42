import TickForge.ReplayEngineModel

/-!
# The queue handoff benchmark

A transcription of `bench_ring_buffer.cpp`: the consumer that validates what it
receives, the single-threaded ring benchmark and the two handoffs that are
compared, one through the ring and one through a queue behind a mutex and a
condition variable. Elapsed times and the rates made from them are left out.
-/

namespace TickForge.QueueHandoffModel

open MarketEventModel RingBufferModel RingInterleaving ReplayEngineModel

set_option autoImplicit false

section Tally

def sameEvent (lhs rhs : MarketEvent) : Bool :=
  lhs.timestampNs = rhs.timestampNs && lhs.type = rhs.type && lhs.orderId = rhs.orderId &&
    lhs.side = rhs.side && lhs.price = rhs.price && lhs.quantity = rhs.quantity

theorem same_event_iff (lhs rhs : MarketEvent) : sameEvent lhs rhs = true ↔ lhs = rhs := by
  cases lhs
  cases rhs
  simp [sameEvent, and_assoc]

/-- The cast of an enumerator to `uint64_t`. -/
def typeCode : EventType → BitVec 64
  | .add => 0
  | .cancel => 1
  | .modify => 2
  | .trade => 3

def sideCode : Side → BitVec 64
  | .buy => 0
  | .sell => 1

def checksumEvent (event : MarketEvent) : BitVec 64 :=
  let value := BitVec.ofNat 64 event.timestampNs ^^^ (BitVec.ofNat 64 event.orderId <<< 1)
  let value := value ^^^ (BitVec.ofInt 64 event.price <<< 7)
  let value := value ^^^ (BitVec.ofInt 64 event.quantity <<< 13)
  let value := value ^^^ (typeCode event.type <<< 19)
  value ^^^ (sideCode event.side <<< 23)

/-- The locals of a handoff that its consumer writes. -/
structure HandoffTally where
  consumed : Nat := 0
  checksum : BitVec 64 := 0
  fifoOk : Bool := true
  deriving DecidableEq, Repr

/-- What either consumer does with an event it received. -/
def tallyEvent (events : List MarketEvent) (tally : HandoffTally) (event : MarketEvent) :
    HandoffTally where
  consumed := tally.consumed + 1
  checksum := tally.checksum + checksumEvent event
  fifoOk := match events[tally.consumed]? with
    | none => false
    | some expected => if sameEvent event expected then tally.fifoOk else false

/-- The check behind the joins; a handoff that fails it throws. -/
def validated (events : List MarketEvent) (tally : HandoffTally) : Bool :=
  tally.consumed = events.length && tally.fifoOk

end Tally

section SingleThread

/-- The locals of `run_ring_buffer_benchmark`. -/
structure RingBenchmark where
  ring : SpscRingBuffer MarketEvent
  out : MarketEvent := {}
  checksum : BitVec 64 := 0

/-- The answers of `push` and `pop` are ignored; a failed `pop` leaves `out`. -/
def ringBenchmarkStep (state : RingBenchmark) (event : MarketEvent) : Option RingBenchmark :=
  (push state.ring event).bind fun pushed =>
    (pop pushed.2).bind fun popped =>
      let out := popped.1.getD state.out
      some
        { ring := popped.2
          out := out
          checksum := state.checksum + BitVec.ofNat 64 out.orderId }

/-- The code asks for a capacity of 1024. -/
def runRingBufferBenchmark (capacity : Nat) (events : List MarketEvent) : Option RingBenchmark :=
  (construct capacity).bind fun ring => events.foldlM ringBenchmarkStep { ring := ring }

end SingleThread

section RingHandoff

/-- The body of the benchmark's consumer. -/
def Tallies (events : List MarketEvent) (tally : HandoffTally) (event : MarketEvent)
    (after : HandoffTally) : Prop := after = tallyEvent events tally event

/-- The threads of `run_spsc`, whose loops are those of max mode. -/
abbrev SpscStep (events : List MarketEvent) :
    LoopState HandoffTally → LoopState HandoffTally → Prop :=
  LoopStep (Tallies events)

end RingHandoff

section MutexHandoff

inductive Thread where
  | producer
  | consumer
  deriving DecidableEq, Repr

/-- Where the producer of `run_mutex_queue` stands; with nothing left to push its
next scope sets the flag. -/
inductive ProducerPoint where
  | locking
  | locked
  | written
  | notifying
  | exited
  deriving DecidableEq, Repr

/-- What the consumer goes on with once it leaves the scope of its lock. -/
inductive AfterScope where
  | tally (event : MarketEvent)
  | again
  | stop
  deriving DecidableEq, Repr

/-- Where the consumer stands. `waiting` is inside `cv.wait` with the lock given
up, `waking` is on its way back to the lock. -/
inductive WaiterPoint where
  | locking
  | testing
  | waiting
  | waking
  | taking
  | releasing (after : AfterScope)
  | tallying (event : MarketEvent)
  | exited
  deriving DecidableEq, Repr

def AfterScope.point : AfterScope → WaiterPoint
  | .tally event => .tallying event
  | .again => .locking
  | .stop => .exited

structure MutexHandoff where
  queue : List MarketEvent := []
  owner : Option Thread := none
  producerDone : Bool := false
  toPush : List MarketEvent
  producer : ProducerPoint := .locking
  consumer : WaiterPoint := .locking
  tally : HandoffTally := {}
  deriving DecidableEq, Repr

/-- The predicate of the wait. -/
def MutexHandoff.ready (state : MutexHandoff) : Prop :=
  state.producerDone = true ∨ state.queue ≠ []

inductive MutexStep (events : List MarketEvent) : MutexHandoff → MutexHandoff → Prop where
  | producerLocks (state : MutexHandoff) (atPoint : state.producer = .locking)
      (free : state.owner = none) :
      MutexStep events state { state with owner := some .producer, producer := .locked }
  | pushes (state : MutexHandoff) (event : MarketEvent) (rest : List MarketEvent)
      (atPoint : state.producer = .locked) (current : state.toPush = event :: rest) :
      MutexStep events state
        { state with queue := state.queue ++ [event], toPush := rest, producer := .written }
  | setsDone (state : MutexHandoff) (atPoint : state.producer = .locked)
      (finished : state.toPush = []) :
      MutexStep events state { state with producerDone := true, producer := .written }
  | producerUnlocks (state : MutexHandoff) (atPoint : state.producer = .written) :
      MutexStep events state { state with owner := none, producer := .notifying }
  -- `notify_one` wakes the consumer where it waits and has no effect elsewhere.
  | notifies (state : MutexHandoff) (atPoint : state.producer = .notifying) :
      MutexStep events state
        { state with
          producer := if state.producerDone then .exited else .locking
          consumer := if state.consumer = .waiting then .waking else state.consumer }
  | consumerLocks (state : MutexHandoff) (atPoint : state.consumer = .locking)
      (free : state.owner = none) :
      MutexStep events state { state with owner := some .consumer, consumer := .testing }
  | testPasses (state : MutexHandoff) (atPoint : state.consumer = .testing)
      (ready : state.ready) : MutexStep events state { state with consumer := .taking }
  -- Giving up the lock and falling asleep is one step.
  | testFails (state : MutexHandoff) (atPoint : state.consumer = .testing)
      (notReady : ¬state.ready) :
      MutexStep events state { state with owner := none, consumer := .waiting }
  | relocks (state : MutexHandoff) (atPoint : state.consumer = .waking)
      (free : state.owner = none) :
      MutexStep events state { state with owner := some .consumer, consumer := .testing }
  | takes (state : MutexHandoff) (event : MarketEvent) (rest : List MarketEvent)
      (atPoint : state.consumer = .taking) (queued : state.queue = event :: rest) :
      MutexStep events state
        { state with queue := rest, consumer := .releasing (.tally event) }
  | stops (state : MutexHandoff) (atPoint : state.consumer = .taking)
      (empty : state.queue = []) (done : state.producerDone = true) :
      MutexStep events state { state with consumer := .releasing .stop }
  | retries (state : MutexHandoff) (atPoint : state.consumer = .taking)
      (empty : state.queue = []) (notDone : state.producerDone = false) :
      MutexStep events state { state with consumer := .releasing .again }
  | releases (state : MutexHandoff) (after : AfterScope)
      (atPoint : state.consumer = .releasing after) :
      MutexStep events state { state with owner := none, consumer := after.point }
  | tallies (state : MutexHandoff) (event : MarketEvent)
      (atPoint : state.consumer = .tallying event) :
      MutexStep events state
        { state with tally := tallyEvent events state.tally event, consumer := .locking }

/-- `cv.wait` may come back without a notification. -/
inductive SpuriousWakeup : MutexHandoff → MutexHandoff → Prop where
  | wakes (state : MutexHandoff) (atPoint : state.consumer = .waiting) :
      SpuriousWakeup state { state with consumer := .waking }

def startMutexHandoff (events : List MarketEvent) : MutexHandoff := { toPush := events }

end MutexHandoff

end TickForge.QueueHandoffModel
