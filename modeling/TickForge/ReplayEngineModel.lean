import Mathlib.Data.BitVec
import TickForge.LatencyProfilerModel
import TickForge.OrderBookModel
import TickForge.RingInterleaving

/-!
# The replay engine

A transcription of `ReplayEngine`: the handling of one dequeued event, the paced
single-threaded loop, and the two threads of max mode as a step relation over
the shared ring. Clock readings come from outside; a sleep is recorded instead
of taken. The step relation leaves the body of the consumer's loop open.
-/

namespace TickForge.ReplayEngineModel

open MarketEventModel OrderBookModel LatencyProfilerModel RingBufferModel RingInterleaving

set_option autoImplicit false

section Engine

inductive ReplayMode where
  | max
  | realtime
  | speed
  deriving DecidableEq, Repr

structure ReplayConfig where
  mode : ReplayMode := .max
  speedMultiplier : Rat := 1
  ringCapacity : Nat := 65536
  acceptUnknownOrderOps : Bool := false
  deriving DecidableEq, Repr

structure ReplaySummary where
  eventsProcessed : Nat := 0
  rejectedEvents : Nat := 0
  finalBestBid : Option Int := none
  finalBestAsk : Option Int := none
  finalSpread : Option Int := none
  finalTotalBuyDepth : Int := 0
  finalTotalSellDepth : Int := 0
  elapsedNs : Nat := 0
  latency : LatencyStats := {}
  deriving DecidableEq, Repr

structure ReplayEngine where
  config : ReplayConfig := {}
  book : OrderBook := {}
  profiler : LatencyProfiler := {}

/-- The constructor; `none` is its `invalid_argument`. Every rational is finite. -/
def makeEngine (config : ReplayConfig) : Option ReplayEngine :=
  if config.speedMultiplier ≤ 0 then none else some { config := config }

/-- The book, the profiler and the two counters while a replay runs. -/
structure ReplayState where
  book : OrderBook
  profiler : LatencyProfiler
  eventsProcessed : Nat := 0
  rejectedEvents : Nat := 0

/-- Both replay functions first reset the book and the profiler. -/
def beginReplay (engine : ReplayEngine) : ReplayState where
  book := setConfig (OrderBookModel.clear engine.book)
    { acceptUnknownOrderOps := engine.config.acceptUnknownOrderOps }
  profiler := LatencyProfilerModel.clear engine.profiler

/-- What either loop does with a dequeued event; `latencyNs` is the measured time. -/
def handleEvent (state : ReplayState) (queuedEvent : MarketEvent) (latencyNs : Nat) :
    ReplayState :=
  let applied := applyEvent state.book queuedEvent
  { book := applied.2
    profiler := record state.profiler latencyNs
    eventsProcessed := state.eventsProcessed + 1
    rejectedEvents := if !applied.1 then state.rejectedEvents + 1 else state.rejectedEvents }

def summarize (arithmetic : FloatArithmetic) (state : ReplayState) (elapsedNs : Nat) :
    ReplaySummary where
  eventsProcessed := state.eventsProcessed
  rejectedEvents := state.rejectedEvents
  finalBestBid := bestBid state.book
  finalBestAsk := bestAsk state.book
  finalSpread := spread state.book
  finalTotalBuyDepth := totalDepth state.book .buy
  finalTotalSellDepth := totalDepth state.book .sell
  elapsedNs := elapsedNs
  latency := stats arithmetic state.profiler elapsedNs

end Engine

section Paced

variable (arithmetic : FloatArithmetic)

def gapDivisor (config : ReplayConfig) : Rat :=
  if config.mode = .speed then config.speedMultiplier else 1

/-- The truncated quotient in `long double`, as a number. -/
def adjustedGap (previous current : MarketEvent) (config : ReplayConfig) : Nat :=
  let rawGapNs := current.timestampNs - previous.timestampNs
  ⌊arithmetic.longDoubleResult (arithmetic.toLongDouble rawGapNs / gapDivisor config)⌋.toNat

/-- What a call of `sleep_for_timestamp_gap` ends in: no sleep, a cast whose
result is undefined, or `sleep_for` with a duration. -/
inductive SleepRequest where
  | skipped
  | undefined
  | sleeps (durationNs : Int)
  deriving DecidableEq, Repr

def SleepRequest.durationNs : SleepRequest → Int
  | .skipped => 0
  | .undefined => 0
  | .sleeps durationNs => durationNs

/-- Both conversions of the quotient are those of the code. -/
def sleepForTimestampGap (previous current : MarketEvent) (config : ReplayConfig) :
    SleepRequest :=
  if config.mode = .max ∨ current.timestampNs ≤ previous.timestampNs then .skipped
  -- The cast of a quotient that `uint64_t` cannot hold.
  else if 2 ^ 64 ≤ adjustedGap arithmetic previous current config then .undefined
  -- `std::chrono::nanoseconds` counts in signed 64 bits.
  else if 0 < adjustedGap arithmetic previous current config then
    .sleeps (BitVec.ofNat 64 (adjustedGap arithmetic previous current config)).toInt
  else .skipped

inductive ReplayError where
  | invalidArgument (message : Text)
  | runtimeError (message : Text)
  | outOfBounds
  deriving DecidableEq, Repr

structure PacedState where
  ring : SpscRingBuffer MarketEvent
  replay : ReplayState
  sleeps : List SleepRequest := []

/-- One turn of the paced loop; `previous` is `none` for the first event. -/
def pacedStep (config : ReplayConfig) (previous : Option MarketEvent) (event : MarketEvent)
    (latencyNs : Nat) (state : PacedState) : Except ReplayError PacedState :=
  let sleeps := match previous with
    | none => state.sleeps
    | some earlier => state.sleeps ++ [sleepForTimestampGap arithmetic earlier event config]
  match push state.ring event with
  | none => .error .outOfBounds
  | some (false, _) =>
      .error (.runtimeError "SPSC ring buffer unexpectedly full in single-thread replay".toList)
  | some (true, pushedRing) =>
      match pop pushedRing with
      | none => .error .outOfBounds
      | some (none, _) =>
          .error (.runtimeError "SPSC ring buffer unexpectedly empty after push".toList)
      | some (some queuedEvent, poppedRing) =>
          .ok { ring := poppedRing
                replay := handleEvent state.replay queuedEvent latencyNs
                sleeps := sleeps }

/-- `latencies` are the measured times, by event index. -/
def pacedLoop (config : ReplayConfig) (latencies : Nat → Nat) :
    Nat → Option MarketEvent → List MarketEvent → PacedState → Except ReplayError PacedState
  | _, _, [], state => .ok state
  | index, previous, event :: rest, state =>
      match pacedStep arithmetic config previous event (latencies index) state with
      | .error failure => .error failure
      | .ok next => pacedLoop config latencies (index + 1) (some event) rest next

def replayPacedSingleThreaded (engine : ReplayEngine) (events : List MarketEvent)
    (latencies : Nat → Nat) : Except ReplayError PacedState :=
  match construct engine.config.ringCapacity with
  | none =>
      .error (.invalidArgument "SpscRingBuffer capacity must be greater than zero".toList)
  | some ring =>
      pacedLoop arithmetic engine.config latencies 0 none events
        { ring := ring, replay := beginReplay engine }

end Paced

section Loops

/-- Where the consumer thread stands in its loop. -/
inductive ConsumerPoint where
  | testDone
  | testEmpty
  | emptyLoadedHead (head : Nat)
  | popping
  | handling (queuedEvent : MarketEvent)
  | exited
  deriving DecidableEq, Repr

variable {Body : Type}

/-- Two threads over the ring, with what the consumer's loop body works on. `toPush`
starts with the event being pushed; `doneVersion` is set once the producer's flag is
stored and says how far the tail had been published by then; `doneSeen` records that the
consumer loaded `true`. -/
structure LoopState (Body : Type) where
  ring : RingState MarketEvent
  toPush : List MarketEvent
  doneVersion : Option Nat := none
  consumer : ConsumerPoint := .testDone
  doneSeen : Bool := false
  body : Body

/-- The producer thread returned. -/
def LoopState.producerExited (state : LoopState Body) : Prop := state.doneVersion.isSome

def startLoops (ring : SpscRingBuffer MarketEvent) (events : List MarketEvent) (body : Body) :
    LoopState Body where
  ring := startRing ring
  toPush := events
  body := body

variable (Handles : Body → MarketEvent → Body → Prop)

/-- Push every event, then set the flag; pop until the flag is seen and the ring
is empty behind it. `Handles` is the body of the consumer's loop. -/
inductive LoopStep : LoopState Body → LoopState Body → Prop where
  | pushBegins (state : LoopState Body) (event : MarketEvent) (rest : List MarketEvent)
      (ring : RingState MarketEvent) (current : state.toPush = event :: rest)
      (stepped : ProducerStep state.ring (.begins event) ring) :
      LoopStep state { state with ring := ring }
  | pushContinues (state : LoopState Body) (ring : RingState MarketEvent)
      (stepped : ProducerStep state.ring .inside ring) :
      LoopStep state { state with ring := ring }
  -- `push` returned false: the producer yields and tries the same event again.
  | pushRefused (state : LoopState Body) (ring : RingState MarketEvent)
      (stepped : ProducerStep state.ring .refused ring) :
      LoopStep state { state with ring := ring }
  | pushAccepted (state : LoopState Body) (ring : RingState MarketEvent)
      (stepped : ProducerStep state.ring .accepted ring) :
      LoopStep state { state with ring := ring, toPush := state.toPush.tail }
  | storeDone (state : LoopState Body) (finished : state.toPush = [])
      (idle : state.ring.pushPoint = .idle) (running : state.doneVersion = none) :
      LoopStep state { state with doneVersion := some (state.ring.tailStores.length - 1) }
  -- The load may be stale, but not after `true` was loaded once.
  | loadNotDone (state : LoopState Body) (atPoint : state.consumer = .testDone)
      (unseen : state.doneSeen = false) :
      LoopStep state { state with consumer := .popping }
  -- Acquire: the tail stores before the store of `producer_done` are visible.
  | loadDone (state : LoopState Body) (version latest : Nat) (ring : RingState MarketEvent)
      (atPoint : state.consumer = .testDone) (stored : state.doneVersion = some version)
      (visible : version ≤ latest)
      (observed : ConsumerStep state.ring (.observed latest) ring) :
      LoopStep state { state with ring := ring, consumer := .testEmpty, doneSeen := true }
  | emptyLoadHead (state : LoopState Body) (atPoint : state.consumer = .testEmpty) :
      LoopStep state { state with consumer := .emptyLoadedHead state.ring.head }
  | emptyFalse (state : LoopState Body) (head version tail : Nat) (ring : RingState MarketEvent)
      (atPoint : state.consumer = .emptyLoadedHead head)
      (observed : ConsumerStep state.ring (.observed version) ring)
      (loaded : state.ring.tailStores[version]? = some tail) (differs : head ≠ tail) :
      LoopStep state { state with ring := ring, consumer := .popping }
  | emptyTrue (state : LoopState Body) (head version tail : Nat) (ring : RingState MarketEvent)
      (atPoint : state.consumer = .emptyLoadedHead head)
      (observed : ConsumerStep state.ring (.observed version) ring)
      (loaded : state.ring.tailStores[version]? = some tail) (same : head = tail) :
      LoopStep state { state with ring := ring, consumer := .exited }
  | popBegins (state : LoopState Body) (ring : RingState MarketEvent)
      (atPoint : state.consumer = .popping)
      (stepped : ConsumerStep state.ring .begins ring) :
      LoopStep state { state with ring := ring }
  | popContinues (state : LoopState Body) (ring : RingState MarketEvent)
      (atPoint : state.consumer = .popping)
      (stepped : ConsumerStep state.ring .inside ring) :
      LoopStep state { state with ring := ring }
  -- `pop` returned false: the consumer yields and tests its loop condition again.
  | popRefused (state : LoopState Body) (ring : RingState MarketEvent)
      (atPoint : state.consumer = .popping)
      (stepped : ConsumerStep state.ring .refused ring) :
      LoopStep state { state with ring := ring, consumer := .testDone }
  | popDelivered (state : LoopState Body) (queuedEvent : MarketEvent)
      (ring : RingState MarketEvent) (atPoint : state.consumer = .popping)
      (stepped : ConsumerStep state.ring (.delivered queuedEvent) ring) :
      LoopStep state { state with ring := ring, consumer := .handling queuedEvent }
  | handle (state : LoopState Body) (queuedEvent : MarketEvent) (body : Body)
      (atPoint : state.consumer = .handling queuedEvent)
      (handled : Handles state.body queuedEvent body) :
      LoopStep state { state with body := body, consumer := .testDone }

end Loops

section MaxMode

/-- The body of the consumer of max mode; `latencyNs` is the measured time. -/
def Replays (state : ReplayState) (queuedEvent : MarketEvent) (after : ReplayState) : Prop :=
  ∃ latencyNs, after = handleEvent state queuedEvent latencyNs

abbrev PipelineState := LoopState ReplayState

/-- The threads of `replay_max_threaded`. -/
abbrev PipelineStep : PipelineState → PipelineState → Prop := LoopStep Replays

def startPipeline (engine : ReplayEngine) (ring : SpscRingBuffer MarketEvent)
    (events : List MarketEvent) : PipelineState := startLoops ring events (beginReplay engine)

end MaxMode

end TickForge.ReplayEngineModel
