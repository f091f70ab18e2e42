import TickForge.ReplayEngineModel

/-!
# All replay modes compute one fold

Max mode hands the events from thread to thread through the ring, the paced
modes push and pop each event in turn. Both end with the fold of `apply_event`
over the input, as long as the ring has the slots its capacity asks for: at the
greatest `size_t` capacity the slot count wraps to zero.
-/

namespace TickForge.ReplayAgreement

open StepRuns CyclicSlots MarketEventModel OrderBookModel LatencyProfilerModel
open RingBufferModel RingInterleaving ReplayEngineModel

set_option autoImplicit false

section Outcome

/-- What the modes must agree on: the final book, the counters and final queries
of the summary and the number of latency samples. -/
structure ReplayOutcome where
  book : OrderBook
  eventsProcessed : Nat
  rejectedEvents : Nat
  finalBestBid : Option Int
  finalBestAsk : Option Int
  finalSpread : Option Int
  finalTotalBuyDepth : Int
  finalTotalSellDepth : Int
  latencyCount : Nat

def outcomeOf (arithmetic : FloatArithmetic) (state : ReplayState) (elapsedNs : Nat) :
    ReplayOutcome :=
  let summary := summarize arithmetic state elapsedNs
  { book := state.book
    eventsProcessed := summary.eventsProcessed
    rejectedEvents := summary.rejectedEvents
    finalBestBid := summary.finalBestBid
    finalBestAsk := summary.finalBestAsk
    finalSpread := summary.finalSpread
    finalTotalBuyDepth := summary.finalTotalBuyDepth
    finalTotalSellDepth := summary.finalTotalSellDepth
    latencyCount := summary.latency.count }

/-- The empty book the config asks for. -/
def configuredBook (config : ReplayConfig) : OrderBook :=
  { config := { acceptUnknownOrderOps := config.acceptUnknownOrderOps } }

/-- The fold of `apply_event` over the events from an empty book. -/
def foldOutcome (config : ReplayConfig) (events : List MarketEvent) : ReplayOutcome :=
  let book := finalState applyEvent (configuredBook config) events
  { book := book
    eventsProcessed := events.length
    rejectedEvents := (outputs applyEvent (configuredBook config) events).count false
    finalBestBid := bestBid book
    finalBestAsk := bestAsk book
    finalSpread := spread book
    finalTotalBuyDepth := totalDepth book .buy
    finalTotalSellDepth := totalDepth book .sell
    latencyCount := events.length }

/-- The replay state after exactly these events have been handled. -/
structure Handled (config : ReplayConfig) (events : List MarketEvent) (state : ReplayState) :
    Prop where
  book : state.book = finalState applyEvent (configuredBook config) events
  samples : state.profiler.samples.length = events.length
  processed : state.eventsProcessed = events.length
  rejected : state.rejectedEvents =
    (outputs applyEvent (configuredBook config) events).count false

/-- Whatever the engine held before, a replay starts from nothing. -/
theorem begin_replay_handled (engine : ReplayEngine) :
    Handled engine.config [] (beginReplay engine) where
  book := rfl
  samples := rfl
  processed := rfl
  rejected := rfl

theorem handle_event_handled {config : ReplayConfig} {events : List MarketEvent}
    {state : ReplayState} (handled : Handled config events state) (event : MarketEvent)
    (latencyNs : Nat) : Handled config (events ++ [event]) (handleEvent state event latencyNs) where
  book := by
    rw [final_state_append, ← handled.book]
    rfl
  samples := by
    simp only [handleEvent, record, List.length_append, List.length_singleton, handled.samples]
  processed := by
    simp only [handleEvent, List.length_append, List.length_singleton, handled.processed]
  rejected := by
    rw [outputs_append, List.count_append, ← handled.rejected, ← handled.book]
    simp only [handleEvent, outputs]
    cases (applyEvent state.book event).1 <;> rfl

theorem handled_outcome {config : ReplayConfig} {events : List MarketEvent} {state : ReplayState}
    (handled : Handled config events state) (arithmetic : FloatArithmetic) (elapsedNs : Nat) :
    outcomeOf arithmetic state elapsedNs = foldOutcome config events := by
  simp only [outcomeOf, summarize, foldOutcome, stats_count, handled.book, handled.samples,
    handled.processed, handled.rejected]

end Outcome

section Paced

/-- A ring with all its slots and nothing stored. -/
structure Drained (capacity : Nat) (ring : SpscRingBuffer MarketEvent) : Prop where
  sentinel : ring.capacityWithSentinel = capacity + 1
  slots : ring.buffer.length = capacity + 1
  tail : ring.tail < capacity + 1
  empty : ring.head = ring.tail

theorem increment_inside {capacity index : Nat} (bounded : capacity + 1 < 2 ^ 64)
    (inside : index < capacity + 1) :
    increment (capacity + 1) index = if index = capacity then 0 else index + 1 := by
  have noWrap : addSize index 1 = index + 1 := Nat.mod_eq_of_lt (by omega)
  simp only [increment, noWrap, Nat.add_right_cancel_iff]

/-- An event pushed into a drained ring is the one popped, and the ring is
drained again. -/
theorem push_pop_drained {capacity : Nat} (positive : 1 ≤ capacity)
    (bounded : capacity + 1 < 2 ^ 64) {ring : SpscRingBuffer MarketEvent}
    (drained : Drained capacity ring) (event : MarketEvent) :
    ∃ pushed popped, push ring event = some (true, pushed) ∧
      pop pushed = some (some event, popped) ∧ Drained capacity popped := by
  have inside := drained.tail
  have next := increment_inside bounded inside
  have moved : increment (capacity + 1) ring.tail ≠ ring.tail :=
    increment_ne (by omega) ring.tail
  have nextInside : increment (capacity + 1) ring.tail < capacity + 1 := by
    rw [next]
    split_ifs <;> omega
  have slot : ring.tail < ring.buffer.length := by
    rw [drained.slots]
    exact inside
  refine ⟨{ ring with
      buffer := ring.buffer.set ring.tail event
      tail := increment (capacity + 1) ring.tail },
    { ring with
      buffer := ring.buffer.set ring.tail event
      head := increment (capacity + 1) ring.tail
      tail := increment (capacity + 1) ring.tail }, ?_, ?_, ?_⟩
  · simp only [push, drained.sentinel, drained.empty, if_neg moved, if_pos slot]
  · simp only [pop, drained.sentinel, drained.empty, if_neg (Ne.symm moved),
      List.getElem?_set_self slot]
  · exact
      { sentinel := drained.sentinel
        slots := by rw [List.length_set, drained.slots]
        tail := nextInside
        empty := rfl }

theorem paced_loop_handles {capacity : Nat} (positive : 1 ≤ capacity)
    (bounded : capacity + 1 < 2 ^ 64) (arithmetic : FloatArithmetic) (config : ReplayConfig)
    (latencies : Nat → Nat) (events : List MarketEvent) (index : Nat) (previous : Option MarketEvent)
    (earlier : List MarketEvent) (state : PacedState) (drained : Drained capacity state.ring)
    (handled : Handled config earlier state.replay) :
    ∃ finished, pacedLoop arithmetic config latencies index previous events state = .ok finished ∧
      Handled config (earlier ++ events) finished.replay := by
  induction events generalizing index previous earlier state with
  | nil => exact ⟨state, rfl, by rwa [List.append_nil]⟩
  | cons event rest ih =>
      rcases push_pop_drained positive bounded drained event with
        ⟨pushed, popped, pushes, pops, stillDrained⟩
      have later := handle_event_handled handled event (latencies index)
      have stepped : ∃ next,
          pacedStep arithmetic config previous event (latencies index) state = .ok next ∧
            next.ring = popped ∧ next.replay = handleEvent state.replay event (latencies index) := by
        simp only [pacedStep, pushes, pops]
        exact ⟨_, rfl, rfl, rfl⟩
      rcases stepped with ⟨next, stepEq, ringEq, replayEq⟩
      rw [← ringEq] at stillDrained
      rw [← replayEq] at later
      rcases ih (index + 1) (some event) (earlier ++ [event]) next stillDrained later with
        ⟨finished, looped, whole⟩
      refine ⟨finished, ?_, by rwa [List.append_assoc, List.singleton_append] at whole⟩
      simp only [pacedLoop, stepEq]
      exact looped

end Paced

section MaxMode

variable (config : ReplayConfig) (capacity : Nat) (events : List MarketEvent)

/-- The item under push is the first event not yet pushed. -/
def PushesCurrent (state : PipelineState) : Prop :=
  match state.ring.pushPoint with
  | .idle => True
  | .loadedTail item _ => state.toPush.head? = some item
  | .room item _ => state.toPush.head? = some item
  | .written item _ => state.toPush.head? = some item

/-- Everything was pushed and the consumer's view of the tail is up to date. -/
def SeesAll (state : PipelineState) : Prop :=
  state.toPush = [] ∧ state.ring.tailSeen = state.ring.pushed.length

/-- What each point of the consumer loop knows; between a pop and its handling
one popped event is outstanding. -/
def ConsumerHolds (state : PipelineState) : Prop :=
  match state.consumer with
  | .testDone => Handled config state.ring.popped state.body
  | .testEmpty => Handled config state.ring.popped state.body ∧ SeesAll state
  | .emptyLoadedHead head => Handled config state.ring.popped state.body ∧ SeesAll state ∧
      head = slotOf capacity state.ring.popped.length
  | .popping => Handled config state.ring.popped state.body
  | .handling queuedEvent => ∃ earlier, state.ring.popped = earlier ++ [queuedEvent] ∧
      Handled config earlier state.body
  | .exited => Handled config state.ring.popped state.body ∧ state.toPush = [] ∧
      state.ring.popped = state.ring.pushed

structure PipelineInvariant (state : PipelineState) : Prop where
  ring : RingInvariant capacity state.ring
  split : state.ring.pushed ++ state.toPush = events
  current : PushesCurrent state
  done : ∀ version, state.doneVersion = some version →
    state.toPush = [] ∧ version = state.ring.pushed.length
  consumer : ConsumerHolds config capacity state

variable {config capacity events}

theorem start_pipeline_invariant {engine : ReplayEngine} (positive : 1 ≤ capacity)
    (bounded : capacity ≤ 2 ^ 64 - 2) (ring : SpscRingBuffer MarketEvent)
    (constructed : construct capacity = some ring) :
    PipelineInvariant engine.config capacity events (startPipeline engine ring events) where
  ring := start_invariant capacity positive bounded ring constructed
  split := rfl
  current := trivial
  done := by
    intro version stored
    cases stored
  consumer := begin_replay_handled engine

/-- A push in progress stays with its event. -/
theorem push_inside_current {state : PipelineState} {ring : RingState MarketEvent}
    (current : PushesCurrent state) (stepped : ProducerStep state.ring .inside ring) :
    PushesCurrent { state with ring := ring } := by
  cases stepped with
  | findRoom item tail version head atPoint fresh loaded hasRoom =>
      simpa only [PushesCurrent, atPoint] using current
  | write item tail atPoint slotExists => simpa only [PushesCurrent, atPoint] using current
  | writeOutside item tail atPoint noSlot => exact current

/-- A push is accepted only while its event is outstanding, so the consumer has
not seen the end. -/
theorem push_accepted_invariant (bounded : capacity ≤ 2 ^ 64 - 2) {state : PipelineState}
    {ring : RingState MarketEvent} (invariant : PipelineInvariant config capacity events state)
    (stepped : ProducerStep state.ring .accepted ring) :
    PipelineInvariant config capacity events
      { state with ring := ring, toPush := state.toPush.tail } := by
  have ringKept := producer_step_invariant bounded invariant.ring stepped
  have current := invariant.current
  have holds := invariant.consumer
  cases stepped with
  | storeTail item tail atPoint =>
      simp only [PushesCurrent, atPoint] at current
      rcases List.head?_eq_some_iff.mp current with ⟨rest, outstanding⟩
      have notDone : state.toPush ≠ [] := by
        rw [outstanding]
        exact List.cons_ne_nil _ _
      refine ⟨ringKept, ?_, trivial, ?_, ?_⟩
      · have split := invariant.split
        rw [outstanding] at split
        simpa [outstanding] using split
      · intro version stored
        exact absurd (invariant.done version stored).1 notDone
      · unfold ConsumerHolds at holds ⊢
        cases point : state.consumer with
        | testDone => simpa only [point] using holds
        | popping => simpa only [point] using holds
        | handling queuedEvent => simpa only [point] using holds
        | testEmpty =>
            simp only [point] at holds
            exact absurd holds.2.1 notDone
        | emptyLoadedHead head =>
            simp only [point] at holds
            exact absurd holds.2.1.1 notDone
        | exited =>
            simp only [point] at holds
            exact absurd holds.2.1 notDone

/-- The flag goes up once everything is pushed, and records how far the tail is. -/
theorem store_done_invariant {state : PipelineState}
    (invariant : PipelineInvariant config capacity events state)
    (finished : state.toPush = []) :
    PipelineInvariant config capacity events
      { state with doneVersion := some (state.ring.tailStores.length - 1) } := by
  have published : state.ring.tailStores.length - 1 = state.ring.pushed.length := by
    rw [invariant.ring.tails, slot_history_length, Nat.add_sub_cancel]
  have done : ∀ version, some (state.ring.tailStores.length - 1) = some version →
      state.toPush = [] ∧ version = state.ring.pushed.length := by
    intro version stored
    rw [← Option.some.inj stored]
    exact ⟨finished, published⟩
  exact { invariant with done := done }

/-- A consumer that loads the flag has the newest tail in view. -/
theorem load_done_invariant (bounded : capacity ≤ 2 ^ 64 - 2) {state : PipelineState}
    {ring : RingState MarketEvent} {version latest : Nat}
    (invariant : PipelineInvariant config capacity events state)
    (atPoint : state.consumer = .testDone) (stored : state.doneVersion = some version)
    (visible : version ≤ latest)
    (observed : ConsumerStep state.ring (.observed latest) ring) :
    PipelineInvariant config capacity events
      { state with ring := ring, consumer := .testEmpty, doneSeen := true } := by
  have ringKept := consumer_step_invariant bounded invariant.ring observed
  have holds := invariant.consumer
  simp only [ConsumerHolds, atPoint] at holds
  rcases invariant.done version stored with ⟨finished, newest⟩
  have view := ringKept.tailSeen.2
  cases observed with
  | observe latest fresh published =>
      have caughtUp : latest = state.ring.pushed.length := by
        dsimp only at view
        omega
      exact { invariant with ring := ringKept, consumer := ⟨holds, finished, caughtUp⟩ }

/-- With the newest tail in view, an empty ring has handed everything over. -/
theorem empty_ring_handed_over {state : PipelineState}
    (invariant : PipelineInvariant config capacity events state) (sees : SeesAll state)
    (version tail : Nat) (fresh : state.ring.tailSeen ≤ version)
    (loaded : state.ring.tailStores[version]? = some tail)
    (same : slotOf capacity state.ring.popped.length = tail) :
    state.ring.popped = state.ring.pushed := by
  have lag := invariant.ring.headSeen
  have lap := invariant.ring.oneLap
  have ordered := invariant.ring.delivered.length_le
  rw [invariant.ring.tails, slot_history_lookup] at loaded
  rcases loaded with ⟨published, rfl⟩
  have newest : version = state.ring.pushed.length := by
    have view := sees.2
    omega
  rw [newest] at same
  have equal := (same_slot_iff ordered (by omega)).mp same
  exact invariant.ring.delivered.eq_of_length equal

/-- A consumer that finds the ring empty after the flag has popped everything. -/
theorem empty_true_invariant (bounded : capacity ≤ 2 ^ 64 - 2) {state : PipelineState}
    {ring : RingState MarketEvent} {head version tail : Nat}
    (invariant : PipelineInvariant config capacity events state)
    (atPoint : state.consumer = .emptyLoadedHead head)
    (observed : ConsumerStep state.ring (.observed version) ring)
    (loaded : state.ring.tailStores[version]? = some tail) (same : head = tail) :
    PipelineInvariant config capacity events
      { state with ring := ring, consumer := .exited } := by
  have ringKept := consumer_step_invariant bounded invariant.ring observed
  have holds := invariant.consumer
  simp only [ConsumerHolds, atPoint] at holds
  rcases holds with ⟨handled, sees, isHead⟩
  cases observed with
  | observe version fresh published =>
      have everything := empty_ring_handed_over invariant sees version tail fresh loaded
        (isHead ▸ same)
      exact { invariant with ring := ringKept, consumer := ⟨handled, sees.1, everything⟩ }

theorem pipeline_step_invariant (bounded : capacity ≤ 2 ^ 64 - 2) (state next : PipelineState)
    (invariant : PipelineInvariant config capacity events state)
    (stepped : PipelineStep state next) : PipelineInvariant config capacity events next := by
  have holds := invariant.consumer
  cases stepped with
  | pushBegins event rest ring current stepped =>
      have ringKept := producer_step_invariant bounded invariant.ring stepped
      cases stepped with
      | loadTail item idle =>
          have first : state.toPush.head? = some event := by rw [current, List.head?_cons]
          exact { invariant with ring := ringKept, current := first }
  | pushContinues ring stepped =>
      have ringKept := producer_step_invariant bounded invariant.ring stepped
      have current := push_inside_current invariant.current stepped
      cases stepped with
      | findRoom item tail version head atPoint fresh loaded hasRoom =>
          exact { invariant with ring := ringKept, current := current }
      | write item tail atPoint slotExists =>
          exact { invariant with ring := ringKept, current := current }
      | writeOutside item tail atPoint noSlot =>
          exact { invariant with ring := ringKept, current := current }
  | pushRefused ring stepped =>
      have ringKept := producer_step_invariant bounded invariant.ring stepped
      cases stepped with
      | findFull item tail version head atPoint fresh loaded isFull =>
          exact { invariant with ring := ringKept, current := trivial }
  | pushAccepted ring stepped => exact push_accepted_invariant bounded invariant stepped
  | storeDone finished idle running => exact store_done_invariant invariant finished
  | loadNotDone atPoint unseen =>
      simp only [ConsumerHolds, atPoint] at holds
      exact { invariant with consumer := holds }
  | loadDone version latest ring atPoint stored visible observed =>
      exact load_done_invariant bounded invariant atPoint stored visible observed
  | emptyLoadHead atPoint =>
      simp only [ConsumerHolds, atPoint] at holds
      exact { invariant with consumer := ⟨holds.1, holds.2, head_eq invariant.ring⟩ }
  | emptyFalse head version tail ring atPoint observed loaded differs =>
      have ringKept := consumer_step_invariant bounded invariant.ring observed
      simp only [ConsumerHolds, atPoint] at holds
      cases observed with
      | observe version fresh published =>
          exact { invariant with ring := ringKept, consumer := holds.1 }
  | emptyTrue head version tail ring atPoint observed loaded same =>
      exact empty_true_invariant bounded invariant atPoint observed loaded same
  | popBegins ring atPoint stepped =>
      have ringKept := consumer_step_invariant bounded invariant.ring stepped
      cases stepped with
      | loadHead idle => exact { invariant with ring := ringKept }
  | popContinues ring atPoint stepped =>
      have ringKept := consumer_step_invariant bounded invariant.ring stepped
      simp only [ConsumerHolds, atPoint] at holds
      cases stepped with
      | findItem head version tail _ fresh loaded hasItem =>
          refine { invariant with ring := ringKept, consumer := ?_ }
          simpa only [ConsumerHolds, atPoint] using holds
      | read head item _ stored => exact { invariant with ring := ringKept }
      | readOutside head _ noSlot => exact { invariant with ring := ringKept }
  | popRefused ring atPoint stepped =>
      have ringKept := consumer_step_invariant bounded invariant.ring stepped
      simp only [ConsumerHolds, atPoint] at holds
      cases stepped with
      | findEmpty head version tail _ fresh loaded isEmpty =>
          exact { invariant with ring := ringKept, consumer := holds }
  | popDelivered queuedEvent ring atPoint stepped =>
      have ringKept := consumer_step_invariant bounded invariant.ring stepped
      simp only [ConsumerHolds, atPoint] at holds
      cases stepped with
      | storeHead head item _ =>
          exact { invariant with
            ring := ringKept
            consumer := ⟨state.ring.popped, rfl, holds⟩ }
  | handle queuedEvent body atPoint replays =>
      simp only [ConsumerHolds, atPoint] at holds
      rcases holds with ⟨earlier, popped, handled⟩
      rcases replays with ⟨latencyNs, rfl⟩
      have later := handle_event_handled handled queuedEvent latencyNs
      rw [← popped] at later
      exact { invariant with consumer := later }

end MaxMode

section NothingToReplay

/-- Without events neither thread ever moves an index, whatever the capacity. -/
structure NothingReplayed (config : ReplayConfig) (state : PipelineState) : Prop where
  toPush : state.toPush = []
  pushPoint : state.ring.pushPoint = .idle
  heads : state.ring.headStores = [0]
  tails : state.ring.tailStores = [0]
  popPoint : state.ring.popPoint = .idle ∨ state.ring.popPoint = .loadedHead 0
  noHandling : ∀ queuedEvent, state.consumer ≠ .handling queuedEvent
  noFault : state.ring.faulted = false
  handled : Handled config [] state.body

theorem start_nothing_replayed (engine : ReplayEngine) {capacity : Nat}
    {ring : SpscRingBuffer MarketEvent} (constructed : construct capacity = some ring) :
    NothingReplayed engine.config (startPipeline engine ring []) := by
  unfold construct at constructed
  split_ifs at constructed
  cases constructed
  exact
    { toPush := rfl
      pushPoint := rfl
      heads := rfl
      tails := rfl
      popPoint := .inl rfl
      noHandling := by
        intro queuedEvent handling
        cases handling
      noFault := rfl
      handled := begin_replay_handled engine }

theorem only_tail_zero {config : ReplayConfig} {state : PipelineState}
    (nothing : NothingReplayed config state) {version tail : Nat}
    (loaded : state.ring.tailStores[version]? = some tail) : tail = 0 := by
  rw [nothing.tails, List.getElem?_singleton] at loaded
  split_ifs at loaded
  exact (Option.some.inj loaded).symm

theorem nothing_replayed_step {config : ReplayConfig} (state next : PipelineState)
    (nothing : NothingReplayed config state) (stepped : PipelineStep state next) :
    NothingReplayed config next := by
  have idle := nothing.pushPoint
  have popIdle := nothing.popPoint
  cases stepped with
  | pushBegins event rest ring current stepped =>
      rw [nothing.toPush] at current
      cases current
  | pushContinues ring stepped => cases stepped <;> simp_all
  | pushRefused ring stepped => cases stepped; simp_all
  | pushAccepted ring stepped => cases stepped; simp_all
  | storeDone finished idle running => exact { nothing with }
  | loadNotDone atPoint unseen => exact { nothing with noHandling := by simp }
  | loadDone version latest ring atPoint stored visible observed =>
      cases observed with
      | observe latest fresh published => exact { nothing with noHandling := by simp }
  | emptyLoadHead atPoint => exact { nothing with noHandling := by simp }
  | emptyFalse head version tail ring atPoint observed loaded differs =>
      cases observed with
      | observe version fresh published => exact { nothing with noHandling := by simp }
  | emptyTrue head version tail ring atPoint observed loaded same =>
      cases observed with
      | observe version fresh published => exact { nothing with noHandling := by simp }
  | popBegins ring atPoint stepped =>
      cases stepped with
      | loadHead idle =>
          have head : state.ring.head = 0 := by
            rw [RingState.head, nothing.heads]
            rfl
          exact { nothing with popPoint := .inr (congrArg PopPoint.loadedHead head) }
  | popContinues ring atPoint stepped =>
      cases stepped with
      | findItem head version tail atHead fresh loaded hasItem =>
          have zero := only_tail_zero nothing loaded
          simp_all
      | read head item atHead stored => simp_all
      | readOutside head atHead noSlot => simp_all
  | popRefused ring atPoint stepped =>
      cases stepped with
      | findEmpty head version tail atHead fresh loaded isEmpty =>
          exact { nothing with popPoint := .inl rfl, noHandling := by simp }
  | popDelivered queuedEvent ring atPoint stepped =>
      cases stepped with
      | storeHead head item atHead => simp_all
  | handle queuedEvent body atPoint replays => exact absurd atPoint (nothing.noHandling queuedEvent)

end NothingToReplay

section Agreement

/-- Under every interleaving max mode touches only existing slots, and once both
threads have exited its outcome is the fold. -/
def MaxModeAgrees (engine : ReplayEngine) (events : List MarketEvent) : Prop :=
  ∃ ring, construct engine.config.ringCapacity = some ring ∧
    ∀ state, Relation.ReflTransGen PipelineStep (startPipeline engine ring events) state →
      state.ring.faulted = false ∧
        (state.producerExited → state.consumer = .exited →
          ∀ arithmetic elapsedNs,
            outcomeOf arithmetic state.body elapsedNs = foldOutcome engine.config events)

/-- The paced loop ends without an error, and its outcome is the fold. -/
def PacedModeAgrees (engine : ReplayEngine) (events : List MarketEvent) : Prop :=
  ∀ arithmetic latencies, ∃ finished,
    replayPacedSingleThreaded arithmetic engine events latencies = .ok finished ∧
      ∀ elapsedNs,
        outcomeOf arithmetic finished.replay elapsedNs = foldOutcome engine.config events

theorem construct_drained {capacity : Nat} (bounded : capacity + 1 < 2 ^ 64) :
    Drained capacity
      { buffer := List.replicate (addSize capacity 1) default
        capacityWithSentinel := addSize capacity 1 } := by
  have slotCount : addSize capacity 1 = capacity + 1 := Nat.mod_eq_of_lt bounded
  exact
    { sentinel := slotCount
      slots := by rw [List.length_replicate, slotCount]
      tail := Nat.succ_pos capacity
      empty := rfl }

theorem max_mode_agrees {engine : ReplayEngine} {events : List MarketEvent}
    (positive : 1 ≤ engine.config.ringCapacity)
    (bounded : engine.config.ringCapacity + 1 < 2 ^ 64) : MaxModeAgrees engine events := by
  refine ⟨_, construct_some positive, ?_⟩
  intro state reached
  have invariant := invariant_reached
    (PipelineInvariant engine.config engine.config.ringCapacity events)
    (pipeline_step_invariant (by omega))
    (start_pipeline_invariant positive (by omega) _ (construct_some positive)) reached
  refine ⟨invariant.ring.noFault, ?_⟩
  intro _ exited arithmetic elapsedNs
  have holds := invariant.consumer
  simp only [ConsumerHolds, exited] at holds
  rcases holds with ⟨handled, finished, everything⟩
  have whole := invariant.split
  rw [finished, List.append_nil, ← everything] at whole
  rw [whole] at handled
  exact handled_outcome handled arithmetic elapsedNs

theorem max_mode_agrees_nil {engine : ReplayEngine}
    (positive : 1 ≤ engine.config.ringCapacity) : MaxModeAgrees engine [] := by
  refine ⟨_, construct_some positive, ?_⟩
  intro state reached
  have nothing := invariant_reached (NothingReplayed engine.config) nothing_replayed_step
    (start_nothing_replayed engine (construct_some positive)) reached
  exact ⟨nothing.noFault, fun _ _ => handled_outcome nothing.handled⟩

theorem paced_mode_agrees {engine : ReplayEngine} {events : List MarketEvent}
    (positive : 1 ≤ engine.config.ringCapacity)
    (bounded : engine.config.ringCapacity + 1 < 2 ^ 64) : PacedModeAgrees engine events := by
  intro arithmetic latencies
  obtain ⟨finished, looped, handled⟩ := paced_loop_handles positive bounded arithmetic
    engine.config latencies events 0 none [] { ring := _, replay := beginReplay engine }
    (construct_drained bounded) (begin_replay_handled engine)
  refine ⟨finished, ?_, handled_outcome handled arithmetic⟩
  simp only [replayPacedSingleThreaded, construct_some positive, looped]

theorem paced_mode_agrees_nil {engine : ReplayEngine}
    (positive : 1 ≤ engine.config.ringCapacity) : PacedModeAgrees engine [] := by
  intro arithmetic latencies
  have replayed : ∃ ring, replayPacedSingleThreaded arithmetic engine [] latencies =
      .ok { ring := ring, replay := beginReplay engine } := by
    simp only [replayPacedSingleThreaded, construct_some positive, pacedLoop]
    exact ⟨_, rfl⟩
  rcases replayed with ⟨ring, finishedEq⟩
  exact ⟨_, finishedEq, handled_outcome (begin_replay_handled engine) arithmetic⟩

/-- At the greatest `size_t` capacity the ring has no slot at all. -/
theorem greatest_capacity_faults {engine : ReplayEngine} (event : MarketEvent)
    (rest : List MarketEvent) (greatest : engine.config.ringCapacity + 1 = 2 ^ 64) :
    ¬MaxModeAgrees engine (event :: rest) := by
  rintro ⟨ring, constructed, agrees⟩
  rw [greatest_capacity_constructs greatest] at constructed
  cases constructed
  let start := startPipeline engine ⟨[], 0, 0, 0⟩ (event :: rest)
  have nextSlot : increment 0 0 ≠ 0 := by decide
  have began : PipelineStep start
      { start with ring := { start.ring with pushPoint := .loadedTail event 0 } } :=
    .pushBegins start event rest _ rfl (.loadTail start.ring event rfl)
  have foundRoom : PipelineStep
      { start with ring := { start.ring with pushPoint := .loadedTail event 0 } }
      { start with ring := { start.ring with pushPoint := .room event 0 } } :=
    .pushContinues _ _ (.findRoom _ event 0 0 0 rfl le_rfl rfl nextSlot)
  have wroteOutside : PipelineStep
      { start with ring := { start.ring with pushPoint := .room event 0 } }
      { start with ring := { start.ring with pushPoint := .room event 0, faulted := true } } :=
    .pushContinues _ _ (.writeOutside _ event 0 rfl le_rfl)
  have sound := (agrees _ (.tail (.tail (.tail .refl began) foundRoom) wroteOutside)).1
  cases sound

theorem greatest_capacity_paced_fails {engine : ReplayEngine} (event : MarketEvent)
    (rest : List MarketEvent) (greatest : engine.config.ringCapacity + 1 = 2 ^ 64) :
    ¬PacedModeAgrees engine (event :: rest) := by
  intro agrees
  rcases agrees exactArithmetic fun _ => 0 with ⟨finished, replayed, _⟩
  simp only [replayPacedSingleThreaded, greatest_capacity_constructs greatest, pacedLoop,
    pacedStep] at replayed
  cases replayed

/-- Max mode, under every interleaving, and the paced modes both compute the
fold of `apply_event` over the events, except that a ring of the greatest
`size_t` capacity has no slot for a first event. -/
theorem replay_modes_agree_iff (engine : ReplayEngine) (events : List MarketEvent)
    (positive : 1 ≤ engine.config.ringCapacity) (isSize : engine.config.ringCapacity < 2 ^ 64) :
    (MaxModeAgrees engine events ↔ engine.config.ringCapacity + 1 < 2 ^ 64 ∨ events = []) ∧
      (PacedModeAgrees engine events ↔
        engine.config.ringCapacity + 1 < 2 ^ 64 ∨ events = []) := by
  by_cases bounded : engine.config.ringCapacity + 1 < 2 ^ 64
  · exact ⟨iff_of_true (max_mode_agrees positive bounded) (.inl bounded),
      iff_of_true (paced_mode_agrees positive bounded) (.inl bounded)⟩
  have greatest : engine.config.ringCapacity + 1 = 2 ^ 64 := by omega
  cases events with
  | nil =>
      exact ⟨iff_of_true (max_mode_agrees_nil positive) (.inr rfl),
        iff_of_true (paced_mode_agrees_nil positive) (.inr rfl)⟩
  | cons event rest =>
      have noRun : ¬(engine.config.ringCapacity + 1 < 2 ^ 64 ∨ event :: rest = []) := by
        rintro (small | none)
        · exact bounded small
        · cases none
      exact ⟨iff_of_false (greatest_capacity_faults event rest greatest) noRun,
        iff_of_false (greatest_capacity_paced_fails event rest greatest) noRun⟩

/-- A ring of one slot and one event, after an engine held other contents. -/
theorem one_slot_replay_agrees :
    let engine : ReplayEngine :=
      { config := { ringCapacity := 1 }, profiler := { samples := [7] } }
    let entered : MarketEvent := { orderId := 1, price := 10000, quantity := 10 }
    MaxModeAgrees engine [entered] ∧ PacedModeAgrees engine [entered] := by
  intro engine entered
  have agree := replay_modes_agree_iff engine [entered] (by decide) (by decide)
  exact ⟨agree.1.mpr (.inl (by decide)), agree.2.mpr (.inl (by decide))⟩

/-- With `ring_capacity = 18446744073709551615` no mode replays a single event. -/
theorem greatest_capacity_replays_nothing :
    let engine : ReplayEngine := { config := { ringCapacity := 18446744073709551615 } }
    let entered : MarketEvent := { orderId := 1, price := 10000, quantity := 10 }
    ¬MaxModeAgrees engine [entered] ∧ ¬PacedModeAgrees engine [entered] := by
  intro engine entered
  exact ⟨greatest_capacity_faults entered [] (by decide),
    greatest_capacity_paced_fails entered [] (by decide)⟩

end Agreement

end TickForge.ReplayAgreement
