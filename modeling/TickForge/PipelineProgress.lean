import TickForge.ReplayAgreement

/-!
# The max-mode pipeline does not lock up

Between ring operations some thread can always go on: the next push or pop
succeeds, the flag is stored or the consumer leaves its loop. Each attempt that
fails changes nothing but what was loaded last, and all other steps are counted
by the events, so an endless run is one of retries. What the consumer loop knows
after it has seen the flag holds at every capacity.
-/

namespace TickForge.PipelineProgress

open StepRuns CyclicSlots MarketEventModel RingBufferModel RingInterleaving
open ReplayEngineModel ReplayAgreement

set_option autoImplicit false

section Statement

/-- The ring that whole calls find when their loads return current values. -/
def currentRing (state : PipelineState) : SpscRingBuffer MarketEvent where
  buffer := state.ring.buffer
  capacityWithSentinel := state.ring.capacityWithSentinel
  head := state.ring.head
  tail := state.ring.tail

/-- The condition of the consumer loop on current values. -/
def loopCondition (state : PipelineState) : Bool :=
  !state.doneVersion.isSome || !empty (currentRing state)

/-- Neither thread is inside `push`, `pop` or `empty`. -/
structure BetweenOperations (state : PipelineState) : Prop where
  push : state.ring.pushPoint = .idle
  pop : state.ring.popPoint = .idle
  empty : ∀ head, state.consumer ≠ .emptyLoadedHead head

/-- What gets a run on. Each call that succeeds on current values is also carried
out by steps of its thread. -/
inductive CanAdvance (state : PipelineState) : Prop where
  | pushSucceeds (event : MarketEvent) (rest : List MarketEvent) (next : PipelineState)
      (current : state.toPush = event :: rest)
      (succeeds : push (currentRing state) event = some (true, currentRing next))
      (run : Relation.ReflTransGen PipelineStep state next)
      (accepted : next.toPush = rest ∧ next.consumer = state.consumer)
  | storesDone (next : PipelineState) (finished : state.toPush = [])
      (running : ¬state.producerExited) (stepped : PipelineStep state next)
      (stored : next.producerExited)
  | popSucceeds (event : MarketEvent) (next : PipelineState)
      (succeeds : pop (currentRing state) = some (some event, currentRing next))
      (run : Relation.ReflTransGen PipelineStep state next)
      (delivered : next.consumer = .handling event ∧ next.toPush = state.toPush)
  | exits (next : PipelineState) (condition : loopCondition state = false)
      (run : Relation.ReflTransGen PipelineStep state next)
      (exited : next.consumer = .exited ∧ currentRing next = currentRing state)

/-- The steps of a failed `push` or `pop` and the loop test in front of a `pop`:
they hand nothing over and end where the thread tries again. -/
inductive RetryStep : PipelineState → PipelineState → Prop where
  | pushBegins (state : PipelineState) (event : MarketEvent) (ring : RingState MarketEvent)
      (stepped : ProducerStep state.ring (.begins event) ring) :
      RetryStep state { state with ring := ring }
  | pushRefused (state : PipelineState) (ring : RingState MarketEvent)
      (stepped : ProducerStep state.ring .refused ring) :
      RetryStep state { state with ring := ring }
  | loadNotDone (state : PipelineState) (atPoint : state.consumer = .testDone) :
      RetryStep state { state with consumer := .popping }
  | popBegins (state : PipelineState) (ring : RingState MarketEvent)
      (stepped : ConsumerStep state.ring .begins ring) :
      RetryStep state { state with ring := ring }
  | popRefused (state : PipelineState) (ring : RingState MarketEvent)
      (stepped : ConsumerStep state.ring .refused ring) :
      RetryStep state { state with ring := ring, consumer := .testDone }

/-- What a reachable state of the pipeline over `events` must satisfy. -/
structure LiveState (events : List MarketEvent) (state : PipelineState) : Prop where
  advances : BetweenOperations state → state.consumer ≠ .exited → CanAdvance state
  notBoth : ¬(full (currentRing state) = true ∧ empty (currentRing state) = true)
  pushes : state.ring.pushed.length ≤ events.length
  pops : state.ring.popped.length ≤ events.length

/-- No reachable state is stuck, and an endless run does nothing but retry from
some point on. -/
def PipelineLive (engine : ReplayEngine) (events : List MarketEvent) : Prop :=
  ∃ ring, construct engine.config.ringCapacity = some ring ∧
    (∀ state, Relation.ReflTransGen PipelineStep (startPipeline engine ring events) state →
      LiveState events state) ∧
    ∀ run : Nat → PipelineState, run 0 = startPipeline engine ring events →
      (∀ n, PipelineStep (run n) (run (n + 1))) →
        ∃ settled, ∀ n, settled ≤ n → RetryStep (run n) (run (n + 1))

end Statement

variable {state next : PipelineState}

section Loop

/-- What the points of the consumer loop know about the flag and the indices. -/
def LoopPointHolds (state : PipelineState) : Prop :=
  match state.consumer with
  | .testDone => True
  | .testEmpty => state.doneSeen = true
  | .emptyLoadedHead head => state.doneSeen = true ∧ head = state.ring.head
  | .popping => state.doneSeen = true → state.ring.head ≠ state.ring.tail
  | .handling _ => True
  | .exited => True

/-- The facts behind progress, at every capacity: once the flag is seen no push is
to come and the newest tail is in view, so a pop behind a failed test of `empty`
finds its item. -/
structure LoopInvariant (state : PipelineState) : Prop where
  wide : state.ring.capacityWithSentinel ≠ 1
  current : PushesCurrent state
  pushes : state.ring.tailStores.length = state.ring.pushed.length + 1
  pops : state.ring.headStores.length = state.ring.popped.length + 1
  view : state.ring.tailSeen < state.ring.tailStores.length
  done : ∀ version, state.doneVersion = some version →
    state.toPush = [] ∧ version + 1 = state.ring.tailStores.length
  seen : state.doneSeen = true → state.doneVersion.isSome ∧
    state.ring.tailSeen + 1 = state.ring.tailStores.length
  loop : LoopPointHolds state
  popping : ∀ head, state.ring.popPoint = .loadedHead head → head = state.ring.head

/-- A load of the newest store gives the current value. -/
theorem newest_load (stores : List Nat) (version value : Nat)
    (newest : version + 1 = stores.length) (loaded : stores[version]? = some value) :
    value = stores.getLast?.getD 0 := by
  have last : stores.length - 1 = version := by omega
  rw [List.getLast?_eq_getElem?, last, loaded]
  rfl

theorem start_loop_invariant (engine : ReplayEngine) (events : List MarketEvent)
    (positive : 1 ≤ engine.config.ringCapacity) (isSize : engine.config.ringCapacity < 2 ^ 64)
    (ring : SpscRingBuffer MarketEvent)
    (constructed : construct engine.config.ringCapacity = some ring) :
    LoopInvariant (startPipeline engine ring events) := by
  have sentinel : addSize engine.config.ringCapacity 1 ≠ 1 := by
    rw [addSize]
    omega
  rw [construct_some positive] at constructed
  cases constructed
  exact
    { wide := sentinel
      current := trivial
      pushes := rfl
      pops := rfl
      view := Nat.zero_lt_one
      done := by
        intro version stored
        cases stored
      seen := by
        intro seen
        cases seen
      loop := trivial
      popping := by
        intro head loaded
        cases loaded }

/-- A push in progress has its event outstanding, so the flag is not up. -/
theorem pushing_not_done (invariant : LoopInvariant state)
    (pushing : state.toPush ≠ []) : state.doneVersion = none ∧ state.doneSeen = false := by
  have unset : state.doneVersion = none := by
    cases stored : state.doneVersion with
    | none => rfl
    | some version => exact absurd (invariant.done version stored).1 pushing
  refine ⟨unset, ?_⟩
  cases seen : state.doneSeen with
  | false => rfl
  | true =>
      have isSet := (invariant.seen seen).1
      rw [unset] at isSet
      cases isSet

/-- Before the flag is seen nothing is asked of any point of the loop. -/
theorem unseen_holds {ring : RingState MarketEvent} (invariant : LoopInvariant state)
    (unseen : state.doneSeen = false) (toPush : List MarketEvent) :
    LoopPointHolds { state with ring := ring, toPush := toPush } := by
  have loop := invariant.loop
  unfold LoopPointHolds at loop ⊢
  cases point : state.consumer with
  | testDone | handling _ | exited => trivial
  | testEmpty =>
      simp only [point, unseen] at loop
      cases loop
  | emptyLoadedHead head =>
      simp only [point, unseen] at loop
      cases loop.1
  | popping =>
      intro seen
      rw [unseen] at seen
      cases seen

theorem push_accepted_loop {ring : RingState MarketEvent} (invariant : LoopInvariant state)
    (stepped : ProducerStep state.ring .accepted ring) :
    LoopInvariant { state with ring := ring, toPush := state.toPush.tail } := by
  have current := invariant.current
  have view := invariant.view
  cases stepped with
  | storeTail item tail atPoint =>
      simp only [PushesCurrent, atPoint] at current
      have outstanding : state.toPush ≠ [] := by
        intro finished
        rw [finished] at current
        cases current
      obtain ⟨unset, unseen⟩ := pushing_not_done invariant outstanding
      exact
        { wide := invariant.wide
          current := trivial
          pushes := by
            rw [List.length_append, List.length_append, invariant.pushes]
            rfl
          pops := invariant.pops
          view := by
            rw [List.length_append]
            exact Nat.lt_add_right _ view
          done := by
            intro version stored
            rw [unset] at stored
            cases stored
          seen := by
            intro seen
            rw [unseen] at seen
            cases seen
          loop := unseen_holds invariant unseen _
          popping := invariant.popping }

/-- After the flag is seen a load cannot move the view, which is the newest. -/
theorem newest_view (invariant : LoopInvariant state) {version : Nat}
    (fresh : state.ring.tailSeen ≤ version) (published : version < state.ring.tailStores.length) :
    state.doneSeen = true →
      state.doneVersion.isSome ∧ version + 1 = state.ring.tailStores.length := by
  intro seen
  obtain ⟨isSet, newest⟩ := invariant.seen seen
  exact ⟨isSet, by omega⟩

/-- With the newest tail in view, any tail the consumer loads is the current one. -/
theorem seen_tail (invariant : LoopInvariant state) (seen : state.doneSeen = true)
    {version tail : Nat} (fresh : state.ring.tailSeen ≤ version)
    (loaded : state.ring.tailStores[version]? = some tail) : tail = state.ring.tail := by
  obtain ⟨published, _⟩ := List.getElem?_eq_some_iff.mp loaded
  have newest := (newest_view invariant fresh published seen).2
  exact newest_load state.ring.tailStores version tail newest loaded

/-- The loop test, as far as it looks at the ring. -/
theorem empty_false_loop {ring : RingState MarketEvent} {head version tail : Nat}
    (invariant : LoopInvariant state) (atPoint : state.consumer = .emptyLoadedHead head)
    (observed : ConsumerStep state.ring (.observed version) ring)
    (loaded : state.ring.tailStores[version]? = some tail) (differs : head ≠ tail) :
    LoopInvariant { state with ring := ring, consumer := .popping } := by
  have loop := invariant.loop
  simp only [LoopPointHolds, atPoint] at loop
  obtain ⟨seen, isHead⟩ := loop
  cases observed with
  | observe version fresh published =>
      have isTail := seen_tail invariant seen fresh loaded
      have unequal : state.ring.head ≠ state.ring.tail := by
        rw [← isHead, ← isTail]
        exact differs
      exact { invariant with
        view := published
        seen := newest_view invariant fresh published
        loop := fun _ => unequal }

theorem load_done_loop {ring : RingState MarketEvent} {version latest : Nat}
    (invariant : LoopInvariant state) (stored : state.doneVersion = some version)
    (visible : version ≤ latest)
    (observed : ConsumerStep state.ring (.observed latest) ring) :
    LoopInvariant { state with ring := ring, consumer := .testEmpty, doneSeen := true } := by
  have published := (invariant.done version stored).2
  have isSet : state.doneVersion.isSome := by
    rw [stored]
    rfl
  cases observed with
  | observe latest fresh inside =>
      exact { invariant with
        view := inside
        seen := by
          intro _
          refine ⟨isSet, ?_⟩
          dsimp only
          omega
        loop := rfl }

theorem pipeline_step_loop (state next : PipelineState) (invariant : LoopInvariant state)
    (stepped : PipelineStep state next) : LoopInvariant next := by
  have loop := invariant.loop
  cases stepped with
  | pushBegins event rest ring current stepped =>
      cases stepped with
      | loadTail item idle =>
          have first : state.toPush.head? = some event := by rw [current, List.head?_cons]
          exact { invariant with current := first }
  | pushContinues ring stepped =>
      have current := push_inside_current invariant.current stepped
      cases stepped with
      | findRoom item tail version head atPoint fresh loaded hasRoom =>
          exact { invariant with current := current }
      | write item tail atPoint slotExists => exact { invariant with current := current }
      | writeOutside item tail atPoint noSlot => exact { invariant with current := current }
  | pushRefused ring stepped =>
      cases stepped with
      | findFull item tail version head atPoint fresh loaded isFull =>
          exact { invariant with current := trivial }
  | pushAccepted ring stepped => exact push_accepted_loop invariant stepped
  | storeDone finished idle running =>
      have view := invariant.view
      exact { invariant with
        done := by
          intro version stored
          rw [← Option.some.inj stored]
          exact ⟨finished, by dsimp only; omega⟩
        seen := by
          intro seen
          exact ⟨rfl, (invariant.seen seen).2⟩ }
  | loadNotDone atPoint unseen =>
      exact { invariant with
        loop := by
          intro seen
          rw [unseen] at seen
          cases seen }
  | loadDone version latest ring atPoint stored visible observed =>
      exact load_done_loop invariant stored visible observed
  | emptyLoadHead atPoint =>
      simp only [LoopPointHolds, atPoint] at loop
      exact { invariant with loop := ⟨loop, rfl⟩ }
  | emptyFalse head version tail ring atPoint observed loaded differs =>
      exact empty_false_loop invariant atPoint observed loaded differs
  | emptyTrue head version tail ring atPoint observed loaded same =>
      cases observed with
      | observe version fresh published =>
          exact { invariant with
            view := published
            seen := newest_view invariant fresh published
            loop := trivial }
  | popBegins ring atPoint stepped =>
      cases stepped with
      | loadHead idle =>
          exact { invariant with
            popping := by
              intro head loaded
              exact (PopPoint.loadedHead.inj loaded).symm }
  | popContinues ring atPoint stepped =>
      simp only [LoopPointHolds, atPoint] at loop
      cases stepped with
      | findItem head version tail atHead fresh loaded hasItem =>
          have published := (List.getElem?_eq_some_iff.mp loaded).1
          exact { invariant with
            view := published
            seen := newest_view invariant fresh published
            loop := by
              simp only [LoopPointHolds, atPoint]
              exact loop
            popping := by
              intro head loaded
              cases loaded }
      | read head item atHead stored =>
          exact { invariant with
            popping := by
              intro head loaded
              cases loaded }
      | readOutside head atHead noSlot => exact { invariant with }
  | popRefused ring atPoint stepped =>
      cases stepped with
      | findEmpty head version tail atHead fresh loaded isEmpty =>
          have published := (List.getElem?_eq_some_iff.mp loaded).1
          exact { invariant with
            view := published
            seen := newest_view invariant fresh published
            loop := trivial
            popping := by
              intro head loaded
              cases loaded }
  | popDelivered queuedEvent ring atPoint stepped =>
      cases stepped with
      | storeHead head item atHead =>
          exact { invariant with
            pops := by
              rw [List.length_append, List.length_append, invariant.pops]
              rfl
            loop := trivial
            popping := by
              intro head loaded
              cases loaded }
  | handle queuedEvent body atPoint replays => exact { invariant with loop := trivial }

end Loop

section Work

def pushRank : PushPoint MarketEvent → Nat
  | .idle => 0
  | .loadedTail _ _ => 0
  | .room _ _ => 1
  | .written _ _ => 2

/-- A `pop` counts for more once the flag is seen: it was let in by `empty`. -/
def popRank (doneSeen : Bool) : PopPoint MarketEvent → Nat
  | .idle => if doneSeen then 3 else 0
  | .loadedHead _ => if doneSeen then 3 else 0
  | .filled _ => 4
  | .read _ _ => 5

def consumerRank (state : PipelineState) : Nat :=
  match state.consumer with
  | .testDone => 0
  | .testEmpty => 1
  | .emptyLoadedHead _ => 2
  | .popping => popRank state.doneSeen state.ring.popPoint
  | .handling _ => 6
  | .exited => 3

def doneRank (state : PipelineState) : Nat := if state.doneVersion.isSome then 1 else 0

/-- What a run has got done. The counters stand for whole pushes and handled events;
the ranks order the points on the way to the next one, where a refused attempt
falls back to rank 0. -/
def work (state : PipelineState) : Nat :=
  3 * state.ring.pushed.length + pushRank state.ring.pushPoint + doneRank state +
    (7 * state.body.eventsProcessed + consumerRank state)

theorem pop_rank_entered (popPoint : PopPoint MarketEvent) : 3 ≤ popRank true popPoint := by
  cases popPoint <;> simp [popRank]

theorem pop_rank_le (doneSeen : Bool) (popPoint : PopPoint MarketEvent) :
    popRank doneSeen popPoint ≤ 5 := by
  cases doneSeen <;> cases popPoint <;> simp [popRank]

theorem consumer_rank_le (state : PipelineState) : consumerRank state ≤ 6 := by
  unfold consumerRank
  cases state.consumer with
  | popping => exact (pop_rank_le _ _).trans (by decide)
  | testDone | testEmpty | emptyLoadedHead _ | handling _ | exited => simp

theorem push_rank_le (pushPoint : PushPoint MarketEvent) : pushRank pushPoint ≤ 2 := by
  cases pushPoint <;> simp [pushRank]

theorem done_rank_le (state : PipelineState) : doneRank state ≤ 1 := by
  unfold doneRank
  split_ifs <;> omega

/-- A pop behind the flag is not refused. -/
theorem refused_unseen {ring : RingState MarketEvent} (invariant : LoopInvariant state)
    (atPoint : state.consumer = .popping) (stepped : ConsumerStep state.ring .refused ring) :
    state.doneSeen = false := by
  cases stepped with
  | findEmpty head version tail atHead fresh loaded isEmpty =>
      cases seen : state.doneSeen with
      | false => rfl
      | true =>
          have loop := invariant.loop
          simp only [LoopPointHolds, atPoint] at loop
          have isHead := invariant.popping head atHead
          have isTail := seen_tail invariant seen fresh loaded
          rw [← isHead, ← isTail] at loop
          exact absurd isEmpty (loop seen)

/-- Every step is a retry or gets some work done. -/
theorem step_works (invariant : LoopInvariant state) (stepped : PipelineStep state next)
    (sound : next.ring.faulted = false) :
    work state < work next ∨ (work state ≤ work next ∧ RetryStep state next) := by
  have loop := invariant.loop
  cases stepped with
  | pushBegins event rest ring current stepped =>
      have retry := RetryStep.pushBegins state event ring stepped
      cases stepped with
      | loadTail item idle =>
          refine .inr ⟨?_, retry⟩
          simp [work, doneRank, consumerRank, pushRank, idle]
  | pushContinues ring stepped =>
      left
      cases stepped with
      | findRoom item tail version head atPoint fresh loaded hasRoom =>
          simp [work, doneRank, consumerRank, pushRank, atPoint]
      | write item tail atPoint slotExists =>
          simp [work, doneRank, consumerRank, pushRank, atPoint]
      | writeOutside item tail atPoint noSlot => cases sound
  | pushRefused ring stepped =>
      have retry := RetryStep.pushRefused state ring stepped
      cases stepped with
      | findFull item tail version head atPoint fresh loaded isFull =>
          refine .inr ⟨?_, retry⟩
          simp [work, doneRank, consumerRank, pushRank, atPoint]
  | pushAccepted ring stepped =>
      left
      cases stepped with
      | storeTail item tail atPoint =>
          simp only [work, doneRank, consumerRank, pushRank, atPoint, List.length_append,
            List.length_singleton]
          omega
  | storeDone finished idle running =>
      left
      simp [work, doneRank, consumerRank, running]
  | loadNotDone atPoint unseen =>
      refine .inr ⟨?_, .loadNotDone state atPoint⟩
      simp [work, doneRank, consumerRank, atPoint]
  | loadDone version latest ring atPoint stored visible observed =>
      left
      cases observed with
      | observe latest fresh inside => simp [work, doneRank, consumerRank, atPoint]
  | emptyLoadHead atPoint =>
      left
      simp [work, doneRank, consumerRank, atPoint]
  | emptyFalse head version tail ring atPoint observed loaded differs =>
      left
      simp only [LoopPointHolds, atPoint] at loop
      have entered := pop_rank_entered state.ring.popPoint
      cases observed with
      | observe version fresh inside =>
          simp only [work, doneRank, consumerRank, atPoint, loop.1]
          omega
  | emptyTrue head version tail ring atPoint observed loaded same =>
      left
      cases observed with
      | observe version fresh inside => simp [work, doneRank, consumerRank, atPoint]
  | popBegins ring atPoint stepped =>
      have retry := RetryStep.popBegins state ring stepped
      cases stepped with
      | loadHead idle =>
          refine .inr ⟨?_, retry⟩
          simp [work, doneRank, consumerRank, popRank, atPoint, idle]
  | popContinues ring atPoint stepped =>
      left
      cases stepped with
      | findItem head version tail atHead fresh loaded hasItem =>
          simp only [work, doneRank, consumerRank, popRank, atPoint, atHead]
          split_ifs <;> omega
      | read head item atHead stored =>
          simp [work, doneRank, consumerRank, popRank, atPoint, atHead]
      | readOutside head atHead noSlot => cases sound
  | popRefused ring atPoint stepped =>
      -- Falling back to rank 0 loses nothing: behind the flag no pop is refused.
      have retry := RetryStep.popRefused state ring stepped
      have unseen := refused_unseen invariant atPoint stepped
      cases stepped with
      | findEmpty head version tail atHead fresh loaded isEmpty =>
          refine .inr ⟨?_, retry⟩
          simp [work, doneRank, consumerRank, popRank, atPoint, atHead, unseen]
  | popDelivered queuedEvent ring atPoint stepped =>
      left
      cases stepped with
      | storeHead head item atHead =>
          simp [work, doneRank, consumerRank, popRank, atPoint, atHead]
  | handle queuedEvent body atPoint replays =>
      rcases replays with ⟨latencyNs, rfl⟩
      left
      simp only [work, doneRank, consumerRank, handleEvent, atPoint]
      omega

end Work

section Advance

/-- The newest store of an index is its current value. -/
theorem newest_stored (stores : List Nat) (stored : stores ≠ []) :
    stores[stores.length - 1]? = some (stores.getLast?.getD 0) := by
  have positive := List.length_pos_iff.mpr stored
  have inside : stores.length - 1 < stores.length := by omega
  rw [List.getLast?_eq_getElem?, List.getElem?_eq_getElem inside]
  rfl

/-- The consumer loads the newest tail. -/
def newestView (ring : RingState MarketEvent) : RingState MarketEvent :=
  { ring with tailSeen := ring.tailStores.length - 1 }

theorem newest_tail (invariant : LoopInvariant state) :
    state.ring.tailStores[state.ring.tailStores.length - 1]? = some state.ring.tail := by
  apply newest_stored
  intro unstored
  have view := invariant.view
  rw [unstored] at view
  exact Nat.not_lt_zero _ view

theorem observe_newest (invariant : LoopInvariant state) :
    ConsumerStep state.ring (.observed (state.ring.tailStores.length - 1))
      (newestView state.ring) := by
  have view := invariant.view
  exact .observe state.ring _ (by omega) (by omega)

/-- What the consumer does on its own without touching the ring. -/
structure Idles (state next : PipelineState) : Prop where
  run : Relation.ReflTransGen PipelineStep state next
  ring : currentRing next = currentRing state
  popPoint : next.ring.popPoint = state.ring.popPoint
  doneVersion : next.doneVersion = state.doneVersion
  toPush : next.toPush = state.toPush

theorem idles_trans {middle : PipelineState} (first : Idles state middle)
    (second : Idles middle next) : Idles state next where
  run := first.run.trans second.run
  ring := second.ring.trans first.ring
  popPoint := second.popPoint.trans first.popPoint
  doneVersion := second.doneVersion.trans first.doneVersion
  toPush := second.toPush.trans first.toPush

theorem idles_drained_iff (idles : Idles state next) :
    next.ring.head = next.ring.tail ↔ state.ring.head = state.ring.tail := by
  have sameHead := congrArg SpscRingBuffer.head idles.ring
  have sameTail := congrArg SpscRingBuffer.tail idles.ring
  change next.ring.head = state.ring.head at sameHead
  change next.ring.tail = state.ring.tail at sameTail
  rw [sameHead, sameTail]

theorem idles_loop (invariant : LoopInvariant state) (idles : Idles state next) :
    LoopInvariant next :=
  invariant_reached LoopInvariant pipeline_step_loop invariant idles.run

/-- With the flag up the consumer goes on to look at the ring. -/
theorem flag_seen (invariant : LoopInvariant state) (atPoint : state.consumer = .testDone)
    (flag : state.doneVersion.isSome) :
    ∃ next, Idles state next ∧ next.consumer = .testEmpty := by
  obtain ⟨version, stored⟩ := Option.isSome_iff_exists.mp flag
  have published := (invariant.done version stored).2
  have stepped : PipelineStep state _ := .loadDone state version _ _ atPoint stored (by omega)
    (observe_newest invariant)
  exact ⟨_, ⟨.single stepped, rfl, rfl, rfl, rfl⟩, rfl⟩

/-- Whatever the consumer is at, it comes to its loop test or is about to pop. -/
theorem comes_around (between : BetweenOperations state) (running : state.consumer ≠ .exited) :
    ∃ next, Idles state next ∧
      (next.consumer = .testDone ∨ next.consumer = .testEmpty ∨ next.consumer = .popping) := by
  have stays : Idles state state := ⟨.refl, rfl, rfl, rfl, rfl⟩
  cases point : state.consumer with
  | testDone => exact ⟨state, stays, .inl point⟩
  | testEmpty => exact ⟨state, stays, .inr (.inl point)⟩
  | popping => exact ⟨state, stays, .inr (.inr point)⟩
  | emptyLoadedHead head => exact absurd point (between.empty head)
  | handling queuedEvent =>
      have stepped : PipelineStep state _ := .handle state queuedEvent _ point ⟨0, rfl⟩
      exact ⟨_, ⟨.single stepped, rfl, rfl, rfl, rfl⟩, .inl rfl⟩
  | exited => exact absurd point running

section Empty

variable (invariant : LoopInvariant state) (drained : state.ring.head = state.ring.tail)
include invariant drained

theorem test_empty_exits (atPoint : state.consumer = .testEmpty) :
    ∃ next, Relation.ReflTransGen PipelineStep state next ∧
      next.consumer = .exited ∧ currentRing next = currentRing state := by
  let testing := { state with consumer := .emptyLoadedHead state.ring.head }
  have observed := observe_newest invariant
  have loaded := newest_tail invariant
  have first : PipelineStep state testing := .emptyLoadHead state atPoint
  have second : PipelineStep testing _ := .emptyTrue testing _ _ _ _ rfl observed loaded drained
  exact ⟨_, .tail (.single first) second, rfl, rfl⟩

theorem test_done_exits (atPoint : state.consumer = .testDone)
    (flag : state.doneVersion.isSome) :
    ∃ next, Relation.ReflTransGen PipelineStep state next ∧
      next.consumer = .exited ∧ currentRing next = currentRing state := by
  obtain ⟨testing, idles, atTest⟩ := flag_seen invariant atPoint flag
  have stillDrained := (idles_drained_iff idles).mpr drained
  obtain ⟨next, run, exited, same⟩ :=
    test_empty_exits (idles_loop invariant idles) stillDrained atTest
  exact ⟨next, idles.run.trans run, exited, same.trans idles.ring⟩

/-- A drained ring behind the flag lets the consumer go, if need be after one more
`pop` that is refused. -/
theorem drained_exits (between : BetweenOperations state) (running : state.consumer ≠ .exited)
    (flag : state.doneVersion.isSome) :
    ∃ next, Relation.ReflTransGen PipelineStep state next ∧
      next.consumer = .exited ∧ currentRing next = currentRing state := by
  obtain ⟨ready, idles, point⟩ := comes_around between running
  have stillInvariant := idles_loop invariant idles
  have stillDrained := (idles_drained_iff idles).mpr drained
  have stillFlag : ready.doneVersion.isSome := by rwa [idles.doneVersion]
  have exits : ∃ next, Relation.ReflTransGen PipelineStep ready next ∧
      next.consumer = .exited ∧ currentRing next = currentRing ready := by
    rcases point with atTest | atEmpty | atPop
    · exact test_done_exits stillInvariant stillDrained atTest stillFlag
    · exact test_empty_exits stillInvariant stillDrained atEmpty
    · have notPopping : ready.ring.popPoint = .idle := idles.popPoint.trans between.pop
      have loaded := newest_tail stillInvariant
      have view := stillInvariant.view
      let popping := { ready with
        ring := { ready.ring with popPoint := .loadedHead ready.ring.head } }
      have begun : PipelineStep ready popping :=
        .popBegins ready _ atPop (.loadHead ready.ring notPopping)
      have refused : PipelineStep popping _ := .popRefused popping _ atPop
        (.findEmpty popping.ring _ _ _ rfl (Nat.le_sub_one_of_lt view) loaded stillDrained)
      have steps := (Relation.ReflTransGen.single begun).tail refused
      have invariantThere := invariant_reached LoopInvariant pipeline_step_loop stillInvariant steps
      obtain ⟨next, run, exited, same⟩ :=
        test_done_exits invariantThere stillDrained rfl stillFlag
      exact ⟨next, steps.trans run, exited, same⟩
  obtain ⟨next, run, exited, same⟩ := exits
  exact ⟨next, idles.run.trans run, exited, same.trans idles.ring⟩

end Empty

section Filled

variable (invariant : LoopInvariant state) (apart : state.ring.head ≠ state.ring.tail)
include invariant apart

theorem test_empty_enters (atPoint : state.consumer = .testEmpty) :
    ∃ next, Idles state next ∧ next.consumer = .popping := by
  let testing := { state with consumer := .emptyLoadedHead state.ring.head }
  have observed := observe_newest invariant
  have loaded := newest_tail invariant
  have first : PipelineStep state testing := .emptyLoadHead state atPoint
  have second : PipelineStep testing _ := .emptyFalse testing _ _ _ _ rfl observed loaded apart
  exact ⟨_, ⟨.tail (.single first) second, rfl, rfl, rfl, rfl⟩, rfl⟩

theorem test_done_enters (atPoint : state.consumer = .testDone) :
    ∃ next, Idles state next ∧ next.consumer = .popping := by
  cases flag : state.doneVersion with
  | none =>
      have unseen : state.doneSeen = false := by
        cases seen : state.doneSeen with
        | false => rfl
        | true =>
            have isSet := (invariant.seen seen).1
            rw [flag] at isSet
            cases isSet
      have stepped : PipelineStep state _ := .loadNotDone state atPoint unseen
      exact ⟨_, ⟨.single stepped, rfl, rfl, rfl, rfl⟩, rfl⟩
  | some version =>
      have isSet : state.doneVersion.isSome := by
        rw [flag]
        rfl
      obtain ⟨testing, idles, atTest⟩ := flag_seen invariant atPoint isSet
      have stillApart := mt (idles_drained_iff idles).mp apart
      obtain ⟨next, entered, atPop⟩ :=
        test_empty_enters (idles_loop invariant idles) stillApart atTest
      exact ⟨next, idles_trans idles entered, atPop⟩

omit invariant in
theorem pop_current (item : MarketEvent)
    (stored : state.ring.buffer[state.ring.head]? = some item) :
    pop (currentRing state) =
      some (some item, { currentRing state with head := state.ring.next state.ring.head }) := by
  simp only [pop, currentRing, if_neg apart, stored]
  rfl

/-- The steps of a `pop` that finds its item. -/
theorem popping_delivers (atPoint : state.consumer = .popping)
    (idle : state.ring.popPoint = .idle) (item : MarketEvent)
    (stored : state.ring.buffer[state.ring.head]? = some item) :
    ∃ next, Relation.ReflTransGen PipelineStep state next ∧
      pop (currentRing state) = some (some item, currentRing next) ∧
      next.consumer = .handling item ∧ next.toPush = state.toPush := by
  have loaded := newest_tail invariant
  have view := invariant.view
  let begun := { state with ring := { state.ring with popPoint := .loadedHead state.ring.head } }
  let found := { state with
    ring := { newestView state.ring with popPoint := .filled state.ring.head } }
  let copied := { state with
    ring := { newestView state.ring with popPoint := .read state.ring.head item } }
  have first : PipelineStep state begun := .popBegins state _ atPoint (.loadHead state.ring idle)
  have second : PipelineStep begun found := .popContinues begun _ atPoint
    (.findItem begun.ring _ _ _ rfl (Nat.le_sub_one_of_lt view) loaded apart)
  have third : PipelineStep found copied := .popContinues found _ atPoint
    (.read found.ring _ item rfl stored)
  have fourth : PipelineStep copied _ := .popDelivered copied item _ atPoint
    (.storeHead copied.ring state.ring.head item rfl)
  refine ⟨_, .tail (.tail (.tail (.single first) second) third) fourth, ?_, rfl, rfl⟩
  rw [pop_current apart item stored]
  have moved : (state.ring.headStores ++ [state.ring.next state.ring.head]).getLast?.getD 0 =
      state.ring.next state.ring.head := by
    rw [List.getLast?_concat, Option.getD_some]
  exact congrArg
    (fun head => some (some item, { currentRing state with head := head })) moved.symm

/-- A consumer that waits before a filled ring gets its next `pop` done. -/
theorem filled_pops (between : BetweenOperations state) (running : state.consumer ≠ .exited)
    (item : MarketEvent) (stored : state.ring.buffer[state.ring.head]? = some item) :
    CanAdvance state := by
  have enters : ∃ ready, Idles state ready ∧ ready.consumer = .popping := by
    obtain ⟨waiting, idles, point⟩ := comes_around between running
    have stillInvariant := idles_loop invariant idles
    have stillApart := mt (idles_drained_iff idles).mp apart
    rcases point with atTest | atEmpty | atPop
    · obtain ⟨ready, entered, atPop⟩ := test_done_enters stillInvariant stillApart atTest
      exact ⟨ready, idles_trans idles entered, atPop⟩
    · obtain ⟨ready, entered, atPop⟩ := test_empty_enters stillInvariant stillApart atEmpty
      exact ⟨ready, idles_trans idles entered, atPop⟩
    · exact ⟨waiting, idles, atPop⟩
  obtain ⟨ready, idles, atPop⟩ := enters
  have sameHead : ready.ring.head = state.ring.head :=
    congrArg SpscRingBuffer.head idles.ring
  have sameBuffer : ready.ring.buffer = state.ring.buffer :=
    congrArg SpscRingBuffer.buffer idles.ring
  have stillApart := mt (idles_drained_iff idles).mp apart
  rw [← sameHead, ← sameBuffer] at stored
  obtain ⟨next, run, succeeds, handling, sameEvents⟩ := popping_delivers
    (idles_loop invariant idles) stillApart atPop (idles.popPoint.trans between.pop) item stored
  rw [idles.ring] at succeeds
  exact .popSucceeds item next succeeds (idles.run.trans run)
    ⟨handling, sameEvents.trans idles.toPush⟩

end Filled

section Bounded

variable {config : ReplayConfig} {capacity : Nat} {events : List MarketEvent}

theorem push_current (event : MarketEvent)
    (room : state.ring.next state.ring.tail ≠ state.ring.head)
    (slot : state.ring.tail < state.ring.buffer.length) :
    push (currentRing state) event = some (true,
      { currentRing state with
        buffer := state.ring.buffer.set state.ring.tail event
        tail := state.ring.next state.ring.tail }) := by
  exact (if_neg room).trans (if_pos slot)

/-- The steps of a `push` that finds room. -/
theorem free_slot_pushes (ringInvariant : RingInvariant capacity state.ring)
    (idle : state.ring.pushPoint = .idle) (event : MarketEvent) (rest : List MarketEvent)
    (current : state.toPush = event :: rest)
    (room : state.ring.next state.ring.tail ≠ state.ring.head) : CanAdvance state := by
  have lag := ringInvariant.headSeen
  have stores : state.ring.headStores.length = state.ring.popped.length + 1 := by
    rw [ringInvariant.heads, slot_history_length]
  have loaded : state.ring.headStores[state.ring.headStores.length - 1]? =
      some state.ring.head := by
    apply newest_stored
    apply List.ne_nil_of_length_pos
    omega
  have slot : state.ring.tail < state.ring.buffer.length := by
    rw [ringInvariant.slots, tail_eq ringInvariant]
    exact Nat.mod_lt _ (Nat.succ_pos capacity)
  let begun := { state with
    ring := { state.ring with pushPoint := .loadedTail event state.ring.tail } }
  let found := { state with
    ring := { state.ring with
      pushPoint := .room event state.ring.tail
      headSeen := state.ring.headStores.length - 1 } }
  let copied := { state with
    ring := { state.ring with
      buffer := state.ring.buffer.set state.ring.tail event
      pushPoint := .written event state.ring.tail
      headSeen := state.ring.headStores.length - 1 } }
  have first : PipelineStep state begun :=
    .pushBegins state event rest _ current (.loadTail state.ring event idle)
  have second : PipelineStep begun found := .pushContinues begun _
    (.findRoom begun.ring event _ _ _ rfl (by dsimp only [begun]; omega) loaded room)
  have third : PipelineStep found copied :=
    .pushContinues found _ (.write found.ring event _ rfl slot)
  let accepted := { state with
    ring := { state.ring with
      buffer := state.ring.buffer.set state.ring.tail event
      tailStores := state.ring.tailStores ++ [state.ring.next state.ring.tail]
      pushPoint := .idle
      headSeen := state.ring.headStores.length - 1
      pushed := state.ring.pushed ++ [event] }
    toPush := state.toPush.tail }
  have fourth : PipelineStep copied accepted :=
    .pushAccepted copied _ (.storeTail copied.ring event state.ring.tail rfl)
  have moved : accepted.ring.tail = state.ring.next state.ring.tail := by
    rw [RingState.tail, List.getLast?_concat, Option.getD_some]
  have succeeds : push (currentRing state) event = some (true, currentRing accepted) := by
    rw [push_current event room slot]
    exact congrArg (fun tail => some (true, { currentRing accepted with tail := tail })) moved.symm
  exact .pushSucceeds event rest accepted current succeeds
    (.tail (.tail (.tail (.single first) second) third) fourth)
    ⟨congrArg List.tail current, rfl⟩

/-- All is pushed: the flag goes up, what is left is popped, or the consumer
leaves. -/
theorem finished_advances (invariant : LoopInvariant state) (between : BetweenOperations state)
    (running : state.consumer ≠ .exited) (finished : state.toPush = [])
    (filled : state.ring.head ≠ state.ring.tail →
      ∃ item, state.ring.buffer[state.ring.head]? = some item) : CanAdvance state := by
  cases flag : state.doneVersion with
  | none =>
      have stepped : PipelineStep state _ := .storeDone state finished between.push flag
      have notExited : ¬state.producerExited := by simp [LoopState.producerExited, flag]
      exact .storesDone _ finished notExited stepped rfl
  | some version =>
      have isSet : state.doneVersion.isSome := by
        rw [flag]
        rfl
      by_cases drained : state.ring.head = state.ring.tail
      · obtain ⟨next, run, exited⟩ := drained_exits invariant drained between running isSet
        have condition : loopCondition state = false := by
          simp [loopCondition, empty, currentRing, isSet, drained]
        exact .exits next condition run exited
      · obtain ⟨item, stored⟩ := filled drained
        exact filled_pops invariant drained between running item stored

/-- The indices of a ring with more than one slot cannot be equal and in sequence. -/
theorem not_full_and_empty (invariant : LoopInvariant state) :
    ¬(full (currentRing state) = true ∧ empty (currentRing state) = true) := by
  rintro ⟨isFull, isEmpty⟩
  have follows := of_decide_eq_true isFull
  have same := of_decide_eq_true isEmpty
  exact increment_ne invariant.wide _ (follows.trans same)

theorem live_state (invariant : PipelineInvariant config capacity events state)
    (loop : LoopInvariant state) : LiveState events state where
  advances := by
    intro between running
    have headSlot : state.ring.head < state.ring.buffer.length := by
      rw [invariant.ring.slots, head_eq invariant.ring]
      exact Nat.mod_lt _ (Nat.succ_pos capacity)
    have stored := List.getElem?_eq_getElem headSlot
    cases outstanding : state.toPush with
    | nil => exact finished_advances loop between running outstanding fun _ => ⟨_, stored⟩
    | cons event rest =>
        by_cases isFull : state.ring.next state.ring.tail = state.ring.head
        · have apart : state.ring.head ≠ state.ring.tail := by
            rw [← isFull]
            exact increment_ne loop.wide _
          exact filled_pops loop apart between running _ stored
        · exact free_slot_pushes invariant.ring between.push event rest outstanding isFull
  notBoth := not_full_and_empty loop
  pushes := by
    have whole := congrArg List.length invariant.split
    rw [List.length_append] at whole
    omega
  pops := by
    have whole := congrArg List.length invariant.split
    have ordered := invariant.ring.delivered.length_le
    rw [List.length_append] at whole
    omega

/-- An event is handled after it was popped. -/
theorem processed_le_popped (invariant : PipelineInvariant config capacity events state) :
    state.body.eventsProcessed ≤ state.ring.popped.length := by
  have holds := invariant.consumer
  unfold ConsumerHolds at holds
  cases point : state.consumer with
  | testDone | popping =>
      simp only [point] at holds
      exact holds.processed.le
  | testEmpty | emptyLoadedHead head | exited =>
      simp only [point] at holds
      exact holds.1.processed.le
  | handling queuedEvent =>
      simp only [point] at holds
      obtain ⟨earlier, popped, handled⟩ := holds
      rw [popped, handled.processed, List.length_append]
      exact Nat.le_add_right _ _

/-- A push adds three to the work, a pop and its handling seven. -/
theorem work_le (live : LiveState events state)
    (processed : state.body.eventsProcessed ≤ events.length) :
    work state ≤ 10 * events.length + 9 := by
  have pushes := live.pushes
  have pushing := push_rank_le state.ring.pushPoint
  have flag := done_rank_le state
  have popping := consumer_rank_le state
  rw [work]
  omega

end Bounded

end Advance

section Live

/-- The facts of all reachable states make a pipeline live. -/
theorem live_of_reachable {engine : ReplayEngine} {events : List MarketEvent}
    (positive : 1 ≤ engine.config.ringCapacity) (isSize : engine.config.ringCapacity < 2 ^ 64)
    (ring : SpscRingBuffer MarketEvent)
    (constructed : construct engine.config.ringCapacity = some ring)
    (sound : ∀ state, Relation.ReflTransGen PipelineStep (startPipeline engine ring events) state →
      LoopInvariant state → LiveState events state ∧ state.ring.faulted = false ∧
        state.body.eventsProcessed ≤ events.length) : PipelineLive engine events := by
  have loop := start_loop_invariant engine events positive isSize ring constructed
  have loops : ∀ state,
      Relation.ReflTransGen PipelineStep (startPipeline engine ring events) state →
        LoopInvariant state := by
    intro state reached
    exact invariant_reached LoopInvariant pipeline_step_loop loop reached
  refine ⟨ring, constructed, fun state reached => (sound state reached (loops state reached)).1, ?_⟩
  intro run started steps
  have reached : ∀ n, Relation.ReflTransGen PipelineStep (startPipeline engine ring events)
      (run n) := by
    intro n
    rw [← started]
    exact run_reaches run steps n
  apply run_settles RetryStep work (10 * events.length + 9) run
  · intro n
    have facts := sound (run n) (reached n) (loops _ (reached n))
    exact work_le facts.1 facts.2.2
  · intro n
    have next := sound (run (n + 1)) (reached (n + 1)) (loops _ (reached (n + 1)))
    exact step_works (loops _ (reached n)) (steps n) next.2.1

theorem bounded_live {engine : ReplayEngine} {events : List MarketEvent}
    (positive : 1 ≤ engine.config.ringCapacity)
    (bounded : engine.config.ringCapacity + 1 < 2 ^ 64) : PipelineLive engine events := by
  apply live_of_reachable positive (by omega) _ (construct_some positive)
  intro state reached loop
  have invariant := invariant_reached
    (PipelineInvariant engine.config engine.config.ringCapacity events)
    (pipeline_step_invariant (by omega))
    (start_pipeline_invariant positive (by omega) _ (construct_some positive)) reached
  have live := live_state invariant loop
  exact ⟨live, invariant.ring.noFault, (processed_le_popped invariant).trans live.pops⟩

theorem eventless_live {engine : ReplayEngine} (positive : 1 ≤ engine.config.ringCapacity)
    (isSize : engine.config.ringCapacity < 2 ^ 64) : PipelineLive engine [] := by
  apply live_of_reachable positive isSize _ (construct_some positive)
  intro state reached loop
  have nothing := invariant_reached (NothingReplayed engine.config) nothing_replayed_step
    (start_nothing_replayed engine (construct_some positive)) reached
  have pushes := loop.pushes
  have pops := loop.pops
  rw [nothing.tails, List.length_singleton] at pushes
  rw [nothing.heads, List.length_singleton] at pops
  have drained : state.ring.head = state.ring.tail := by
    rw [RingState.head, RingState.tail, nothing.heads, nothing.tails]
  refine ⟨?_, nothing.noFault, nothing.handled.processed.le⟩
  exact
    { advances := by
        intro between running
        exact finished_advances loop between running nothing.toPush fun apart =>
          absurd drained apart
      notBoth := not_full_and_empty loop
      pushes := by
        rw [List.length_nil]
        omega
      pops := by
        rw [List.length_nil]
        omega }

/-- A ring without a slot takes no event: the producer's first push reaches outside
the vector while nothing else is to be done. -/
theorem slotless_stuck {engine : ReplayEngine} (event : MarketEvent) (rest : List MarketEvent)
    (greatest : engine.config.ringCapacity + 1 = 2 ^ 64) :
    ¬PipelineLive engine (event :: rest) := by
  rintro ⟨ring, constructed, live, _⟩
  rw [greatest_capacity_constructs greatest] at constructed
  cases constructed
  have between : BetweenOperations (startPipeline engine ⟨[], 0, 0, 0⟩ (event :: rest)) := by
    refine ⟨rfl, rfl, ?_⟩
    intro head loaded
    cases loaded
  have notExited : (startPipeline engine ⟨[], 0, 0, 0⟩ (event :: rest)).consumer ≠ .exited := by
    intro exited
    cases exited
  have advance := (live _ .refl).advances between notExited
  cases advance with
  | pushSucceeds pushed later next current succeeds run accepted => cases succeeds
  | storesDone next finished running stepped stored => cases finished
  | popSucceeds popped next succeeds run delivered => cases succeeds
  | exits next condition run exited => cases condition

/-- The pipeline makes progress under every interleaving as long as the ring has
slots or there is nothing to push. -/
theorem pipeline_live_iff (engine : ReplayEngine) (events : List MarketEvent)
    (positive : 1 ≤ engine.config.ringCapacity) (isSize : engine.config.ringCapacity < 2 ^ 64) :
    PipelineLive engine events ↔ engine.config.ringCapacity + 1 < 2 ^ 64 ∨ events = [] := by
  by_cases bounded : engine.config.ringCapacity + 1 < 2 ^ 64
  · exact iff_of_true (bounded_live positive bounded) (.inl bounded)
  have greatest : engine.config.ringCapacity + 1 = 2 ^ 64 := by omega
  cases events with
  | nil => exact iff_of_true (eventless_live positive isSize) (.inr rfl)
  | cons event rest =>
      apply iff_of_false (slotless_stuck event rest greatest)
      rintro (small | none)
      · exact bounded small
      · cases none

theorem one_slot_pipeline_live :
    let engine : ReplayEngine := { config := { ringCapacity := 1 } }
    let entered : MarketEvent := { orderId := 1, price := 10000, quantity := 10 }
    PipelineLive engine [entered, entered] := by
  intro engine entered
  exact (pipeline_live_iff engine [entered, entered] (by decide) (by decide)).mpr
    (.inl (by decide))

/-- With `ring_capacity = 18446744073709551615` the first event is never pushed. -/
theorem greatest_capacity_locks_up :
    let engine : ReplayEngine := { config := { ringCapacity := 18446744073709551615 } }
    let entered : MarketEvent := { orderId := 1, price := 10000, quantity := 10 }
    ¬PipelineLive engine [entered] := by
  intro engine entered
  exact slotless_stuck entered [] (by decide)

end Live

end TickForge.PipelineProgress
