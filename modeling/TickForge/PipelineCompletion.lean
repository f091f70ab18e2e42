import TickForge.PipelineProgress

/-!
# The max-mode pipeline can always finish

Whatever an interleaving has done, it can go on to the return of both threads: calls
in progress come to their end, and between calls some thread gets work done, which
the events bound.
-/

namespace TickForge.PipelineCompletion

open StepRuns CyclicSlots MarketEventModel RingBufferModel RingInterleaving
open ReplayEngineModel ReplayAgreement PipelineProgress

set_option autoImplicit false

variable {state next : PipelineState}

section Retries

/-- What no retry changes. -/
structure Unmoved (state next : PipelineState) : Prop where
  toPush : next.toPush = state.toPush
  doneVersion : next.doneVersion = state.doneVersion
  head : next.ring.head = state.ring.head
  running : state.consumer ≠ .exited → next.consumer ≠ .exited

theorem retry_unmoved (retried : RetryStep state next) : Unmoved state next := by
  cases retried with
  | pushBegins event ring stepped =>
      cases stepped with
      | loadTail item idle => exact ⟨rfl, rfl, rfl, id⟩
  | pushRefused ring stepped =>
      cases stepped with
      | findFull item tail version head atPoint fresh loaded isFull => exact ⟨rfl, rfl, rfl, id⟩
  | loadNotDone atPoint => exact ⟨rfl, rfl, rfl, fun _ => by simp⟩
  | popBegins ring stepped =>
      cases stepped with
      | loadHead idle => exact ⟨rfl, rfl, rfl, id⟩
  | popRefused ring stepped =>
      cases stepped with
      | findEmpty head version tail atPoint fresh loaded isEmpty =>
          exact ⟨rfl, rfl, rfl, fun _ => by simp⟩

theorem unmoved_trans {middle : PipelineState} (first : Unmoved state middle)
    (second : Unmoved middle next) : Unmoved state next where
  toPush := second.toPush.trans first.toPush
  doneVersion := second.doneVersion.trans first.doneVersion
  head := second.head.trans first.head
  running := fun running => second.running (first.running running)

/-- No run loses work, and one that gets none done only retried. -/
theorem run_works {config : ReplayConfig} {capacity : Nat} {events : List MarketEvent}
    (bounded : capacity ≤ 2 ^ 64 - 2)
    (invariant : PipelineInvariant config capacity events state) (loop : LoopInvariant state)
    (run : Relation.ReflTransGen PipelineStep state next) :
    work state < work next ∨ (work state = work next ∧ Unmoved state next) := by
  induction run with
  | refl => exact .inr ⟨rfl, rfl, rfl, rfl, id⟩
  | @tail middle next run stepped ih =>
      have reachedLoop := invariant_reached LoopInvariant pipeline_step_loop loop run
      have reached := invariant_reached (PipelineInvariant config capacity events)
        (pipeline_step_invariant bounded) invariant (run.tail stepped)
      rcases step_works reachedLoop stepped reached.ring.noFault with worked | ⟨kept, retried⟩
      · left
        rcases ih with earlier | ⟨same, _⟩ <;> omega
      · rcases ih with earlier | ⟨same, unmoved⟩
        · exact .inl (earlier.trans_le kept)
        · rcases kept.lt_or_eq with worked | still
          · exact .inl (same ▸ worked)
          · exact .inr ⟨same.trans still, unmoved_trans unmoved (retry_unmoved retried)⟩

/-- To advance is to get work done. -/
theorem advance_works {config : ReplayConfig} {capacity : Nat} {events : List MarketEvent}
    (bounded : capacity ≤ 2 ^ 64 - 2)
    (invariant : PipelineInvariant config capacity events state) (loop : LoopInvariant state)
    (running : state.consumer ≠ .exited) (advance : CanAdvance state) :
    ∃ next, Relation.ReflTransGen PipelineStep state next ∧ work state < work next := by
  have moves : ∃ next, Relation.ReflTransGen PipelineStep state next ∧ ¬Unmoved state next := by
    cases advance with
    | pushSucceeds event rest next current succeeds run accepted =>
        refine ⟨next, run, ?_⟩
        intro unmoved
        have same := unmoved.toPush
        rw [accepted.1, current] at same
        exact List.cons_ne_self event rest same.symm
    | storesDone next finished notStored stepped stored =>
        refine ⟨next, .single stepped, ?_⟩
        intro unmoved
        rw [LoopState.producerExited, unmoved.doneVersion] at stored
        exact notStored stored
    | popSucceeds event next succeeds run delivered =>
        refine ⟨next, run, ?_⟩
        intro unmoved
        have moved : next.ring.head = state.ring.next state.ring.head := by
          unfold pop at succeeds
          split_ifs at succeeds with drained
          · cases succeeds
          · split at succeeds
            · cases succeeds
            · exact (congrArg SpscRingBuffer.head (Prod.mk.inj (Option.some.inj succeeds)).2).symm
        rw [unmoved.head] at moved
        exact increment_ne loop.wide state.ring.head moved.symm
    | exits next condition run exited =>
        exact ⟨next, run, fun unmoved => unmoved.running running exited.1⟩
  obtain ⟨next, run, moved⟩ := moves
  rcases run_works bounded invariant loop run with worked | ⟨_, unmoved⟩
  · exact ⟨next, run, worked⟩
  · exact absurd unmoved moved

end Retries

section Settling

/-- Only the consumer's `pop` is ever inside a pop. -/
def PopInside (state : PipelineState) : Prop :=
  state.ring.popPoint ≠ .idle → state.consumer = .popping

theorem producer_keeps_pop {ring after : RingState MarketEvent}
    {label : ProducerLabel MarketEvent} (stepped : ProducerStep ring label after) :
    after.popPoint = ring.popPoint := by
  cases stepped <;> rfl

theorem pipeline_step_inside (state next : PipelineState) (inside : PopInside state)
    (stepped : PipelineStep state next) : PopInside next := by
  -- Where the consumer leaves `popping` its pop has ended.
  have idleUnless : state.consumer ≠ .popping → state.ring.popPoint = .idle := by
    intro elsewhere
    by_contra popping
    exact elsewhere (inside popping)
  cases stepped with
  | pushBegins event rest ring current stepped =>
      simpa only [PopInside, producer_keeps_pop stepped] using inside
  | pushContinues ring stepped =>
      simpa only [PopInside, producer_keeps_pop stepped] using inside
  | pushRefused ring stepped => simpa only [PopInside, producer_keeps_pop stepped] using inside
  | pushAccepted ring stepped => simpa only [PopInside, producer_keeps_pop stepped] using inside
  | storeDone finished idle running => exact inside
  | loadNotDone atPoint unseen => exact fun _ => rfl
  | loadDone version latest ring atPoint stored visible observed =>
      cases observed
      exact fun popping => absurd (idleUnless (by simp [atPoint])) popping
  | emptyLoadHead atPoint => exact fun popping => absurd (idleUnless (by simp [atPoint])) popping
  | emptyFalse head version tail ring atPoint observed loaded differs => exact fun _ => rfl
  | emptyTrue head version tail ring atPoint observed loaded same =>
      cases observed
      exact fun popping => absurd (idleUnless (by simp [atPoint])) popping
  | popBegins ring atPoint stepped => exact fun _ => atPoint
  | popContinues ring atPoint stepped => exact fun _ => atPoint
  | popRefused ring atPoint stepped =>
      cases stepped
      exact fun popping => absurd rfl popping
  | popDelivered queuedEvent ring atPoint stepped =>
      cases stepped
      exact fun popping => absurd rfl popping
  | handle queuedEvent body atPoint replays =>
      exact fun popping => absurd (idleUnless (by simp [atPoint])) popping

variable {config : ReplayConfig} {capacity : Nat} {events : List MarketEvent}

theorem room_push_ends (state : PipelineState) (item : MarketEvent) (tail : Nat)
    (atPoint : state.ring.pushPoint = .room item tail)
    (slot : tail < state.ring.buffer.length) :
    ∃ next, Relation.ReflTransGen PipelineStep state next ∧ next.ring.pushPoint = .idle := by
  let copied := { state with
    ring := { state.ring with
      buffer := state.ring.buffer.set tail item
      pushPoint := .written item tail } }
  have wrote : PipelineStep state copied :=
    .pushContinues state _ (.write state.ring item tail atPoint slot)
  have accepted : PipelineStep copied _ := .pushAccepted copied _ (.storeTail copied.ring item tail rfl)
  exact ⟨_, .tail (.single wrote) accepted, rfl⟩

/-- A push in progress comes to its end. -/
theorem push_ends (invariant : PipelineInvariant config capacity events state) :
    ∃ next, Relation.ReflTransGen PipelineStep state next ∧ next.ring.pushPoint = .idle := by
  have pushing := invariant.ring.pushing
  have inside : ∀ position, slotOf capacity position < state.ring.buffer.length := by
    intro position
    rw [invariant.ring.slots]
    exact Nat.mod_lt _ (Nat.succ_pos capacity)
  cases point : state.ring.pushPoint with
  | idle => exact ⟨state, .refl, point⟩
  | loadedTail item tail =>
      simp only [PushPointHolds, point] at pushing
      have lag := invariant.ring.headSeen
      have stores : state.ring.headStores.length = state.ring.popped.length + 1 := by
        rw [invariant.ring.heads, slot_history_length]
      have loaded : state.ring.headStores[state.ring.headStores.length - 1]? =
          some state.ring.head := by
        apply newest_stored
        apply List.ne_nil_of_length_pos
        omega
      by_cases isFull : state.ring.next tail = state.ring.head
      · exact ⟨_, .single (.pushRefused state _
          (.findFull state.ring item tail _ _ point (by omega) loaded isFull)), rfl⟩
      · let found := { state with
          ring := { state.ring with
            pushPoint := .room item tail
            headSeen := state.ring.headStores.length - 1 } }
        have foundRoom : PipelineStep state found := .pushContinues state _
          (.findRoom state.ring item tail _ _ point (by omega) loaded isFull)
        have slot : tail < found.ring.buffer.length := pushing ▸ inside _
        obtain ⟨next, run, idle⟩ := room_push_ends found item tail rfl slot
        exact ⟨next, .head foundRoom run, idle⟩
  | room item tail =>
      simp only [PushPointHolds, point] at pushing
      exact room_push_ends state item tail point (pushing.1 ▸ inside _)
  | written item tail =>
      exact ⟨_, .single (.pushAccepted state _ (.storeTail state.ring item tail point)), rfl⟩

/-- A pop that has found its item hands it over. -/
theorem filled_pop_ends (state : PipelineState) (head : Nat) (item : MarketEvent)
    (atPoint : state.consumer = .popping) (filled : state.ring.popPoint = .filled head)
    (stored : state.ring.buffer[head]? = some item) :
    ∃ next, Relation.ReflTransGen PipelineStep state next ∧ next.ring.popPoint = .idle ∧
      next.ring.pushPoint = state.ring.pushPoint := by
  let copied := { state with ring := { state.ring with popPoint := .read head item } }
  have read : PipelineStep state copied :=
    .popContinues state _ atPoint (.read state.ring head item filled stored)
  have delivered : PipelineStep copied _ := .popDelivered copied item _ atPoint
    (.storeHead copied.ring head item rfl)
  exact ⟨_, .tail (.single read) delivered, rfl, rfl⟩

/-- A pop in progress comes to its end. -/
theorem pop_ends (invariant : PipelineInvariant config capacity events state)
    (loop : LoopInvariant state) (inside : PopInside state) :
    ∃ next, Relation.ReflTransGen PipelineStep state next ∧ next.ring.popPoint = .idle ∧
      next.ring.pushPoint = state.ring.pushPoint := by
  have popping := invariant.ring.popping
  have stored : ∀ position, ∃ item,
      state.ring.buffer[slotOf capacity position]? = some item := by
    intro position
    have slot : slotOf capacity position < state.ring.buffer.length := by
      rw [invariant.ring.slots]
      exact Nat.mod_lt _ (Nat.succ_pos capacity)
    exact ⟨_, List.getElem?_eq_getElem slot⟩
  cases point : state.ring.popPoint with
  | idle => exact ⟨state, .refl, point, rfl⟩
  | loadedHead head =>
      have atPoint := inside (by simp [point])
      simp only [PopPointHolds, point] at popping
      have loaded := newest_tail loop
      have view := loop.view
      by_cases isEmpty : head = state.ring.tail
      · exact ⟨_, .single (.popRefused state _ atPoint
          (.findEmpty state.ring head _ _ point (by omega) loaded isEmpty)), rfl, rfl⟩
      · let found := { state with
          ring := { newestView state.ring with popPoint := .filled head } }
        have foundItem : PipelineStep state found := .popContinues state _ atPoint
          (.findItem state.ring head _ _ point (Nat.le_sub_one_of_lt view) loaded isEmpty)
        obtain ⟨item, itemStored⟩ := stored state.ring.popped.length
        rw [← popping] at itemStored
        obtain ⟨next, run, idle, samePush⟩ :=
          filled_pop_ends found head item atPoint rfl itemStored
        exact ⟨next, .head foundItem run, idle, samePush⟩
  | filled head =>
      have atPoint := inside (by simp [point])
      simp only [PopPointHolds, point] at popping
      obtain ⟨item, itemStored⟩ := stored state.ring.popped.length
      rw [← popping.1] at itemStored
      exact filled_pop_ends state head item atPoint point itemStored
  | read head item =>
      have atPoint := inside (by simp [point])
      exact ⟨_, .single (.popDelivered state item _ atPoint
        (.storeHead state.ring head item point)), rfl, rfl⟩

/-- A call of `empty` in progress comes to its end. -/
theorem empty_ends (loop : LoopInvariant state) :
    ∃ next, Relation.ReflTransGen PipelineStep state next ∧
      (∀ head, next.consumer ≠ .emptyLoadedHead head) ∧
      next.ring.popPoint = state.ring.popPoint ∧ next.ring.pushPoint = state.ring.pushPoint := by
  by_cases testing : ∃ head, state.consumer = .emptyLoadedHead head
  · obtain ⟨head, atPoint⟩ := testing
    have observed := observe_newest loop
    have loaded := newest_tail loop
    by_cases same : head = state.ring.tail
    · exact ⟨_, .single (.emptyTrue state head _ _ _ atPoint observed loaded same),
        by simp, rfl, rfl⟩
    · exact ⟨_, .single (.emptyFalse state head _ _ _ atPoint observed loaded same),
        by simp, rfl, rfl⟩
  · exact ⟨state, .refl, not_exists.mp testing, rfl, rfl⟩

end Settling

section Completion

variable {config : ReplayConfig} {capacity : Nat} {events : List MarketEvent}

/-- What every state reached from the start satisfies. -/
structure Reached (config : ReplayConfig) (capacity : Nat) (events : List MarketEvent)
    (state : PipelineState) : Prop where
  invariant : PipelineInvariant config capacity events state
  loop : LoopInvariant state
  inside : PopInside state

theorem reached_run (bounded : capacity ≤ 2 ^ 64 - 2)
    (reached : Reached config capacity events state)
    (run : Relation.ReflTransGen PipelineStep state next) :
    Reached config capacity events next where
  invariant := invariant_reached (PipelineInvariant config capacity events)
    (pipeline_step_invariant bounded) reached.invariant run
  loop := invariant_reached LoopInvariant pipeline_step_loop reached.loop run
  inside := invariant_reached PopInside pipeline_step_inside reached.inside run

theorem work_bounded (reached : Reached config capacity events state) :
    work state ≤ 10 * events.length + 9 := by
  have live := live_state reached.invariant reached.loop
  exact work_le live ((processed_le_popped reached.invariant).trans live.pops)

/-- Every call in progress comes to its end. -/
theorem comes_between (bounded : capacity ≤ 2 ^ 64 - 2)
    (reached : Reached config capacity events state) :
    ∃ next, Relation.ReflTransGen PipelineStep state next ∧ BetweenOperations next := by
  obtain ⟨pushed, pushRun, pushIdle⟩ := push_ends reached.invariant
  have reachedPushed := reached_run bounded reached pushRun
  obtain ⟨popped, popRun, popIdle, samePush⟩ :=
    pop_ends reachedPushed.invariant reachedPushed.loop reachedPushed.inside
  have reachedPopped := reached_run bounded reachedPushed popRun
  obtain ⟨next, emptyRun, notTesting, samePop, stillPush⟩ := empty_ends reachedPopped.loop
  exact ⟨next, pushRun.trans (popRun.trans emptyRun),
    { push := stillPush.trans (samePush.trans pushIdle)
      pop := samePop.trans popIdle
      empty := notTesting }⟩

/-- Both threads returned. -/
def Finished (state : PipelineState) : Prop :=
  state.producerExited ∧ state.consumer = .exited

/-- The consumer leaves only behind the last event, so the producer is left with
its flag. -/
theorem exited_finishes (reached : Reached config capacity events state)
    (between : BetweenOperations state) (exited : state.consumer = .exited) :
    ∃ next, Relation.ReflTransGen PipelineStep state next ∧ Finished next := by
  have holds := reached.invariant.consumer
  simp only [ConsumerHolds, exited] at holds
  cases flag : state.doneVersion with
  | none =>
      have stepped : PipelineStep state _ := .storeDone state holds.2.1 between.push flag
      exact ⟨_, .single stepped, rfl, exited⟩
  | some version =>
      have isSet : state.producerExited := by simp [LoopState.producerExited, flag]
      exact ⟨state, .refl, isSet, exited⟩

theorem reached_advances (bounded : capacity ≤ 2 ^ 64 - 2) (state : PipelineState)
    (reached : Reached config capacity events state) :
    (∃ last, Relation.ReflTransGen PipelineStep state last ∧ Finished last) ∨
      ∃ next, Relation.ReflTransGen PipelineStep state next ∧ work state < work next := by
  obtain ⟨settled, run, between⟩ := comes_between bounded reached
  have reachedSettled := reached_run bounded reached run
  by_cases running : settled.consumer = .exited
  · obtain ⟨last, later, finished⟩ := exited_finishes reachedSettled between running
    exact .inl ⟨last, run.trans later, finished⟩
  · have live := live_state reachedSettled.invariant reachedSettled.loop
    obtain ⟨next, later, worked⟩ := advance_works bounded reachedSettled.invariant
      reachedSettled.loop running (live.advances between running)
    refine .inr ⟨next, run.trans later, ?_⟩
    rcases run_works bounded reached.invariant reached.loop run with earlier | ⟨same, _⟩
    · exact earlier.trans worked
    · exact same ▸ worked

theorem start_reached {engine : ReplayEngine} {events : List MarketEvent}
    (positive : 1 ≤ engine.config.ringCapacity)
    (bounded : engine.config.ringCapacity + 1 < 2 ^ 64) {ring : SpscRingBuffer MarketEvent}
    (constructed : construct engine.config.ringCapacity = some ring) :
    Reached engine.config engine.config.ringCapacity events (startPipeline engine ring events) where
  invariant := start_pipeline_invariant positive (by omega) ring constructed
  loop := start_loop_invariant engine events positive (by omega) ring constructed
  inside := fun popping => absurd rfl popping

theorem state_finishes {engine : ReplayEngine} {events : List MarketEvent}
    (positive : 1 ≤ engine.config.ringCapacity)
    (bounded : engine.config.ringCapacity + 1 < 2 ^ 64) {ring : SpscRingBuffer MarketEvent}
    (constructed : construct engine.config.ringCapacity = some ring)
    (reached : Relation.ReflTransGen PipelineStep (startPipeline engine ring events) state) :
    ∃ last, Relation.ReflTransGen PipelineStep state last ∧ Finished last := by
  have inRange : engine.config.ringCapacity ≤ 2 ^ 64 - 2 := by omega
  apply reaches_final (Reached engine.config engine.config.ringCapacity events) Finished work
    (10 * events.length + 9)
  · exact fun _ => work_bounded
  · exact fun _ _ => reached_run inRange
  · exact reached_advances inRange
  · exact reached_run inRange (start_reached positive bounded constructed) reached

/-- The consumer leaves with every event handled. -/
theorem exited_handled (reached : Reached config capacity events state)
    (exited : state.consumer = .exited) :
    state.ring.popped = events ∧ Handled config events state.body := by
  have holds := reached.invariant.consumer
  simp only [ConsumerHolds, exited] at holds
  rcases holds with ⟨handled, finished, everything⟩
  have whole := reached.invariant.split
  rw [finished, List.append_nil, ← everything] at whole
  rw [whole] at handled
  exact ⟨whole, handled⟩

/-- Every interleaving of max mode, wherever it has come, can still end with both
threads returned, and whenever they have, each event was handled once and in order. -/
theorem every_interleaving_can_finish (engine : ReplayEngine) (events : List MarketEvent)
    (positive : 1 ≤ engine.config.ringCapacity)
    (bounded : engine.config.ringCapacity + 1 < 2 ^ 64) :
    ∃ ring, construct engine.config.ringCapacity = some ring ∧
      ∀ state, Relation.ReflTransGen PipelineStep (startPipeline engine ring events) state →
        (∃ last, Relation.ReflTransGen PipelineStep state last ∧ Finished last) ∧
          (Finished state →
            state.ring.popped = events ∧ Handled engine.config events state.body) := by
  refine ⟨_, construct_some positive, ?_⟩
  intro state reached
  have started : Reached engine.config engine.config.ringCapacity events _ :=
    start_reached positive bounded (construct_some positive)
  have atState := reached_run (by omega) started reached
  exact ⟨state_finishes positive bounded (construct_some positive) reached,
    fun finished => exited_handled atState finished.2⟩

/-- A ring of one slot under two events. -/
theorem one_slot_can_finish :
    let engine : ReplayEngine := { config := { ringCapacity := 1 } }
    let entered : MarketEvent := { orderId := 1, price := 10000, quantity := 10 }
    ∃ ring, construct 1 = some ring ∧
      ∃ last, Relation.ReflTransGen PipelineStep
          (startPipeline engine ring [entered, entered]) last ∧
        Finished last ∧ last.body.eventsProcessed = 2 := by
  intro engine entered
  rcases every_interleaving_can_finish engine [entered, entered] (by decide) (by decide) with
    ⟨ring, constructed, finishes⟩
  rcases (finishes _ .refl).1 with ⟨last, run, finished⟩
  exact ⟨ring, constructed, last, run, finished, ((finishes last run).2 finished).2.processed⟩

end Completion

end TickForge.PipelineCompletion
