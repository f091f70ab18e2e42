import TickForge.MutexHandoff
import TickForge.ReplayAgreement

/-!
# The handoff through the ring

The loops of the benchmark are those of max mode around another body, so a run
of one is, up to the bodies, a run of the other. The benchmark's consumer
receives all events in order at every capacity with its slots, and both handoffs
end with the same tally.
-/

namespace TickForge.SpscHandoff

open StepRuns MarketEventModel RingBufferModel RingInterleaving ReplayEngineModel
open ReplayAgreement QueueHandoffModel MutexHandoff

set_option autoImplicit false

section Loops

variable {Body Other : Type}

/-- The same control state around another body. -/
def withBody (state : LoopState Body) (body : Other) : LoopState Other where
  ring := state.ring
  toPush := state.toPush
  doneVersion := state.doneVersion
  consumer := state.consumer
  doneSeen := state.doneSeen
  body := body

/-- The loops never look at what the body works on. -/
theorem loop_step_with_body {Handles : Body → MarketEvent → Body → Prop}
    {OtherHandles : Other → MarketEvent → Other → Prop}
    (serves : ∀ body event, ∃ after, OtherHandles body event after)
    {state next : LoopState Body} (stepped : LoopStep Handles state next) (body : Other) :
    ∃ after, LoopStep OtherHandles (withBody state body) (withBody next after) := by
  cases stepped with
  | pushBegins event rest ring current stepped =>
      exact ⟨body, .pushBegins _ event rest ring current stepped⟩
  | pushContinues ring stepped => exact ⟨body, .pushContinues _ ring stepped⟩
  | pushRefused ring stepped => exact ⟨body, .pushRefused _ ring stepped⟩
  | pushAccepted ring stepped => exact ⟨body, .pushAccepted _ ring stepped⟩
  | storeDone finished idle running => exact ⟨body, .storeDone _ finished idle running⟩
  | loadNotDone atPoint unseen => exact ⟨body, .loadNotDone _ atPoint unseen⟩
  | loadDone version latest ring atPoint stored visible observed =>
      exact ⟨body, .loadDone _ version latest ring atPoint stored visible observed⟩
  | emptyLoadHead atPoint => exact ⟨body, .emptyLoadHead _ atPoint⟩
  | emptyFalse head version tail ring atPoint observed loaded differs =>
      exact ⟨body, .emptyFalse _ head version tail ring atPoint observed loaded differs⟩
  | emptyTrue head version tail ring atPoint observed loaded same =>
      exact ⟨body, .emptyTrue _ head version tail ring atPoint observed loaded same⟩
  | popBegins ring atPoint stepped => exact ⟨body, .popBegins _ ring atPoint stepped⟩
  | popContinues ring atPoint stepped => exact ⟨body, .popContinues _ ring atPoint stepped⟩
  | popRefused ring atPoint stepped => exact ⟨body, .popRefused _ ring atPoint stepped⟩
  | popDelivered queuedEvent ring atPoint stepped =>
      exact ⟨body, .popDelivered _ queuedEvent ring atPoint stepped⟩
  | handle queuedEvent reached atPoint handled =>
      obtain ⟨after, served⟩ := serves body queuedEvent
      exact ⟨after, .handle _ queuedEvent after atPoint served⟩

/-- What holds of the control state in every run of max mode holds in every run
of the loops, whatever their body. -/
theorem loops_reach_threads {Handles : Body → MarketEvent → Body → Prop} (engine : ReplayEngine)
    (ring : SpscRingBuffer MarketEvent) (events : List MarketEvent) (body : Body)
    {state : LoopState Body}
    (reached : Relation.ReflTransGen (LoopStep Handles) (startLoops ring events body) state) :
    ∃ replay, Relation.ReflTransGen PipelineStep (startPipeline engine ring events)
      (withBody state replay) := by
  induction reached with
  | refl => exact ⟨beginReplay engine, .refl⟩
  | tail _ stepped ih =>
      obtain ⟨replay, run⟩ := ih
      have serves : ∀ replay event, ∃ after, Replays replay event after :=
        fun replay event => ⟨_, 0, rfl⟩
      obtain ⟨after, lifted⟩ := loop_step_with_body serves stepped replay
      exact ⟨after, run.tail lifted⟩

end Loops

section Tally

variable {events : List MarketEvent} {state next : LoopState HandoffTally}

/-- The tally follows the pops; between a pop and its tally one event is out. -/
def TalliesPopped (events : List MarketEvent) (state : LoopState HandoffTally) : Prop :=
  match state.consumer with
  | .handling queuedEvent => ∃ earlier, state.ring.popped = earlier ++ [queuedEvent] ∧
      state.body = earlier.foldl (tallyEvent events) {}
  | _ => state.body = state.ring.popped.foldl (tallyEvent events) {}

theorem start_tallies (ring : SpscRingBuffer MarketEvent) :
    TalliesPopped events (startLoops ring events {}) := rfl

theorem producer_keeps_popped {ring after : RingState MarketEvent}
    {label : ProducerLabel MarketEvent} (stepped : ProducerStep ring label after) :
    after.popped = ring.popped := by
  cases stepped <;> rfl

theorem consumer_keeps_popped {ring after : RingState MarketEvent}
    {label : ConsumerLabel MarketEvent} (stepped : ConsumerStep ring label after)
    (undelivered : ∀ event, label ≠ .delivered event) : after.popped = ring.popped := by
  cases stepped with
  | storeHead head item atPoint => exact absurd rfl (undelivered item)
  | _ => rfl

/-- A step that neither pops nor tallies. -/
theorem tallies_popped_kept (holds : TalliesPopped events state) (ring : RingState MarketEvent)
    (kept : ring.popped = state.ring.popped) (sameBody : next.body = state.body)
    (sameRing : next.ring = ring)
    (points : next.consumer = state.consumer ∨
      ((∀ event, state.consumer ≠ .handling event) ∧ ∀ event, next.consumer ≠ .handling event)) :
    TalliesPopped events next := by
  unfold TalliesPopped at holds ⊢
  rw [sameBody, sameRing, kept]
  rcases points with same | ⟨before, after⟩
  · rw [same]
    exact holds
  · cases point : next.consumer with
    | handling event => exact absurd point (after event)
    | _ =>
        cases earlier : state.consumer with
        | handling event => exact absurd earlier (before event)
        | _ => simpa only [earlier] using holds

theorem spsc_step_tallies (holds : TalliesPopped events state)
    (stepped : SpscStep events state next) : TalliesPopped events next := by
  cases stepped with
  | pushBegins event rest ring current stepped | pushContinues ring stepped
  | pushRefused ring stepped | pushAccepted ring stepped =>
      exact tallies_popped_kept holds ring (producer_keeps_popped stepped) rfl rfl (.inl rfl)
  | storeDone finished idle running =>
      exact tallies_popped_kept holds state.ring rfl rfl rfl (.inl rfl)
  | loadNotDone atPoint unseen =>
      exact tallies_popped_kept holds state.ring rfl rfl rfl (.inr (by simp [atPoint]))
  | loadDone version latest ring atPoint stored visible observed =>
      exact tallies_popped_kept holds ring (consumer_keeps_popped observed (by simp)) rfl rfl
        (.inr (by simp [atPoint]))
  | emptyLoadHead atPoint =>
      exact tallies_popped_kept holds state.ring rfl rfl rfl (.inr (by simp [atPoint]))
  | emptyFalse head version tail ring atPoint observed loaded differs
  | emptyTrue head version tail ring atPoint observed loaded same =>
      exact tallies_popped_kept holds ring (consumer_keeps_popped observed (by simp)) rfl rfl
        (.inr (by simp [atPoint]))
  | popBegins ring atPoint stepped | popContinues ring atPoint stepped =>
      exact tallies_popped_kept holds ring (consumer_keeps_popped stepped (by simp)) rfl rfl
        (.inl rfl)
  | popRefused ring atPoint stepped =>
      exact tallies_popped_kept holds ring (consumer_keeps_popped stepped (by simp)) rfl rfl
        (.inr (by simp [atPoint]))
  | popDelivered queuedEvent ring atPoint stepped =>
      simp only [TalliesPopped, atPoint] at holds
      cases stepped with
      | storeHead head item reading => exact ⟨state.ring.popped, rfl, holds⟩
  | handle queuedEvent body atPoint handled =>
      simp only [TalliesPopped, atPoint] at holds
      obtain ⟨earlier, popped, tallied⟩ := holds
      have after : body = tallyEvent events state.body queuedEvent := handled
      simp only [TalliesPopped, popped, List.foldl_append, List.foldl_cons, List.foldl_nil, after,
        tallied]

/-- Received in order, the events give their own tally. -/
theorem tally_of_delivered (received : List MarketEvent) (first : received <+: events) :
    received.foldl (tallyEvent events) {} = tallyOf received := by
  induction received using List.reverseRecOn with
  | nil => rfl
  | append_singleton earlier event ih =>
      have shorter : earlier <+: events := (List.prefix_append earlier [event]).trans first
      obtain ⟨rest, split⟩ := first
      rw [List.foldl_append, ih shorter]
      apply tally_of_received earlier rest event
      rw [← split, List.append_assoc]
      rfl

end Tally

section Handoff

/-- In every reachable state of the ring handoff no missing slot was touched and
what is tallied are the first events in order; once both threads have returned the
check passes, with the tally any finished handoff behind the mutex has. -/
theorem spsc_handoff_delivers (capacity : Nat) (positive : 1 ≤ capacity)
    (bounded : capacity ≤ 2 ^ 64 - 2) (ring : SpscRingBuffer MarketEvent)
    (constructed : construct capacity = some ring) (events : List MarketEvent)
    (state : LoopState HandoffTally)
    (reached : Relation.ReflTransGen (SpscStep events) (startLoops ring events {}) state) :
    state.ring.faulted = false ∧
      state.body = tallyOf (events.take state.body.consumed) ∧
      (state.producerExited → state.consumer = .exited →
        validated events state.body = true ∧ state.body = tallyOf events ∧
          ∀ locked : MutexHandoff,
            Relation.ReflTransGen (MutexMove events) (startMutexHandoff events) locked →
              locked.producer = .exited → locked.consumer = .exited →
                locked.tally = state.body) := by
  let engine : ReplayEngine := { config := { ringCapacity := capacity } }
  obtain ⟨replay, run⟩ := loops_reach_threads engine ring events _ reached
  have invariant := invariant_reached (PipelineInvariant engine.config capacity events)
    (pipeline_step_invariant bounded)
    (start_pipeline_invariant positive bounded ring constructed) run
  have tallies : TalliesPopped events state :=
    invariant_reached (TalliesPopped events) (fun _ _ => spsc_step_tallies) (start_tallies ring) reached
  have ordered : state.ring.popped <+: events := by
    rw [← invariant.split]
    exact invariant.ring.delivered.trans (List.prefix_append _ _)
  have received : ∃ seen, seen <+: events ∧ state.body = tallyOf seen := by
    unfold TalliesPopped at tallies
    cases point : state.consumer with
    | handling queuedEvent =>
        simp only [point] at tallies
        obtain ⟨earlier, popped, tallied⟩ := tallies
        have first : earlier <+: events := by
          rw [popped] at ordered
          exact (List.prefix_append earlier [queuedEvent]).trans ordered
        exact ⟨earlier, first, tallied.trans (tally_of_delivered earlier first)⟩
    | _ =>
        simp only [point] at tallies
        exact ⟨_, ordered, tallies.trans (tally_of_delivered _ ordered)⟩
  refine ⟨invariant.ring.noFault, ?_, ?_⟩
  · obtain ⟨seen, first, tallied⟩ := received
    rw [tallied]
    exact congrArg tallyOf (List.prefix_iff_eq_take.mp first)
  · intro _ exited
    have holds := invariant.consumer
    have leaving : (withBody state replay).consumer = .exited := exited
    simp only [ReplayAgreement.ConsumerHolds, leaving] at holds
    obtain ⟨_, finished, everything⟩ := holds
    have whole := invariant.split
    rw [finished, List.append_nil, ← everything] at whole
    have tallied : state.body = tallyOf events := by
      simp only [TalliesPopped, exited] at tallies
      rw [tallies, tally_of_delivered _ ordered]
      exact congrArg tallyOf whole
    refine ⟨tallied ▸ tally_of_validated events, tallied, ?_⟩
    intro locked lockedRun _ left
    rw [tallied]
    exact (exited_tally (reached_invariant lockedRun) left).2

/-- One event through a ring of one slot. -/
theorem one_slot_handoff_delivers :
    let entered : MarketEvent := { orderId := 1, price := 10000, quantity := 10 }
    ∃ ring, construct 1 = some ring ∧
      ∀ state, Relation.ReflTransGen (SpscStep [entered]) (startLoops ring [entered] {}) state →
        state.ring.faulted = false ∧
          (state.producerExited → state.consumer = .exited →
            state.body = tallyOf [entered]) := by
  intro entered
  refine ⟨_, construct_some (le_refl 1), ?_⟩
  intro state reached
  have delivered := spsc_handoff_delivers 1 (le_refl 1) (by decide) _ (construct_some (le_refl 1))
    [entered] state reached
  exact ⟨delivered.1, fun returned exited => (delivered.2.2 returned exited).2.1⟩

end Handoff

section SingleThread

/-- Each event is pushed and popped again at once, so the checksum of the
single-threaded benchmark counts every order id. -/
theorem ring_benchmark_step_counts {capacity : Nat} (positive : 1 ≤ capacity)
    (bounded : capacity + 1 < 2 ^ 64) {state : RingBenchmark} (drained : Drained capacity state.ring)
    (event : MarketEvent) :
    ∃ next, ringBenchmarkStep state event = some next ∧ Drained capacity next.ring ∧
      next.out = event ∧
      next.checksum = state.checksum + BitVec.ofNat 64 event.orderId := by
  obtain ⟨pushed, popped, pushes, pops, still⟩ := push_pop_drained positive bounded drained event
  refine ⟨{ ring := popped, out := event, checksum := _ }, ?_, still, rfl, rfl⟩
  simp only [ringBenchmarkStep, pushes, pops, Option.bind_some, Option.getD_some]

theorem ring_benchmark_counts {capacity : Nat} (positive : 1 ≤ capacity)
    (bounded : capacity + 1 < 2 ^ 64) (events : List MarketEvent) (state : RingBenchmark)
    (drained : Drained capacity state.ring) :
    ∃ finished, events.foldlM ringBenchmarkStep state = some finished ∧
      Drained capacity finished.ring ∧
      finished.checksum =
        state.checksum + (events.map fun event => BitVec.ofNat 64 event.orderId).sum := by
  induction events generalizing state with
  | nil => exact ⟨state, rfl, drained, by simp⟩
  | cons event rest ih =>
      obtain ⟨next, stepped, still, _, counted⟩ :=
        ring_benchmark_step_counts positive bounded drained event
      obtain ⟨finished, ran, empty, total⟩ := ih next still
      refine ⟨finished, ?_, empty, ?_⟩
      · rw [List.foldlM_cons, stepped]
        exact ran
      · rw [total, counted, List.map_cons, List.sum_cons, add_assoc]

/-- At every capacity with its slots no push or pop of the benchmark fails. -/
theorem ring_benchmark_checksum (capacity : Nat) (positive : 1 ≤ capacity)
    (bounded : capacity + 1 < 2 ^ 64) (events : List MarketEvent) :
    ∃ finished, runRingBufferBenchmark capacity events = some finished ∧
      Drained capacity finished.ring ∧
      finished.checksum = (events.map fun event => BitVec.ofNat 64 event.orderId).sum := by
  obtain ⟨finished, ran, empty, total⟩ :=
    ring_benchmark_counts positive bounded events { ring := _ } (construct_drained bounded)
  refine ⟨finished, ?_, empty, by simpa using total⟩
  rw [runRingBufferBenchmark, construct_some positive, Option.bind_some]
  exact ran

end SingleThread

end TickForge.SpscHandoff
