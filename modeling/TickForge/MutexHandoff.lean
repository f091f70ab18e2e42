import TickForge.QueueHandoffModel
import TickForge.StepRuns

/-!
# The handoff behind a mutex

However the two threads interleave and however often the wait returns without a
notification, the consumer receives the events in order and none is lost. No
notification is missed: a waiting consumer with something to do is about to be
notified, so some thread can always go on, and the steps of a run are bounded by
the events and the spurious wakeups.
-/

namespace TickForge.MutexHandoff

open StepRuns MarketEventModel QueueHandoffModel

set_option autoImplicit false

variable {events : List MarketEvent} {state next : MutexHandoff}

section Tally

/-- The tally of a consumer that received these events in order. -/
def tallyOf (received : List MarketEvent) : HandoffTally where
  consumed := received.length
  checksum := (received.map checksumEvent).sum

theorem tally_of_received (received rest : List MarketEvent) (event : MarketEvent)
    (split : received ++ event :: rest = events) :
    tallyEvent events (tallyOf received) event = tallyOf (received ++ [event]) := by
  have expected : events[received.length]? = some event := by
    rw [← split, List.getElem?_append_right (le_refl _), Nat.sub_self]
    rfl
  have same : sameEvent event event = true := (same_event_iff event event).mpr rfl
  simp [tallyEvent, tallyOf, expected, same]

/-- A tally of all events passes the check. -/
theorem tally_of_validated (events : List MarketEvent) : validated events (tallyOf events) = true := by
  simp [validated, tallyOf]

end Tally

section Invariant

/-- The event the consumer holds outside the queue. -/
@[grind] def inHand : WaiterPoint → List MarketEvent
  | .releasing (.tally event) => [event]
  | .tallying event => [event]
  | _ => []

/-- The points at which the consumer holds the lock. -/
@[grind] def scopeOpen : WaiterPoint → Bool
  | .testing => true
  | .taking => true
  | .releasing _ => true
  | _ => false

/-- The lock goes by the program points, the flag by what is left to push, and a
consumer that waits with something to do has a notification on its way. -/
structure HandoffInvariant (events : List MarketEvent) (state : MutexHandoff) : Prop where
  producerOwns : state.owner = some .producer ↔
    state.producer = .locked ∨ state.producer = .written
  consumerOwns : state.owner = some .consumer ↔ scopeOpen state.consumer = true
  pushed : state.producerDone = true → state.toPush = []
  running : state.producer = .locking ∨ state.producer = .locked → state.producerDone = false
  exited : state.producer = .exited → state.producerDone = true
  notified : state.consumer = .waiting → state.ready →
    state.producer = .written ∨ state.producer = .notifying
  taking : state.consumer = .taking → state.ready
  stopping : state.consumer = .releasing .stop ∨ state.consumer = .exited →
    state.producerDone = true ∧ state.queue = []
  noRetry : state.consumer ≠ .releasing .again
  handed : ∃ received, received ++ inHand state.consumer ++ state.queue ++ state.toPush = events ∧
    state.tally = tallyOf received

theorem start_handoff_invariant (events : List MarketEvent) :
    HandoffInvariant events (startMutexHandoff events) where
  producerOwns := by simp [startMutexHandoff]
  consumerOwns := by simp [startMutexHandoff, scopeOpen]
  pushed := by simp [startMutexHandoff]
  running := fun _ => rfl
  exited := by simp [startMutexHandoff]
  notified := by simp [startMutexHandoff]
  taking := by simp [startMutexHandoff]
  stopping := by simp [startMutexHandoff]
  noRetry := by simp [startMutexHandoff]
  handed := ⟨[], rfl, rfl⟩

/-- A free lock finds both threads outside their scopes. -/
theorem outside_of_free (invariant : HandoffInvariant events state) (free : state.owner = none) :
    scopeOpen state.consumer = false ∧
      ¬(state.producer = .locked ∨ state.producer = .written) := by
  constructor
  · rw [← Bool.not_eq_true, ← invariant.consumerOwns, free]
    simp
  · rw [← invariant.producerOwns, free]
    simp

/-- Mutual exclusion: while the producer is inside its scope the consumer is not. -/
theorem consumer_outside (invariant : HandoffInvariant events state)
    (inside : state.producer = .locked ∨ state.producer = .written) :
    scopeOpen state.consumer = false := by
  have owns := invariant.producerOwns.mpr inside
  rw [← Bool.not_eq_true, ← invariant.consumerOwns, owns]
  simp

theorem producer_outside (invariant : HandoffInvariant events state)
    (inside : scopeOpen state.consumer = true) :
    ¬(state.producer = .locked ∨ state.producer = .written) := by
  have owns := invariant.consumerOwns.mpr inside
  rw [← invariant.producerOwns, owns]
  simp

theorem producer_locks_invariant (invariant : HandoffInvariant events state)
    (atPoint : state.producer = .locking) (free : state.owner = none) :
    HandoffInvariant events { state with owner := some .producer, producer := .locked } := by
  have outside := (outside_of_free invariant free).1
  have unset := invariant.running (.inl atPoint)
  have notified := invariant.notified
  exact { invariant with
    producerOwns := by simp
    consumerOwns := by simp [outside]
    running := fun _ => unset
    exited := by simp
    notified := by
      intro waits ready
      have stored := notified waits ready
      rw [atPoint] at stored
      simp at stored }

/-- What a scope of the producer writes reaches a waiting consumer by the
notification behind it. -/
theorem producer_writes_invariant (invariant : HandoffInvariant events state)
    (atPoint : state.producer = .locked) (queue : List MarketEvent) (toPush : List MarketEvent)
    (producerDone : Bool) (kept : state.queue ++ state.toPush = queue ++ toPush)
    (pushed : producerDone = true → toPush = []) :
    HandoffInvariant events
      { state with
        queue := queue
        toPush := toPush
        producerDone := producerDone
        producer := .written } := by
  have outside := consumer_outside invariant (.inl atPoint)
  have unset := invariant.running (.inr atPoint)
  have owns := invariant.producerOwns.mpr (.inl atPoint)
  have stopping := invariant.stopping
  obtain ⟨received, split, tally⟩ := invariant.handed
  exact { invariant with
    producerOwns := by simp [owns]
    pushed := pushed
    running := by simp
    exited := by simp
    notified := fun _ _ => .inl rfl
    taking := by
      intro taking
      rw [show state.consumer = .taking from taking] at outside
      cases outside
    stopping := by
      intro stopped
      have isSet := (stopping stopped).1
      rw [unset] at isSet
      cases isSet
    handed := by
      refine ⟨received, ?_, tally⟩
      rw [List.append_assoc, ← kept, ← List.append_assoc]
      exact split }

/-- Whatever the consumer does, the producer leaves its notification for the next
scope, or for good once the flag is set. -/
theorem notifies_invariant (invariant : HandoffInvariant events state)
    (atPoint : state.producer = .notifying) :
    HandoffInvariant events
      { state with
        producer := if state.producerDone then .exited else .locking
        consumer := if state.consumer = .waiting then .waking else state.consumer } := by
  have notOwned : state.owner ≠ some .producer := by
    rw [ne_eq, invariant.producerOwns, atPoint]
    simp
  have producerOwns : state.owner = some .producer ↔
      (if state.producerDone then ProducerPoint.exited else .locking) = .locked ∨
        (if state.producerDone then ProducerPoint.exited else .locking) = .written := by
    cases state.producerDone <;> simp [notOwned]
  have running : (if state.producerDone then ProducerPoint.exited else .locking) = .locking ∨
      (if state.producerDone then ProducerPoint.exited else .locking) = .locked →
        state.producerDone = false := by
    cases state.producerDone <;> simp
  have exited : (if state.producerDone then ProducerPoint.exited else .locking) = .exited →
      state.producerDone = true := by
    cases state.producerDone <;> simp
  by_cases waits : state.consumer = .waiting
  · have owned := invariant.consumerOwns
    obtain ⟨received, split, tally⟩ := invariant.handed
    rw [waits] at owned split
    rw [if_pos waits]
    exact { invariant with
      producerOwns := producerOwns
      consumerOwns := owned
      running := running
      exited := exited
      notified := by simp
      taking := by simp
      stopping := by simp
      noRetry := by simp
      handed := ⟨received, split, tally⟩ }
  · rw [if_neg waits]
    exact { invariant with
      producerOwns := producerOwns
      running := running
      exited := exited
      notified := fun still => absurd still waits }

theorem consumer_enters_invariant (invariant : HandoffInvariant events state)
    (atPoint : state.consumer = .locking ∨ state.consumer = .waking) (free : state.owner = none) :
    HandoffInvariant events { state with owner := some .consumer, consumer := .testing } := by
  have outside := (outside_of_free invariant free).2
  obtain ⟨received, split, tally⟩ := invariant.handed
  have emptyHanded : inHand state.consumer = [] := by
    rcases atPoint with point | point <;> rw [point] <;> rfl
  rw [emptyHanded] at split
  exact { invariant with
    producerOwns := by simpa using outside
    consumerOwns := by simp [scopeOpen]
    notified := by simp
    taking := by simp
    stopping := by simp
    noRetry := by simp
    handed := ⟨received, split, tally⟩ }

/-- A test that fails sees an unset flag, so what will make it pass is yet to be
written and notified. -/
theorem test_fails_invariant (invariant : HandoffInvariant events state)
    (atPoint : state.consumer = .testing) (notReady : ¬state.ready) :
    HandoffInvariant events { state with owner := none, consumer := .waiting } := by
  have inside : scopeOpen state.consumer = true := by
    rw [atPoint]
    rfl
  have outside := producer_outside invariant inside
  obtain ⟨received, split, tally⟩ := invariant.handed
  rw [atPoint] at split
  exact { invariant with
    producerOwns := by simpa using outside
    consumerOwns := by simp [scopeOpen]
    notified := fun _ ready => absurd ready notReady
    taking := by simp
    stopping := by simp
    noRetry := by simp
    handed := ⟨received, split, tally⟩ }

/-- A step inside the scope, to another point of it. -/
theorem inside_scope_invariant (invariant : HandoffInvariant events state)
    (inside : scopeOpen state.consumer = true) (queue : List MarketEvent) (point : WaiterPoint)
    (stays : scopeOpen point = true)
    (kept : inHand state.consumer ++ state.queue = inHand point ++ queue)
    (taking : point = .taking → state.producerDone = true ∨ queue ≠ [])
    (stopping : point = .releasing .stop → state.producerDone = true ∧ queue = [])
    (noRetry : point ≠ .releasing .again) :
    HandoffInvariant events { state with queue := queue, consumer := point } := by
  have owned := invariant.consumerOwns
  obtain ⟨received, split, tally⟩ := invariant.handed
  exact { invariant with
    consumerOwns := by rw [owned, inside, stays]
    notified := by
      intro waits
      rw [show point = .waiting from waits] at stays
      cases stays
    taking := taking
    stopping := by
      rintro (stops | exits)
      · exact stopping stops
      · rw [show point = .exited from exits] at stays
        cases stays
    noRetry := noRetry
    handed := by
      refine ⟨received, ?_, tally⟩
      rw [List.append_assoc received, kept, ← List.append_assoc] at split
      exact split }

theorem releases_invariant (invariant : HandoffInvariant events state) (after : AfterScope)
    (atPoint : state.consumer = .releasing after) :
    HandoffInvariant events { state with owner := none, consumer := after.point } := by
  have inside : scopeOpen state.consumer = true := by
    rw [atPoint]
    rfl
  have outside := producer_outside invariant inside
  have stopping := invariant.stopping
  have noRetry := invariant.noRetry
  obtain ⟨received, split, tally⟩ := invariant.handed
  rw [atPoint] at split stopping noRetry
  cases after with
  | tally event =>
      exact { invariant with
        producerOwns := by simpa using outside
        consumerOwns := by simp [scopeOpen, AfterScope.point]
        notified := by simp [AfterScope.point]
        taking := by simp [AfterScope.point]
        stopping := by simp [AfterScope.point]
        noRetry := by simp [AfterScope.point]
        handed := ⟨received, split, tally⟩ }
  | again => exact absurd rfl noRetry
  | stop =>
      exact { invariant with
        producerOwns := by simpa using outside
        consumerOwns := by simp [scopeOpen, AfterScope.point]
        notified := by simp [AfterScope.point]
        taking := by simp [AfterScope.point]
        stopping := fun _ => stopping (.inl rfl)
        noRetry := by simp [AfterScope.point]
        handed := ⟨received, split, tally⟩ }

theorem tallies_invariant (invariant : HandoffInvariant events state) (event : MarketEvent)
    (atPoint : state.consumer = .tallying event) :
    HandoffInvariant events
      { state with tally := tallyEvent events state.tally event, consumer := .locking } := by
  have owned := invariant.consumerOwns
  obtain ⟨received, split, tally⟩ := invariant.handed
  rw [atPoint] at owned split
  have expected : received ++ event :: (state.queue ++ state.toPush) = events := by
    rw [← split]
    simp [inHand]
  exact { invariant with
    consumerOwns := owned
    notified := by simp
    taking := by simp
    stopping := by simp
    noRetry := by simp
    handed := by
      refine ⟨received ++ [event], ?_, ?_⟩
      · rw [← split]
        simp [inHand]
      · rw [tally, tally_of_received received _ event expected] }

theorem mutex_step_invariant (invariant : HandoffInvariant events state)
    (stepped : MutexStep events state next) : HandoffInvariant events next := by
  cases stepped with
  | producerLocks atPoint free => exact producer_locks_invariant invariant atPoint free
  | pushes event rest atPoint current =>
      have unset := invariant.running (.inr atPoint)
      apply producer_writes_invariant invariant atPoint
      · rw [current, List.append_assoc]
        rfl
      · intro isSet
        rw [unset] at isSet
        cases isSet
  | setsDone atPoint finished =>
      exact producer_writes_invariant invariant atPoint _ _ true rfl fun _ => finished
  | producerUnlocks atPoint =>
      have outside := consumer_outside invariant (.inr atPoint)
      exact { invariant with
        producerOwns := by simp
        consumerOwns := by simp [outside]
        running := by simp
        exited := by simp
        notified := fun _ _ => .inr rfl }
  | notifies atPoint => exact notifies_invariant invariant atPoint
  | consumerLocks atPoint free => exact consumer_enters_invariant invariant (.inl atPoint) free
  | relocks atPoint free => exact consumer_enters_invariant invariant (.inr atPoint) free
  | testPasses atPoint ready =>
      refine inside_scope_invariant invariant ?_ state.queue .taking rfl ?_ (fun _ => ready) ?_ ?_
      all_goals simp [atPoint, scopeOpen, inHand]
  | testFails atPoint notReady => exact test_fails_invariant invariant atPoint notReady
  | takes event rest atPoint queued =>
      apply inside_scope_invariant invariant
      all_goals simp [atPoint, queued, scopeOpen, inHand]
  | stops atPoint empty done =>
      apply inside_scope_invariant invariant
      all_goals simp [atPoint, empty, done, scopeOpen, inHand]
  | retries atPoint empty notDone =>
      -- The predicate held when the test passed and nothing was written since.
      rcases invariant.taking atPoint with done | queued
      · rw [done] at notDone
        cases notDone
      · exact absurd empty queued
  | releases after atPoint => exact releases_invariant invariant after atPoint
  | tallies event atPoint => exact tallies_invariant invariant event atPoint

theorem spurious_wakeup_invariant (invariant : HandoffInvariant events state)
    (woken : SpuriousWakeup state next) : HandoffInvariant events next := by
  cases woken with
  | wakes atPoint =>
      have owned := invariant.consumerOwns
      obtain ⟨received, split, tally⟩ := invariant.handed
      rw [atPoint] at owned split
      exact { invariant with
        consumerOwns := owned
        notified := by simp
        taking := by simp
        stopping := by simp
        noRetry := by simp
        handed := ⟨received, split, tally⟩ }

end Invariant

section Progress

/-- The scopes the producer still has to go through. -/
def scopesLeft (state : MutexHandoff) : Nat :=
  state.toPush.length + if state.producerDone then 0 else 1

/-- A notification is charged for the test it makes the consumer repeat. -/
def producerRank (state : MutexHandoff) : Nat :=
  match state.producer with
  | .locking => 6 * scopesLeft state
  | .locked => 6 * scopesLeft state - 1
  | .written => 6 * scopesLeft state + 4
  | .notifying => 6 * scopesLeft state + 3
  | .exited => 0

def waiterRank : WaiterPoint → Nat
  | .exited => 0
  | .releasing .stop => 1
  | .taking => 2
  | .waiting => 2
  | .testing => 3
  | .locking => 4
  | .waking => 4
  | .tallying _ => 5
  | .releasing .again => 5
  | .releasing (.tally _) => 6

/-- The steps that are left, up to those a spurious wakeup adds. -/
def stepsLeft (state : MutexHandoff) : Nat :=
  producerRank state + waiterRank state.consumer + 5 * (state.queue.length + state.toPush.length)

theorem steps_left_start (events : List MarketEvent) :
    stepsLeft (startMutexHandoff events) = 11 * events.length + 10 := by
  simp only [stepsLeft, startMutexHandoff, producerRank, scopesLeft, waiterRank, List.length_nil,
    Bool.false_eq_true, if_false]
  omega

theorem mutex_step_lowers (invariant : HandoffInvariant events state)
    (stepped : MutexStep events state next) : stepsLeft next < stepsLeft state := by
  cases stepped with
  | producerLocks atPoint free =>
      have unset := invariant.running (.inl atPoint)
      simp only [stepsLeft, producerRank, scopesLeft, atPoint, unset, Bool.false_eq_true, if_false]
      omega
  | pushes event rest atPoint current =>
      have unset := invariant.running (.inr atPoint)
      simp only [stepsLeft, producerRank, scopesLeft, atPoint, unset, current, List.length_append,
        List.length_cons, List.length_nil, Bool.false_eq_true, if_false]
      omega
  | setsDone atPoint finished =>
      have unset := invariant.running (.inr atPoint)
      simp [stepsLeft, producerRank, scopesLeft, atPoint, unset, finished]
  | producerUnlocks atPoint =>
      simp only [stepsLeft, producerRank, scopesLeft, atPoint]
      omega
  | notifies atPoint =>
      have woken : waiterRank (if state.consumer = .waiting then .waking else state.consumer) ≤
          waiterRank state.consumer + 2 := by
        split_ifs with waits
        · rw [waits]
          rfl
        · exact Nat.le_add_right _ 2
      cases flag : state.producerDone with
      | true =>
          have finished := invariant.pushed flag
          simp only [stepsLeft, producerRank, scopesLeft, atPoint, flag, finished, if_true]
          omega
      | false =>
          simp only [stepsLeft, producerRank, scopesLeft, atPoint, flag, Bool.false_eq_true,
            if_false]
          omega
  | consumerLocks atPoint free | testPasses atPoint ready | testFails atPoint notReady
  | relocks atPoint free | stops atPoint empty done | tallies event atPoint =>
      simp only [stepsLeft, producerRank, scopesLeft, waiterRank, atPoint]
      omega
  | takes event rest atPoint queued =>
      simp only [stepsLeft, producerRank, scopesLeft, waiterRank, atPoint, queued, List.length_cons]
      omega
  | retries atPoint empty notDone =>
      rcases invariant.taking atPoint with done | queued
      · rw [done] at notDone
        cases notDone
      · exact absurd empty queued
  | releases after atPoint =>
      have lower : waiterRank after.point < waiterRank (.releasing after) := by
        cases after <;> simp [AfterScope.point, waiterRank]
      simp only [stepsLeft, producerRank, scopesLeft, atPoint]
      omega

theorem spurious_wakeup_raises (woken : SpuriousWakeup state next) :
    stepsLeft next ≤ stepsLeft state + 2 := by
  cases woken with
  | wakes atPoint =>
      simp only [stepsLeft, producerRank, scopesLeft, waiterRank, atPoint]
      omega

/-- Inside its scope the consumer is never held up. -/
theorem consumer_goes_on (inside : scopeOpen state.consumer = true) :
    ∃ next, MutexStep events state next := by
  cases point : state.consumer with
  | testing =>
      by_cases ready : state.ready
      · exact ⟨_, .testPasses state point ready⟩
      · exact ⟨_, .testFails state point ready⟩
  | taking =>
      cases queued : state.queue with
      | cons event rest => exact ⟨_, .takes state event rest point queued⟩
      | nil =>
          cases flag : state.producerDone with
          | true => exact ⟨_, .stops state point queued flag⟩
          | false => exact ⟨_, .retries state point queued flag⟩
  | releasing after => exact ⟨_, .releases state after point⟩
  | locking | waiting | waking | exited =>
      rw [point] at inside
      cases inside
  | tallying event =>
      rw [point] at inside
      cases inside

theorem producer_goes_on (running : state.producer ≠ .exited)
    (unblocked : state.producer = .locking → state.owner = none) :
    ∃ next, MutexStep events state next := by
  cases point : state.producer with
  | locking => exact ⟨_, .producerLocks state point (unblocked point)⟩
  | locked =>
      cases left : state.toPush with
      | nil => exact ⟨_, .setsDone state point left⟩
      | cons event rest => exact ⟨_, .pushes state event rest point left⟩
  | written => exact ⟨_, .producerUnlocks state point⟩
  | notifying => exact ⟨_, .notifies state point⟩
  | exited => exact absurd point running

/-- Unless both threads have returned, one of them can take a step. -/
theorem some_thread_goes_on (invariant : HandoffInvariant events state)
    (unfinished : ¬(state.producer = .exited ∧ state.consumer = .exited)) :
    ∃ next, MutexStep events state next := by
  by_cases inside : scopeOpen state.consumer = true
  · exact consumer_goes_on inside
  have notConsumer : state.owner ≠ some .consumer := by
    rw [ne_eq, invariant.consumerOwns]
    exact inside
  by_cases returned : state.producer = .exited
  · -- The producer has set the flag and notified, so the consumer does not sleep.
    have isSet := invariant.exited returned
    have notProducer : state.owner ≠ some .producer := by
      rw [ne_eq, invariant.producerOwns, returned]
      simp
    have free : state.owner = none := by
      cases owner : state.owner with
      | none => rfl
      | some thread => cases thread <;> contradiction
    cases point : state.consumer with
    | locking => exact ⟨_, .consumerLocks state point free⟩
    | waking => exact ⟨_, .relocks state point free⟩
    | waiting =>
        have notified := invariant.notified point (.inl isSet)
        rw [returned] at notified
        simp at notified
    | tallying event => exact ⟨_, .tallies state event point⟩
    | exited => exact absurd ⟨returned, point⟩ unfinished
    | testing | taking =>
        rw [point] at inside
        exact absurd rfl inside
    | releasing after =>
        rw [point] at inside
        exact absurd rfl inside
  · apply producer_goes_on returned
    intro locking
    have notProducer : state.owner ≠ some .producer := by
      rw [ne_eq, invariant.producerOwns, locking]
      simp
    cases owner : state.owner with
    | none => rfl
    | some thread => cases thread <;> contradiction

end Progress

section Handoff

/-- Either thread steps, or the wait returns by itself. -/
def MutexMove (events : List MarketEvent) (state next : MutexHandoff) : Prop :=
  MutexStep events state next ∨ SpuriousWakeup state next

theorem reached_invariant
    (reached : Relation.ReflTransGen (MutexMove events) (startMutexHandoff events) state) :
    HandoffInvariant events state := by
  apply invariant_reached (HandoffInvariant events) _ (start_handoff_invariant events) reached
  intro current after invariant moved
  rcases moved with stepped | woken
  · exact mutex_step_invariant invariant stepped
  · exact spurious_wakeup_invariant invariant woken

/-- A consumer that left its loop has received everything. -/
theorem exited_tally (invariant : HandoffInvariant events state)
    (exited : state.consumer = .exited) : state.queue = [] ∧ state.tally = tallyOf events := by
  obtain ⟨received, split, tally⟩ := invariant.handed
  obtain ⟨isSet, drained⟩ := invariant.stopping (.inr exited)
  have everything : received = events := by
    rw [← split, exited, drained, invariant.pushed isSet]
    simp [inHand]
  exact ⟨drained, everything ▸ tally⟩

/-- In every reachable state the two scopes exclude each other and the consumer has
received the first events in order; once both threads have returned the check
passes and the checksum covers all events. -/
theorem mutex_handoff_delivers (events : List MarketEvent) (state : MutexHandoff)
    (reached : Relation.ReflTransGen (MutexMove events) (startMutexHandoff events) state) :
    ¬((state.producer = .locked ∨ state.producer = .written) ∧
        scopeOpen state.consumer = true) ∧
      state.tally = tallyOf (events.take state.tally.consumed) ∧
      (state.producer = .exited → state.consumer = .exited →
        state.queue = [] ∧ state.tally = tallyOf events ∧
          validated events state.tally = true) := by
  have invariant := reached_invariant reached
  obtain ⟨received, split, tally⟩ := invariant.handed
  refine ⟨?_, ?_, ?_⟩
  · rintro ⟨producerInside, consumerInside⟩
    rw [consumer_outside invariant producerInside] at consumerInside
    cases consumerInside
  · have first : received = events.take state.tally.consumed := by
      rw [tally, ← split, List.append_assoc, List.append_assoc]
      simp [tallyOf]
    rw [← first]
    exact tally
  · intro _ exited
    obtain ⟨drained, everything⟩ := exited_tally invariant exited
    exact ⟨drained, everything, everything ▸ tally_of_validated events⟩

/-- One event, handed over after the consumer went to sleep and was woken. -/
theorem one_event_is_handed_over :
    let entered : MarketEvent := { orderId := 1, price := 10000, quantity := 10 }
    ∃ state, Relation.ReflTransGen (MutexMove [entered]) (startMutexHandoff [entered]) state ∧
      state.tally = tallyOf [entered] ∧ validated [entered] state.tally = true := by
  intro entered
  let finished : MutexHandoff :=
    { producerDone := true
      toPush := []
      producer := .exited
      consumer := .exited
      tally := tallyEvent [entered] {} entered }
  have reached :
      Relation.ReflTransGen (MutexMove [entered]) (startMutexHandoff [entered]) finished := by
    refine .head (.inl (.consumerLocks _ rfl rfl)) ?_
    refine .head (.inl (.testFails _ rfl (by simp [MutexHandoff.ready, startMutexHandoff]))) ?_
    refine .head (.inl (.producerLocks _ rfl rfl)) ?_
    refine .head (.inl (.pushes _ entered [] rfl rfl)) ?_
    refine .head (.inl (.producerUnlocks _ rfl)) ?_
    refine .head (.inl (.notifies _ rfl)) ?_
    refine .head (.inl (.relocks _ rfl rfl)) ?_
    refine .head (.inl (.testPasses _ rfl (.inr (List.cons_ne_nil _ _)))) ?_
    refine .head (.inl (.takes _ entered [] rfl rfl)) ?_
    refine .head (.inl (.releases _ _ rfl)) ?_
    refine .head (.inl (.tallies _ entered rfl)) ?_
    refine .head (.inl (.producerLocks _ rfl rfl)) ?_
    refine .head (.inl (.setsDone _ rfl rfl)) ?_
    refine .head (.inl (.producerUnlocks _ rfl)) ?_
    refine .head (.inl (.notifies _ rfl)) ?_
    refine .head (.inl (.consumerLocks _ rfl rfl)) ?_
    refine .head (.inl (.testPasses _ rfl (.inl rfl))) ?_
    refine .head (.inl (.stops _ rfl rfl rfl)) ?_
    exact .single (.inl (.releases _ .stop rfl))
  have delivered := (mutex_handoff_delivers [entered] finished reached).2.2 rfl rfl
  exact ⟨finished, reached, delivered.2⟩

/-- From every reachable state both threads can still return, and no notification gets lost:
a waiting consumer with something to do is about to be notified. Until both have returned
one can step, and the number of steps is bounded by the events and the spurious wakeups. -/
theorem mutex_handoff_finishes (events : List MarketEvent) :
    (∀ state, Relation.ReflTransGen (MutexMove events) (startMutexHandoff events) state →
        (state.consumer = .waiting → state.ready →
          state.producer = .written ∨ state.producer = .notifying) ∧
        ((state.producer = .exited ∧ state.consumer = .exited) ∨
          ∃ next, MutexStep events state next) ∧
        ∃ last, Relation.ReflTransGen (MutexStep events) state last ∧
          last.producer = .exited ∧ last.consumer = .exited) ∧
      ∀ count wakeups state,
        CountedRun (MutexStep events) SpuriousWakeup (startMutexHandoff events) count wakeups
          state → count ≤ 11 * events.length + 10 + 2 * wakeups := by
  have falls : ∀ current after, HandoffInvariant events current → MutexStep events current after →
      HandoffInvariant events after ∧ stepsLeft after < stepsLeft current :=
    fun current after invariant stepped =>
      ⟨mutex_step_invariant invariant stepped, mutex_step_lowers invariant stepped⟩
  have progress : ∀ current, HandoffInvariant events current →
      (current.producer = .exited ∧ current.consumer = .exited) ∨
        ∃ next, MutexStep events current next := by
    intro current invariant
    by_cases finished : current.producer = .exited ∧ current.consumer = .exited
    · exact .inl finished
    · exact .inr (some_thread_goes_on invariant finished)
  constructor
  · intro state reached
    have invariant := reached_invariant reached
    exact ⟨invariant.notified, progress state invariant,
      falls_to_final (HandoffInvariant events) _ stepsLeft falls progress invariant⟩
  · intro count wakeups state run
    have bounded := counted_run_bounded (MutexStep events) SpuriousWakeup
      (HandoffInvariant events) stepsLeft 2 falls
      (fun current after invariant woken =>
        ⟨spurious_wakeup_invariant invariant woken, spurious_wakeup_raises woken⟩)
      (start_handoff_invariant events) run
    rw [steps_left_start] at bounded
    omega

end Handoff

end TickForge.MutexHandoff
