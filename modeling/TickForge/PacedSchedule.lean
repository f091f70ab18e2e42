import TickForge.ReplayAgreement
import TickForge.TruncatedWaits

/-!
# The sleeps of a paced replay

Each turn of the paced loop sleeps for the scaled gap to the event before it,
cast to `uint64_t` and then to the signed count of `std::chrono::nanoseconds`.
With an exact division both conversions are in range exactly while no gap reaches
`2^63` nanoseconds after scaling. Within that range the sleeps follow the timestamps without drift.
-/

namespace TickForge.PacedSchedule

open MarketEventModel LatencyProfilerModel RingBufferModel ReplayEngineModel ReplayAgreement
open TruncatedWaits

set_option autoImplicit false

section Requests

/-- The calls of the paced loop: one for each event after the first. -/
def sleepRequests (config : ReplayConfig) (events : List MarketEvent) : List SleepRequest :=
  (events.zip events.tail).map fun pair => sleepForTimestampGap exactArithmetic pair.1 pair.2 config

/-- The nanoseconds asked for before the event at an index. -/
def requestedBefore (config : ReplayConfig) (events : List MarketEvent) (index : Nat) : Int :=
  ((sleepRequests config (events.take (index + 1))).map SleepRequest.durationNs).sum

end Requests

section Ranges

variable {config : ReplayConfig} {previous current : MarketEvent}

theorem gap_divisor_pos {engine : ReplayEngine} (accepted : makeEngine config = some engine) :
    0 < gapDivisor config := by
  unfold makeEngine at accepted
  split_ifs at accepted with rejected
  unfold gapDivisor
  split_ifs
  · exact not_le.mp rejected
  · exact one_pos

/-- The call gets past its guard. -/
def ComputesGap (config : ReplayConfig) (previous current : MarketEvent) : Prop :=
  config.mode ≠ .max ∧ previous.timestampNs < current.timestampNs

/-- The adjusted gap of a call stays within both integer types, and what reaches
`sleep_for` is neither undefined nor negative. -/
structure KeepsRange (config : ReplayConfig) (previous current : MarketEvent) : Prop where
  casts : ComputesGap config previous current →
    adjustedGap exactArithmetic previous current config < 2 ^ 64
  converts : ComputesGap config previous current →
    adjustedGap exactArithmetic previous current config < 2 ^ 63
  defined : sleepForTimestampGap exactArithmetic previous current config ≠ .undefined
  nonnegative : ∀ durationNs,
    sleepForTimestampGap exactArithmetic previous current config = .sleeps durationNs →
      0 ≤ durationNs

theorem computes_gap_iff : ComputesGap config previous current ↔
    ¬(config.mode = .max ∨ current.timestampNs ≤ previous.timestampNs) := by
  rw [not_or, not_le, ComputesGap]

theorem adjusted_gap_eq : adjustedGap exactArithmetic previous current config =
    ⌊((current.timestampNs - previous.timestampNs : Nat) : Rat) / gapDivisor config⌋.toNat := rfl

theorem adjusted_gap_lt_iff : adjustedGap exactArithmetic previous current config < 2 ^ 63 ↔
    ((current.timestampNs - previous.timestampNs : Nat) : Rat) / gapDivisor config < 2 ^ 63 := by
  have floored := @Int.floor_lt Rat _ _ _ (2 ^ 63)
    (((current.timestampNs - previous.timestampNs : Nat) : Rat) / gapDivisor config)
  rw [Int.cast_pow, Int.cast_ofNat] at floored
  rw [← floored]
  rw [adjusted_gap_eq]
  omega

theorem adjusted_gap_short_iff (positive : 0 < gapDivisor config)
    (forwards : previous.timestampNs < current.timestampNs) :
    adjustedGap exactArithmetic previous current config < 2 ^ 63 ↔
      (current.timestampNs : Rat) - previous.timestampNs < 2 ^ 63 * gapDivisor config := by
  rw [adjusted_gap_lt_iff, div_lt_iff₀ positive, Nat.cast_sub forwards.le]

/-- A gap below `2^63` passes both conversions unchanged. -/
theorem to_int_of_short {gap : Nat} (short : gap < 2 ^ 63) :
    (BitVec.ofNat 64 gap).toInt = gap := by
  have kept : (BitVec.ofNat 64 gap).toNat = gap := by
    rw [BitVec.toNat_ofNat]
    exact Nat.mod_eq_of_lt (by omega)
  rw [BitVec.toInt_eq_toNat_of_lt (by omega), kept]

/-- A gap from `2^63` on that still casts turns negative. -/
theorem to_int_of_long {gap : Nat} (long : 2 ^ 63 ≤ gap) (castable : gap < 2 ^ 64) :
    (BitVec.ofNat 64 gap).toInt < 0 := by
  have kept : (BitVec.ofNat 64 gap).toNat = gap := by
    rw [BitVec.toNat_ofNat]
    exact Nat.mod_eq_of_lt castable
  rw [BitVec.toInt_eq_toNat_cond, kept, if_neg (by omega)]
  omega

/-- A short gap reaches `sleep_for` as it is. -/
theorem sleep_request_of_short (computes : ComputesGap config previous current)
    (short : adjustedGap exactArithmetic previous current config < 2 ^ 63) :
    sleepForTimestampGap exactArithmetic previous current config =
      if 0 < adjustedGap exactArithmetic previous current config then
        .sleeps (adjustedGap exactArithmetic previous current config)
      else .skipped := by
  rw [sleepForTimestampGap, if_neg (computes_gap_iff.mp computes), if_neg (by omega),
    to_int_of_short short]

theorem sleep_request_skipped (passes : ¬ComputesGap config previous current) :
    sleepForTimestampGap exactArithmetic previous current config = .skipped := by
  rw [computes_gap_iff, not_not] at passes
  rw [sleepForTimestampGap, if_pos passes]

/-- Short gaps keep the range. -/
theorem keeps_range_of_short (short : ComputesGap config previous current →
      adjustedGap exactArithmetic previous current config < 2 ^ 63) :
    KeepsRange config previous current := by
  have request : sleepForTimestampGap exactArithmetic previous current config = .skipped ∨
      sleepForTimestampGap exactArithmetic previous current config =
        .sleeps (adjustedGap exactArithmetic previous current config) := by
    by_cases computes : ComputesGap config previous current
    · rw [sleep_request_of_short computes (short computes)]
      split_ifs
      · exact .inr rfl
      · exact .inl rfl
    · exact .inl (sleep_request_skipped computes)
  constructor
  · intro computes
    have bounded := short computes
    omega
  · exact short
  · rcases request with asked | asked <;> rw [asked] <;> simp
  · intro durationNs sleeps
    rcases request with asked | asked
    · rw [asked] at sleeps
      cases sleeps
    · rw [asked] at sleeps
      cases sleeps
      exact Int.natCast_nonneg _

theorem keeps_range_iff (positive : 0 < gapDivisor config) (paced : config.mode ≠ .max) :
    KeepsRange config previous current ↔
      (current.timestampNs : Rat) - previous.timestampNs < 2 ^ 63 * gapDivisor config := by
  constructor
  · intro keeps
    by_cases forwards : previous.timestampNs < current.timestampNs
    · exact (adjusted_gap_short_iff positive forwards).mp (keeps.converts ⟨paced, forwards⟩)
    · -- A step that is not forwards is below any positive limit.
      have back : (current.timestampNs : Rat) ≤ previous.timestampNs := by
        exact_mod_cast not_lt.mp forwards
      have limit : (0 : Rat) < 2 ^ 63 * gapDivisor config := by positivity
      linarith
  · intro short
    apply keeps_range_of_short
    intro computes
    exact (adjusted_gap_short_iff positive computes.2).mpr short

/-- Past the range the conversion that fails first decides what is asked for. -/
theorem long_gap_request (computes : ComputesGap config previous current)
    (long : 2 ^ 63 ≤ adjustedGap exactArithmetic previous current config) :
    sleepForTimestampGap exactArithmetic previous current config = .undefined ∨
      ∃ durationNs < 0,
        sleepForTimestampGap exactArithmetic previous current config = .sleeps durationNs := by
  rw [sleepForTimestampGap, if_neg (computes_gap_iff.mp computes)]
  by_cases castable : adjustedGap exactArithmetic previous current config < 2 ^ 64
  · rw [if_neg (by omega), if_pos (by omega)]
    exact .inr ⟨_, to_int_of_long long castable, rfl⟩
  · rw [if_pos (by omega)]
    exact .inl rfl

/-- An engine in a paced mode keeps the integer ranges exactly on the event lists
whose timestamps never advance by `2^63` scaled nanoseconds at once; on all
others some call asks for an undefined or a negative sleep. -/
theorem pacing_keeps_range_iff (config : ReplayConfig) (engine : ReplayEngine)
    (accepted : makeEngine config = some engine) (paced : config.mode ≠ .max)
    (events : List MarketEvent) :
    ((∀ pair ∈ events.zip events.tail, KeepsRange config pair.1 pair.2) ↔
        ∀ pair ∈ events.zip events.tail,
          (pair.2.timestampNs : Rat) - pair.1.timestampNs < 2 ^ 63 * gapDivisor config) ∧
      ((∀ request ∈ sleepRequests config events,
          request ≠ .undefined ∧ 0 ≤ request.durationNs) ↔
        ∀ pair ∈ events.zip events.tail,
          (pair.2.timestampNs : Rat) - pair.1.timestampNs < 2 ^ 63 * gapDivisor config) := by
  have positive := gap_divisor_pos accepted
  constructor
  · apply forall₂_congr
    intro pair _
    exact keeps_range_iff positive paced
  · simp only [sleepRequests, List.forall_mem_map]
    apply forall₂_congr
    intro pair _
    rw [← keeps_range_iff positive paced]
    constructor
    · intro ⟨defined, nonnegative⟩
      apply keeps_range_of_short
      intro computes
      by_contra long
      rcases long_gap_request computes (not_lt.mp long) with undef | ⟨durationNs, negative, asked⟩
      · exact defined undef
      · rw [asked] at nonnegative
        exact absurd nonnegative (not_le.mpr negative)
    · intro keeps
      refine ⟨keeps.defined, ?_⟩
      cases asked : sleepForTimestampGap exactArithmetic pair.1 pair.2 config with
      | skipped => exact le_rfl
      | undefined => exact absurd asked keeps.defined
      | sleeps durationNs => exact keeps.nonnegative durationNs asked

/-- A tenth of real time over gaps of up to half a second. -/
theorem slow_replay_keeps_range :
    let config : ReplayConfig := { mode := .speed, speedMultiplier := 1 / 10 }
    let events : List MarketEvent :=
      [{ timestampNs := 7 }, { timestampNs := 500000007 }, { timestampNs := 400000000 }]
    ((∀ pair ∈ events.zip events.tail, KeepsRange config pair.1 pair.2) ↔
        ∀ pair ∈ events.zip events.tail,
          (pair.2.timestampNs : Rat) - pair.1.timestampNs < 2 ^ 63 * gapDivisor config) ∧
      ((∀ request ∈ sleepRequests config events,
          request ≠ .undefined ∧ 0 ≤ request.durationNs) ↔
        ∀ pair ∈ events.zip events.tail,
          (pair.2.timestampNs : Rat) - pair.1.timestampNs < 2 ^ 63 * gapDivisor config) := by
  exact pacing_keeps_range_iff _ _ (if_neg (by norm_num)) (by decide) _

/-- Two feed rows `2^63` nanoseconds apart: real time asks for a sleep of
`-2^63`, half speed for a cast that is undefined. -/
theorem half_range_step_leaves_range :
    let events : List MarketEvent :=
      [{ timestampNs := 0, orderId := 1, price := 100, quantity := 1 },
        { timestampNs := 9223372036854775808, orderId := 2, price := 100, quantity := 1 }]
    let halfSpeed : ReplayConfig := { mode := .speed, speedMultiplier := 1 / 2 }
    (∀ event ∈ events, event.timestampNs < 2 ^ 64) ∧
      (makeEngine { mode := .realtime }).isSome ∧ (makeEngine halfSpeed).isSome ∧
      sleepRequests { mode := .realtime } events = [.sleeps (-9223372036854775808)] ∧
      sleepRequests halfSpeed events = [.undefined] ∧
      ¬∀ (config : ReplayConfig) (engine : ReplayEngine) (feed : List MarketEvent),
        makeEngine config = some engine → config.mode ≠ .max →
        (∀ event ∈ feed, event.timestampNs < 2 ^ 64) →
        ∀ pair ∈ feed.zip feed.tail, KeepsRange config pair.1 pair.2 := by
  intro events halfSpeed
  have negative : sleepRequests { mode := .realtime } events =
      [.sleeps (-9223372036854775808)] := by decide +kernel
  refine ⟨by decide, by decide +kernel, by decide +kernel, negative, by decide +kernel, ?_⟩
  intro always
  have keeps := always { mode := .realtime } _ events (if_neg (by norm_num)) (by decide) (by decide)
    _ (List.mem_singleton.mpr rfl)
  exact absurd (keeps.nonnegative _ (List.cons.inj negative).1) (by decide)

end Ranges

section Loop

variable {config : ReplayConfig} {latencies : Nat → Nat}

theorem paced_step_sleeps {previous : Option MarketEvent} {event : MarketEvent} {latencyNs : Nat}
    {state next : PacedState}
    (stepped : pacedStep exactArithmetic config previous event latencyNs state = .ok next) :
    next.sleeps = state.sleeps ++ sleepRequests config (previous.toList ++ [event]) := by
  cases pushed : push state.ring event with
  | none =>
      simp only [pacedStep, pushed] at stepped
      cases stepped
  | some answer =>
      rcases answer with ⟨stored, pushedRing⟩
      cases stored with
      | false =>
          simp only [pacedStep, pushed] at stepped
          cases stepped
      | true =>
          cases popped : pop pushedRing with
          | none =>
              simp only [pacedStep, pushed, popped] at stepped
              cases stepped
          | some taken =>
              rcases taken with ⟨item, poppedRing⟩
              cases item with
              | none =>
                  simp only [pacedStep, pushed, popped] at stepped
                  cases stepped
              | some queuedEvent =>
                  simp only [pacedStep, pushed, popped] at stepped
                  cases stepped
                  cases previous with
                  | none => simp [sleepRequests]
                  | some earlier => simp [sleepRequests]

theorem sleep_requests_cons (config : ReplayConfig) (previous : Option MarketEvent)
    (event : MarketEvent) (rest : List MarketEvent) :
    sleepRequests config (previous.toList ++ event :: rest) =
      sleepRequests config (previous.toList ++ [event]) ++ sleepRequests config (event :: rest) := by
  cases previous with
  | none => simp [sleepRequests]
  | some earlier => simp [sleepRequests]

/-- The loop makes the calls between its events. -/
theorem paced_loop_sleeps (events : List MarketEvent) {index : Nat} {previous : Option MarketEvent}
    {state finished : PacedState}
    (looped : pacedLoop exactArithmetic config latencies index previous events state = .ok finished) :
    finished.sleeps = state.sleeps ++ sleepRequests config (previous.toList ++ events) := by
  induction events generalizing index previous state with
  | nil =>
      cases looped
      cases previous with
      | none => simp [sleepRequests]
      | some earlier => simp [sleepRequests]
  | cons event rest ih =>
      rw [pacedLoop] at looped
      cases stepped : pacedStep exactArithmetic config previous event (latencies index) state with
      | error failure =>
          rw [stepped] at looped
          cases looped
      | ok next =>
          rw [stepped] at looped
          rw [ih looped, paced_step_sleeps stepped, List.append_assoc,
            sleep_requests_cons config previous event rest]
          rfl

theorem replay_sleeps {engine : ReplayEngine} {events : List MarketEvent} {finished : PacedState}
    (replayed : replayPacedSingleThreaded exactArithmetic engine events latencies = .ok finished) :
    finished.sleeps = sleepRequests engine.config events := by
  unfold replayPacedSingleThreaded at replayed
  cases constructed : (construct engine.config.ringCapacity :
      Option (SpscRingBuffer MarketEvent)) with
  | none =>
      rw [constructed] at replayed
      cases replayed
  | some ring =>
      simp only [constructed] at replayed
      exact paced_loop_sleeps events replayed

/-- Within the range a call asks for the truncated wait between its timestamps. -/
theorem request_eq_step_wait (paced : config.mode ≠ .max) (positive : 0 < gapDivisor config)
    {previous current : MarketEvent}
    (short : ComputesGap config previous current →
      adjustedGap exactArithmetic previous current config < 2 ^ 63) :
    (sleepForTimestampGap exactArithmetic previous current config).durationNs =
      stepWait (gapDivisor config) (previous.timestampNs : Rat) current.timestampNs := by
  by_cases forwards : previous.timestampNs < current.timestampNs
  · have computes : ComputesGap config previous current := ⟨paced, forwards⟩
    rw [sleep_request_of_short computes (short computes), stepWait, ← Nat.cast_sub forwards.le,
      ← Int.floor_toNat]
    split_ifs with sleeps
    · rfl
    · rw [adjusted_gap_eq] at sleeps
      rw [Nat.eq_zero_of_not_pos sleeps]
      rfl
  · have waits : stepWait (gapDivisor config) (previous.timestampNs : Rat) current.timestampNs = 0 :=
      step_wait_back positive (by exact_mod_cast not_lt.mp forwards)
    rw [sleep_request_skipped fun computes => forwards computes.2, waits]
    rfl

/-- The timestamps as points in time. -/
def instants (events : List MarketEvent) : List Rat :=
  events.map fun event => (event.timestampNs : Rat)

/-- While gaps are short the requests add up to the truncated waits between the
timestamps. -/
theorem requests_total (paced : config.mode ≠ .max) (positive : 0 < gapDivisor config)
    (events : List MarketEvent)
    (short : ∀ pair ∈ events.zip events.tail, ComputesGap config pair.1 pair.2 →
      adjustedGap exactArithmetic pair.1 pair.2 config < 2 ^ 63) :
    ((sleepRequests config events).map SleepRequest.durationNs).sum =
      totalWait (gapDivisor config) (instants events) := by
  induction events with
  | nil => rfl
  | cons previous rest ih =>
      cases rest with
      | nil => rfl
      | cons current rest =>
          rw [List.tail_cons, List.zip_cons_cons, List.forall_mem_cons] at short
          have waited := request_eq_step_wait paced positive short.1
          have later := ih short.2
          have split : sleepRequests config (previous :: current :: rest) =
              sleepForTimestampGap exactArithmetic previous current config ::
                sleepRequests config (current :: rest) := rfl
          rw [split, List.map_cons, List.sum_cons, waited, later, ← Nat.cast_add]
          rfl

end Loop

section Drift

variable {config : ReplayConfig} {events : List MarketEvent}

theorem consecutive_of_take {count : Nat} {pair : MarketEvent × MarketEvent}
    (listed : pair ∈ (events.take count).zip (events.take count).tail) :
    pair ∈ events.zip events.tail := by
  obtain ⟨index, found⟩ := List.mem_iff_getElem?.mp listed
  simp only [List.getElem?_zip_eq_some, List.getElem?_tail, List.getElem?_take,
    Option.ite_none_right_eq_some] at found
  rw [List.mem_iff_getElem?]
  refine ⟨index, ?_⟩
  rw [List.getElem?_zip_eq_some, List.getElem?_tail]
  exact ⟨found.1.2, found.2.2⟩

theorem instant_at {index : Nat} {event : MarketEvent} (here : events[index]? = some event) :
    (instants events)[index]? = some (event.timestampNs : Rat) := by
  rw [instants, List.getElem?_map, here, Option.map_some]

/-- Timestamps that never go back advance by whole steps. -/
theorem whole_steps (count : Nat)
    (forwards : events.Pairwise fun earlier later => earlier.timestampNs ≤ later.timestampNs) :
    ((instants events).take count).Pairwise fun earlier later =>
      ∃ gap : Nat, later = earlier + (gap : Rat) := by
  apply List.Pairwise.sublist (List.take_sublist _ _)
  rw [instants, List.pairwise_map]
  apply forwards.imp
  intro earlier later forward
  refine ⟨later.timestampNs - earlier.timestampNs, ?_⟩
  rw [Nat.cast_sub forward]
  ring

theorem instants_sorted (count : Nat)
    (forwards : events.Pairwise fun earlier later => earlier.timestampNs ≤ later.timestampNs) :
    ((instants events).take count).SortedLE := by
  apply List.Pairwise.sortedLE
  apply (whole_steps count forwards).imp
  intro earlier later step
  rcases step with ⟨gap, rfl⟩
  exact le_add_of_nonneg_right (Nat.cast_nonneg gap)

/-- The calls before an event are the first calls of all. -/
theorem sleep_requests_prefix (config : ReplayConfig) (seen rest : List MarketEvent) :
    sleepRequests config seen <+: sleepRequests config (seen ++ rest) := by
  apply List.IsPrefix.map
  induction seen with
  | nil => exact List.nil_prefix
  | cons first seen ih =>
      cases seen with
      | nil => exact List.nil_prefix
      | cons second seen => exact List.prefix_cons_inj _ |>.mpr ih

/-- Before every event of a paced run the sleeps asked for so far keep up with
the timestamps to within a nanosecond an event, do not exceed them where they
never go back, and match them in real time. The run ends well on every ring with its
slots and has slept just what was asked for. -/
theorem paced_replay_does_not_drift (config : ReplayConfig) (engine : ReplayEngine)
    (accepted : makeEngine config = some engine) (paced : config.mode ≠ .max)
    (events : List MarketEvent)
    (short : ∀ pair ∈ events.zip events.tail, pair.1.timestampNs < pair.2.timestampNs →
      ((pair.2.timestampNs - pair.1.timestampNs : Nat) : Rat) / gapDivisor config < 2 ^ 63)
    (index : Nat) (first current : MarketEvent) (begins : events[0]? = some first)
    (here : events[index]? = some current) :
    let scheduled : Rat :=
      ((current.timestampNs : Rat) - first.timestampNs) / gapDivisor config
    let requested := requestedBefore config events index
    (∀ request ∈ sleepRequests config events, request ≠ .undefined) ∧
      scheduled - index ≤ requested ∧
      ((events.Pairwise fun earlier later => earlier.timestampNs ≤ later.timestampNs) →
        (requested : Rat) ≤ scheduled ∧
          (config.mode = .realtime →
            requested = (current.timestampNs : Int) - first.timestampNs)) ∧
      (1 ≤ config.ringCapacity → config.ringCapacity + 1 < 2 ^ 64 → ∀ latencies,
        ∃ state finished,
          replayPacedSingleThreaded exactArithmetic engine (events.take (index + 1)) latencies =
            .ok state ∧
          replayPacedSingleThreaded exactArithmetic engine events latencies = .ok finished ∧
          state.sleeps <+: finished.sleeps ∧
          (state.sleeps.map SleepRequest.durationNs).sum = requested) := by
  intro scheduled requested
  have positive := gap_divisor_pos accepted
  have inRange : ∀ pair ∈ events.zip events.tail, ComputesGap config pair.1 pair.2 →
      adjustedGap exactArithmetic pair.1 pair.2 config < 2 ^ 63 :=
    fun pair listed computes => adjusted_gap_lt_iff.mpr (short pair listed computes.2)
  have total : (requested : Rat) =
      totalWait (gapDivisor config) ((instants events).take (index + 1)) := by
    have waited := requests_total paced positive (events.take (index + 1)) fun pair listed =>
      inRange pair (consecutive_of_take listed)
    rw [instants, List.map_take] at waited
    exact congrArg (Int.cast : Int → Rat) waited
  refine ⟨?_, ?_, ?_, ?_⟩
  · intro request listed
    rcases List.mem_map.mp listed with ⟨pair, consecutive, rfl⟩
    exact (keeps_range_of_short (inRange pair consecutive)).defined
  · rw [total]
    exact total_wait_lower (gapDivisor config) (instant_at begins) (instant_at here)
  · intro forwards
    constructor
    · rw [total]
      exact total_wait_upper positive (instants_sorted _ forwards) (instant_at begins)
        (instant_at here)
    · intro realtime
      have undivided : gapDivisor config = 1 := by
        rw [gapDivisor, realtime]
        rfl
      have whole := total_wait_whole (instant_at begins) (whole_steps _ forwards).isChain
        (instant_at here)
      rw [← undivided, ← total] at whole
      exact_mod_cast whole
  · intro slots bounded latencies
    have configured : engine.config = config := by
      unfold makeEngine at accepted
      split_ifs at accepted
      cases accepted
      rfl
    rw [← configured] at slots bounded
    have ends : ∀ feed, ∃ reached,
        replayPacedSingleThreaded exactArithmetic engine feed latencies = .ok reached := by
      intro feed
      rcases paced_mode_agrees slots bounded exactArithmetic latencies with ⟨reached, replayed, _⟩
      exact ⟨reached, replayed⟩
    rcases ends (events.take (index + 1)) with ⟨state, looped⟩
    rcases ends events with ⟨finished, replayed⟩
    refine ⟨state, finished, looped, replayed, ?_, ?_⟩
    · rw [replay_sleeps looped, replay_sleeps replayed]
      have split := sleep_requests_prefix engine.config (events.take (index + 1))
        (events.drop (index + 1))
      rwa [List.take_append_drop] at split
    · rw [replay_sleeps looped, configured]
      rfl

/-- Four events at triple speed, the third one step back: the run ends well and has
slept for 3 nanoseconds before the second event and for 11 before the last. -/
theorem out_of_order_feed_does_not_drift :
    let config : ReplayConfig := { mode := .speed, speedMultiplier := 3 }
    let engine : ReplayEngine := { config := config }
    let events : List MarketEvent := [{ timestampNs := 10 }, { timestampNs := 20 },
      { timestampNs := 15 }, { timestampNs := 40 }]
    (7 : Rat) ≤ requestedBefore config events 3 ∧
      ∃ finished,
        replayPacedSingleThreaded exactArithmetic engine events (fun _ => 0) = .ok finished ∧
        finished.sleeps = [.sleeps 3, .skipped, .sleeps 8] ∧
        (finished.sleeps.map SleepRequest.durationNs).sum = requestedBefore config events 3 := by
  intro config engine events
  have drifts := paced_replay_does_not_drift config engine (if_neg (by norm_num)) (by decide) events
    (by decide +kernel) 3 { timestampNs := 10 } { timestampNs := 40 } rfl rfl
  rcases drifts.2.2.2 (by decide) (by decide) fun _ => 0 with
    ⟨state, finished, looped, replayed, _, slept⟩
  have whole : events.take (3 + 1) = events := rfl
  rw [whole, replayed] at looped
  have same : finished = state := Except.ok.inj looped
  rw [← same] at slept
  have requests : sleepRequests config events = [.sleeps 3, .skipped, .sleeps 8] := by
    decide +kernel
  refine ⟨?_, finished, replayed, (replay_sleeps replayed).trans requests, slept⟩
  have bound := drifts.2.1
  have divisor : gapDivisor config = 3 := rfl
  rw [divisor] at bound
  refine le_trans ?_ bound
  norm_num

end Drift

end TickForge.PacedSchedule
