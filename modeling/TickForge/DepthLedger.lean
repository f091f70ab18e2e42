import TickForge.OrderBookStep
import TickForge.StepRuns
import Mathlib.Tactic.Ring

/-!
# Displayed depth against resting quantity

A level and the orders resting at it are updated separately, and an orphan
reduction touches the level alone. The ledger keeps, per level, what accepted
orphan reductions removed since the last `clear`; with it the two sides of the
account agree in every state any sequence of calls reaches.
-/

namespace TickForge.DepthLedger

open KeyedTotals StepRuns MarketEventModel OrderBookModel OrderBookStep

set_option autoImplicit false

section Resting

def restingWeight (side : Side) (price : Int) (_ : Nat) (order : Order) : Int :=
  if order.side = side ∧ order.price = price then order.quantity else 0

/-- The quantities of the orders resting at one level, summed over the table. -/
def restingAt (book : OrderBook) (side : Side) (price : Int) : Int :=
  total (restingWeight side price) book.orders

end Resting

section Tidiness

/-- Every stored level is positive and priced at zero or more. -/
def TidyLevels (book : OrderBook) : Prop :=
  ∀ side price quantity, levelAt book side price = some quantity → 0 < quantity ∧ 0 ≤ price

theorem depth_nonneg {book : OrderBook} (tidy : TidyLevels book) (side : Side) (price : Int) :
    0 ≤ depthAtPrice book side price := by
  rw [depth_at_price_eq]
  cases level : levelAt book side price with
  | none => exact le_refl 0
  | some quantity => exact (tidy side price quantity level).1.le

theorem depth_pos_iff {book : OrderBook} (tidy : TidyLevels book) (side : Side) (price : Int) :
    0 < depthAtPrice book side price ↔ (levelAt book side price).isSome := by
  rw [depth_at_price_eq]
  cases level : levelAt book side price with
  | none => simp
  | some quantity => simpa using (tidy side price quantity level).1

theorem price_nonneg_of_depth {book : OrderBook} (tidy : TidyLevels book) (side : Side)
    (price : Int) (deep : 0 < depthAtPrice book side price) : 0 ≤ price := by
  obtain ⟨quantity, level⟩ := Option.isSome_iff_exists.mp ((depth_pos_iff tidy side price).mp deep)
  exact (tidy side price quantity level).2

theorem tidy_withdraw {book : OrderBook} (tidy : TidyLevels book) (move : Move)
    (covered : Covered book move) : TidyLevels (withdraw book move) := by
  intro side price quantity level
  rw [withdraw, level_at_put_level] at level
  split_ifs at level with here
  · obtain ⟨rfl, rfl⟩ := here
    have deep : 0 < depthAtPrice book move.side move.price := covered.1.trans_le covered.2
    have enough := covered.2
    unfold remainder at level
    split_ifs at level with emptied
    cases level
    exact ⟨by omega, price_nonneg_of_depth tidy _ _ deep⟩
  · exact tidy side price quantity level

theorem tidy_deposit {book : OrderBook} (tidy : TidyLevels book) (move : Move)
    (positive : 0 < move.quantity) (priced : 0 ≤ move.price) : TidyLevels (deposit book move) := by
  intro side price quantity level
  rw [deposit, level_at_put_level] at level
  split_ifs at level with here
  · obtain ⟨rfl, rfl⟩ := here
    have held := depth_nonneg tidy move.side move.price
    cases level
    exact ⟨by omega, priced⟩
  · exact tidy side price quantity level

end Tidiness

section PlanLaws

/-- What every stored order satisfies. -/
structure SoundOrder (orderId : Nat) (order : Order) : Prop where
  id : order.orderId = orderId
  quantity : 0 < order.quantity
  price : 0 ≤ order.price

variable {acceptUnknown : Bool} {known : Option Order} {event : MarketEvent} {plan : Plan}

theorem planned_gives_sound (planned : Planned acceptUnknown event known plan) :
    ∀ move ∈ plan.gives, 0 < move.quantity ∧ 0 ≤ move.price := by
  intro move given
  cases planned with
  | adds isAdd priced positive => cases given; exact ⟨positive, priced⟩
  | drains isOrphan accepted positive => cases given
  | removes order leaves => cases given
  | moves order isModify priced positive => cases given; exact ⟨positive, priced⟩
  | fills order isTrade positive sameSide samePrice partially => cases given

theorem planned_entry_sound (planned : Planned acceptUnknown event known plan)
    (sound : ∀ order ∈ known, SoundOrder event.orderId order) :
    ∀ order ∈ plan.entry, SoundOrder event.orderId order := by
  intro stored entry
  cases planned with
  | adds isAdd priced positive => cases entry; exact ⟨rfl, positive, priced⟩
  | drains isOrphan accepted positive => cases entry
  | removes order leaves => cases entry
  | moves order isModify priced positive =>
      cases entry
      exact ⟨(sound order rfl).id, positive, priced⟩
  | fills order isTrade positive sameSide samePrice partially =>
      cases entry
      exact ⟨(sound order rfl).id, sub_pos.mpr partially, (sound order rfl).price⟩

/-- What an orphan reduction takes off a level without touching the table. -/
def orphanTake (known : Option Order) (plan : Plan) : Option Move :=
  match known with
  | none => plan.takes
  | some _ => none

/-- The table entry changes by what the plan gives and takes, orphan reductions
excepted. -/
theorem planned_balance (planned : Planned acceptUnknown event known plan) (side : Side)
    (price : Int) :
    share (restingWeight side price) event.orderId plan.entry + carried side price plan.takes =
      share (restingWeight side price) event.orderId known + carried side price plan.gives +
        carried side price (orphanTake known plan) := by
  cases planned with
  | adds isAdd priced positive =>
      change carried side price (some (eventMove event)) + 0 =
        0 + carried side price (some (eventMove event)) + 0
      ring
  | drains isOrphan accepted positive =>
      change 0 + carried side price (some (eventMove event)) =
        0 + 0 + carried side price (some (eventMove event))
      ring
  | removes order leaves =>
      change 0 + carried side price (some (orderMove order)) =
        carried side price (some (orderMove order)) + 0 + 0
      ring
  | moves order isModify priced positive =>
      change carried side price (some (eventMove event)) +
          carried side price (some (orderMove order)) =
        carried side price (some (orderMove order)) +
          carried side price (some (eventMove event)) + 0
      ring
  | fills order isTrade positive sameSide samePrice partially =>
      simp only [share_some, restingWeight, carried, orphanTake, eventMove, sameSide, samePrice]
      split_ifs <;> ring

end PlanLaws

theorem execute_resting (book : OrderBook) (orderId : Nat) (plan : Plan) (side : Side)
    (price : Int) :
    restingAt (execute book orderId plan) side price =
      restingAt book side price - share (restingWeight side price) orderId book.orders[orderId]? +
        share (restingWeight side price) orderId plan.entry := by
  obtain ⟨takes, entry, gives⟩ := plan
  cases takes <;> cases gives <;>
    simp [execute, takeMove, giveMove, restingAt, putOrder, total_put]

section Ledger

/-- The book agrees with its account: `drained` is what orphan reductions took
off each level and no table entry answers for. -/
structure Ledgered (book : OrderBook) (drained : Side → Int → Int) : Prop where
  sound : ∀ (orderId : Nat) (order : Order), book.orders[orderId]? = some order →
    SoundOrder orderId order
  tidy : TidyLevels book
  balanced : ∀ side price,
    depthAtPrice book side price + drained side price = restingAt book side price
  drained_nonneg : ∀ side price, 0 ≤ drained side price

theorem empty_ledgered (config : OrderBookConfig) :
    Ledgered { config := config } fun _ _ => 0 where
  sound := by
    intro orderId order stored
    cases stored
  tidy := by
    intro side price quantity level
    cases side <;> cases level
  balanced := by
    intro side price
    cases side <;> simp [depthAtPrice, restingAt]
  drained_nonneg := fun _ _ => le_refl 0

theorem resting_weight_nonneg {book : OrderBook} {drained : Side → Int → Int}
    (ledgered : Ledgered book drained) (side : Side) (price : Int) :
    ∀ (orderId : Nat) (order : Order), book.orders[orderId]? = some order →
      0 ≤ restingWeight side price orderId order := by
  intro orderId order stored
  unfold restingWeight
  split_ifs
  · exact (ledgered.sound orderId order stored).quantity.le
  · exact le_refl 0

theorem order_le_resting {book : OrderBook} {drained : Side → Int → Int}
    (ledgered : Ledgered book drained) (orderId : Nat) (order : Order)
    (stored : book.orders[orderId]? = some order) :
    order.quantity ≤ restingAt book order.side order.price := by
  calc
    order.quantity = restingWeight order.side order.price orderId order :=
      (if_pos ⟨rfl, rfl⟩).symm
    _ ≤ restingAt book order.side order.price :=
      weight_le_total _ book.orders orderId order stored
        (resting_weight_nonneg ledgered order.side order.price)

theorem depth_le_resting {book : OrderBook} {drained : Side → Int → Int}
    (ledgered : Ledgered book drained) (side : Side) (price : Int) :
    depthAtPrice book side price ≤ restingAt book side price := by
  have account := ledgered.balanced side price
  have taken := ledgered.drained_nonneg side price
  omega

theorem exists_order_of_level {book : OrderBook} {drained : Side → Int → Int}
    (ledgered : Ledgered book drained) (side : Side) (price : Int)
    (stored : (levelAt book side price).isSome) :
    ∃ (orderId : Nat) (order : Order), book.orders[orderId]? = some order ∧
      order.side = side ∧ order.price = price := by
  have deep := (depth_pos_iff ledgered.tidy side price).mpr stored
  have covered := depth_le_resting ledgered side price
  have nonzero : restingAt book side price ≠ 0 := by omega
  obtain ⟨orderId, order, found, weighs⟩ := exists_of_total_ne_zero _ _ nonzero
  have here : order.side = side ∧ order.price = price := by
    by_contra elsewhere
    exact weighs (if_neg elsewhere)
  exact ⟨orderId, order, found, here⟩

/-- One executed plan keeps the account, orphan reductions being drained. -/
theorem execute_ledgered {book : OrderBook} {drained : Side → Int → Int}
    (ledgered : Ledgered book drained) (event : MarketEvent) (plan : Plan)
    (planned : Planned book.config.acceptUnknownOrderOps event book.orders[event.orderId]? plan)
    (feasible : plan.Feasible book) :
    Ledgered (execute book event.orderId plan) fun side price =>
      drained side price + carried side price (orphanTake book.orders[event.orderId]? plan) where
  sound := by
    intro orderId order stored
    rw [execute_lookup] at stored
    split_ifs at stored with same
    · rw [← same]
      exact planned_entry_sound planned (fun held found => ledgered.sound _ held found) order stored
    · exact ledgered.sound orderId order stored
  tidy := by
    have gives := planned_gives_sound planned
    obtain ⟨takes, entry, given⟩ := plan
    have taken : TidyLevels (takeMove book takes) := by
      cases takes with
      | none => exact ledgered.tidy
      | some move => exact tidy_withdraw ledgered.tidy move (feasible move rfl)
    have stored : TidyLevels (putOrder (takeMove book takes) event.orderId entry) := taken
    cases given with
    | none => exact stored
    | some move => exact tidy_deposit stored move (gives move rfl).1 (gives move rfl).2
  balanced := by
    intro side price
    have before := ledgered.balanced side price
    have moved := planned_balance planned side price
    rw [execute_depth, execute_resting]
    omega
  drained_nonneg := by
    intro side price
    have before := ledgered.drained_nonneg side price
    suffices added : 0 ≤ carried side price (orphanTake book.orders[event.orderId]? plan) by omega
    cases known : book.orders[event.orderId]? with
    | some order => exact le_refl 0
    | none =>
        cases taken : plan.takes with
        | none => simp [orphanTake, taken, carried]
        | some move =>
            have positive := (feasible move taken).1
            simp only [orphanTake, taken, carried]
            split_ifs
            · exact positive.le
            · exact le_refl 0

end Ledger

section Calls

/-- The calls a client makes on a book. -/
inductive BookCall where
  | applyEvent (event : MarketEvent)
  | setConfig (config : OrderBookConfig)
  | clear

/-- Only `apply_event` has an answer; the other calls return nothing. -/
def callStep (book : OrderBook) : BookCall → Option Bool × OrderBook
  | .applyEvent event =>
      let applied := applyEvent book event
      (some applied.1, applied.2)
  | .setConfig config => (none, setConfig book config)
  | .clear => (none, clear book)

/-- The level and quantity of a CANCEL or TRADE that names no resting order and
is accepted. -/
def acceptedOrphan (book : OrderBook) (event : MarketEvent) : Option Move :=
  if (event.type = .cancel ∨ event.type = .trade) ∧ book.orders[event.orderId]? = none ∧
      (applyEvent book event).1 = true then
    some (eventMove event)
  else none

/-- A book beside the total each level lost to accepted orphan reductions since
the last `clear`. -/
structure AuditedBook where
  book : OrderBook
  drained : Side → Int → Int

def auditedStep (state : AuditedBook) (call : BookCall) : Option Bool × AuditedBook :=
  let answered := callStep state.book call
  match call with
  | .applyEvent event => (answered.1, ⟨answered.2, fun side price =>
      state.drained side price + carried side price (acceptedOrphan state.book event)⟩)
  | .setConfig _ => (answered.1, ⟨answered.2, state.drained⟩)
  | .clear => (answered.1, ⟨answered.2, fun _ _ => 0⟩)

/-- The account only watches: the audited run is the run of the book. -/
theorem audited_run_book (state : AuditedBook) (calls : List BookCall) :
    (finalState auditedStep state calls).book = finalState callStep state.book calls := by
  induction calls generalizing state with
  | nil => rfl
  | cons call rest ih =>
      rw [final_state_cons, ih, final_state_cons]
      cases call <;> rfl

theorem accepted_orphan_eq (book : OrderBook) (event : MarketEvent) (plan : Plan)
    (planned : planOf book.config.acceptUnknownOrderOps book.orders[event.orderId]? event =
      some plan)
    (feasible : plan.Feasible book) :
    acceptedOrphan book event = orphanTake book.orders[event.orderId]? plan := by
  have accepted : (applyEvent book event).1 = true := by
    rw [apply_event_eq, planned, carryOut, if_pos feasible]
  have shape := planned_of_plan _ _ _ _ planned
  unfold acceptedOrphan
  generalize book.orders[event.orderId]? = known at shape
  cases shape with
  | adds isAdd priced positive => simp [orphanTake, isAdd]
  | drains isOrphan acceptsUnknown positive => simp [orphanTake, isOrphan, accepted]
  | removes order leaves => simp [orphanTake]
  | moves order isModify priced positive => simp [orphanTake]
  | fills order isTrade positive sameSide samePrice partially => simp [orphanTake]

/-- Either the event is refused and nothing moves, or its plan is executed. -/
theorem apply_event_cases (book : OrderBook) (event : MarketEvent) :
    applyEvent book event = (false, book) ∨
      ∃ plan : Plan,
        planOf book.config.acceptUnknownOrderOps book.orders[event.orderId]? event = some plan ∧
        plan.Feasible book ∧
        applyEvent book event = (true, execute book event.orderId plan) := by
  rw [apply_event_eq]
  cases planned : planOf book.config.acceptUnknownOrderOps book.orders[event.orderId]? event with
  | none => exact .inl rfl
  | some plan =>
      by_cases feasible : plan.Feasible book
      · exact .inr ⟨plan, rfl, feasible, if_pos feasible⟩
      · exact .inl (if_neg feasible)

theorem apply_event_ledgered {book : OrderBook} {drained : Side → Int → Int}
    (ledgered : Ledgered book drained) (event : MarketEvent) :
    Ledgered (applyEvent book event).2 fun side price =>
      drained side price + carried side price (acceptedOrphan book event) := by
  rcases apply_event_cases book event with refused | ⟨plan, planned, feasible, executed⟩
  · have noOrphan : acceptedOrphan book event = none := by simp [acceptedOrphan, refused]
    simpa [refused, noOrphan, carried] using ledgered
  · rw [executed, accepted_orphan_eq book event plan planned feasible]
    exact execute_ledgered ledgered event plan (planned_of_plan _ _ _ _ planned) feasible

/-- Every run of events has an account, from any book that has one. -/
theorem run_ledgered {book : OrderBook} (accounted : ∃ drained, Ledgered book drained)
    (events : List MarketEvent) :
    ∃ drained, Ledgered (finalState applyEvent book events) drained := by
  refine invariant_run applyEvent (fun book => ∃ drained, Ledgered book drained) ?_ _ events
    accounted
  rintro book event ⟨drained, ledgered⟩
  exact ⟨_, apply_event_ledgered ledgered event⟩

theorem audited_step_ledgered (state : AuditedBook) (call : BookCall)
    (ledgered : Ledgered state.book state.drained) :
    Ledgered (auditedStep state call).2.book (auditedStep state call).2.drained := by
  cases call with
  | applyEvent event => exact apply_event_ledgered ledgered event
  | setConfig config => exact ⟨ledgered.sound, ledgered.tidy, ledgered.balanced,
      ledgered.drained_nonneg⟩
  | clear => exact empty_ledgered state.book.config

theorem audited_run_ledgered (config : OrderBookConfig) (calls : List BookCall) :
    Ledgered (finalState auditedStep ⟨{ config := config }, fun _ _ => 0⟩ calls).book
      (finalState auditedStep ⟨{ config := config }, fun _ _ => 0⟩ calls).drained := by
  exact invariant_run auditedStep (fun state => Ledgered state.book state.drained)
    audited_step_ledgered _ calls (empty_ledgered config)

/-- In every state any calls reach, displayed depth and drained depth make up
the resting quantity of the level; stored levels and orders are positive, so no
level outgrows or outlives the orders resting at it. -/
theorem depth_and_drained_make_up_resting (config : OrderBookConfig) (calls : List BookCall) :
    let reached := finalState auditedStep ⟨{ config := config }, fun _ _ => 0⟩ calls
    reached.book = finalState callStep { config := config } calls ∧
      (∀ side price, depthAtPrice reached.book side price + reached.drained side price =
        restingAt reached.book side price) ∧
      (∀ side price quantity, levelAt reached.book side price = some quantity →
        0 < quantity ∧ 0 ≤ price) ∧
      (∀ (orderId : Nat) (order : Order), reached.book.orders[orderId]? = some order →
        0 < order.quantity) ∧
      (∀ side price, depthAtPrice reached.book side price ≤ restingAt reached.book side price) ∧
      (∀ side price, (levelAt reached.book side price).isSome →
        ∃ (orderId : Nat) (order : Order), reached.book.orders[orderId]? = some order ∧
          order.side = side ∧ order.price = price) := by
  intro reached
  have ledgered := audited_run_ledgered config calls
  exact ⟨audited_run_book _ calls, ledgered.balanced, ledgered.tidy,
    fun orderId order stored => (ledgered.sound orderId order stored).quantity,
    depth_le_resting ledgered, exists_order_of_level ledgered⟩

end Calls

end TickForge.DepthLedger
