import TickForge.EventLaws
import TickForge.OrphanRemoval

/-!
# Price levels do not interfere

In a feed whose ids keep to one level each, what happens at a level is decided by the
events of that level alone, orphan reductions included. Orders of one level may get in
each other's way; those of two levels never do.
-/

namespace TickForge.LevelIsolation

open KeyedTotals StepRuns MarketEventModel OrderBookModel OrderBookStep EventLaws OrphanRemoval

set_option autoImplicit false

abbrev Level := Side × Int

def eventLevel (event : MarketEvent) : Level := (event.side, event.price)

section Steps

/-- The orders under the ids in question stand at the levels of their ids. -/
def OnLevels (Named : Nat → Prop) (levelOf : Nat → Level) (book : OrderBook) : Prop :=
  ∀ (orderId : Nat) (order : Order), Named orderId → book.orders[orderId]? = some order →
    (order.side, order.price) = levelOf orderId

/-- The second book is like the first one as far as one level is concerned. -/
structure SameLevel (Named : Nat → Prop) (levelOf : Nat → Level) (level : Level)
    (book part : OrderBook) : Prop where
  onLevels : OnLevels Named levelOf book
  mode : part.config = book.config
  shown : levelAt part level.1 level.2 = levelAt book level.1 level.2
  orders : ∀ orderId, Named orderId → levelOf orderId = level →
    part.orders[orderId]? = book.orders[orderId]?

def moveLevel (move : Move) : Level := (move.side, move.price)

variable {acceptUnknown : Bool} {event : MarketEvent} {known : Option Order} {plan : Plan}
  {level : Level}

/-- A plan for an event and an order of one level has its moves there. -/
theorem plan_on_level (planned : Planned acceptUnknown event known plan)
    (own : eventLevel event = level) (stands : ∀ order ∈ known, (order.side, order.price) = level) :
    (∀ move ∈ plan.takes, moveLevel move = level) ∧ (∀ move ∈ plan.gives, moveLevel move = level) ∧
      ∀ order ∈ plan.entry, (order.side, order.price) = level := by
  cases planned with
  | adds isAdd priced positive =>
      refine ⟨?_, ?_, ?_⟩ <;> intro found same <;> cases same
      · exact own
      · exact own
  | drains isOrphan accepted positive =>
      refine ⟨?_, ?_, ?_⟩ <;> intro found same <;> cases same
      exact own
  | removes order leaves =>
      refine ⟨?_, ?_, ?_⟩ <;> intro found same <;> cases same
      exact stands order rfl
  | moves order isModify priced positive =>
      refine ⟨?_, ?_, ?_⟩ <;> intro found same <;> cases same
      · exact stands order rfl
      · exact own
      · exact own
  | fills order isTrade positive sameSide samePrice partially =>
      refine ⟨?_, ?_, ?_⟩ <;> intro found same <;> cases same
      · exact own
      · exact stands order rfl

theorem level_at_withdraw (book part : OrderBook) (move : Move) (side : Side) (price : Int)
    (same : levelAt part side price = levelAt book side price) (here : moveLevel move = (side, price)) :
    levelAt (withdraw part move) side price = levelAt (withdraw book move) side price := by
  have depth : depthAtPrice part move.side move.price = depthAtPrice book move.side move.price := by
    have sides := Prod.mk.inj here
    rw [sides.1, sides.2, depth_at_price_eq, depth_at_price_eq, same]
  rw [withdraw, withdraw, level_at_put_level, level_at_put_level, depth, same]

theorem level_at_deposit (book part : OrderBook) (move : Move) (side : Side) (price : Int)
    (same : levelAt part side price = levelAt book side price) (here : moveLevel move = (side, price)) :
    levelAt (deposit part move) side price = levelAt (deposit book move) side price := by
  have depth : depthAtPrice part move.side move.price = depthAtPrice book move.side move.price := by
    have sides := Prod.mk.inj here
    rw [sides.1, sides.2, depth_at_price_eq, depth_at_price_eq, same]
  rw [deposit, deposit, level_at_put_level, level_at_put_level, depth, same]

theorem level_at_execute (book part : OrderBook) (orderId : Nat) (plan : Plan) (side : Side)
    (price : Int) (same : levelAt part side price = levelAt book side price)
    (takes : ∀ move ∈ plan.takes, moveLevel move = (side, price))
    (gives : ∀ move ∈ plan.gives, moveLevel move = (side, price)) :
    levelAt (execute part orderId plan) side price =
      levelAt (execute book orderId plan) side price := by
  rcases plan with ⟨taken, entry, given⟩
  have taking : levelAt (takeMove part taken) side price = levelAt (takeMove book taken) side price := by
    cases taken with
    | none => exact same
    | some move => exact level_at_withdraw book part move side price same (takes move rfl)
  cases given with
  | none => exact taking
  | some move => exact level_at_deposit _ _ move side price taking (gives move rfl)

variable {Named : Nat → Prop} {levelOf : Nat → Level} {book part : OrderBook}

theorem execute_on_levels (onLevels : OnLevels Named levelOf book)
    (entry : ∀ order ∈ plan.entry, (order.side, order.price) = levelOf event.orderId) :
    OnLevels Named levelOf (execute book event.orderId plan) := by
  intro orderId order named stored
  rw [execute_lookup] at stored
  split_ifs at stored with own
  · rw [← own]
    exact entry order stored
  · exact onLevels orderId order named stored

/-- An event of the level is answered alike and does the same to it. -/
theorem event_within (same : SameLevel Named levelOf level book part) (named : Named event.orderId)
    (keeps : eventLevel event = levelOf event.orderId) (own : levelOf event.orderId = level) :
    (applyEvent book event).1 = (applyEvent part event).1 ∧
      SameLevel Named levelOf level (applyEvent book event).2 (applyEvent part event).2 := by
  have known := same.orders event.orderId named own
  rw [apply_event_eq part, same.mode, known, apply_event_eq book]
  cases planned : planOf book.config.acceptUnknownOrderOps book.orders[event.orderId]? event with
  | none => exact ⟨rfl, same⟩
  | some plan =>
      have stands : ∀ order ∈ book.orders[event.orderId]?, (order.side, order.price) = level := by
        intro order stored
        rw [← own]
        exact same.onLevels event.orderId order named stored
      rcases plan_on_level (planned_of_plan _ _ _ _ planned) (keeps.trans own) stands with
        ⟨takes, gives, entry⟩
      have feasible : plan.Feasible part ↔ plan.Feasible book := by
        unfold Plan.Feasible Covered
        apply forall₂_congr
        intro move taken
        have sides := Prod.mk.inj (takes move taken)
        rw [depth_at_price_eq, depth_at_price_eq, sides.1, sides.2, same.shown]
      simp only [carryOut, feasible]
      split_ifs
      · refine ⟨rfl, ?_, ?_, ?_, ?_⟩
        · apply execute_on_levels same.onLevels
          rw [own]
          exact entry
        · rw [execute_config, execute_config, same.mode]
        · exact level_at_execute book part event.orderId plan level.1 level.2 same.shown takes gives
        · intro orderId isNamed onLevel
          rw [execute_lookup, execute_lookup, same.orders orderId isNamed onLevel]
      · exact ⟨rfl, same⟩

/-- An event of another level leaves it as it was. -/
theorem event_without (same : SameLevel Named levelOf level book part) (named : Named event.orderId)
    (keeps : eventLevel event = levelOf event.orderId) (other : levelOf event.orderId ≠ level) :
    SameLevel Named levelOf level (applyEvent book event).2 part := by
  rw [apply_event_eq book]
  cases planned : planOf book.config.acceptUnknownOrderOps book.orders[event.orderId]? event with
  | none => exact same
  | some plan =>
      have stands : ∀ order ∈ book.orders[event.orderId]?,
          (order.side, order.price) = levelOf event.orderId :=
        fun order stored => same.onLevels event.orderId order named stored
      rcases plan_on_level (planned_of_plan _ _ _ _ planned) keeps stands with ⟨takes, gives, entry⟩
      have elsewhere : ∀ move : Move, moveLevel move = levelOf event.orderId →
          ¬(move.side = level.1 ∧ move.price = level.2) := by
        intro move isThere here
        exact other (isThere.symm.trans (Prod.ext here.1 here.2))
      rw [carryOut]
      split_ifs
      · refine ⟨execute_on_levels same.onLevels entry, ?_, ?_, ?_⟩
        · rw [execute_config, same.mode]
        · rw [execute_level_elsewhere book event.orderId plan level.1 level.2
            (fun move taken => elsewhere move (takes move taken))
            fun move given => elsewhere move (gives move given), same.shown]
        · intro orderId isNamed onLevel
          have apart : event.orderId ≠ orderId := by
            rintro rfl
            exact other onLevel
          rw [execute_lookup, if_neg apart, same.orders orderId isNamed onLevel]
      · exact same

end Steps

section Runs

/-- Every event names the level of its id. -/
def KeepsLevels (levelOf : Nat → Level) (events : List MarketEvent) : Prop :=
  ∀ event ∈ events, eventLevel event = levelOf event.orderId

/-- The events of one level alone: the level gets the same answers and is left the same. -/
theorem isolated_level {Named : Nat → Prop} {levelOf : Nat → Level} {book : OrderBook}
    (onLevels : OnLevels Named levelOf book) (events : List MarketEvent)
    (named : ∀ event ∈ events, Named event.orderId) (keeps : KeepsLevels levelOf events)
    (level : Level) :
    let own := events.filter fun event => eventLevel event = level
    (trace applyEvent book events).filter (fun pair => eventLevel pair.1 = level) =
        trace applyEvent book own ∧
      SameLevel Named levelOf level (finalState applyEvent book events)
        (finalState applyEvent book own) := by
  have start : SameLevel Named levelOf level book book :=
    ⟨onLevels, rfl, rfl, fun _ _ _ => rfl⟩
  apply isolated_run applyEvent
    (fun event => Named event.orderId ∧ eventLevel event = levelOf event.orderId)
    (fun event => eventLevel event = level)
  · intro book part event allowed isOwn same
    exact event_within same allowed.1 allowed.2 (allowed.2.symm.trans (of_decide_eq_true isOwn))
  · intro book part event allowed isOther same
    apply event_without same allowed.1 allowed.2
    intro onLevel
    exact of_decide_eq_false isOther (allowed.2.trans onLevel)
  · intro event listed
    exact ⟨named event listed, keeps event listed⟩
  · exact start

/-- In either mode and for every feed whose ids keep to their levels: a level gets the
answers, shows the depth and holds the orders it would have if nothing ever happened
at another one. -/
theorem levels_do_not_interfere (config : OrderBookConfig) (levelOf : Nat → Level)
    (events : List MarketEvent) (keeps : KeepsLevels levelOf events) (level : Level) :
    let own := events.filter fun event => eventLevel event = level
    (trace applyEvent { config := config } events).filter (fun pair => eventLevel pair.1 = level) =
        trace applyEvent { config := config } own ∧
      levelAt (finalState applyEvent { config := config } events) level.1 level.2 =
        levelAt (finalState applyEvent { config := config } own) level.1 level.2 ∧
      ∀ orderId : Nat, levelOf orderId = level →
        (finalState applyEvent { config := config } events).orders[orderId]? =
          (finalState applyEvent { config := config } own).orders[orderId]? := by
  have empty : OnLevels (fun _ => True) levelOf { config := config } := by
    intro orderId order _ stored
    cases stored
  have isolated := isolated_level empty events (fun _ _ => trivial) keeps level
  refine ⟨isolated.1, isolated.2.shown.symm, ?_⟩
  intro orderId onLevel
  exact (isolated.2.orders orderId trivial onLevel).symm

/-- Two bids at one price and an ask; an orphan reduction takes from the bids. -/
theorem drained_bids_leave_the_ask_alone :
    let levelOf : Nat → Level := fun orderId => if orderId = 3 then (.sell, 105) else (.buy, 100)
    let events : List MarketEvent :=
      [{ orderId := 1, side := .buy, price := 100, quantity := 5 },
        { orderId := 3, side := .sell, price := 105, quantity := 2 },
        { orderId := 2, side := .buy, price := 100, quantity := 5 },
        { type := .cancel, orderId := 9, side := .buy, price := 100, quantity := 7 }]
    let own := events.filter fun event => eventLevel event = (.sell, 105)
    (trace applyEvent orphanBook events).filter (fun pair => eventLevel pair.1 = (.sell, 105)) =
        trace applyEvent orphanBook own ∧
      levelAt (finalState applyEvent orphanBook events) .sell 105 =
        levelAt (finalState applyEvent orphanBook own) .sell 105 ∧
      ∀ orderId : Nat, levelOf orderId = (.sell, 105) →
        (finalState applyEvent orphanBook events).orders[orderId]? =
          (finalState applyEvent orphanBook own).orders[orderId]? := by
  intro levelOf events own
  have keeps : KeepsLevels levelOf events := by
    intro event listed
    revert event
    decide
  exact levels_do_not_interfere { acceptUnknownOrderOps := true } levelOf events keeps (.sell, 105)

end Runs

end TickForge.LevelIsolation
