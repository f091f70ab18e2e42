import TickForge.StrictReference

/-!
# Laws of single events

A refused event leaves the book alone and an accepted one moves nothing but its
own entry and the levels it names. MODIFY is CANCEL followed by ADD, also where
the CANCEL fails. In strict mode a fill may be cut into pieces: the pieces after
the order's last share are refused and the book ends as after one fill.
-/

namespace TickForge.EventLaws

open Std (ExtTreeMap)
open KeyedTotals StepRuns MarketEventModel OrderBookModel OrderBookStep DepthLedger StrictReference

set_option autoImplicit false

section Entries

/-! What an accepted event leaves of the entry it finds. -/

theorem add_entry (event : MarketEvent) (isAdd : event.type = .add) (priced : 0 ≤ event.price)
    (positive : 0 < event.quantity) :
    referenceEntryStep none event = (true, some ⟨event.side, event.price, event.quantity⟩) := by
  simp only [referenceEntryStep, referenceAccepts, referenceEntry, isAdd, priced, positive,
    and_self, decide_true, if_true]

theorem cancel_entry (resting : Resting) (event : MarketEvent) (isCancel : event.type = .cancel) :
    referenceEntryStep (some resting) event = (true, none) := by
  simp [referenceEntryStep, referenceAccepts, referenceEntry, isCancel]

theorem modify_entry_at_level (resting : Resting) (event : MarketEvent)
    (isModify : event.type = .modify) (priced : 0 ≤ event.price) (positive : 0 < event.quantity) :
    referenceEntryStep (some resting) event =
      (true, some ⟨event.side, event.price, event.quantity⟩) := by
  simp only [referenceEntryStep, referenceAccepts, referenceEntry, isModify, priced, positive.le,
    and_self, decide_true, if_true, if_neg positive.ne']

theorem partial_trade_entry (resting : Resting) (event : MarketEvent) (isTrade : event.type = .trade)
    (sameSide : event.side = resting.side) (samePrice : event.price = resting.price)
    (positive : 0 < event.quantity) (partially : event.quantity < resting.quantity) :
    referenceEntryStep (some resting) event =
      (true, some { resting with quantity := resting.quantity - event.quantity }) := by
  have left : ¬resting.quantity - event.quantity = 0 := by omega
  simp only [referenceEntryStep, referenceAccepts, referenceEntry, isTrade, sameSide, samePrice,
    positive, min_eq_left partially.le, and_self, decide_true, if_true, if_neg left]

theorem whole_trade_entry (resting : Resting) (event : MarketEvent) (isTrade : event.type = .trade)
    (sameSide : event.side = resting.side) (samePrice : event.price = resting.price)
    (positive : 0 < event.quantity) (whole : resting.quantity ≤ event.quantity) :
    referenceEntryStep (some resting) event = (true, none) := by
  simp only [referenceEntryStep, referenceAccepts, referenceEntry, isTrade, sameSide, samePrice,
    positive, min_eq_right whole, sub_self, and_self, decide_true, if_true]

end Entries

section Locality

/-- The levels an event may touch: its own and that of the order its id names. -/
def Touches (known : Option Order) (event : MarketEvent) (side : Side) (price : Int) : Prop :=
  (side = event.side ∧ price = event.price) ∨
    ∃ order ∈ known, side = order.side ∧ price = order.price

theorem planned_takes_touch {acceptUnknown : Bool} {known : Option Order} {event : MarketEvent}
    {plan : Plan} (planned : Planned acceptUnknown event known plan) :
    ∀ move ∈ plan.takes, Touches known event move.side move.price := by
  intro move taken
  cases planned with
  | adds isAdd priced positive => cases taken
  | drains isOrphan accepted positive =>
      cases taken
      exact .inl ⟨rfl, rfl⟩
  | removes order leaves =>
      cases taken
      exact .inr ⟨order, rfl, rfl, rfl⟩
  | moves order isModify priced positive =>
      cases taken
      exact .inr ⟨order, rfl, rfl, rfl⟩
  | fills order isTrade positive sameSide samePrice partially =>
      cases taken
      exact .inl ⟨rfl, rfl⟩

theorem planned_gives_touch {acceptUnknown : Bool} {known : Option Order} {event : MarketEvent}
    {plan : Plan} (planned : Planned acceptUnknown event known plan) :
    ∀ move ∈ plan.gives, Touches known event move.side move.price := by
  intro move given
  cases planned with
  | adds isAdd priced positive =>
      cases given
      exact .inl ⟨rfl, rfl⟩
  | drains isOrphan accepted positive => cases given
  | removes order leaves => cases given
  | moves order isModify priced positive =>
      cases given
      exact .inl ⟨rfl, rfl⟩
  | fills order isTrade positive sameSide samePrice partially => cases given

theorem level_at_withdraw_elsewhere (book : OrderBook) (move : Move) (side : Side) (price : Int)
    (elsewhere : ¬(move.side = side ∧ move.price = price)) :
    levelAt (withdraw book move) side price = levelAt book side price := by
  rw [withdraw, level_at_put_level, if_neg elsewhere]

theorem level_at_deposit_elsewhere (book : OrderBook) (move : Move) (side : Side) (price : Int)
    (elsewhere : ¬(move.side = side ∧ move.price = price)) :
    levelAt (deposit book move) side price = levelAt book side price := by
  rw [deposit, level_at_put_level, if_neg elsewhere]

/-- A plan leaves every level alone that neither of its moves names. -/
theorem execute_level_elsewhere (book : OrderBook) (orderId : Nat) (plan : Plan) (side : Side)
    (price : Int) (untaken : ∀ move ∈ plan.takes, ¬(move.side = side ∧ move.price = price))
    (ungiven : ∀ move ∈ plan.gives, ¬(move.side = side ∧ move.price = price)) :
    levelAt (execute book orderId plan) side price = levelAt book side price := by
  obtain ⟨takes, entry, gives⟩ := plan
  have taken : levelAt (takeMove book takes) side price = levelAt book side price := by
    cases takes with
    | none => rfl
    | some move => exact level_at_withdraw_elsewhere book move side price (untaken move rfl)
  cases gives with
  | none => exact taken
  | some move =>
      have given := level_at_deposit_elsewhere (putOrder (takeMove book takes) orderId entry) move
        side price (ungiven move rfl)
      exact given.trans taken

/-- A refused event changes nothing. An accepted one changes at most its own
table entry, its own level and the level where its order stood before. -/
theorem refusal_is_atomic_acceptance_is_local (book : OrderBook) (event : MarketEvent) :
    ((applyEvent book event).1 = false → (applyEvent book event).2 = book) ∧
      ((applyEvent book event).1 = true →
        (applyEvent book event).2.config = book.config ∧
          (∀ orderId : Nat, orderId ≠ event.orderId →
            (applyEvent book event).2.orders[orderId]? = book.orders[orderId]?) ∧
          ∀ side price, ¬Touches book.orders[event.orderId]? event side price →
            levelAt (applyEvent book event).2 side price = levelAt book side price) := by
  rcases apply_event_cases book event with refused | ⟨plan, planned, feasible, executed⟩
  · rw [refused]
    constructor
    · intro _
      rfl
    · intro accepted
      cases accepted
  · have shape := planned_of_plan _ _ _ _ planned
    rw [executed]
    constructor
    · intro rejected
      cases rejected
    · intro _
      refine ⟨execute_config book event.orderId plan, ?_, ?_⟩
      · intro orderId other
        rw [execute_lookup, if_neg other.symm]
      · intro side price untouched
        apply execute_level_elsewhere
        · rintro move taken ⟨rfl, rfl⟩
          exact untouched (planned_takes_touch shape move taken)
        · rintro move given ⟨rfl, rfl⟩
          exact untouched (planned_gives_touch shape move given)

end Locality

section Replacement

/-- A CANCEL and an ADD that spell out a MODIFY. -/
structure SpellsOut (modify cancel add : MarketEvent) : Prop where
  isModify : modify.type = .modify
  isCancel : cancel.type = .cancel
  isAdd : add.type = .add
  sameOrder : cancel.orderId = modify.orderId ∧ add.orderId = modify.orderId
  sameLevel : add.side = modify.side ∧ add.price = modify.price
  sameQuantity : add.quantity = modify.quantity

theorem put_order_put_order (book : OrderBook) (orderId : Nat) (first second : Option Order) :
    putOrder (putOrder book orderId first) orderId second = putOrder book orderId second := by
  apply book_ext
  · rfl
  · intro other
    simp only [put_order_lookup]
    split_ifs <;> rfl
  · intro side price
    rfl

variable {book : OrderBook} {order : Order} {modify cancel add : MarketEvent}

/-- CANCEL of a resting order needs its whole quantity on its level. -/
theorem cancel_resting_eq (isCancel : cancel.type = .cancel)
    (resting : book.orders[cancel.orderId]? = some order) :
    applyEvent book cancel =
      if Covered book (orderMove order) then
        (true, putOrder (withdraw book (orderMove order)) cancel.orderId none)
      else (false, book) := by
  have planned : planOf book.config.acceptUnknownOrderOps (some order) cancel =
      some ⟨some (orderMove order), none, none⟩ := by
    simp only [planOf, isCancel]
  rw [apply_event_eq, resting, planned]
  exact carry_out_take _ _ _ _ _

theorem add_resting_refused (isAdd : add.type = .add)
    (resting : book.orders[add.orderId]? = some order) : applyEvent book add = (false, book) := by
  have planned : planOf book.config.acceptUnknownOrderOps (some order) add = none := by
    simp only [planOf, isAdd]
  rw [apply_event_eq, resting, planned]
  rfl

theorem add_fresh_eq (isAdd : add.type = .add) (fresh : book.orders[add.orderId]? = none)
    (priced : 0 ≤ add.price) (positive : 0 < add.quantity) :
    applyEvent book add =
      (true, deposit (putOrder book add.orderId (some (eventOrder add))) (eventMove add)) := by
  have planned : planOf book.config.acceptUnknownOrderOps none add =
      some ⟨none, some (eventOrder add), some (eventMove add)⟩ := by
    simp only [planOf, isAdd, if_pos (And.intro priced positive)]
  rw [apply_event_eq, fresh, planned]
  exact carry_out_give _ _ _ _

/-- MODIFY to nothing removes the order exactly where CANCEL does. -/
theorem modify_zero_eq (isModify : modify.type = .modify)
    (resting : book.orders[modify.orderId]? = some order) (priced : 0 ≤ modify.price)
    (emptied : modify.quantity = 0) :
    applyEvent book modify =
      if Covered book (orderMove order) then
        (true, putOrder (withdraw book (orderMove order)) modify.orderId none)
      else (false, book) := by
  have planned : planOf book.config.acceptUnknownOrderOps (some order) modify =
      some ⟨some (orderMove order), none, none⟩ := by
    simp only [planOf, isModify, if_pos (And.intro priced emptied.ge), if_pos emptied]
  rw [apply_event_eq, resting, planned]
  exact carry_out_take _ _ _ _ _

theorem modify_resting_eq (isModify : modify.type = .modify)
    (resting : book.orders[modify.orderId]? = some order) (priced : 0 ≤ modify.price)
    (positive : 0 < modify.quantity) :
    applyEvent book modify =
      if Covered book (orderMove order) then
        (true, deposit (putOrder (withdraw book (orderMove order)) modify.orderId
          (some { order with
            side := modify.side, price := modify.price, quantity := modify.quantity }))
          (eventMove modify))
      else (false, book) := by
  have planned : planOf book.config.acceptUnknownOrderOps (some order) modify =
      some ⟨some (orderMove order),
        some { order with
          side := modify.side, price := modify.price, quantity := modify.quantity },
        some (eventMove modify)⟩ := by
    simp only [planOf, isModify, if_pos (And.intro priced positive.le), if_neg positive.ne']
  rw [apply_event_eq, resting, planned]
  exact carry_out_take _ _ _ _ _

theorem modify_negative_refused (isModify : modify.type = .modify)
    (negative : modify.quantity < 0) : applyEvent book modify = (false, book) := by
  have refused : ¬(0 ≤ modify.price ∧ 0 ≤ modify.quantity) := fun valid =>
    not_lt.mpr valid.2 negative
  have planned : planOf book.config.acceptUnknownOrderOps book.orders[modify.orderId]? modify =
      none := by
    cases book.orders[modify.orderId]? with
    | none => simp only [planOf, isModify]
    | some order => simp only [planOf, isModify, if_neg refused]
  rw [apply_event_eq, planned]
  rfl

/-- The ADD after the CANCEL stores and shows what the MODIFY does. -/
theorem add_after_cancel_eq (spells : SpellsOut modify cancel add)
    (owned : order.orderId = modify.orderId) (priced : 0 ≤ modify.price)
    (positive : 0 < modify.quantity) :
    (applyEvent (putOrder book modify.orderId none) add).2 =
      deposit (putOrder book modify.orderId
        (some { order with
          side := modify.side, price := modify.price, quantity := modify.quantity }))
        (eventMove modify) := by
  have fresh : (putOrder book modify.orderId none).orders[add.orderId]? = none := by
    rw [spells.sameOrder.2, put_order_lookup, if_pos rfl]
  have entered : eventOrder add = { order with
      side := modify.side, price := modify.price, quantity := modify.quantity } := by
    simp only [eventOrder, spells.sameOrder.2, spells.sameLevel, spells.sameQuantity, owned]
  have moved : eventMove add = eventMove modify := by
    simp only [eventMove, spells.sameLevel, spells.sameQuantity]
  rw [add_fresh_eq spells.isAdd fresh (spells.sameLevel.2 ▸ priced)
    (spells.sameQuantity ▸ positive), entered, moved, spells.sameOrder.2, put_order_put_order]

/-- In every book any calls reach, MODIFY of a resting order does what CANCEL
and then ADD do, and to nothing what CANCEL does; where the CANCEL fails, none of
the three changes the book. -/
theorem modify_is_cancel_then_add (config : OrderBookConfig) (calls : List BookCall)
    (modify cancel add : MarketEvent) (spells : SpellsOut modify cancel add) (order : Order)
    (resting : (finalState callStep { config := config } calls).orders[modify.orderId]? =
      some order)
    (priced : 0 ≤ modify.price) :
    let book := finalState callStep { config := config } calls
    let cancelled := applyEvent book cancel
    (0 < modify.quantity → (applyEvent book modify).1 = cancelled.1 ∧
        (applyEvent book modify).2 = (applyEvent cancelled.2 add).2) ∧
      (modify.quantity = 0 → applyEvent book modify = cancelled) ∧
      (cancelled.1 = false → cancelled.2 = book ∧ applyEvent cancelled.2 add = (false, book) ∧
        applyEvent book modify = (false, book)) ∧
      (modify.quantity < 0 → applyEvent book modify = (false, book)) := by
  intro book cancelled
  have ledgered := audited_run_ledgered config calls
  rw [audited_run_book] at ledgered
  have owned : order.orderId = modify.orderId := (ledgered.sound _ order resting).id
  have cancelEq : cancelled = if Covered book (orderMove order) then
      (true, putOrder (withdraw book (orderMove order)) modify.orderId none)
      else (false, book) := by
    have known : book.orders[cancel.orderId]? = some order := by
      rw [spells.sameOrder.1]
      exact resting
    have applied := cancel_resting_eq spells.isCancel known
    rwa [spells.sameOrder.1] at applied
  have duplicate : applyEvent book add = (false, book) := by
    apply add_resting_refused spells.isAdd
    rw [spells.sameOrder.2]
    exact resting
  refine ⟨?_, ?_, ?_, modify_negative_refused spells.isModify⟩
  · intro positive
    rw [modify_resting_eq spells.isModify resting priced positive, cancelEq]
    split_ifs with covered
    · exact ⟨rfl, (add_after_cancel_eq spells owned priced positive).symm⟩
    · rw [duplicate]
      exact ⟨rfl, rfl⟩
  · intro emptied
    rw [modify_zero_eq spells.isModify resting priced emptied, cancelEq]
  · intro failed
    have uncovered : ¬Covered book (orderMove order) := by
      intro covered
      rw [cancelEq, if_pos covered] at failed
      cases failed
    rw [if_neg uncovered] at cancelEq
    rw [cancelEq]
    refine ⟨rfl, duplicate, ?_⟩
    rcases lt_trichotomy modify.quantity 0 with negative | emptied | positive
    · exact modify_negative_refused spells.isModify negative
    · rw [modify_zero_eq spells.isModify resting priced emptied, if_neg uncovered]
    · rw [modify_resting_eq spells.isModify resting priced positive, if_neg uncovered]

/-- An order is moved to another level; once an orphan fill has made its level too shallow, it
can be neither cancelled nor modified. -/
theorem shallow_level_keeps_the_order :
    let entered : MarketEvent := { orderId := 1, side := .buy, price := 100, quantity := 5 }
    let orphan : MarketEvent :=
      { orderId := 9, type := .trade, side := .buy, price := 100, quantity := 3 }
    let modify : MarketEvent :=
      { orderId := 1, type := .modify, side := .sell, price := 101, quantity := 2 }
    let cancel : MarketEvent := { orderId := 1, type := .cancel }
    let add : MarketEvent := { orderId := 1, side := .sell, price := 101, quantity := 2 }
    let full := finalState callStep { config := { acceptUnknownOrderOps := true } }
      [.applyEvent entered]
    let shallow := finalState callStep { config := { acceptUnknownOrderOps := true } }
      [.applyEvent entered, .applyEvent orphan]
    ((applyEvent full modify).1 = true ∧
        (applyEvent full modify).2 = (applyEvent (applyEvent full cancel).2 add).2 ∧
        depthAtPrice (applyEvent full modify).2 .sell 101 = 2) ∧
      (applyEvent shallow cancel).1 = false ∧ (applyEvent shallow cancel).2 = shallow ∧
        applyEvent (applyEvent shallow cancel).2 add = (false, shallow) ∧
        applyEvent shallow modify = (false, shallow) := by
  intro entered orphan modify cancel add full shallow
  have spells : SpellsOut modify cancel add := by
    constructor
    · rfl
    · rfl
    · rfl
    · exact ⟨rfl, rfl⟩
    · exact ⟨rfl, rfl⟩
    · rfl
  constructor
  · have moved := (modify_is_cancel_then_add { acceptUnknownOrderOps := true }
      [.applyEvent entered] modify cancel add spells ⟨1, .buy, 100, 5⟩ (by decide) (by decide)).1
      (by decide)
    have cancels : (applyEvent full cancel).1 = true := by decide
    exact ⟨moved.1.trans cancels, moved.2, by decide⟩
  · have kept := (modify_is_cancel_then_add { acceptUnknownOrderOps := true }
      [.applyEvent entered, .applyEvent orphan] modify cancel add spells ⟨1, .buy, 100, 5⟩
      (by decide) (by decide)).2.2.1
    have refused : (applyEvent shallow cancel).1 = false := by decide
    exact ⟨refused, kept refused⟩

end Replacement

section Fragments

/-- A call that leaves a strict book strict. -/
def StrictCall : BookCall → Prop
  | .setConfig config => config.acceptUnknownOrderOps = false
  | .applyEvent _ | .clear => True

theorem cleared_refines {book : OrderBook} (strict : book.config.acceptUnknownOrderOps = false) :
    Refines (clear book) ∅ where
  strict := strict
  ledgered := empty_ledgered book.config
  orders := by
    intro orderId
    simp [clear]

theorem strict_call_refines {book : OrderBook} {table : RestingTable}
    (refines : Refines book table) (call : BookCall) (strict : StrictCall call) :
    ∃ after : RestingTable, Refines (callStep book call).2 after := by
  cases call with
  | applyEvent event => exact ⟨_, (apply_event_refines refines event).2⟩
  | setConfig config =>
      have ledgered := refines.ledgered
      exact ⟨table, strict, ⟨ledgered.sound, ledgered.tidy, ledgered.balanced,
        ledgered.drained_nonneg⟩, refines.orders⟩
  | clear => exact ⟨∅, cleared_refines refines.strict⟩

/-- Every book that strict calls reach refines the reference. -/
theorem strict_calls_refine (calls : List BookCall) (strict : ∀ call ∈ calls, StrictCall call) :
    ∃ table : RestingTable, Refines (finalState callStep {} calls) table := by
  apply invariant_allowed_run callStep StrictCall fun book => ∃ table, Refines book table
  · rintro book call strictCall ⟨table, refines⟩
    exact strict_call_refines refines call strictCall
  · exact strict
  · exact ⟨∅, empty_refines⟩

/-- A TRADE on a resting order at the order's own side and price. -/
structure FillsOrder (orderId : Nat) (order : Order) (fill : MarketEvent) : Prop where
  isTrade : fill.type = .trade
  id : fill.orderId = orderId
  side : fill.side = order.side
  price : fill.price = order.price
  positive : 0 < fill.quantity

def filledQuantity (fills : List MarketEvent) : Int := (fills.map MarketEvent.quantity).sum

/-- What is left of an order after fills for `filled` in total. -/
def leftAfter (order : Order) (filled : Int) : Option Resting :=
  if filled < order.quantity then some ⟨order.side, order.price, order.quantity - filled⟩ else none

variable {orderId : Nat} {order : Order}

theorem fill_step (filled : Int) (fill : MarketEvent) (own : FillsOrder orderId order fill) :
    referenceEntryStep (leftAfter order filled) fill =
      (decide (filled < order.quantity), leftAfter order (filled + fill.quantity)) := by
  have positive := own.positive
  unfold leftAfter
  by_cases remains : filled < order.quantity
  · simp only [referenceEntryStep, referenceAccepts, referenceEntry, own.isTrade, own.side,
      own.price, own.positive, and_self, decide_true, if_true, remains]
    by_cases partially : filled + fill.quantity < order.quantity
    · have taken : min fill.quantity (order.quantity - filled) = fill.quantity := by omega
      have stillOpen : order.quantity - filled - fill.quantity ≠ 0 := by omega
      rw [if_pos partially, taken, if_neg stillOpen, sub_sub]
    · have taken : min fill.quantity (order.quantity - filled) = order.quantity - filled := by omega
      rw [if_neg partially, taken, sub_self, if_pos rfl]
  · have gone : ¬filled + fill.quantity < order.quantity := by omega
    simp only [if_neg gone, referenceEntryStep, referenceAccepts, own.isTrade, remains,
      Bool.false_eq_true, if_false, decide_false]

/-- Fills add up: the entry after a list of them depends on their sum alone. -/
theorem fills_entry (filled : Int) (fills : List MarketEvent)
    (own : ∀ fill ∈ fills, FillsOrder orderId order fill) :
    finalState referenceEntryStep (leftAfter order filled) fills =
      leftAfter order (filled + filledQuantity fills) := by
  induction fills generalizing filled with
  | nil => simp [filledQuantity]
  | cons fill rest ih =>
      have step := fill_step filled fill (own fill List.mem_cons_self)
      have later : ∀ other ∈ rest, FillsOrder orderId order other := fun other member =>
        own other (List.mem_cons_of_mem fill member)
      rw [final_state_cons, step, ih _ later]
      simp only [filledQuantity, List.map_cons, List.sum_cons, add_assoc]

theorem fills_own (fills : List MarketEvent) (own : ∀ fill ∈ fills, FillsOrder orderId order fill)
    (other : Nat) :
    fills.filter (fun fill => fill.orderId = other) = if orderId = other then fills else [] := by
  split_ifs with same
  · apply List.filter_eq_self.mpr
    intro fill member
    exact decide_eq_true ((own fill member).id.trans same)
  · apply List.filter_eq_nil_iff.mpr
    intro fill member named
    exact same ((own fill member).id.symm.trans (of_decide_eq_true named))

/-- Fills on one order rewrite that order's entry and no other. -/
theorem fills_table (table : RestingTable) (fills : List MarketEvent)
    (own : ∀ fill ∈ fills, FillsOrder orderId order fill)
    (entry : table[orderId]? = leftAfter order 0) :
    finalState referenceStep table fills =
      put table orderId (leftAfter order (filledQuantity fills)) := by
  apply ExtTreeMap.ext_getElem?
  intro other
  have lookup := keyed_final_lookup MarketEvent.orderId referenceEntryStep table fills other
  rw [fills_own fills own other] at lookup
  rw [lookup_put]
  apply lookup.trans
  split_ifs with same
  · rw [← same, entry, fills_entry 0 fills own, zero_add]
  · rfl

variable {book : OrderBook} {table : RestingTable}

theorem resting_entry (refines : Refines book table)
    (resting : book.orders[orderId]? = some order) : table[orderId]? = leftAfter order 0 := by
  have positive := (refines.ledgered.sound orderId order resting).quantity
  rw [refines.orders orderId, Option.map_eq_some_iff] at resting
  obtain ⟨entry, stored, rfl⟩ := resting
  rw [stored, leftAfter, if_pos positive, sub_zero]
  rfl

theorem fills_refine (refines : Refines book table)
    (resting : book.orders[orderId]? = some order) (fills : List MarketEvent)
    (own : ∀ fill ∈ fills, FillsOrder orderId order fill) :
    Refines (finalState applyEvent book fills)
      (put table orderId (leftAfter order (filledQuantity fills))) := by
  rw [← fills_table table fills own (resting_entry refines resting)]
  have simulated := simulation_run applyEvent referenceStep Refines
    (fun _ _ event related => apply_event_refines related event) book table fills refines
  exact simulated.2.2

/-- A fill is accepted while the fills before it leave something to take. -/
theorem fill_accepted_iff (refines : Refines book table)
    (resting : book.orders[orderId]? = some order) (before : List MarketEvent)
    (own : ∀ fill ∈ before, FillsOrder orderId order fill) (fill : MarketEvent)
    (ownFill : FillsOrder orderId order fill) :
    (applyEvent (finalState applyEvent book before) fill).1 = true ↔
      filledQuantity before < order.quantity := by
  have stillRefines := fills_refine refines resting before own
  have answered := (apply_event_refines stillRefines fill).1
  rw [answered, referenceStep, keyedStep, ownFill.id, lookup_put, if_pos rfl,
    fill_step (filledQuantity before) fill ownFill]
  exact decide_eq_true_iff

theorem fill_depth (refines : Refines book table)
    (resting : book.orders[orderId]? = some order) (fill : MarketEvent)
    (own : FillsOrder orderId order fill) (side : Side) (price : Int) :
    depthAtPrice (applyEvent book fill).2 side price =
      depthAtPrice book side price -
        carried side price (some ⟨order.side, order.price, min fill.quantity order.quantity⟩) := by
  rw [← own.id] at resting
  have matching : 0 < fill.quantity ∧ fill.side = order.side ∧ fill.price = order.price :=
    ⟨own.positive, own.side, own.price⟩
  have planned : planOf false (some order) fill =
      some ⟨some ⟨order.side, order.price, min fill.quantity order.quantity⟩,
        if order.quantity ≤ fill.quantity then none
        else some { order with quantity := order.quantity - fill.quantity }, none⟩ := by
    simp only [planOf, own.isTrade, if_pos matching]
  rw [← resting] at planned
  have feasible := strict_feasible refines.ledgered fill _ (planned_of_plan _ _ _ _ planned)
  rw [apply_event_eq, refines.strict, planned, carryOut, if_pos feasible, execute_depth]
  simp only [carried, add_zero]

/-- In a book strict calls reach, fills on one order at its own level end where
one fill for their sum ends. They are accepted until the order is exhausted, and
together take the smaller of their sum and the order's quantity off its level.
The one fill is positive, so there is at least one piece. -/
theorem fills_fragment_freely (calls : List BookCall) (strict : ∀ call ∈ calls, StrictCall call)
    (orderId : Nat) (order : Order)
    (resting : (finalState callStep {} calls).orders[orderId]? = some order)
    (fills : List MarketEvent) (own : ∀ fill ∈ fills, FillsOrder orderId order fill)
    (whole : MarketEvent) (ownWhole : FillsOrder orderId order whole)
    (total : whole.quantity = filledQuantity fills) :
    let book := finalState callStep {} calls
    let after := finalState applyEvent book fills
    after = (applyEvent book whole).2 ∧
      (∀ before fill rest, fills = before ++ fill :: rest →
        ((applyEvent (finalState applyEvent book before) fill).1 = true ↔
          filledQuantity before < order.quantity)) ∧
      ∀ side price, depthAtPrice book side price - depthAtPrice after side price =
        if side = order.side ∧ price = order.price then min (filledQuantity fills) order.quantity
        else 0 := by
  intro book after
  obtain ⟨table, refines⟩ := strict_calls_refine calls strict
  have ownOnly : ∀ fill ∈ [whole], FillsOrder orderId order fill := by
    intro fill member
    rwa [List.mem_singleton.mp member]
  have sameSum : filledQuantity [whole] = filledQuantity fills := by
    rw [← total]
    exact List.sum_singleton
  have alsoRefines := fills_refine refines resting [whole] ownOnly
  rw [sameSum] at alsoRefines
  have sameBook : after = (applyEvent book whole).2 :=
    refines_unique (fills_refine refines resting fills own) alsoRefines
  refine ⟨sameBook, ?_, ?_⟩
  · rintro before fill rest rfl
    apply fill_accepted_iff refines resting before
    · intro earlier member
      exact own earlier (List.mem_append_left _ member)
    · exact own fill (List.mem_append_right _ List.mem_cons_self)
  · intro side price
    rw [sameBook, fill_depth refines resting whole ownWhole side price, total, sub_sub_cancel]
    simp only [carried, eq_comm]

/-- Three fills on an order of seven: the third finds nothing left. -/
theorem third_fill_is_refused :
    let entered : MarketEvent := { orderId := 1, side := .buy, price := 100, quantity := 7 }
    let shared : MarketEvent := { orderId := 2, side := .buy, price := 100, quantity := 4 }
    let order : Order := ⟨1, .buy, 100, 7⟩
    let fill (quantity : Int) : MarketEvent :=
      { orderId := 1, type := .trade, side := .buy, price := 100, quantity := quantity }
    let fills := [fill 3, fill 6, fill 2]
    let book := finalState callStep {} [.applyEvent entered, .applyEvent shared]
    let after := finalState applyEvent book fills
    after = (applyEvent book (fill 11)).2 ∧
      (∀ before fill rest, fills = before ++ fill :: rest →
        ((applyEvent (finalState applyEvent book before) fill).1 = true ↔
          filledQuantity before < order.quantity)) ∧
      ∀ side price, depthAtPrice book side price - depthAtPrice after side price =
        if side = order.side ∧ price = order.price then min (filledQuantity fills) order.quantity
        else 0 := by
  intro entered shared order fill fills
  have fillsOrder : ∀ quantity, 0 < quantity → FillsOrder 1 order (fill quantity) := by
    intro quantity positive
    exact ⟨rfl, rfl, rfl, rfl, positive⟩
  have own : ∀ piece ∈ fills, FillsOrder 1 order piece := by
    intro piece member
    simp only [fills, List.mem_cons, List.not_mem_nil, or_false] at member
    rcases member with rfl | rfl | rfl
    · exact fillsOrder 3 (by decide)
    · exact fillsOrder 6 (by decide)
    · exact fillsOrder 2 (by decide)
  have strict : ∀ call ∈ [BookCall.applyEvent entered, .applyEvent shared], StrictCall call := by
    intro call member
    simp only [List.mem_cons, List.not_mem_nil, or_false] at member
    rcases member with rfl | rfl <;> trivial
  exact fills_fragment_freely [.applyEvent entered, .applyEvent shared] strict 1 order (by decide)
    fills own (fill 11) (fillsOrder 11 (by decide)) (by decide)

end Fragments

end TickForge.EventLaws
