import TickForge.LobsterExchange
import TickForge.OrderBookStep

/-!
# One message in three books

A valid message changes one exchange order. The adapter turns it into one row,
by the entry it tracks under the id or by none, and the engine carries the row
out. An entry step says what the three do at that id; whichever branch the
adapter takes, the event is accepted and the books still agree.
-/

namespace TickForge.LobsterSteps

open KeyedTotals MarketEventModel OrderBookModel OrderBookStep LobsterAdapterModel LobsterExchange

set_option autoImplicit false

section Steps

/-- The engine's record of an order the adapter is tracking. -/
def sessionOrder (orderId : Nat) (order : ActiveOrder) : Order :=
  ⟨orderId, order.side, order.price, order.size⟩

/-- The exchange's record of it. -/
def displayedOrder (order : ActiveOrder) : ExchangeOrder := ⟨order.side, order.price, order.size⟩

/-- Engine, adapter and exchange tell the same story: session orders are known
to all three and every level shows the exchange's total. -/
structure Reconstructs (seedIdBase : Nat) (book : OrderBook) (active : ActiveTable)
    (exchange : ExchangeBook) : Prop where
  accepts : book.config.acceptUnknownOrderOps = true
  known : ∀ orderId : Nat, orderId < seedIdBase →
    book.orders[orderId]? = (active[orderId]?).map (sessionOrder orderId)
  tracked : ∀ (orderId : Nat) (order : ActiveOrder), active[orderId]? = some order →
    exchange[orderId]? = some (displayedOrder order)
  sound : ∀ (orderId : Nat) (order : ExchangeOrder), exchange[orderId]? = some order →
    SoundExchangeOrder seedIdBase orderId order
  depth : ∀ side price, depthAtPrice book side price = exchangeDepth exchange side price

/-- What a level must show for the plan of one message: the plan takes no more
than the resting order has left at its own level. -/
def WithinOrder (resting : Option ExchangeOrder) (move : Move) : Prop :=
  ∃ order, resting = some order ∧ move.side = order.side ∧ move.price = order.price ∧
    0 < move.quantity ∧ move.quantity ≤ order.remaining

/-- One message at its own id: the event written, its plan in the engine and the
entries the adapter and the exchange are left with. -/
structure EntryStep (existing : Option ActiveOrder) (resting : Option ExchangeOrder)
    (message : Message) (event : MarketEvent) (left : Option ActiveOrder) (plan : Plan) :
    Prop where
  planned : planOf true (existing.map (sessionOrder message.orderId)) event = some plan
  stored : plan.entry = left.map (sessionOrder message.orderId)
  tracked : ∀ order ∈ left, exchangeEntry resting message = some (displayedOrder order)
  within : ∀ move ∈ plan.takes, WithinOrder resting move
  balanced : ∀ side price,
    share (exchangeWeight side price) message.orderId resting + carried side price plan.gives =
      share (exchangeWeight side price) message.orderId (exchangeEntry resting message) +
        carried side price plan.takes

theorem after_reduction_share (order : ExchangeOrder) (size : Int) (orderId : Nat) (side : Side)
    (price : Int) :
    share (exchangeWeight side price) orderId (afterReduction order size) +
        carried side price (some ⟨order.side, order.price, size⟩) =
      share (exchangeWeight side price) orderId (some order) := by
  unfold afterReduction
  split_ifs with whole
  · simp only [share_none, share_some, exchangeWeight, carried, whole, zero_add]
  · simp only [share_some, exchangeWeight, carried]
    split_ifs <;> omega

/-- A level shows at least what each of its exchange orders has left. -/
theorem remaining_le_depth {seedIdBase : Nat} {book : OrderBook} {active : ActiveTable}
    {exchange : ExchangeBook} (agrees : Reconstructs seedIdBase book active exchange)
    (orderId : Nat) (order : ExchangeOrder) (resting : exchange[orderId]? = some order) :
    order.remaining ≤ depthAtPrice book order.side order.price := by
  calc
    order.remaining = exchangeWeight order.side order.price orderId order :=
      (if_pos ⟨rfl, rfl⟩).symm
    _ ≤ exchangeDepth exchange order.side order.price :=
      weight_le_total _ exchange orderId order resting
        (exchange_weight_nonneg agrees.sound order.side order.price)
    _ = depthAtPrice book order.side order.price := (agrees.depth _ _).symm

/-- The event of an entry step is accepted and the three books still agree. -/
theorem entry_step_reconstructs {seedIdBase : Nat} {book : OrderBook}
    {active changed : ActiveTable} {exchange : ExchangeBook} {message : Message}
    {event : MarketEvent} {left : Option ActiveOrder} {plan : Plan}
    (agrees : Reconstructs seedIdBase book active exchange)
    (valid : ValidMessage seedIdBase exchange[message.orderId]? message)
    (below : message.orderId < seedIdBase) (named : event.orderId = message.orderId)
    (changes : ∀ orderId : Nat, changed[orderId]? =
      if message.orderId = orderId then left else active[orderId]?)
    (steps : EntryStep active[message.orderId]? exchange[message.orderId]? message event left
      plan) :
    (applyEvent book event).1 = true ∧
      Reconstructs seedIdBase (applyEvent book event).2 changed
        (exchangeStep exchange message) := by
  have planned : planOf book.config.acceptUnknownOrderOps book.orders[event.orderId]? event =
      some plan := by
    rw [agrees.accepts, named, agrees.known message.orderId below]
    exact steps.planned
  have feasible : plan.Feasible book := by
    intro move taken
    rcases steps.within move taken with ⟨order, rests, side, price, positive, bounded⟩
    have deep := remaining_le_depth agrees message.orderId order rests
    refine ⟨positive, ?_⟩
    rw [side, price]
    exact bounded.trans deep
  have executed : applyEvent book event = (true, execute book message.orderId plan) := by
    rw [apply_event_eq, planned, ← named]
    exact if_pos feasible
  rw [executed]
  refine ⟨rfl, ?_⟩
  constructor
  · rw [execute_config]
    exact agrees.accepts
  · intro orderId small
    rw [execute_lookup, changes]
    split_ifs with own
    · rw [steps.stored, own]
    · exact agrees.known orderId small
  · intro orderId order stored
    rw [changes] at stored
    rw [exchange_step_lookup]
    split_ifs at stored ⊢ with own
    · exact steps.tracked order stored
    · exact agrees.tracked orderId order stored
  · intro orderId order stored
    rw [exchange_step_lookup] at stored
    split_ifs at stored with own
    · rw [← own]
      exact exchange_entry_sound valid (fun held rests => agrees.sound _ held rests) order stored
    · exact agrees.sound orderId order stored
  · intro side price
    have before := agrees.depth side price
    have balanced := steps.balanced side price
    rw [execute_depth, exchange_step_depth]
    omega

end Steps

section Conversions

/-- The event of a message's row at the default price scale. -/
abbrev reportedEvent (timestampNs : Nat) (message : Message) (type : EventType) (quantity : Int) :
    MarketEvent :=
  ⟨timestampNs, type, message.orderId, directedSide message, message.price, quantity⟩

variable {timestampNs : Nat} {message : Message} {resting : Option ExchangeOrder}

theorem submission_entry (isType : message.type = 1) (positive : 0 < message.size)
    (priced : 0 ≤ message.price) :
    EntryStep none none message (reportedEvent timestampNs message .add message.size)
      (some ⟨message.orderId, directedSide message, message.price, message.size⟩)
      ⟨none, some (eventOrder (reportedEvent timestampNs message .add message.size)),
        some (eventMove (reportedEvent timestampNs message .add message.size))⟩ where
  planned := if_pos ⟨priced, positive⟩
  stored := rfl
  tracked := by
    intro order entered
    cases entered
    exact if_pos isType
  within := by
    intro move taken
    cases taken
  balanced := by
    intro side price
    rw [exchangeEntry, if_pos isType, share_none, share_some]
    exact add_comm _ _

/-- An order the adapter does not track is drained from its level. -/
theorem orphan_entry (type : EventType) (isOrphan : type = .cancel ∨ type = .trade)
    (order : ExchangeOrder) (reduces : Reduces resting message order) :
    EntryStep none resting message (reportedEvent timestampNs message type message.size) none
      ⟨some ⟨order.side, order.price, message.size⟩, none, none⟩ where
  planned := by
    rw [← reduces.names.side, ← reduces.names.price]
    rcases isOrphan with rfl | rfl
    · exact if_pos ⟨rfl, reduces.positive⟩
    · exact if_pos ⟨rfl, reduces.positive⟩
  stored := rfl
  tracked := by
    intro order entered
    cases entered
  within := by
    intro move taken
    cases taken
    exact ⟨order, reduces.names.rests, rfl, rfl, reduces.positive, reduces.bounded⟩
  balanced := by
    intro side price
    have left := after_reduction_share order message.size message.orderId side price
    rw [reduces.leaves, reduces.names.rests, left]
    exact add_zero _

variable {tracked : ActiveOrder}

/-- A tracked order that is used up is removed by a CANCEL or by its last TRADE. -/
theorem removal_entry (type : EventType) (quantity : Int)
    (removes : type = .cancel ∨ (type = .trade ∧ quantity = message.size))
    (reduces : Reduces (some (displayedOrder tracked)) message (displayedOrder tracked))
    (whole : tracked.size = message.size) :
    EntryStep (some tracked) (some (displayedOrder tracked)) message
      (reportedEvent timestampNs message type quantity) none
      ⟨some (orderMove (sessionOrder message.orderId tracked)), none, none⟩ where
  planned := by
    rcases removes with rfl | ⟨rfl, rfl⟩
    · rfl
    · have matching : 0 < message.size ∧ directedSide message = tracked.side ∧
          message.price = tracked.price :=
        ⟨reduces.positive, reduces.names.side, reduces.names.price⟩
      simp only [planOf, Option.map_some, sessionOrder, if_pos matching, orderMove,
        whole, min_self, le_refl, if_true]
  stored := rfl
  tracked := by
    intro order entered
    cases entered
  within := by
    intro move taken
    cases taken
    have positive : 0 < tracked.size := whole.symm ▸ reduces.positive
    exact ⟨displayedOrder tracked, rfl, rfl, rfl, positive, le_refl _⟩
  balanced := by
    intro side price
    have used : afterReduction (displayedOrder tracked) message.size = none := if_pos whole
    rw [reduces.leaves, used]
    exact add_comm _ _

theorem reduced_displayed (reduces : Reduces resting message (displayedOrder tracked))
    (partially : message.size < tracked.size) :
    exchangeEntry resting message =
      some (displayedOrder { tracked with size := tracked.size - message.size }) := by
  have notWhole : (displayedOrder tracked).remaining ≠ message.size := by
    change tracked.size ≠ message.size
    omega
  rw [reduces.leaves]
  exact if_neg notWhole

/-- A tracked order loses a part by a MODIFY to what remains. -/
theorem modify_entry
    (reduces : Reduces (some (displayedOrder tracked)) message (displayedOrder tracked))
    (priced : 0 ≤ tracked.price) (partially : message.size < tracked.size) :
    EntryStep (some tracked) (some (displayedOrder tracked)) message
      (reportedEvent timestampNs message .modify (tracked.size - message.size))
      (some { tracked with size := tracked.size - message.size })
      ⟨some (orderMove (sessionOrder message.orderId tracked)),
        some ⟨message.orderId, tracked.side, tracked.price, tracked.size - message.size⟩,
        some ⟨tracked.side, tracked.price, tracked.size - message.size⟩⟩ where
  planned := by
    have side : directedSide message = tracked.side := reduces.names.side
    have price : message.price = tracked.price := reduces.names.price
    have valid : 0 ≤ tracked.price ∧ 0 ≤ tracked.size - message.size := ⟨priced, by omega⟩
    have notEmptied : tracked.size - message.size ≠ 0 := by omega
    simp only [planOf, Option.map_some, side, price, if_pos valid,
      if_neg notEmptied, eventMove, sessionOrder]
  stored := rfl
  tracked := by
    intro order entered
    cases entered
    exact reduced_displayed reduces partially
  within := by
    intro move taken
    cases taken
    have positive : 0 < tracked.size := reduces.positive.trans partially
    exact ⟨displayedOrder tracked, rfl, rfl, rfl, positive, le_refl _⟩
  balanced := by
    intro side price
    rw [reduced_displayed reduces partially]
    exact add_comm _ _

/-- A tracked order loses a part by a TRADE of that part. -/
theorem fill_entry
    (reduces : Reduces (some (displayedOrder tracked)) message (displayedOrder tracked))
    (partially : message.size < tracked.size) :
    EntryStep (some tracked) (some (displayedOrder tracked)) message
      (reportedEvent timestampNs message .trade message.size)
      (some { tracked with size := tracked.size - message.size })
      ⟨some ⟨tracked.side, tracked.price, message.size⟩,
        some ⟨message.orderId, tracked.side, tracked.price, tracked.size - message.size⟩,
        none⟩ where
  planned := by
    have matching : 0 < message.size ∧ directedSide message = tracked.side ∧
        message.price = tracked.price :=
      ⟨reduces.positive, reduces.names.side, reduces.names.price⟩
    have taken : min message.size tracked.size = message.size := min_eq_left partially.le
    have notFilled : ¬tracked.size ≤ message.size := not_le.mpr partially
    simp only [planOf, Option.map_some, sessionOrder, if_pos matching, taken]
    rw [if_neg notFilled]
  stored := rfl
  tracked := by
    intro order entered
    cases entered
    exact reduced_displayed reduces partially
  within := by
    intro move taken
    cases taken
    exact ⟨displayedOrder tracked, rfl, rfl, rfl, reduces.positive, reduces.bounded⟩
  balanced := by
    intro side price
    have left := after_reduction_share (displayedOrder tracked) message.size message.orderId side
      price
    rw [reduces.leaves]
    exact (add_zero _).trans left.symm

end Conversions

section Messages

variable {args : AdapterArgs} {active : ActiveTable} {message : Message}
variable {resting : Option ExchangeOrder}

/-- The message is written as one row, and its event is an entry step. -/
def Converts (args : AdapterArgs) (active : ActiveTable) (resting : Option ExchangeOrder)
    (message : Message) : Prop :=
  ∃ conversion left, convertMessage args active message = some conversion ∧
    (∀ orderId : Nat, conversion.active[orderId]? =
      if message.orderId = orderId then left else active[orderId]?) ∧
    ∀ timestampNs, ∃ plan, EntryStep active[message.orderId]? resting message
      (reportedEvent timestampNs message conversion.tfType conversion.tfQty) left plan

theorem converts_of_entry {existing left : Option ActiveOrder} {conversion : Conversion}
    {plan : Nat → Plan} (found : active[message.orderId]? = existing)
    (converted : convertMessage args active message = some conversion)
    (changes : ∀ orderId : Nat, conversion.active[orderId]? =
      if message.orderId = orderId then left else active[orderId]?)
    (steps : ∀ timestampNs, EntryStep existing resting message
      (reportedEvent timestampNs message conversion.tfType conversion.tfQty) left
      (plan timestampNs)) : Converts args active resting message := by
  rw [← found] at steps
  exact ⟨conversion, left, converted, changes, fun timestampNs => ⟨_, steps timestampNs⟩⟩

theorem lookup_unchanged (table : ActiveTable) (orderId other : Nat)
    (absent : table[orderId]? = none) :
    table[other]? = if orderId = other then none else table[other]? := by
  split_ifs with same
  · rw [← same, absent]
  · rfl

theorem submission_converts (defaultScale : args.priceScale = 10000) (isType : message.type = 1)
    (absent : active[message.orderId]? = none) (positive : 0 < message.size)
    (priced : 0 ≤ message.price) : Converts args active none message := by
  let entered : ActiveOrder :=
    ⟨message.orderId, directedSide message, message.price, message.size⟩
  have price : messagePrice args message = message.price :=
    if_neg (not_not_intro defaultScale)
  have converted : convertMessage args active message =
      some ⟨.add, message.size, active.insert message.orderId entered, none⟩ := by
    rw [convertMessage, if_pos isType, price]
    rfl
  apply converts_of_entry absent converted
  · intro orderId
    exact lookup_insert active message.orderId orderId entered
  · intro timestampNs
    exact submission_entry isType positive priced

/-- Types 2, 3 and 4 on an order that is not tracked. -/
theorem orphan_converts (isType : message.type = 2 ∨ message.type = 3 ∨ message.type = 4)
    (absent : active[message.orderId]? = none) (order : ExchangeOrder)
    (reduces : Reduces resting message order) : Converts args active resting message := by
  have unchanged := fun orderId => lookup_unchanged active message.orderId orderId absent
  have erased := fun orderId => lookup_erase active message.orderId orderId
  rcases isType with isType | isType | isType
  · have converted : convertMessage args active message =
        some ⟨.cancel, message.size, active, some "orphan_partial_cancel_emitted".toList⟩ := by
      simp [convertMessage, isType, absent]
    apply converts_of_entry absent converted unchanged
    intro timestampNs
    exact orphan_entry .cancel (.inl rfl) order reduces
  · have converted : convertMessage args active message =
        some ⟨.cancel, message.size, active.erase message.orderId, none⟩ := by
      simp [convertMessage, isType]
    apply converts_of_entry absent converted erased
    intro timestampNs
    exact orphan_entry .cancel (.inl rfl) order reduces
  · have converted : convertMessage args active message =
        some ⟨.trade, message.size, active, none⟩ := by
      simp [convertMessage, isType, absent]
    apply converts_of_entry absent converted unchanged
    intro timestampNs
    exact orphan_entry .trade (.inr rfl) order reduces

variable {tracked : ActiveOrder}

/-- Types 2, 3 and 4 that use a tracked order up. -/
theorem removal_converts (isType : message.type = 2 ∨ message.type = 3 ∨ message.type = 4)
    (found : active[message.orderId]? = some tracked)
    (reduces : Reduces (some (displayedOrder tracked)) message (displayedOrder tracked))
    (whole : tracked.size = message.size) :
    Converts args active (some (displayedOrder tracked)) message := by
  have erased := fun orderId => lookup_erase active message.orderId orderId
  rcases isType with isType | isType | isType
  · have converted : convertMessage args active message =
        some ⟨.cancel, tracked.size, active.erase message.orderId, none⟩ := by
      simp [convertMessage, isType, found, whole]
    apply converts_of_entry found converted erased
    intro timestampNs
    exact removal_entry .cancel tracked.size (.inl rfl) reduces whole
  · have converted : convertMessage args active message =
        some ⟨.cancel, message.size, active.erase message.orderId, none⟩ := by
      simp [convertMessage, isType]
    apply converts_of_entry found converted erased
    intro timestampNs
    exact removal_entry .cancel message.size (.inl rfl) reduces whole
  · have converted : convertMessage args active message =
        some ⟨.trade, message.size, active.erase message.orderId, none⟩ := by
      simp [convertMessage, isType, found, whole]
    apply converts_of_entry found converted erased
    intro timestampNs
    exact removal_entry .trade message.size (.inr ⟨rfl, rfl⟩) reduces whole

/-- Types 2 and 4 that leave a part of a tracked order. -/
theorem reduction_converts (isType : message.type = 2 ∨ message.type = 4)
    (found : active[message.orderId]? = some tracked)
    (reduces : Reduces (some (displayedOrder tracked)) message (displayedOrder tracked))
    (priced : 0 ≤ tracked.price) (partially : message.size < tracked.size) :
    Converts args active (some (displayedOrder tracked)) message := by
  let reduced : ActiveOrder := { tracked with size := tracked.size - message.size }
  have stored := fun orderId => lookup_insert active message.orderId orderId reduced
  rcases isType with isType | isType
  · have newSize : max 0 (tracked.size - message.size) = tracked.size - message.size :=
      max_eq_right (by omega)
    have notEmptied : tracked.size - message.size ≠ 0 := by omega
    have converted : convertMessage args active message =
        some ⟨.modify, tracked.size - message.size,
          active.insert message.orderId reduced, none⟩ := by
      simp [convertMessage, isType, found, newSize, notEmptied, reduced]
    apply converts_of_entry found converted stored
    intro timestampNs
    exact modify_entry reduces priced partially
  · have remains : ¬tracked.size - message.size ≤ 0 := by omega
    have converted : convertMessage args active message =
        some ⟨.trade, message.size, active.insert message.orderId reduced, none⟩ := by
      simp only [convertMessage, isType, found]
      exact if_neg remains
    apply converts_of_entry found converted stored
    intro timestampNs
    exact fill_entry reduces partially

variable {seedIdBase : Nat} {book : OrderBook} {exchange : ExchangeBook}

/-- Types 2, 3 and 4 on the order they name, tracked or not. -/
theorem reducing_converts (agrees : Reconstructs seedIdBase book active exchange)
    (order : ExchangeOrder)
    (isType : message.type = 2 ∨ message.type = 4 ∨
      (message.type = 3 ∧ message.size = order.remaining))
    (reduces : Reduces exchange[message.orderId]? message order) :
    Converts args active exchange[message.orderId]? message := by
  cases found : active[message.orderId]? with
  | none => exact orphan_converts (by omega) found order reduces
  | some tracked =>
      have rests := agrees.tracked message.orderId tracked found
      have same : displayedOrder tracked = order :=
        Option.some.inj (rests.symm.trans reduces.names.rests)
      have sound := agrees.sound message.orderId _ rests
      rw [← same] at reduces isType
      rw [rests] at reduces ⊢
      have bounded : message.size ≤ tracked.size := reduces.bounded
      by_cases whole : tracked.size = message.size
      · exact removal_converts (by omega) found reduces whole
      · have notDeleted : ¬(message.type = 3 ∧ message.size = tracked.size) :=
          fun deleted => whole deleted.2.symm
        have isReduction : message.type = 2 ∨ message.type = 4 := by
          rcases isType with partially | executed | deleted
          · exact .inl partially
          · exact .inr executed
          · exact absurd deleted notDeleted
        exact reduction_converts isReduction found reduces sound.price
          (lt_of_le_of_ne bounded (Ne.symm whole))

/-- Every valid displayed message is converted, whether its order is tracked,
seeded or new. -/
theorem message_converts (defaultScale : args.priceScale = 10000)
    (agrees : Reconstructs seedIdBase book active exchange)
    (valid : ValidMessage seedIdBase exchange[message.orderId]? message)
    (isDisplayed : message.type = 1 ∨ message.type = 2 ∨ message.type = 3 ∨ message.type = 4) :
    message.orderId < seedIdBase ∧
      Converts args active exchange[message.orderId]? message := by
  cases valid with
  | submission isType fresh positive priced below =>
      have absent : active[message.orderId]? = none := by
        cases found : active[message.orderId]? with
        | none => rfl
        | some tracked =>
            rw [agrees.tracked message.orderId tracked found] at fresh
            cases fresh
      rw [fresh]
      exact ⟨below, submission_converts defaultScale isType absent positive priced⟩
  | reduction order isType names positive bounded =>
      have sound := agrees.sound _ order names.rests
      have reduces := reduction_reduces isType names positive bounded
      exact ⟨sound.id, reducing_converts agrees order (by omega) reduces⟩
  | deletion order isType names whole =>
      have sound := agrees.sound _ order names.rests
      have reduces := deletion_reduces isType names whole sound.remaining
      exact ⟨sound.id, reducing_converts agrees order (.inr (.inr ⟨isType, whole⟩)) reduces⟩
  | undisplayed isType => omega

end Messages

end TickForge.LobsterSteps
