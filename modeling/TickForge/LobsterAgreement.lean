import TickForge.EventLaws
import TickForge.LobsterReconstruction

/-!
# The adapter and the engine track the same orders

Without seeds the adapter's active table and the strict engine's order table are
kept by two programs: the adapter subtracts and clamps, the engine cancels,
replaces and fills. While the sizes active at a level fit in the engine's 64 bits, both
keep the same entries message by message, and the engine refuses a row exactly where the
adapter did not know its order; past that the engine's level overflows.
-/

namespace TickForge.LobsterAgreement

open Std (ExtTreeMap)
open KeyedTotals StepRuns PartialRuns MarketEventModel OrderBookModel DepthLedger StrictReference
open EventLaws Int64DepthModel Int64Depth LobsterAdapterModel LobsterSteps LobsterReconstruction

set_option autoImplicit false

section Messages

/-- What a feed must respect, told from the adapter's active table: a new order
takes a free id, a reduction of an active order names its price and side. -/
structure FitsActive (active : ActiveTable) (message : Message) : Prop where
  submission : message.type = 1 →
    active[message.orderId]? = none ∧ 0 < message.size ∧ 0 ≤ message.price
  reduction : message.type = 2 ∨ message.type = 3 ∨ message.type = 4 →
    0 < message.size ∧ ∀ order ∈ active[message.orderId]?,
      message.price = order.price ∧ messageSide message = order.side

/-- The answers to the rows of one message: a row for an order that is not
active is refused. -/
def rowAnswers (active : ActiveTable) (message : Message) : List Bool :=
  if message.type = 1 then [true]
  else if message.type = 2 ∨ message.type = 3 ∨ message.type = 4 then
    [(active[message.orderId]?).isSome]
  else []

def expectedAnswers (args : AdapterArgs) : AdapterState → List Message → List Bool
  | _, [] => []
  | state, message :: rest =>
      rowAnswers state.active message ++
        expectedAnswers args
          (writeMessage args { state with msgIndex := state.msgIndex + 1 } message) rest

/-- The engine's record of an active order. -/
def engineOrder (order : ActiveOrder) : Order :=
  ⟨order.orderId, order.side, order.price, order.size⟩

def trackedOrder (order : ActiveOrder) : Resting := ⟨order.side, order.price, order.size⟩

def trackedTable (active : ActiveTable) : RestingTable :=
  active.map fun _ order => trackedOrder order

structure SoundActive (orderId : Nat) (order : ActiveOrder) : Prop where
  id : order.orderId = orderId
  size : 0 < order.size
  price : 0 ≤ order.price

end Messages

section Entries

variable {args : AdapterArgs} {active : ActiveTable} {message : Message} {tracked : ActiveOrder}

/-- One message at its own id: its row, the engine's answer to it and the entry
both tables are left with. -/
def Mirrors (args : AdapterArgs) (active : ActiveTable) (message : Message) (accepted : Bool) :
    Prop :=
  ∃ conversion left, convertMessage args active message = some conversion ∧
    (∀ orderId : Nat, conversion.active[orderId]? =
      if message.orderId = orderId then left else active[orderId]?) ∧
    referenceEntryStep (active[message.orderId]?.map trackedOrder)
        (messageRow args message conversion).toEvent = (accepted, left.map trackedOrder) ∧
    ∀ order ∈ left, SoundActive message.orderId order

theorem default_price (defaultScale : args.priceScale = 10000) (message : Message) :
    messagePrice args message = message.price :=
  if_neg (not_not_intro defaultScale)

theorem submission_mirrors (defaultScale : args.priceScale = 10000) (isType : message.type = 1)
    (absent : active[message.orderId]? = none) (positive : 0 < message.size)
    (priced : 0 ≤ message.price) : Mirrors args active message true := by
  let entered : ActiveOrder := ⟨message.orderId, messageSide message, message.price, message.size⟩
  have converted : convertMessage args active message =
      some ⟨.add, message.size, active.insert message.orderId entered, none⟩ := by
    rw [convertMessage, if_pos isType, default_price defaultScale]
  refine ⟨_, some entered, converted, ?_, ?_, ?_⟩
  · intro orderId
    exact lookup_insert active message.orderId orderId entered
  · simp only [absent, Option.map_none, referenceEntryStep, referenceAccepts, referenceEntry,
      messageRow, AdapterRow.toEvent, default_price defaultScale, priced, positive, and_self,
      decide_true, if_true, Option.map_some, trackedOrder, entered]
  · intro order stored
    cases stored
    exact ⟨rfl, positive, priced⟩

/-- A CANCEL or TRADE of an id that is not active is refused. -/
theorem unknown_entry (event : MarketEvent) (isOrphan : event.type = .cancel ∨ event.type = .trade) :
    referenceEntryStep none event = (false, none) := by
  rcases isOrphan with isType | isType
  · simp [referenceEntryStep, referenceAccepts, isType]
  · simp [referenceEntryStep, referenceAccepts, isType]

theorem unknown_mirrors (isType : message.type = 2 ∨ message.type = 3 ∨ message.type = 4)
    (absent : active[message.orderId]? = none) : Mirrors args active message false := by
  have unchanged := fun orderId => lookup_unchanged active message.orderId orderId absent
  have erased := fun orderId => lookup_erase active message.orderId orderId
  have noOrder : ∀ order ∈ (none : Option ActiveOrder), SoundActive message.orderId order := by
    intro order stored
    cases stored
  unfold Mirrors
  rw [absent, Option.map_none]
  rcases isType with isType | isType | isType
  · have converted : convertMessage args active message =
        some ⟨.cancel, message.size, active, some "orphan_partial_cancel_emitted".toList⟩ := by
      simp [convertMessage, isType, absent]
    exact ⟨_, none, converted, unchanged, unknown_entry _ (.inl rfl), noOrder⟩
  · have converted : convertMessage args active message =
        some ⟨.cancel, message.size, active.erase message.orderId, none⟩ := by
      simp [convertMessage, isType]
    exact ⟨_, none, converted, erased, unknown_entry _ (.inl rfl), noOrder⟩
  · have converted : convertMessage args active message =
        some ⟨.trade, message.size, active, none⟩ := by
      simp [convertMessage, isType, absent]
    exact ⟨_, none, converted, unchanged, unknown_entry _ (.inr rfl), noOrder⟩

/-- A TRADE at the order's own level leaves what it does not fill. -/
theorem trade_entry (order : ActiveOrder) (positive : 0 < order.size) (event : MarketEvent)
    (own : FillsOrder event.orderId (engineOrder order) event) :
    referenceEntryStep (some (trackedOrder order)) event =
      (true, leftAfter (engineOrder order) event.quantity) := by
  have whole : leftAfter (engineOrder order) 0 = some (trackedOrder order) := by
    rw [leftAfter, engineOrder, if_pos positive, sub_zero]
    rfl
  have step := fill_step 0 event own
  rw [whole, zero_add] at step
  rw [step]
  exact congrArg (Prod.mk · _) (decide_eq_true positive)

/-- Types 2, 3 and 4 that use an active order up, also by more than it has left. -/
theorem removal_mirrors (defaultScale : args.priceScale = 10000)
    (found : active[message.orderId]? = some tracked) (sound : SoundActive message.orderId tracked)
    (fits : FitsActive active message)
    (isType : message.type = 3 ∨
      ((message.type = 2 ∨ message.type = 4) ∧ tracked.size ≤ message.size)) :
    Mirrors args active message true := by
  have erased := fun orderId => lookup_erase active message.orderId orderId
  have noOrder : ∀ order ∈ (none : Option ActiveOrder), SoundActive message.orderId order := by
    intro order stored
    cases stored
  obtain ⟨positive, matching⟩ := fits.reduction (by omega)
  obtain ⟨samePrice, sameSide⟩ := matching tracked found
  unfold Mirrors
  rw [found, Option.map_some]
  rcases isType with isType | ⟨isType | isType, whole⟩
  · have converted : convertMessage args active message =
        some ⟨.cancel, message.size, active.erase message.orderId, none⟩ := by
      simp [convertMessage, isType]
    exact ⟨_, none, converted, erased, cancel_entry _ _ rfl, noOrder⟩
  · have emptied : max 0 (tracked.size - message.size) = 0 := by omega
    have converted : convertMessage args active message =
        some ⟨.cancel, tracked.size, active.erase message.orderId, none⟩ := by
      simp [convertMessage, isType, found, emptied]
    exact ⟨_, none, converted, erased, cancel_entry _ _ rfl, noOrder⟩
  · have emptied : tracked.size - message.size ≤ 0 := by omega
    have converted : convertMessage args active message =
        some ⟨.trade, message.size, active.erase message.orderId, none⟩ := by
      simp [convertMessage, isType, found, emptied]
    have own : FillsOrder message.orderId (engineOrder tracked)
        (messageRow args message ⟨.trade, message.size, active.erase message.orderId, none⟩).toEvent :=
      ⟨rfl, rfl, sameSide, (default_price defaultScale message).trans samePrice, positive⟩
    refine ⟨_, none, converted, erased, ?_, noOrder⟩
    rw [trade_entry tracked sound.size _ own, leftAfter]
    exact congrArg (Prod.mk true) (if_neg (not_lt.mpr whole))

/-- Types 2 and 4 that leave a part of an active order. -/
theorem reduction_mirrors (defaultScale : args.priceScale = 10000)
    (found : active[message.orderId]? = some tracked) (sound : SoundActive message.orderId tracked)
    (fits : FitsActive active message) (isType : message.type = 2 ∨ message.type = 4)
    (partially : message.size < tracked.size) : Mirrors args active message true := by
  let reduced : ActiveOrder := { tracked with size := tracked.size - message.size }
  have stored := fun orderId => lookup_insert active message.orderId orderId reduced
  have left : 0 < tracked.size - message.size := by omega
  have stillSound : ∀ order ∈ some reduced, SoundActive message.orderId order := by
    intro order kept
    cases kept
    exact ⟨sound.id, left, sound.price⟩
  obtain ⟨positive, matching⟩ := fits.reduction (by omega)
  obtain ⟨samePrice, sameSide⟩ := matching tracked found
  unfold Mirrors
  rw [found, Option.map_some]
  rcases isType with isType | isType
  · have newSize : max 0 (tracked.size - message.size) = tracked.size - message.size :=
      max_eq_right left.le
    have converted : convertMessage args active message =
        some ⟨.modify, tracked.size - message.size,
          active.insert message.orderId reduced, none⟩ := by
      simp [convertMessage, isType, found, newSize, left.ne', reduced]
    refine ⟨_, some reduced, converted, stored, ?_, stillSound⟩
    have rowPrice := (default_price defaultScale message).trans samePrice
    have rowPriced : 0 ≤ messagePrice args message := by
      rw [rowPrice]
      exact sound.price
    rw [modify_entry_at_level _ _ rfl rowPriced left]
    simp only [messageRow, AdapterRow.toEvent, rowPrice, sameSide, Option.map_some, trackedOrder,
      reduced]
  · have remains : ¬tracked.size - message.size ≤ 0 := not_le.mpr left
    have converted : convertMessage args active message =
        some ⟨.trade, message.size, active.insert message.orderId reduced, none⟩ := by
      simp only [convertMessage, isType, found]
      exact if_neg remains
    have own : FillsOrder message.orderId (engineOrder tracked)
        (messageRow args message
          ⟨.trade, message.size, active.insert message.orderId reduced, none⟩).toEvent :=
      ⟨rfl, rfl, sameSide, (default_price defaultScale message).trans samePrice, positive⟩
    refine ⟨_, some reduced, converted, stored, ?_, stillSound⟩
    rw [trade_entry tracked sound.size _ own, leftAfter]
    exact congrArg (Prod.mk true) (if_pos partially)

/-- Every message that is written as a row is mirrored. -/
theorem message_mirrors (defaultScale : args.priceScale = 10000)
    (sound : ∀ order ∈ active[message.orderId]?, SoundActive message.orderId order)
    (fits : FitsActive active message)
    (isType : message.type = 1 ∨ message.type = 2 ∨ message.type = 3 ∨ message.type = 4) :
    ∃ accepted, Mirrors args active message accepted ∧ rowAnswers active message = [accepted] := by
  by_cases isSubmission : message.type = 1
  · obtain ⟨absent, positive, priced⟩ := fits.submission isSubmission
    exact ⟨true, submission_mirrors defaultScale isSubmission absent positive priced,
      if_pos isSubmission⟩
  · have isReduction : message.type = 2 ∨ message.type = 3 ∨ message.type = 4 := by omega
    have answered : rowAnswers active message = [(active[message.orderId]?).isSome] := by
      rw [rowAnswers, if_neg isSubmission, if_pos isReduction]
    cases found : active[message.orderId]? with
    | none =>
        rw [found] at answered
        exact ⟨false, unknown_mirrors isReduction found, answered⟩
    | some tracked =>
        rw [found] at answered
        have soundOrder := sound tracked found
        refine ⟨true, ?_, answered⟩
        by_cases whole : tracked.size ≤ message.size
        · exact removal_mirrors defaultScale found soundOrder fits (by omega)
        · by_cases isDeletion : message.type = 3
          · exact removal_mirrors defaultScale found soundOrder fits (.inl isDeletion)
          · exact reduction_mirrors defaultScale found soundOrder fits (by omega)
              (not_le.mp whole)

end Entries

section Runs

/-- The rows written so far got these answers and left the engine with the
adapter's orders. -/
structure Mirrored (state : AdapterState) (answers : List Bool) : Prop where
  answered : outputs applyEvent {} (rowEvents state.rows) = answers
  refines : Refines (finalState applyEvent {} (rowEvents state.rows)) (trackedTable state.active)
  sound : ∀ (orderId : Nat) (order : ActiveOrder), state.active[orderId]? = some order →
    SoundActive orderId order

theorem start_mirrored : Mirrored {} [] where
  answered := rfl
  refines := by
    have noOrders : trackedTable ∅ = ∅ := by
      apply ExtTreeMap.ext_getElem?
      intro orderId
      simp [trackedTable]
    rw [noOrders]
    exact empty_refines
  sound := by
    intro orderId order stored
    cases stored

theorem tracked_table_lookup (active : ActiveTable) (orderId : Nat) :
    (trackedTable active)[orderId]? = active[orderId]?.map trackedOrder := by
  exact ExtTreeMap.getElem?_map

/-- The step of the simulation. -/
theorem write_message_mirrored (args : AdapterArgs) (defaultScale : args.priceScale = 10000)
    {state : AdapterState} {answers : List Bool} (mirrored : Mirrored state answers)
    (message : Message) (fits : FitsActive state.active message) :
    Mirrored (writeMessage args state message) (answers ++ rowAnswers state.active message) := by
  by_cases isType : message.type = 1 ∨ message.type = 2 ∨ message.type = 3 ∨ message.type = 4
  · obtain ⟨accepted, ⟨conversion, left, converted, changes, stepped, stillSound⟩, answered⟩ :=
      message_mirrors defaultScale (mirrored.sound message.orderId) fits isType
    obtain ⟨rows, active⟩ := write_message_converted args state message conversion converted
    have events : rowEvents (writeMessage args state message).rows =
        rowEvents state.rows ++ [(messageRow args message conversion).toEvent] := by
      rw [rows, rowEvents, List.map_append, List.map_singleton]
      rfl
    obtain ⟨sameAnswer, refines⟩ :=
      apply_event_refines mirrored.refines (messageRow args message conversion).toEvent
    constructor
    · rw [events, outputs_append, mirrored.answered, answered, outputs, outputs, sameAnswer,
        referenceStep, keyedStep, tracked_table_lookup]
      exact congrArg (fun entry => answers ++ [entry.1]) stepped
    · rw [events, final_state_append, active]
      have sameTable : (referenceStep (trackedTable state.active)
          (messageRow args message conversion).toEvent).2 = trackedTable conversion.active := by
        apply ExtTreeMap.ext_getElem?
        intro orderId
        rw [referenceStep, keyed_step_lookup, tracked_table_lookup, tracked_table_lookup, changes]
        change (if message.orderId = orderId then _ else _) = _
        split_ifs with same
        · rw [← same, stepped]
        · rfl
      rw [← sameTable]
      exact refines
    · intro orderId order kept
      rw [active, changes] at kept
      split_ifs at kept with same
      · rw [← same]
        exact stillSound order kept
      · exact mirrored.sound orderId order kept
  · have skips : convertMessage args state.active message = none := by
      apply undisplayed_skips
      omega
    have noAnswer : rowAnswers state.active message = [] := by
      rw [rowAnswers, if_neg (by omega), if_neg (by omega)]
    obtain ⟨rows, active⟩ := write_message_skipped args state message skips
    rw [noAnswer, List.append_nil]
    constructor
    · rw [rows]
      exact mirrored.answered
    · rw [rows, active]
      exact mirrored.refines
    · rw [active]
      exact mirrored.sound

/-- The run of the simulation: every message fits the table it finds. -/
theorem write_messages_mirrored (args : AdapterArgs) (defaultScale : args.priceScale = 10000)
    {state : AdapterState} {answers : List Bool} (mirrored : Mirrored state answers)
    (messages : List Message)
    (fits : ∀ before message rest, messages = before ++ message :: rest →
      FitsActive (writeMessages args state before).active message) :
    Mirrored (writeMessages args state messages)
      (answers ++ expectedAnswers args state messages) := by
  induction messages generalizing state answers with
  | nil =>
      rw [expectedAnswers, List.append_nil]
      exact mirrored
  | cons message rest ih =>
      have reached : Mirrored { state with msgIndex := state.msgIndex + 1 } answers :=
        ⟨mirrored.answered, mirrored.refines, mirrored.sound⟩
      have first := write_message_mirrored args defaultScale reached message (fits [] message rest rfl)
      rw [expectedAnswers, ← List.append_assoc]
      apply ih first
      intro before later after split
      exact fits (message :: before) later after (congrArg (message :: ·) split)

theorem convert_messages (args : AdapterArgs) (messages : List Message) :
    convert args none (messages.map .message) = .ok (writeMessages args {} messages) := by
  exact convert_rows_messages args 0 {} 1 messages (le_refl _)

end Runs

section Levels

variable {args : AdapterArgs}

/-- The last message meets the state the others leave, with its index counted up. -/
theorem write_messages_snoc (args : AdapterArgs) (start : AdapterState) (seen : List Message)
    (message : Message) :
    ∃ state : AdapterState, state.rows = (writeMessages args start seen).rows ∧
      state.active = (writeMessages args start seen).active ∧
      writeMessages args start (seen ++ [message]) = writeMessage args state message := by
  let before := writeMessages args start seen
  refine ⟨{ before with msgIndex := before.msgIndex + 1 }, rfl, rfl, ?_⟩
  rw [write_messages_append]
  rfl

/-- Levels in range after the rows of every message are in range after every row. -/
theorem written_levels_fit (args : AdapterArgs) (book : OrderBook) (start : AdapterState)
    (started : LevelsFit book (rowEvents start.rows)) (messages : List Message)
    (small : ∀ seen, seen <+: messages →
      SmallLevels (finalState applyEvent book (rowEvents (writeMessages args start seen).rows))) :
    LevelsFit book (rowEvents (writeMessages args start messages).rows) := by
  induction messages using List.reverseRecOn with
  | nil => exact started
  | append_singleton seen message ih =>
      have earlier := ih fun before inner => small before (inner.trans (List.prefix_append _ _))
      have last := small _ List.prefix_rfl
      rcases write_messages_snoc args start seen message with ⟨state, sameRows, _, written⟩
      rw [written] at last ⊢
      rw [← sameRows] at earlier
      cases converted : convertMessage args state.active message with
      | none =>
          rw [(write_message_skipped args state message converted).1]
          exact earlier
      | some conversion =>
          rw [(write_message_converted args state message conversion converted).1, rowEvents,
            List.map_append, List.map_singleton] at last ⊢
          exact (always_fits_snoc _ _ _).mpr ⟨earlier, last⟩

/-- What is left of the adapter's active orders at one level. -/
def activeDepth (active : ActiveTable) (side : Side) (price : Int) : Int :=
  total (fun _ order => if order.side = side ∧ order.price = price then order.size else 0) active

theorem tracked_depth (active : ActiveTable) (side : Side) (price : Int) :
    referenceDepth (trackedTable active) side price = activeDepth active side price :=
  total_map _ _ _

theorem mirrored_depth {state : AdapterState} {answers : List Bool}
    (mirrored : Mirrored state answers) (side : Side) (price : Int) :
    depthAtPrice (finalState applyEvent {} (rowEvents state.rows)) side price =
      activeDepth state.active side price :=
  (refined_depth mirrored.refines side price).trans (tracked_depth _ side price)

/-- A message that enters no order leaves its id's entry, shortens it or drops it. -/
theorem reduced_active (args : AdapterArgs) (state : AdapterState) (message : Message)
    (notNew : message.type ≠ 1)
    (positive : message.type = 2 ∨ message.type = 3 ∨ message.type = 4 → 0 < message.size)
    (sound : ∀ order ∈ state.active[message.orderId]?, 0 < order.size) :
    (writeMessage args state message).active = state.active ∨
      (writeMessage args state message).active = state.active.erase message.orderId ∨
      ∃ order size, state.active[message.orderId]? = some order ∧ size ≤ order.size ∧
        (writeMessage args state message).active =
          state.active.insert message.orderId { order with size := size } := by
  cases converted : convertMessage args state.active message with
  | none => exact .inl (write_message_skipped args state message converted).2
  | some conversion =>
      rw [(write_message_converted args state message conversion converted).2]
      unfold convertMessage at converted
      rw [if_neg notNew] at converted
      split_ifs at converted with isPartial isDeletion isExecution
      · cases found : state.active[message.orderId]? with
        | none =>
            simp only [found] at converted
            cases converted
            exact .inl rfl
        | some order =>
            have held := sound order found
            have taken := positive (.inl isPartial)
            simp only [found] at converted
            split_ifs at converted with emptied
            · cases converted
              exact .inr (.inl rfl)
            · cases converted
              exact .inr (.inr ⟨order, _, rfl, by omega, rfl⟩)
      · cases converted
        exact .inr (.inl rfl)
      · cases found : state.active[message.orderId]? with
        | none =>
            simp only [found] at converted
            cases converted
            exact .inl rfl
        | some order =>
            have taken := positive (.inr (.inr isExecution))
            simp only [found] at converted
            split_ifs at converted with emptied
            · cases converted
              exact .inr (.inl rfl)
            · cases converted
              exact .inr (.inr ⟨order, _, rfl, by omega, rfl⟩)

/-- Only a new order adds to a level. -/
theorem active_depth_reduced (args : AdapterArgs) (state : AdapterState) (message : Message)
    (notNew : message.type ≠ 1)
    (positive : message.type = 2 ∨ message.type = 3 ∨ message.type = 4 → 0 < message.size)
    (sound : ∀ (orderId : Nat) (order : ActiveOrder), state.active[orderId]? = some order →
      SoundActive orderId order) (side : Side) (price : Int) :
    activeDepth (writeMessage args state message).active side price ≤
      activeDepth state.active side price := by
  let weight : Nat → ActiveOrder → Int := fun _ order =>
    if order.side = side ∧ order.price = price then order.size else 0
  have nonneg : ∀ order ∈ state.active[message.orderId]?, 0 ≤ weight message.orderId order := by
    intro order stored
    have held := (sound message.orderId order stored).size
    simp only [weight]
    split_ifs <;> omega
  have moved := fun entry => total_put weight state.active message.orderId entry
  rcases reduced_active args state message notNew positive
    (fun order stored => (sound message.orderId order stored).size) with
    same | erased | ⟨order, size, stored, shorter, inserted⟩
  · rw [same]
  · rw [erased]
    refine le_of_eq_of_le (moved none) ?_
    rw [share_none]
    cases found : state.active[message.orderId]? with
    | none => simp [activeDepth, weight]
    | some order =>
        have held := nonneg order found
        rw [share_some]
        change total weight state.active - weight message.orderId order + 0 ≤
          total weight state.active
        omega
  · rw [inserted]
    refine le_of_eq_of_le (moved (some { order with size := size })) ?_
    have lower : weight message.orderId { order with size := size } ≤
        weight message.orderId order := by
      simp only [weight]
      split_ifs <;> omega
    rw [stored, share_some, share_some]
    change total weight state.active - weight message.orderId order +
      weight message.orderId { order with size := size } ≤ total weight state.active
    omega

/-- A new order adds its size to its own level. -/
theorem active_depth_submitted (defaultScale : args.priceScale = 10000) (state : AdapterState)
    (message : Message) (isNew : message.type = 1)
    (absent : state.active[message.orderId]? = none) (side : Side) (price : Int) :
    activeDepth (writeMessage args state message).active side price =
      activeDepth state.active side price +
        if messageSide message = side ∧ message.price = price then message.size else 0 := by
  have converted : convertMessage args state.active message =
      some ⟨.add, message.size, state.active.insert message.orderId
        ⟨message.orderId, messageSide message, message.price, message.size⟩, none⟩ := by
    rw [convertMessage, if_pos isNew, default_price defaultScale]
  rw [(write_message_converted args state message _ converted).2]
  have moved := total_put (fun (_ : Nat) (order : ActiveOrder) =>
    if order.side = side ∧ order.price = price then order.size else 0) state.active
    message.orderId (some ⟨message.orderId, messageSide message, message.price, message.size⟩)
  rw [absent, share_none, sub_zero] at moved
  exact moved

end Levels

section Agreement

variable {args : AdapterArgs} {messages : List Message}

/-- What the messages must respect, told from the table the adapter has built so far. -/
def MessagesFit (args : AdapterArgs) (messages : List Message) : Prop :=
  ∀ before message rest reached, messages = before ++ message :: rest →
    convert args none (before.map .message) = .ok reached → FitsActive reached.active message

/-- Every new order fits into 64 bits beside what is active at its side and price. -/
def NewOrdersFit (args : AdapterArgs) (messages : List Message) : Prop :=
  ∀ before message rest reached, messages = before ++ message :: rest →
    convert args none (before.map .message) = .ok reached → message.type = 1 →
    activeDepth reached.active (messageSide message) message.price + message.size < 2 ^ 63

/-- After every message the strict engine has replayed the rows written so far without an
overflow, holds exactly the adapter's active orders and has refused exactly the rows
written for reductions of ids that were not active. -/
def EngineAgrees (args : AdapterArgs) (messages : List Message) : Prop :=
  ∃ output, convert args none (messages.map .message) = .ok output ∧
    ∀ seen, seen <+: messages → ∃ written book,
      convert args none (seen.map .message) = .ok written ∧ written.rows <+: output.rows ∧
      run64 {} (rowEvents written.rows) = some book ∧
      (∀ orderId : Nat, book.orders[orderId]? = written.active[orderId]?.map engineOrder) ∧
      answers64 {} (rowEvents written.rows) = (expectedAnswers args {} seen).map some

theorem prefix_mirrored (defaultScale : args.priceScale = 10000) (fits : MessagesFit args messages)
    {seen : List Message} (isPrefix : seen <+: messages) :
    Mirrored (writeMessages args {} seen) (expectedAnswers args {} seen) := by
  rcases isPrefix with ⟨rest, rfl⟩
  apply write_messages_mirrored args defaultScale start_mirrored
  intro before message later split
  apply fits before message (later ++ rest) _ _ (convert_messages args before)
  rw [split, List.append_assoc, List.cons_append]

theorem prefix_levels_small (defaultScale : args.priceScale = 10000)
    (fits : MessagesFit args messages) (newFit : NewOrdersFit args messages)
    (seen : List Message) (isPrefix : seen <+: messages) (side : Side) (price : Int) :
    activeDepth (writeMessages args {} seen).active side price < 2 ^ 63 := by
  induction seen using List.reverseRecOn with
  | nil =>
      have nothing : activeDepth (writeMessages args {} []).active side price = 0 := total_empty _
      rw [nothing]
      decide
  | append_singleton seen message ih =>
      have inside := (List.prefix_append seen [message]).trans isPrefix
      have before := ih inside
      have mirrored := prefix_mirrored defaultScale fits inside
      rcases isPrefix with ⟨rest, whole⟩
      have split : messages = seen ++ message :: rest := by
        rw [← whole, List.append_assoc, List.singleton_append]
      have fitting := fits seen message rest _ split (convert_messages args seen)
      rcases write_messages_snoc args {} seen message with ⟨state, _, sameActive, written⟩
      rw [written]
      by_cases isNew : message.type = 1
      · have absent := (fitting.submission isNew).1
        rw [← sameActive] at absent before
        have room := newFit seen message rest _ split (convert_messages args seen) isNew
        rw [← sameActive] at room
        rw [active_depth_submitted defaultScale state message isNew absent]
        split_ifs with here
        · rwa [← here.1, ← here.2]
        · rwa [add_zero]
      · have sound := mirrored.sound
        rw [← sameActive] at sound before
        exact (active_depth_reduced args state message isNew
          (fun isReduction => (fitting.reduction isReduction).1) sound side price).trans_lt before

/-- The rows of every prefix keep the engine's levels in range. -/
theorem rows_levels_fit (defaultScale : args.priceScale = 10000)
    (fits : MessagesFit args messages) (newFit : NewOrdersFit args messages)
    (seen : List Message) (isPrefix : seen <+: messages) :
    LevelsFit {} (rowEvents (writeMessages args {} seen).rows) := by
  apply written_levels_fit args {} {}
  · intro earlier inner
    rw [List.prefix_nil.mp inner]
    exact empty_small_levels {}
  · intro inner isInner side price
    have inside := isInner.trans isPrefix
    rw [mirrored_depth (prefix_mirrored defaultScale fits inside)]
    exact prefix_levels_small defaultScale fits newFit inner inside side price

/-- Adapter and engine agree after every message exactly when every new order fits into 64
bits beside what is active at its level. -/
theorem engine_holds_active_orders_iff (args : AdapterArgs)
    (defaultScale : args.priceScale = 10000) (messages : List Message)
    (fits : MessagesFit args messages) :
    EngineAgrees args messages ↔ NewOrdersFit args messages := by
  have accounted : ∃ drained, Ledgered ({} : OrderBook) drained := ⟨_, empty_ledgered {}⟩
  constructor
  · rintro ⟨output, _, agrees⟩ before message rest reached split converted isNew
    rw [convert_messages] at converted
    cases converted
    have isPrefix : before ++ [message] <+: messages :=
      ⟨rest, by rw [split, List.append_assoc, List.singleton_append]⟩
    rcases agrees _ isPrefix with ⟨written, book, converted, _, defined, _⟩
    rw [convert_messages] at converted
    cases converted
    rcases (run64_iff accounted (empty_small_levels {}) _ book).mp defined with ⟨_, levels⟩
    have small := levels _ List.prefix_rfl (messageSide message) message.price
    rw [mirrored_depth (prefix_mirrored defaultScale fits isPrefix)] at small
    rcases write_messages_snoc args {} before message with ⟨state, _, sameActive, wrote⟩
    have absent := ((fits before message rest _ split (convert_messages args before)).submission
      isNew).1
    rw [← sameActive] at absent ⊢
    rwa [wrote, active_depth_submitted defaultScale state message isNew absent,
      if_pos ⟨rfl, rfl⟩] at small
  · intro newFit
    refine ⟨_, convert_messages args messages, ?_⟩
    intro seen isPrefix
    have mirrored := prefix_mirrored defaultScale fits isPrefix
    have levels := rows_levels_fit defaultScale fits newFit seen isPrefix
    refine ⟨_, _, convert_messages args seen, ?_, run64_of_levels_fit accounted levels, ?_, ?_⟩
    · rcases isPrefix with ⟨rest, rfl⟩
      rw [write_messages_append]
      exact write_messages_extend args _ rest
    · intro orderId
      rw [mirrored.refines.orders orderId, tracked_table_lookup, Option.map_map]
      cases tracked : (writeMessages args {} seen).active[orderId]? with
      | none => rfl
      | some order =>
          have own := (mirrored.sound orderId order tracked).id
          simp only [Option.map_some, Function.comp_apply, restingOrder, trackedOrder, engineOrder,
            own]
    · rw [answers64_of_levels_fit accounted levels, mirrored.answered]

/-- A bid that is reduced, filled for more than is left, and then deleted although it is
gone. -/
def overfilledBid : List Message :=
  [{ type := 1, orderId := 7, size := 20, price := 10000, direction := 1 },
    { type := 2, orderId := 7, size := 5, price := 10000, direction := 1 },
    { type := 4, orderId := 7, size := 30, price := 10000, direction := 1 },
    { type := 3, orderId := 7, size := 15, price := 10000, direction := 1 }]

theorem overfilled_bid_fits : MessagesFit {} overfilledBid := by
  intro before message rest reached split converted
  rw [convert_messages] at converted
  cases converted
  simp only [overfilledBid] at split
  rcases before with _ | ⟨first, _ | ⟨second, _ | ⟨third, _ | ⟨fourth, before⟩⟩⟩⟩
  · cases split
    exact ⟨by decide, by decide⟩
  · cases split
    exact ⟨by decide, by decide⟩
  · cases split
    exact ⟨by decide, by decide⟩
  · cases split
    exact ⟨by decide, by decide⟩
  · have count := congrArg List.length split
    simp at count

theorem overfilled_bid_is_gone_for_both : EngineAgrees {} overfilledBid := by
  apply (engine_holds_active_orders_iff {} rfl overfilledBid overfilled_bid_fits).mpr
  intro before message rest reached split converted isNew
  rw [convert_messages] at converted
  cases converted
  simp only [overfilledBid] at split
  rcases before with _ | ⟨first, before⟩
  · cases split
    decide
  · have noneNew : ∀ later ∈ overfilledBid.tail, later.type ≠ 1 := by decide
    have listed : message ∈ overfilledBid.tail := by
      rw [overfilledBid, List.tail_cons, (List.cons.inj split).2]
      exact List.mem_append_right before List.mem_cons_self
    exact absurd isNew (noneNew message listed)

/-- Two bids of the greatest size at one price, the first of them then deleted: the adapter
knows both, and the engine's level overflows at the second. -/
theorem two_full_bids_disagree :
    let messages : List Message :=
      [{ type := 1, orderId := 7, size := 9223372036854775807, price := 10000, direction := 1 },
        { type := 1, orderId := 8, size := 9223372036854775807, price := 10000, direction := 1 },
        { type := 3, orderId := 7, size := 9223372036854775807, price := 10000, direction := 1 }]
    MessagesFit {} messages ∧
      (∃ output, convert {} none (messages.map .message) = .ok output ∧
        run64 {} (rowEvents output.rows) = none) ∧
      ¬EngineAgrees {} messages := by
  intro messages
  have converted := convert_messages {} messages
  have overflow : run64 {} (rowEvents (writeMessages {} {} messages).rows) = none := by
    have undefined : (run64 {} (rowEvents (writeMessages {} {} messages).rows)).isNone = true := by
      decide
    exact Option.isNone_iff_eq_none.mp undefined
  refine ⟨?_, ⟨_, converted, overflow⟩, ?_⟩
  · intro before message rest reached split converted
    rw [convert_messages] at converted
    cases converted
    simp only [messages] at split
    rcases before with _ | ⟨first, _ | ⟨second, _ | ⟨third, before⟩⟩⟩
    · cases split
      exact ⟨by decide, by decide⟩
    · cases split
      exact ⟨by decide, by decide⟩
    · cases split
      exact ⟨by decide, by decide⟩
    · have count := congrArg List.length split
      simp at count
  · rintro ⟨output, _, agrees⟩
    rcases agrees messages List.prefix_rfl with ⟨written, book, reached, _, defined, _⟩
    rw [converted] at reached
    cases reached
    rw [overflow] at defined
    cases defined

end Agreement

end TickForge.LobsterAgreement
