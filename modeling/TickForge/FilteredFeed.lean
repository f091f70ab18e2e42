import TickForge.LevelIsolation
import TickForge.RowAccounting
import TickForge.DayValidation

/-!
# Message files that leave messages out

A message file of a few best levels leaves out what happens while a level is out of
range. A seeded replay of it goes wrong at the levels with messages left out and
nowhere else: every other level is rebuilt as from the whole stream, as long as no level
overflows.
-/

namespace TickForge.FilteredFeed

open Std (ExtTreeMap)
open KeyedTotals StepRuns MarketEventModel OrderBookModel OrderBookStep DepthLedger
open OrphanRemoval LobsterAdapterModel LobsterExchange LobsterSteps LobsterSnapshot
open LobsterReconstruction Int64DepthModel Int64Depth RowAccounting DayValidation LevelIsolation

set_option autoImplicit false

def messageLevel (message : Message) : Level := (directedSide message, message.price)

/-- A message that shows in the book names the level of its id. -/
def OnOwnLevel (levelOf : Nat → Level) (message : Message) : Prop :=
  IsDisplayed message → messageLevel message = levelOf message.orderId

section Adapter

variable {args : AdapterArgs} {active part : ActiveTable} {message : Message}
  {levelOf : Nat → Level} {level : Level}

/-- The row a message is written as, if any, and the active orders it leaves. -/
def rowStep (args : AdapterArgs) (active : ActiveTable) (message : Message) :
    Option AdapterRow × ActiveTable :=
  match convertMessage args active message with
  | none => (none, active)
  | some conversion => (some (messageRow args message conversion), conversion.active)

theorem write_messages_outputs (state : AdapterState) (messages : List Message) :
    (writeMessages args state messages).rows =
      state.rows ++ (outputs (rowStep args) state.active messages).filterMap id := by
  induction messages generalizing state with
  | nil => exact (List.append_nil _).symm
  | cons message rest ih =>
      let reached : AdapterState := { state with msgIndex := state.msgIndex + 1 }
      rw [writeMessages, ih, outputs]
      cases converts : convertMessage args state.active message with
      | none =>
          have skipped := write_message_skipped args reached message converts
          have stepped : rowStep args state.active message = (none, state.active) := by
            rw [rowStep, converts]
          rw [skipped.1, skipped.2, stepped]
          rfl
      | some conversion =>
          have written := write_message_converted args reached message conversion converts
          have stepped : rowStep args state.active message =
              (some (messageRow args message conversion), conversion.active) := by
            rw [rowStep, converts]
          rw [written.1, written.2, stepped, List.append_assoc]
          rfl

/-- The row depends on the entry under the id of its message alone, and so does the
new entry. -/
theorem row_step_local (same : active[message.orderId]? = part[message.orderId]?) :
    (rowStep args active message).1 = (rowStep args part message).1 ∧
      ∀ orderId : Nat, active[orderId]? = part[orderId]? →
        (rowStep args active message).2[orderId]? = (rowStep args part message).2[orderId]? := by
  unfold rowStep convertMessage
  rw [same]
  cases part[message.orderId]? with
  | none =>
      split_ifs <;> refine ⟨rfl, fun orderId alike => ?_⟩ <;>
        simp only [lookup_insert, lookup_erase, alike]
  | some existing =>
      dsimp only
      split_ifs <;> refine ⟨rfl, fun orderId alike => ?_⟩ <;>
        simp only [lookup_insert, lookup_erase, alike]

theorem row_step_elsewhere (orderId : Nat) (apart : message.orderId ≠ orderId) :
    (rowStep args active message).2[orderId]? = active[orderId]? := by
  unfold rowStep convertMessage
  cases active[message.orderId]? with
  | none => split_ifs <;> simp only [lookup_insert, lookup_erase, if_neg apart]
  | some existing =>
      dsimp only
      split_ifs <;> simp only [lookup_insert, lookup_erase, if_neg apart]

theorem undisplayed_row (isHidden : ¬IsDisplayed message) :
    rowStep args active message = (none, active) := by
  rw [rowStep, converts_displayed.mpr isHidden]

/-- The adapter writes the same rows for a level when it sees the messages of that level
only. -/
theorem isolated_rows (messages : List Message)
    (keeps : ∀ message ∈ messages, OnOwnLevel levelOf message) (active : ActiveTable) :
    (trace (rowStep args) active messages).filter (fun pair => messageLevel pair.1 = level) =
      trace (rowStep args) active (messages.filter fun message => messageLevel message = level) := by
  let SameOrders : ActiveTable → ActiveTable → Prop := fun active part =>
    ∀ orderId : Nat, levelOf orderId = level → active[orderId]? = part[orderId]?
  apply And.left (isolated_run (rowStep args) (OnOwnLevel levelOf)
    (fun message => messageLevel message = level) SameOrders _ _ active active messages keeps
    fun _ _ => rfl)
  · intro active part message keepsLevel isOwn same
    by_cases isDisplayed : IsDisplayed message
    · have own := (keepsLevel isDisplayed).symm.trans (of_decide_eq_true isOwn)
      have stepped := @row_step_local args active part message (same message.orderId own)
      exact ⟨stepped.1, fun orderId onLevel => stepped.2 orderId (same orderId onLevel)⟩
    · rw [undisplayed_row isDisplayed, undisplayed_row isDisplayed]
      exact ⟨rfl, same⟩
  · intro active part message keepsLevel isOther same
    by_cases isDisplayed : IsDisplayed message
    · intro orderId onLevel
      have apart : message.orderId ≠ orderId := by
        rintro rfl
        exact of_decide_eq_false isOther ((keepsLevel isDisplayed).trans onLevel)
      rw [row_step_elsewhere orderId apart]
      exact same orderId onLevel
    · rw [undisplayed_row isDisplayed]
      exact same

theorem row_of_message (defaultScale : args.priceScale = 10000) {row : AdapterRow}
    (written : (rowStep args active message).1 = some row) :
    row.orderId = message.orderId ∧ eventLevel row.toEvent = messageLevel message ∧
      IsDisplayed message := by
  cases converts : convertMessage args active message with
  | none =>
      rw [rowStep, converts] at written
      cases written
  | some conversion =>
      rw [rowStep, converts] at written
      cases written
      have isDisplayed : IsDisplayed message := by
        by_contra isHidden
        rw [converts_displayed.mpr isHidden] at converts
        cases converts
      rw [message_row_event args defaultScale]
      exact ⟨rfl, rfl, isDisplayed⟩

theorem traced_rows (defaultScale : args.priceScale = 10000) (messages : List Message)
    (active : ActiveTable) :
    ∀ pair ∈ trace (rowStep args) active messages, ∀ row ∈ pair.2,
      row.orderId = pair.1.orderId ∧ eventLevel row.toEvent = messageLevel pair.1 ∧
        IsDisplayed pair.1 := by
  induction messages generalizing active with
  | nil =>
      intro pair listed
      cases listed
  | cons message rest ih =>
      intro pair listed
      rw [trace, List.mem_cons] at listed
      rcases listed with isFirst | isLater
      · rw [isFirst]
        intro row written
        exact row_of_message defaultScale written
      · exact ih _ pair isLater

/-- The events the adapter writes for some messages. -/
def messageEvents (args : AdapterArgs) (active : ActiveTable) (messages : List Message) :
    List MarketEvent :=
  rowEvents ((outputs (rowStep args) active messages).filterMap id)

/-- The events of a level are written for the messages of that level. -/
theorem isolated_events (defaultScale : args.priceScale = 10000) (messages : List Message)
    (keeps : ∀ message ∈ messages, OnOwnLevel levelOf message) (active : ActiveTable) :
    (messageEvents args active messages).filter (fun event => eventLevel event = level) =
      messageEvents args active
        (messages.filter fun message => messageLevel message = level) := by
  have written : ∀ listed : List (Message × Option AdapterRow),
      (∀ pair ∈ listed, ∀ row ∈ pair.2, eventLevel row.toEvent = messageLevel pair.1) →
      ((listed.filterMap Prod.snd).map AdapterRow.toEvent).filter
          (fun event => eventLevel event = level) =
        ((listed.filter fun pair => messageLevel pair.1 = level).filterMap Prod.snd).map
          AdapterRow.toEvent := by
    intro listed agree
    induction listed with
    | nil => rfl
    | cons pair rest ih =>
        rw [List.forall_mem_cons] at agree
        rcases pair with ⟨message, _ | row⟩
        · simp only [List.filterMap_cons, List.filter_cons, ih agree.2]
          split_ifs <;> simp
        · have here := agree.1 row rfl
          simp only [List.filterMap_cons, List.filter_cons, List.map_cons, here, ih agree.2]
          split_ifs <;> simp
  have rows : ∀ messages, messageEvents args active messages =
      ((trace (rowStep args) active messages).filterMap Prod.snd).map AdapterRow.toEvent := by
    intro messages
    rw [messageEvents, ← trace_outputs, List.filterMap_map]
    rfl
  rw [rows, rows, written _ fun pair listed row wrote =>
    (traced_rows defaultScale messages active pair listed row wrote).2.1, isolated_rows messages keeps]

end Adapter

section Exchange

variable {seedIdBase : Nat} {exchange part : ExchangeBook} {message : Message}
  {levelOf : Nat → Level} {level : Level}

/-- Every displayed order stands at the level of its id. -/
def Standing (levelOf : Nat → Level) (exchange : ExchangeBook) : Prop :=
  ∀ (orderId : Nat) (order : ExchangeOrder), exchange[orderId]? = some order →
    (order.side, order.price) = levelOf orderId

theorem exchange_entry_stands {resting : Option ExchangeOrder}
    (keeps : OnOwnLevel levelOf message)
    (stands : ∀ order ∈ resting, (order.side, order.price) = levelOf message.orderId) :
    ∀ order ∈ exchangeEntry resting message,
      (order.side, order.price) = levelOf message.orderId := by
  intro left entry
  unfold exchangeEntry at entry
  split_ifs at entry with submitted reduced deleted
  · cases entry
    exact keeps (.inl submitted)
  · rcases Option.bind_eq_some_iff.mp entry with ⟨order, rests, used⟩
    unfold afterReduction at used
    split_ifs at used
    cases used
    exact stands order rests
  · cases entry
  · exact stands left entry

theorem step_standing (standing : Standing levelOf exchange) (keeps : OnOwnLevel levelOf message) :
    Standing levelOf (exchangeStep exchange message) := by
  intro orderId order stored
  rw [exchange_step_lookup] at stored
  split_ifs at stored with own
  · rw [← own]
    exact exchange_entry_stands keeps (standing message.orderId) order stored
  · exact standing orderId order stored

theorem share_elsewhere {orderId : Nat} {resting : Option ExchangeOrder}
    (stands : ∀ order ∈ resting, (order.side, order.price) = levelOf orderId)
    (other : levelOf orderId ≠ level) :
    share (exchangeWeight level.1 level.2) orderId resting = 0 := by
  cases resting with
  | none => exact share_none _ _
  | some order =>
      rw [share_some]
      apply if_neg
      intro here
      exact other ((stands order rfl).symm.trans (Prod.ext here.1 here.2))

/-- Whether a message is valid where it arrives, and the book it leaves. -/
def exchangeTurn (seedIdBase : Nat) (exchange : ExchangeBook) (message : Message) :
    Prop × ExchangeBook :=
  (ValidMessage seedIdBase exchange[message.orderId]? message, exchangeStep exchange message)

theorem valid_run_iff (exchange : ExchangeBook) (messages : List Message) :
    ValidRun seedIdBase exchange messages ↔
      ∀ pair ∈ trace (exchangeTurn seedIdBase) exchange messages, pair.2 := by
  induction messages generalizing exchange with
  | nil => simp [ValidRun, trace]
  | cons message rest ih =>
      rw [ValidRun, trace, List.forall_mem_cons, ih]
      rfl

theorem exchange_turns (exchange : ExchangeBook) (messages : List Message) :
    finalState (exchangeTurn seedIdBase) exchange messages =
      messages.foldl exchangeStep exchange := by
  induction messages generalizing exchange with
  | nil => rfl
  | cons message rest ih => exact ih (exchangeStep exchange message)

/-- The second book is like the first one as far as one level is concerned. -/
structure SameShown (levelOf : Nat → Level) (level : Level) (exchange part : ExchangeBook) :
    Prop where
  standing : Standing levelOf exchange
  shown : exchangeDepth part level.1 level.2 = exchangeDepth exchange level.1 level.2
  orders : ∀ orderId, levelOf orderId = level → part[orderId]? = exchange[orderId]?

theorem turn_within (same : SameShown levelOf level exchange part)
    (keeps : OnOwnLevel levelOf message) (own : messageLevel message = level) :
    (exchangeTurn seedIdBase exchange message).1 = (exchangeTurn seedIdBase part message).1 ∧
      SameShown levelOf level (exchangeTurn seedIdBase exchange message).2
        (exchangeTurn seedIdBase part message).2 := by
  by_cases isDisplayed : IsDisplayed message
  · have known := same.orders message.orderId ((keeps isDisplayed).symm.trans own)
    simp only [exchangeTurn, known, true_and]
    constructor
    · exact step_standing same.standing keeps
    · rw [exchange_step_depth, exchange_step_depth, known, same.shown]
    · intro orderId onLevel
      rw [exchange_step_lookup, exchange_step_lookup, known, same.orders orderId onLevel]
  · have isType : message.type ≠ 1 ∧ message.type ≠ 2 ∧ message.type ≠ 3 ∧ message.type ≠ 4 := by
      unfold IsDisplayed at isDisplayed
      omega
    have valid : ∀ resting, ValidMessage seedIdBase resting message := fun _ => .undisplayed isType
    simp only [exchangeTurn, undisplayed_step _ _ isType, eq_true (valid _), true_and]
    exact same

theorem turn_without (same : SameShown levelOf level exchange part)
    (keeps : OnOwnLevel levelOf message) (other : messageLevel message ≠ level) :
    SameShown levelOf level (exchangeTurn seedIdBase exchange message).2 part := by
  by_cases isDisplayed : IsDisplayed message
  · have elsewhere : levelOf message.orderId ≠ level := by
      rw [← keeps isDisplayed]
      exact other
    have stands := same.standing message.orderId
    constructor
    · exact step_standing same.standing keeps
    · change _ = exchangeDepth (exchangeStep exchange message) level.1 level.2
      rw [exchange_step_depth, share_elsewhere stands elsewhere,
        share_elsewhere (exchange_entry_stands keeps stands) elsewhere, same.shown, sub_zero,
        add_zero]
    · intro orderId onLevel
      have apart : message.orderId ≠ orderId := by
        rintro rfl
        exact elsewhere onLevel
      change _ = (exchangeStep exchange message)[orderId]?
      rw [exchange_step_lookup, if_neg apart, same.orders orderId onLevel]
  · have isType : message.type ≠ 1 ∧ message.type ≠ 2 ∧ message.type ≠ 3 ∧ message.type ≠ 4 := by
      unfold IsDisplayed at isDisplayed
      omega
    change SameShown levelOf level (exchangeStep exchange message) part
    rw [undisplayed_step _ _ isType]
    exact same

/-- The messages of one level are valid by themselves and show the level as the whole
stream does. -/
theorem isolated_exchange (standing : Standing levelOf exchange) (messages : List Message)
    (keeps : ∀ message ∈ messages, OnOwnLevel levelOf message)
    (valid : ValidRun seedIdBase exchange messages) (level : Level) :
    let own := messages.filter fun message => messageLevel message = level
    ValidRun seedIdBase exchange own ∧
      exchangeDepth (own.foldl exchangeStep exchange) level.1 level.2 =
        exchangeDepth (messages.foldl exchangeStep exchange) level.1 level.2 := by
  intro own
  have start : SameShown levelOf level exchange exchange := ⟨standing, rfl, fun _ _ => rfl⟩
  have isolated := isolated_run (exchangeTurn seedIdBase) (OnOwnLevel levelOf)
    (fun message => messageLevel message = level) (SameShown levelOf level)
    (fun _ _ _ kept isOwn same => turn_within same kept (of_decide_eq_true isOwn))
    (fun _ _ _ kept isOther same => turn_without same kept (of_decide_eq_false isOther))
    exchange exchange messages keeps start
  rw [exchange_turns, exchange_turns] at isolated
  refine ⟨?_, isolated.2.shown⟩
  rw [valid_run_iff, ← isolated.1]
  intro pair listed
  exact (valid_run_iff exchange messages).mp valid pair (List.mem_of_mem_filter listed)

theorem displayed_below (messages : List Message) (exchange : ExchangeBook)
    (sound : ∀ (orderId : Nat) (order : ExchangeOrder), exchange[orderId]? = some order →
      SoundExchangeOrder seedIdBase orderId order)
    (valid : ValidRun seedIdBase exchange messages) :
    ∀ message ∈ messages, IsDisplayed message → message.orderId < seedIdBase := by
  induction messages generalizing exchange with
  | nil =>
      intro message listed
      cases listed
  | cons message rest ih =>
      rw [List.forall_mem_cons]
      constructor
      · intro isDisplayed
        rcases valid.1 with ⟨_, _, _, _, below⟩ | ⟨order, _, names⟩ | ⟨order, _, names⟩ | isType
        · exact below
        · exact (sound message.orderId order names.rests).id
        · exact (sound message.orderId order names.rests).id
        · unfold IsDisplayed at isDisplayed
          omega
      · apply ih _ _ valid.2
        intro orderId order stored
        rw [exchange_step_lookup] at stored
        split_ifs at stored with own
        · rw [← own]
          exact exchange_entry_sound valid.1 (sound message.orderId) order stored
        · exact sound orderId order stored

end Exchange

section Reconstruction

variable {args : AdapterArgs} {state : AdapterState} {exchange : ExchangeBook}
  {levelOf : Nat → Level} {level : Level} {messages : List Message}

theorem message_events_keep (defaultScale : args.priceScale = 10000) (messages : List Message)
    (keeps : ∀ message ∈ messages, OnOwnLevel levelOf message) (active : ActiveTable) :
    KeepsLevels levelOf (messageEvents args active messages) ∧
      ∀ event ∈ messageEvents args active messages,
        ∃ message ∈ messages, IsDisplayed message ∧ event.orderId = message.orderId := by
  have origin : ∀ event ∈ messageEvents args active messages, ∃ message ∈ messages,
      IsDisplayed message ∧ event.orderId = message.orderId ∧
        eventLevel event = messageLevel message := by
    intro event listed
    rcases List.mem_map.mp listed with ⟨row, written, rfl⟩
    rcases List.mem_filterMap.mp written with ⟨output, isOutput, some_row⟩
    rw [← trace_outputs] at isOutput
    rcases List.mem_map.mp isOutput with ⟨pair, traced, rfl⟩
    have made := traced_rows defaultScale messages active pair traced row some_row
    have isMessage : pair.1 ∈ messages := by
      rw [← trace_inputs (rowStep args) active messages]
      exact List.mem_map_of_mem traced
    exact ⟨pair.1, isMessage, made.2.2, made.1, made.2.1⟩
  constructor
  · intro event listed
    rcases origin event listed with ⟨message, isMessage, isDisplayed, sameId, sameLevel⟩
    rw [sameLevel, sameId]
    exact keeps message isMessage isDisplayed
  · intro event listed
    rcases origin event listed with ⟨message, isMessage, isDisplayed, sameId, _⟩
    exact ⟨message, isMessage, isDisplayed, sameId⟩

/-- What one level shows after messages of which those of other levels may be anything
that names its own level, and how the rows of the level are answered. -/
theorem level_replayed (defaultScale : args.priceScale = 10000)
    (replayed : Replayed args.seedIdBase state exchange) (noneActive : state.active = ∅)
    (keeps : ∀ message ∈ messages, OnOwnLevel levelOf message)
    (below : ∀ message ∈ messages, IsDisplayed message → message.orderId < args.seedIdBase)
    (valid : ValidRun args.seedIdBase exchange
      (messages.filter fun message => messageLevel message = level)) :
    let events := rowEvents (writeMessages args state messages).rows
    depthAtPrice (finalState applyEvent orphanBook events) level.1 level.2 =
        exchangeDepth ((messages.filter fun message => messageLevel message = level).foldl
          exchangeStep exchange) level.1 level.2 ∧
      ∀ pair ∈ trace applyEvent orphanBook events, eventLevel pair.1 = level → pair.2 = true := by
  intro events
  let seeds := rowEvents state.rows
  let seeded := finalState applyEvent orphanBook seeds
  let own := messages.filter fun message => messageLevel message = level
  have split : ∀ messages, rowEvents (writeMessages args state messages).rows =
      seeds ++ messageEvents args state.active messages := by
    intro messages
    rw [write_messages_outputs, rowEvents, List.map_append]
    rfl
  have alone := write_messages_replayed args defaultScale state exchange own replayed valid
  have wrote := message_events_keep defaultScale messages keeps state.active
  have noSession : OnLevels (fun orderId => orderId < args.seedIdBase) levelOf seeded := by
    intro orderId order small stored
    rw [replayed.agrees.known orderId small, noneActive, ExtTreeMap.getElem?_empty] at stored
    cases stored
  have named : ∀ event ∈ messageEvents args state.active messages,
      event.orderId < args.seedIdBase := by
    intro event listed
    rcases wrote.2 event listed with ⟨message, isMessage, isDisplayed, sameId⟩
    rw [sameId]
    exact below message isMessage isDisplayed
  have isolated := isolated_level noSession _ named wrote.1 level
  rw [isolated_events defaultScale messages keeps] at isolated
  have answered := alone.accepted
  have depth := alone.agrees.depth level.1 level.2
  rw [split, outputs_append] at answered
  rw [split, final_state_append, depth_at_price_eq] at depth
  constructor
  · rw [show events = _ from split messages, final_state_append, depth_at_price_eq,
      ← isolated.2.shown, depth]
  · intro pair traced onLevel
    rw [show events = _ from split messages, trace_append, List.mem_append] at traced
    rcases traced with isSeed | isWritten
    · apply answered pair.2
      apply List.mem_append_left
      rw [← trace_outputs]
      exact List.mem_map_of_mem isSeed
    · have kept : pair ∈ (trace applyEvent seeded
          (messageEvents args state.active messages)).filter
            (fun pair => eventLevel pair.1 = level) :=
        List.mem_filter.mpr ⟨isWritten, decide_eq_true onLevel⟩
      rw [isolated.1] at kept
      apply answered pair.2
      apply List.mem_append_right
      rw [← trace_outputs]
      exact List.mem_map_of_mem kept

end Reconstruction

end TickForge.FilteredFeed
