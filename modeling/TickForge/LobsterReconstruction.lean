import TickForge.LobsterSnapshot
import TickForge.LobsterSteps

/-!
# Seeded replay rebuilds the exchange book

The adapter tracks the orders entered since the snapshot; what rested before is
seeded as anonymous orders, one for each level, and drained by orphan
reductions. Session orders stay covered because a level always shows the
exchange's total, of which theirs is a part.
-/

namespace TickForge.LobsterReconstruction

open Std (ExtTreeMap)
open KeyedTotals StepRuns MarketEventModel OrderBookModel OrderBookStep OrphanRemoval
open LobsterAdapterModel LobsterExchange LobsterSteps LobsterSnapshot

set_option autoImplicit false

section Runs

/-- The rows written so far were all accepted and rebuilt the exchange book. -/
structure Replayed (seedIdBase : Nat) (state : AdapterState) (exchange : ExchangeBook) : Prop where
  accepted : ∀ answer ∈ outputs applyEvent orphanBook (rowEvents state.rows), answer = true
  agrees : Reconstructs seedIdBase
    (finalState applyEvent orphanBook (rowEvents state.rows)) state.active exchange

theorem message_row_event (args : AdapterArgs) (defaultScale : args.priceScale = 10000)
    (message : Message) (conversion : Conversion) :
    (messageRow args message conversion).toEvent =
      reportedEvent (message.timeNs + args.timeBaseNs).toNat message conversion.tfType
        conversion.tfQty := by
  have price : messagePrice args message = message.price :=
    if_neg (not_not_intro defaultScale)
  rw [messageRow, price]
  rfl

theorem undisplayed_skips (args : AdapterArgs) (active : ActiveTable) (message : Message)
    (isType : message.type ≠ 1 ∧ message.type ≠ 2 ∧ message.type ≠ 3 ∧ message.type ≠ 4) :
    convertMessage args active message = none := by
  rw [convertMessage, if_neg isType.1, if_neg isType.2.1, if_neg isType.2.2.1,
    if_neg isType.2.2.2]

theorem undisplayed_step (exchange : ExchangeBook) (message : Message)
    (isType : message.type ≠ 1 ∧ message.type ≠ 2 ∧ message.type ≠ 3 ∧ message.type ≠ 4) :
    exchangeStep exchange message = exchange := by
  apply ExtTreeMap.ext_getElem?
  intro orderId
  rw [exchange_step_lookup, undisplayed_entry _ _ isType]
  split_ifs with same
  · rw [same]
  · rfl

/-- The step of the three-way simulation. -/
theorem write_message_replayed (args : AdapterArgs) (defaultScale : args.priceScale = 10000)
    (state : AdapterState) (exchange : ExchangeBook) (message : Message)
    (replayed : Replayed args.seedIdBase state exchange)
    (valid : ValidMessage args.seedIdBase exchange[message.orderId]? message) :
    Replayed args.seedIdBase (writeMessage args state message)
      (exchangeStep exchange message) := by
  by_cases isDisplayed : message.type = 1 ∨ message.type = 2 ∨ message.type = 3 ∨ message.type = 4
  · rcases message_converts defaultScale replayed.agrees valid isDisplayed with
      ⟨below, conversion, left, converts, changes, steps⟩
    rcases steps (message.timeNs + args.timeBaseNs).toNat with ⟨plan, steps⟩
    rcases write_message_converted args state message conversion converts with ⟨rows, active⟩
    rcases entry_step_reconstructs replayed.agrees valid below rfl changes steps with
      ⟨answered, agrees⟩
    have events : rowEvents (writeMessage args state message).rows =
        rowEvents state.rows ++ [reportedEvent (message.timeNs + args.timeBaseNs).toNat message
          conversion.tfType conversion.tfQty] := by
      rw [rows, rowEvents, List.map_append, List.map_singleton,
        message_row_event args defaultScale]
      rfl
    constructor
    · rw [events, outputs_append]
      intro answer listed
      rcases List.mem_append.mp listed with earlier | last
      · exact replayed.accepted answer earlier
      · rw [List.mem_singleton.mp last]
        exact answered
    · rw [events, final_state_append, active]
      exact agrees
  · have isType : message.type ≠ 1 ∧ message.type ≠ 2 ∧ message.type ≠ 3 ∧ message.type ≠ 4 := by
      omega
    rcases write_message_skipped args state message
      (undisplayed_skips args state.active message isType) with ⟨rows, active⟩
    rw [undisplayed_step exchange message isType]
    constructor
    · rw [rows]
      exact replayed.accepted
    · rw [rows, active]
      exact replayed.agrees

theorem write_messages_replayed (args : AdapterArgs) (defaultScale : args.priceScale = 10000)
    (state : AdapterState) (exchange : ExchangeBook) (messages : List Message)
    (replayed : Replayed args.seedIdBase state exchange)
    (valid : ValidRun args.seedIdBase exchange messages) :
    Replayed args.seedIdBase (writeMessages args state messages)
      (messages.foldl exchangeStep exchange) := by
  induction messages generalizing state exchange with
  | nil => exact replayed
  | cons message rest ih =>
      apply ih
      · exact write_message_replayed args defaultScale _ exchange message
          ⟨replayed.accepted, replayed.agrees⟩ valid.1
      · exact valid.2

theorem valid_run_append (seedIdBase : Nat) (exchange : ExchangeBook)
    (first second : List Message) (valid : ValidRun seedIdBase exchange (first ++ second)) :
    ValidRun seedIdBase exchange first := by
  induction first generalizing exchange with
  | nil => trivial
  | cons message rest ih => exact ⟨valid.1, ih _ valid.2⟩

end Runs

section Reconstruction

/-- The adapter once the seeds are written and the first message is passed over. -/
def seededState (args : AdapterArgs) (bids asks : List PriceLevel) : AdapterState :=
  { rows := seedRows .sell args.seedIdBase asks ++
      seedRows .buy (args.seedIdBase + asks.length) bids
    nSeeded := asks.length + bids.length
    msgIndex := 0 }

theorem convert_seeded (args : AdapterArgs) (path : Text) (fields : List Int)
    (wholeLevels : fields.length % 4 = 0) (zeroth : MessageRow) (present : zeroth ≠ .blank)
    (messages : List Message) :
    convert args (some ⟨path, some fields⟩) (zeroth :: messages.map .message) =
      .ok (writeMessages args (seededState args ((bidColumns fields).filter isOccupied)
        ((askColumns fields).filter isOccupied)) messages) := by
  have read : readInitialBook ⟨path, some fields⟩ =
      .ok ((bidColumns fields).filter isOccupied, (askColumns fields).filter isOccupied) := by
    rw [readInitialBook, ← occupied_levels_eq]
    exact if_neg (not_not_intro wholeLevels)
  have passedOver : ∀ state : AdapterState, state.msgIndex = -1 →
      convertRow args 1 state 1 zeroth = .ok { state with msgIndex := 0 } := by
    intro state first
    rw [convertRow, if_neg present, first]
    rfl
  rw [convert, read]
  simp only [write_seeds_eq]
  rw [convertRows, passedOver _ rfl]
  simp only [List.nil_append, zero_add]
  exact convert_rows_messages args 1 _ 2 messages (le_refl _)

theorem seeded_replayed (args : AdapterArgs) (fields : List Int) (initial : ExchangeBook)
    (sound : SoundExchange args.seedIdBase initial)
    (bids : ListsLevels (bidColumns fields) (exchangeDepth initial .buy))
    (asks : ListsLevels (askColumns fields) (exchangeDepth initial .sell)) :
    Replayed args.seedIdBase (seededState args ((bidColumns fields).filter isOccupied)
      ((askColumns fields).filter isOccupied)) initial := by
  obtain ⟨accepted, seeded⟩ := both_sides_seeded args.seedIdBase _ _
    (kept_levels_sound sound bids) (kept_levels_sound sound asks)
  constructor
  · exact accepted
  · constructor
    · exact seeded.accepts
    · intro orderId small
      rw [seededState, ExtTreeMap.getElem?_empty]
      exact seeded.free orderId (.inl small)
    · intro orderId order tracked
      rw [seededState, ExtTreeMap.getElem?_empty] at tracked
      cases tracked
    · intro orderId order stored
      exact (sound orderId order stored).1
    · intro side price
      apply (seeded.depth side price).trans
      cases side with
      | buy => exact kept_levels_depth sound bids price
      | sell => exact kept_levels_depth sound asks price

/-- Seeded from the snapshot and replayed with orphan operations accepted, every
row is accepted and after the row of each message every level shows the total of
the exchange orders at it. -/
theorem seeded_replay_reconstructs_exchange (args : AdapterArgs)
    (defaultScale : args.priceScale = 10000) (path : Text) (fields : List Int)
    (wholeLevels : fields.length % 4 = 0) (initial : ExchangeBook)
    (sound : SoundExchange args.seedIdBase initial)
    (bids : ListsLevels (bidColumns fields) (exchangeDepth initial .buy))
    (asks : ListsLevels (askColumns fields) (exchangeDepth initial .sell))
    (zeroth : MessageRow) (present : zeroth ≠ .blank) (messages : List Message)
    (valid : ValidRun args.seedIdBase initial messages) :
    ∃ output, convert args (some ⟨path, some fields⟩) (zeroth :: messages.map .message) =
        .ok output ∧
      (∀ answer ∈ outputs applyEvent orphanBook (rowEvents output.rows), answer = true) ∧
      ∀ seen, seen <+: messages → ∃ written,
        convert args (some ⟨path, some fields⟩) (zeroth :: seen.map .message) = .ok written ∧
        written.rows <+: output.rows ∧
        ∀ side price,
          depthAtPrice (finalState applyEvent orphanBook (rowEvents written.rows)) side price =
            exchangeDepth (seen.foldl exchangeStep initial) side price := by
  have started := seeded_replayed args fields initial sound bids asks
  refine ⟨_, convert_seeded args path fields wholeLevels zeroth present messages,
    (write_messages_replayed args defaultScale _ _ messages started valid).accepted, ?_⟩
  rintro seen ⟨rest, rfl⟩
  have validSeen := valid_run_append args.seedIdBase initial seen rest valid
  refine ⟨_, convert_seeded args path fields wholeLevels zeroth present seen, ?_,
    (write_messages_replayed args defaultScale _ _ seen started validSeen).agrees.depth⟩
  rw [write_messages_append]
  exact write_messages_extend args _ rest

/-- One seeded bid; an order joins it, the seeded order loses a part and the new
one is filled. -/
theorem joined_bid_is_reconstructed :
    let initial : ExchangeBook := (∅ : ExchangeBook).insert 7 ⟨.buy, 10000, 20⟩
    let zeroth : MessageRow :=
      .message { type := 1, orderId := 7, size := 20, price := 10000, direction := 1 }
    let messages : List Message :=
      [{ type := 1, orderId := 20, size := 4, price := 10000, direction := 1 },
        { type := 2, orderId := 7, size := 5, price := 10000, direction := 1 },
        { type := 4, orderId := 20, size := 4, price := 10000, direction := 1 }]
    ∃ output, convert {} (some ⟨[], some [9999999999, 0, 10000, 20]⟩)
        (zeroth :: messages.map .message) = .ok output ∧
      (∀ answer ∈ outputs applyEvent orphanBook (rowEvents output.rows), answer = true) ∧
      ∀ seen, seen <+: messages → ∃ written,
        convert {} (some ⟨[], some [9999999999, 0, 10000, 20]⟩)
          (zeroth :: seen.map .message) = .ok written ∧
        written.rows <+: output.rows ∧
        ∀ side price,
          depthAtPrice (finalState applyEvent orphanBook (rowEvents written.rows)) side price =
            exchangeDepth (seen.foldl exchangeStep initial) side price := by
  intro initial zeroth messages
  have depth : ∀ side price, exchangeDepth initial side price =
      if Side.buy = side ∧ (10000 : Int) = price then 20 else 0 := by
    intro side price
    have entered : exchangeDepth initial side price = _ :=
      total_put (exchangeWeight side price) (∅ : ExchangeBook) 7 (some ⟨.buy, 10000, 20⟩)
    rw [entered]
    simp [exchangeWeight]
  apply seeded_replay_reconstructs_exchange {} rfl [] _ rfl initial
  · intro orderId order stored
    rw [lookup_insert] at stored
    split_ifs at stored with own
    · cases stored
      subst own
      exact ⟨⟨by decide, by decide, by decide⟩, by decide⟩
    · cases stored
  · constructor
    · intro level listed
      cases List.mem_singleton.mp listed
      exact .inr ⟨by decide, (depth .buy 10000).symm⟩
    · intro price shown
      rw [depth] at shown ⊢
      split_ifs at shown ⊢ with here
      · rw [← here.2]
        exact List.mem_singleton.mpr rfl
      · exact absurd shown (lt_irrefl 0)
    · exact List.pairwise_singleton _ _
  · constructor
    · intro level listed
      cases List.mem_singleton.mp listed
      exact .inl (.inl rfl)
    · intro price shown
      rw [depth, if_neg (by simp)] at shown
      exact absurd shown (lt_irrefl 0)
    · exact List.pairwise_singleton _ _
  · decide
  · refine ⟨.submission rfl (by decide) (by decide) (by decide) (by decide), ?_, ?_, trivial⟩
    · exact .reduction ⟨.buy, 10000, 20⟩ (.inl rfl) ⟨by decide, rfl, rfl⟩ (by decide) (by decide)
    · exact .reduction ⟨.buy, 10000, 4⟩ (.inr rfl) ⟨by decide, rfl, rfl⟩ (by decide) (by decide)

end Reconstruction

end TickForge.LobsterReconstruction
