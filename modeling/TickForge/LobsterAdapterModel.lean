import TickForge.CsvRoundTrip
import TickForge.OrderBookModel

/-!
# The LOBSTER adapter

A transcription of `lobster_to_tickforge.py`: the seed rows of `--initial-book`,
the table of active orders and the conversion of one message after another.
Message rows arrive as `csv.reader` splits them and `seconds_to_ns` and `int`
read their fields. What is printed at the end is left out.
-/

namespace TickForge.LobsterAdapterModel

open Std (ExtTreeMap)
open KeyedTotals MarketEventModel OrderBookModel CsvRoundTrip

set_option autoImplicit false

section Inputs

structure AdapterArgs where
  priceScale : Int := 10000
  timeBaseNs : Int := 0
  seedIdBase : Nat := 10 ^ 15
  strict : Bool := false
  deriving DecidableEq, Repr

/-- The file behind `--initial-book` and the integers of its first line that is
not blank, if there is one. -/
structure BookFile where
  path : Text
  first : Option (List Int)
  deriving DecidableEq, Repr

/-- The six columns of a message; ids are unsigned as the engine's are. -/
structure Message where
  timeNs : Int := 0
  type : Int
  orderId : Nat
  size : Int
  price : Int
  direction : Int
  deriving DecidableEq, Repr

/-- A row of `csv.reader`. The time of an `infiniteTime` row is no finite number of
nanoseconds; `int` raises `OverflowError` for it, which the loop does not catch. -/
inductive MessageRow where
  | blank
  | short (columns : Nat)
  | infiniteTime
  | unparsable (reason : Text)
  | message (message : Message)
  deriving DecidableEq, Repr

end Inputs

section InitialBook

def lobsterSentinel : Nat := 9999999999

/-- A level is kept where its price is no sentinel and its size is positive. -/
def isOccupied (level : PriceLevel) : Bool :=
  level.1.natAbs ≠ lobsterSentinel && 0 < level.2

/-- The loop of `read_initial_book` over groups of four columns: bids and asks. -/
def occupiedLevels : List Int → List PriceLevel × List PriceLevel
  | askPrice :: askSize :: bidPrice :: bidSize :: rest =>
      let below := occupiedLevels rest
      (if isOccupied (bidPrice, bidSize) then (bidPrice, bidSize) :: below.1 else below.1,
        if isOccupied (askPrice, askSize) then (askPrice, askSize) :: below.2 else below.2)
  | _ => ([], [])

def readInitialBook (file : BookFile) : Except Text (List PriceLevel × List PriceLevel) :=
  match file.first with
  | none => .error ("empty orderbook file: ".toList ++ file.path)
  | some fields =>
      if fields.length % 4 ≠ 0 then
        .error ("orderbook row has ".toList ++ Nat.toDigits 10 fields.length ++
          " columns; expected multiple of 4".toList)
      else .ok (occupiedLevels fields)

end InitialBook

section State

structure ActiveOrder where
  orderId : Nat
  side : Side
  price : Int
  size : Int
  deriving DecidableEq, Repr

abbrev ActiveTable := ExtTreeMap Nat ActiveOrder compare

/-- One row of the output file. -/
structure AdapterRow where
  timestampNs : Int
  type : EventType
  orderId : Nat
  side : Side
  price : Int
  quantity : Int
  deriving DecidableEq, Repr

/-- The event of a row whose timestamp is not negative. -/
def AdapterRow.toEvent (row : AdapterRow) : MarketEvent :=
  { timestampNs := row.timestampNs.toNat
    type := row.type
    orderId := row.orderId
    side := row.side
    price := row.price
    quantity := row.quantity }

def rowEvents (rows : List AdapterRow) : List MarketEvent := rows.map AdapterRow.toEvent

/-- The locals of `main` and the rows written below the header. -/
structure AdapterState where
  active : ActiveTable := ∅
  rows : List AdapterRow := []
  nWritten : Nat := 0
  nSkipped : Nat := 0
  nSeeded : Nat := 0
  skippedBreakdown : ExtTreeMap Text Nat compare := ∅
  msgIndex : Int := -1

def AdapterState.writeRow (state : AdapterState) (row : AdapterRow) : AdapterState :=
  { state with rows := state.rows ++ [row] }

def AdapterState.note (state : AdapterState) (key : Text) : AdapterState :=
  { state with
    skippedBreakdown := state.skippedBreakdown.insert key
      (state.skippedBreakdown[key]?.getD 0 + 1) }

def AdapterState.skip (state : AdapterState) (key : Text) : AdapterState :=
  { state with nSkipped := state.nSkipped + 1 }.note key

end State

section Seeds

def seedRow (seedId : Nat) (side : Side) (level : PriceLevel) : AdapterRow :=
  ⟨0, .add, seedId, side, level.1, level.2⟩

/-- One seeding loop, with the id it starts from and the id it ends on. -/
def writeSeeds (side : Side) : AdapterState → Nat → List PriceLevel → AdapterState × Nat
  | state, nextSeedId, [] => (state, nextSeedId)
  | state, nextSeedId, level :: rest =>
      let written := state.writeRow (seedRow nextSeedId side level)
      writeSeeds side { written with nSeeded := written.nSeeded + 1 } (nextSeedId + 1) rest

end Seeds

section Messages

def messageSide (message : Message) : Side :=
  if message.direction = 1 then .buy else .sell

def messagePrice (args : AdapterArgs) (message : Message) : Int :=
  if args.priceScale ≠ 10000 then (message.price * args.priceScale).fdiv 10000 else message.price

/-- The branch on `lob_type`: the type and quantity to write, the active orders
it leaves and the key it counts; `none` for the types that are not modelled. -/
structure Conversion where
  tfType : EventType
  tfQty : Int
  active : ActiveTable
  counted : Option Text := none

def convertMessage (args : AdapterArgs) (active : ActiveTable) (message : Message) :
    Option Conversion :=
  if message.type = 1 then
    some
      { tfType := .add
        tfQty := message.size
        active := active.insert message.orderId
          ⟨message.orderId, messageSide message, messagePrice args message, message.size⟩ }
  else if message.type = 2 then
    match active[message.orderId]? with
    | none =>
        some
          { tfType := .cancel
            tfQty := message.size
            active := active
            counted := some "orphan_partial_cancel_emitted".toList }
    | some existing =>
        let newSize := max 0 (existing.size - message.size)
        if newSize = 0 then
          some
            { tfType := .cancel
              tfQty := existing.size
              active := active.erase message.orderId }
        else
          some
            { tfType := .modify
              tfQty := newSize
              active := active.insert message.orderId { existing with size := newSize } }
  else if message.type = 3 then
    some { tfType := .cancel, tfQty := message.size, active := active.erase message.orderId }
  else if message.type = 4 then
    match active[message.orderId]? with
    | none => some { tfType := .trade, tfQty := message.size, active := active }
    | some existing =>
        let left := existing.size - message.size
        if left ≤ 0 then
          some
            { tfType := .trade, tfQty := message.size, active := active.erase message.orderId }
        else
          some
            { tfType := .trade
              tfQty := message.size
              active := active.insert message.orderId { existing with size := left } }
  else none

def messageRow (args : AdapterArgs) (message : Message) (conversion : Conversion) : AdapterRow :=
  { timestampNs := message.timeNs + args.timeBaseNs
    type := conversion.tfType
    orderId := message.orderId
    side := messageSide message
    price := messagePrice args message
    quantity := conversion.tfQty }

def countKey (state : AdapterState) : Option Text → AdapterState
  | none => state
  | some key => state.note key

@[simp] theorem count_key_rows (state : AdapterState) (counted : Option Text) :
    (countKey state counted).rows = state.rows := by
  cases counted <;> rfl

@[simp] theorem count_key_active (state : AdapterState) (counted : Option Text) :
    (countKey state counted).active = state.active := by
  cases counted <;> rfl

@[simp] theorem count_key_index (state : AdapterState) (counted : Option Text) :
    (countKey state counted).msgIndex = state.msgIndex := by
  cases counted <;> rfl

/-- The rest of the loop body once the fields are read. -/
def writeMessage (args : AdapterArgs) (state : AdapterState) (message : Message) : AdapterState :=
  match convertMessage args state.active message with
  | none => state.skip ("lobster_type_".toList ++ pyInt message.type)
  | some conversion =>
      let counted := countKey { state with active := conversion.active } conversion.counted
      let written := counted.writeRow (messageRow args message conversion)
      { written with nWritten := written.nWritten + 1 }

theorem write_message_converted (args : AdapterArgs) (state : AdapterState) (message : Message)
    (conversion : Conversion)
    (converts : convertMessage args state.active message = some conversion) :
    (writeMessage args state message).rows =
        state.rows ++ [messageRow args message conversion] ∧
      (writeMessage args state message).active = conversion.active := by
  simp [writeMessage, converts, AdapterState.writeRow]

theorem write_message_skipped (args : AdapterArgs) (state : AdapterState) (message : Message)
    (skips : convertMessage args state.active message = none) :
    (writeMessage args state message).rows = state.rows ∧
      (writeMessage args state message).active = state.active := by
  rw [writeMessage, skips]
  exact ⟨rfl, rfl⟩

theorem write_message_index (args : AdapterArgs) (state : AdapterState) (message : Message) :
    (writeMessage args state message).msgIndex = state.msgIndex := by
  cases converts : convertMessage args state.active message with
  | none =>
      rw [writeMessage, converts]
      rfl
  | some conversion => simp [writeMessage, converts, AdapterState.writeRow]

/-- A row that is no message aborts a strict conversion and is skipped otherwise. -/
def rejectRow (args : AdapterArgs) (state : AdapterState) (lineNo : Nat) (key reason : Text) :
    Except Text AdapterState :=
  if args.strict then .error ("line ".toList ++ Nat.toDigits 10 lineNo ++ ": ".toList ++ reason)
  else .ok (state.skip key)

/-- The loop body of `main` for one row. -/
def convertRow (args : AdapterArgs) (skipFirstMessages : Int) (state : AdapterState)
    (lineNo : Nat) (row : MessageRow) : Except Text AdapterState :=
  if row = .blank then .ok state
  else
    let reached := { state with msgIndex := state.msgIndex + 1 }
    if reached.msgIndex < skipFirstMessages then .ok reached
    else match row with
      | .blank => .ok reached
      | .short columns =>
          rejectRow args reached lineNo "malformed".toList
            ("expected 6 LOBSTER columns, got ".toList ++ Nat.toDigits 10 columns)
      | .infiniteTime => .error "OverflowError: cannot convert float infinity to integer".toList
      | .unparsable reason =>
          rejectRow args reached lineNo "parse_error".toList ("parse error: ".toList ++ reason)
      | .message message => .ok (writeMessage args reached message)

def convertRows (args : AdapterArgs) (skipFirstMessages : Int) :
    AdapterState → Nat → List MessageRow → Except Text AdapterState
  | state, _, [] => .ok state
  | state, lineNo, row :: rest =>
      match convertRow args skipFirstMessages state lineNo row with
      | .error reason => .error reason
      | .ok next => convertRows args skipFirstMessages next (lineNo + 1) rest

/-- `main`, from the parsed arguments to the output rows; an error is the message
of the aborted run, or the last line of its traceback. -/
def convert (args : AdapterArgs) (initialBook : Option BookFile) (rows : List MessageRow) :
    Except Text AdapterState :=
  match initialBook with
  | none => convertRows args 0 {} 1 rows
  | some file =>
      match readInitialBook file with
      | .error reason => .error reason
      | .ok (seedBids, seedAsks) =>
          let asked := writeSeeds .sell {} args.seedIdBase seedAsks
          let seeded := writeSeeds .buy asked.1 asked.2 seedBids
          convertRows args 1 seeded.1 1 rows

end Messages

section Runs

/-- The loop of `main` over rows that all hold messages. -/
def writeMessages (args : AdapterArgs) : AdapterState → List Message → AdapterState
  | state, [] => state
  | state, message :: rest =>
      writeMessages args
        (writeMessage args { state with msgIndex := state.msgIndex + 1 } message) rest

theorem convert_rows_messages (args : AdapterArgs) (skipFirstMessages : Int)
    (state : AdapterState) (lineNo : Nat) (messages : List Message)
    (started : skipFirstMessages ≤ state.msgIndex + 1) :
    convertRows args skipFirstMessages state lineNo (messages.map .message) =
      .ok (writeMessages args state messages) := by
  induction messages generalizing state lineNo with
  | nil => rfl
  | cons message rest ih =>
      let reached : AdapterState := { state with msgIndex := state.msgIndex + 1 }
      have converted : convertRow args skipFirstMessages state lineNo (.message message) =
          .ok (writeMessage args reached message) := by
        rw [convertRow, if_neg (by simp)]
        exact if_neg (not_lt.mpr started)
      rw [List.map_cons, convertRows, converted]
      apply ih
      rw [write_message_index]
      change skipFirstMessages ≤ state.msgIndex + 1 + 1
      omega

theorem write_messages_append (args : AdapterArgs) (state : AdapterState)
    (first second : List Message) :
    writeMessages args state (first ++ second) =
      writeMessages args (writeMessages args state first) second := by
  induction first generalizing state with
  | nil => rfl
  | cons message rest ih => exact ih _

theorem write_message_extends (args : AdapterArgs) (state : AdapterState) (message : Message) :
    state.rows <+: (writeMessage args state message).rows := by
  cases converts : convertMessage args state.active message with
  | none =>
      rw [(write_message_skipped args state message converts).1]
  | some conversion =>
      rw [(write_message_converted args state message conversion converts).1]
      exact List.prefix_append _ _

/-- Rows once written stay. -/
theorem write_messages_extend (args : AdapterArgs) (state : AdapterState)
    (messages : List Message) : state.rows <+: (writeMessages args state messages).rows := by
  induction messages generalizing state with
  | nil => exact List.prefix_refl state.rows
  | cons message rest ih =>
      exact (write_message_extends args { state with msgIndex := state.msgIndex + 1 }
        message).trans (ih _)

/-- The rows of one seeding loop. -/
def seedRows (side : Side) : Nat → List PriceLevel → List AdapterRow
  | _, [] => []
  | nextSeedId, level :: rest =>
      seedRow nextSeedId side level :: seedRows side (nextSeedId + 1) rest

theorem seed_rows_length (side : Side) (nextSeedId : Nat) (levels : List PriceLevel) :
    (seedRows side nextSeedId levels).length = levels.length := by
  induction levels generalizing nextSeedId with
  | nil => rfl
  | cons level rest ih => exact congrArg (· + 1) (ih (nextSeedId + 1))

theorem write_seeds_eq (side : Side) (state : AdapterState) (nextSeedId : Nat)
    (levels : List PriceLevel) :
    writeSeeds side state nextSeedId levels =
      ({ state with
          rows := state.rows ++ seedRows side nextSeedId levels
          nSeeded := state.nSeeded + levels.length },
        nextSeedId + levels.length) := by
  induction levels generalizing state nextSeedId with
  | nil => simp [writeSeeds, seedRows]
  | cons level rest ih =>
      rw [writeSeeds, ih]
      simp [seedRows, AdapterState.writeRow, Nat.add_assoc, Nat.add_comm 1]

end Runs

end TickForge.LobsterAdapterModel
