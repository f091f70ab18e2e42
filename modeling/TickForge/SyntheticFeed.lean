import TickForge.ActiveOrders

/-!
# The synthetic feed

A transcription of the event loop of `generate_synthetic_events.py` over the
results its random generator returns. Whatever these are, as long as each lies
in the range asked for, the written feed parses back, the strict book accepts
all of it and stays uncrossed. Prices on the sell side have no upper clamp, so
that they stay inside 64 bits is a condition of its own.
-/

namespace TickForge.SyntheticFeed

open StepRuns MarketEventModel OrderBookModel StrictReference CsvParserModel CsvRoundTrip
open KeyedLists Int64DepthModel Int64Depth ActiveOrders

set_option autoImplicit false

section Script

/-- The results of the random generator in one turn of the loop; a turn reads
those its branch asks for. `random()` returns a multiple of `2^-53`, given here
by its multiplier. -/
structure Draws where
  op : Nat
  sideRoll : Nat := 0
  price : Int := 0
  quantity : Int := 0
  index : Nat := 0
  priceMove : Int := 0
  tradedQuantity : Int := 0
  timeStep : Nat := 1
  deriving DecidableEq, Repr

/-- The doubles the rolls are compared with, as multipliers too. -/
def addBelow : Nat := 4953959590107546

def modifyBelow : Nat := 6305039478318694

def tradeBelow : Nat := 7656119366529843

def buyBelow : Nat := 4503599627370496

/-- The variables of the loop, with the rows written so far. -/
structure ScriptState where
  rows : List MarketEvent := []
  active : List ActiveOrder := []
  nextOrderId : Nat := 1
  timestampNs : Nat := 1000000000
  deriving DecidableEq, Repr

def withRow (state : ScriptState) (type : EventType) (order : ActiveOrder) (quantity : Int) :
    List MarketEvent :=
  state.rows ++
    [{ timestampNs := state.timestampNs
       type := type
       orderId := order.orderId
       side := order.side
       price := order.price
       quantity := quantity }]

def drawnSide (draws : Draws) : Side := if draws.sideRoll < buyBelow then .buy else .sell

def addTurn (state : ScriptState) (draws : Draws) : ScriptState :=
  let order : ActiveOrder := ⟨state.nextOrderId, drawnSide draws, draws.price, draws.quantity⟩
  { rows := withRow state .add order draws.quantity
    active := state.active ++ [order]
    nextOrderId := state.nextOrderId + 1
    timestampNs := state.timestampNs + draws.timeStep }

/-- The turns that pick an order of the active list. -/
def pickTurn (state : ScriptState) (draws : Draws) (order : ActiveOrder) : ScriptState :=
  if draws.op < modifyBelow then
    let candidatePrice := max 1 (order.price + draws.priceMove)
    let changed : ActiveOrder :=
      { order with
        price := if order.side = .buy then min 10000 candidatePrice else max 10005 candidatePrice
        quantity := draws.quantity }
    { state with
      rows := withRow state .modify changed changed.quantity
      active := state.active.set draws.index changed
      timestampNs := state.timestampNs + draws.timeStep }
  else if draws.op < tradeBelow then
    let left := order.quantity - draws.tradedQuantity
    { state with
      rows := withRow state .trade order draws.tradedQuantity
      active :=
        if left = 0 then state.active.eraseIdx draws.index
        else state.active.set draws.index { order with quantity := left }
      timestampNs := state.timestampNs + draws.timeStep }
  else
    { state with
      rows := withRow state .cancel order 0
      active := state.active.eraseIdx draws.index
      timestampNs := state.timestampNs + draws.timeStep }

def scriptTurn (state : ScriptState) (draws : Draws) : ScriptState :=
  if state.active = [] ∨ draws.op < addBelow then addTurn state draws
  else match state.active[draws.index]? with
    | some order => pickTurn state draws order
    | none => state

/-- The loop over one draw record for each of its turns. -/
def runScript (draws : List Draws) : ScriptState := draws.foldl scriptTurn {}

/-- The file the script writes. -/
def scriptOutput (draws : List Draws) : Text := writeFeed .crlf (runScript draws).rows

end Script

section Ranges

/-- The results the generator may return to the calls of this turn. -/
def InRange (state : ScriptState) (draws : Draws) : Prop :=
  (1 ≤ draws.timeStep ∧ draws.timeStep ≤ 1000) ∧ draws.op < 2 ^ 53 ∧
    if state.active = [] ∨ draws.op < addBelow then
      draws.sideRoll < 2 ^ 53 ∧
        (drawnSide draws = .buy → 9950 ≤ draws.price ∧ draws.price ≤ 10000) ∧
        (drawnSide draws = .sell → 10005 ≤ draws.price ∧ draws.price ≤ 10055) ∧
        1 ≤ draws.quantity ∧ draws.quantity ≤ 100
    else
      draws.index < state.active.length ∧
        if draws.op < modifyBelow then
          (-3 ≤ draws.priceMove ∧ draws.priceMove ≤ 3) ∧ 1 ≤ draws.quantity ∧ draws.quantity ≤ 100
        else if draws.op < tradeBelow then
          ∀ order ∈ state.active[draws.index]?,
            1 ≤ draws.tradedQuantity ∧ draws.tradedQuantity ≤ order.quantity
        else True

instance (state : ScriptState) (draws : Draws) : Decidable (InRange state draws) :=
  inferInstanceAs (Decidable (_ ∧ _ ∧ _))

def AllInRange : ScriptState → List Draws → Prop
  | _, [] => True
  | state, draws :: rest => InRange state draws ∧ AllInRange (scriptTurn state draws) rest

instance decidableAllInRange : ∀ (state : ScriptState) (draws : List Draws),
    Decidable (AllInRange state draws)
  | _, [] => .isTrue trivial
  | state, draws :: rest =>
      @instDecidableAnd _ _ _ (decidableAllInRange (scriptTurn state draws) rest)

end Ranges

section Invariant

/-- The quantity rules of the parser, and no negative price. -/
structure SoundRow (row : MarketEvent) : Prop where
  price : 0 ≤ row.price
  quantity : 0 ≤ row.quantity ∧ row.quantity ≤ 100
  positive : row.type = .add ∨ row.type = .trade → 1 ≤ row.quantity

structure ScriptInvariant (state : ScriptState) : Prop where
  produces : Produces state.rows state.active
  increasing : state.rows.Pairwise fun earlier later => earlier.timestampNs < later.timestampNs
  before : ∀ row ∈ state.rows, row.timestampNs < state.timestampNs
  sound : ∀ row ∈ state.rows, SoundRow row
  listed : ∀ order ∈ state.active, order.orderId < state.nextOrderId ∧ InBand 100 order

/-- A turn keeps the invariant and writes one row behind the others. -/
def Advances (state after : ScriptState) : Prop :=
  ScriptInvariant after ∧ ∃ row, after.rows = state.rows ++ [row]

variable {state : ScriptState} {draws : Draws}

theorem start_script_invariant : ScriptInvariant {} where
  produces := .start
  increasing := .nil
  before := by simp
  sound := by simp
  listed := by simp

/-- What a turn of the script has to show of its row and its new list. -/
theorem script_advances (invariant : ScriptInvariant state) {row : MarketEvent}
    {next : List ActiveOrder} (nextOrderId : Nat) {timeStep : Nat} (forwards : 1 ≤ timeStep)
    (turn : Turn state.active row next) (now : row.timestampNs = state.timestampNs)
    (soundRow : SoundRow row)
    (listed : ∀ order ∈ next, order.orderId < nextOrderId ∧ InBand 100 order) :
    Advances state
      { rows := state.rows ++ [row]
        active := next
        nextOrderId := nextOrderId
        timestampNs := state.timestampNs + timeStep } := by
  refine ⟨⟨invariant.produces.turn turn, ?_, ?_, all_append invariant.sound soundRow, listed⟩,
    row, rfl⟩
  · rw [List.pairwise_append]
    refine ⟨invariant.increasing, List.pairwise_singleton _ _, ?_⟩
    intro earlier old later new
    rw [List.mem_singleton.mp new, now]
    exact invariant.before earlier old
  · apply all_append
    · intro earlier old
      exact (invariant.before earlier old).trans_le (Nat.le_add_right _ _)
    · rw [now]
      exact Nat.lt_add_of_pos_right forwards

/-- An order of the band gives rows within the parser's rules. -/
theorem sound_row {order : ActiveOrder} (inBand : InBand 100 order) (timestampNs : Nat)
    (type : EventType) {quantity : Int} (within : 1 ≤ quantity ∧ quantity ≤ order.quantity) :
    SoundRow (orderEvent timestampNs type order quantity) where
  price := in_band_priced inBand
  quantity := by
    have sized := inBand.quantity
    simp only [orderEvent]
    omega
  positive := fun _ => within.1

theorem add_turn_advances (invariant : ScriptInvariant state)
    (adds : state.active = [] ∨ draws.op < addBelow) (inRange : InRange state draws) :
    Advances state (addTurn state draws) := by
  obtain ⟨forwards, _, drawn⟩ := inRange
  rw [if_pos adds] at drawn
  obtain ⟨_, bought, sold, sized⟩ := drawn
  let added : ActiveOrder := ⟨state.nextOrderId, drawnSide draws, draws.price, draws.quantity⟩
  have inBand : InBand 100 added := by
    refine ⟨?_, ?_, sized⟩
    · intro isBuy
      obtain ⟨low, high⟩ := bought isBuy
      exact ⟨(by decide : (1 : Int) ≤ 9950).trans low, high⟩
    · intro isSell
      exact (sold isSell).1
  have fresh : ∀ other ∈ state.active, other.orderId ≠ added.orderId := by
    intro other old
    exact (invariant.listed other old).1.ne
  have turn := Turn.adds state.timestampNs added fresh (in_band_priced inBand)
    (zero_lt_one.trans_le sized.1)
  apply script_advances invariant _ forwards.1 turn rfl
  · exact sound_row inBand _ _ ⟨sized.1, le_rfl⟩
  · apply all_append
    · intro other old
      obtain ⟨older, band⟩ := invariant.listed other old
      exact ⟨older.trans (Nat.lt_succ_self _), band⟩
    · exact ⟨Nat.lt_succ_self _, inBand⟩

theorem pick_turn_advances (invariant : ScriptInvariant state)
    (picks : ¬(state.active = [] ∨ draws.op < addBelow)) (inRange : InRange state draws)
    (inside : draws.index < state.active.length) :
    Advances state (pickTurn state draws state.active[draws.index]) := by
  obtain ⟨forwards, _, drawn⟩ := inRange
  rw [if_neg picks] at drawn
  obtain ⟨older, inBand⟩ := invariant.listed _ (List.getElem_mem inside)
  unfold pickTurn
  by_cases modifies : draws.op < modifyBelow
  · rw [if_pos modifies] at drawn ⊢
    have clamped := clamped_in_band state.active[draws.index]
      (state.active[draws.index].price + draws.priceMove) drawn.2.2
    have turn := Turn.modifies state.timestampNs draws.index inside _ (by exact rfl)
      (in_band_priced clamped) (zero_lt_one.trans_le clamped.quantity.1)
    exact script_advances invariant _ forwards.1 turn rfl
      (sound_row clamped _ _ ⟨clamped.quantity.1, le_rfl⟩)
      (all_set invariant.listed _ ⟨older, clamped⟩)
  rw [if_neg modifies] at drawn ⊢
  by_cases trades : draws.op < tradeBelow
  · rw [if_pos trades] at drawn ⊢
    have traded := drawn.2 _ (List.getElem?_eq_getElem inside)
    have soundRow := sound_row inBand state.timestampNs .trade traded
    by_cases exhausts : state.active[draws.index].quantity - draws.tradedQuantity = 0
    · have whole : draws.tradedQuantity = state.active[draws.index].quantity := by omega
      have turn := Turn.exhausts state.timestampNs draws.index inside (by omega)
      rw [whole] at soundRow
      simp only [whole, sub_self, if_true]
      exact script_advances invariant _ forwards.1 turn rfl soundRow (all_erase invariant.listed _)
    · have turn := Turn.fills state.timestampNs draws.index inside draws.tradedQuantity (by omega)
        (by omega)
      have left := filled_in_band inBand (by omega : 0 ≤ draws.tradedQuantity) (by omega)
      simp only [if_neg exhausts]
      exact script_advances invariant _ forwards.1 turn rfl soundRow
        (all_set invariant.listed _ ⟨older, left⟩)
  rw [if_neg trades]
  have soundRow : SoundRow (orderEvent state.timestampNs .cancel state.active[draws.index] 0) :=
    ⟨in_band_priced inBand, ⟨le_rfl, (by decide : (0 : Int) ≤ 100)⟩, by simp [orderEvent]⟩
  exact script_advances invariant _ forwards.1 (.cancels state.timestampNs draws.index inside) rfl
    soundRow (all_erase invariant.listed _)

theorem script_turn_advances (invariant : ScriptInvariant state) (inRange : InRange state draws) :
    Advances state (scriptTurn state draws) := by
  by_cases adds : state.active = [] ∨ draws.op < addBelow
  · rw [scriptTurn, if_pos adds]
    exact add_turn_advances invariant adds inRange
  · have inside : draws.index < state.active.length := by
      have drawn := inRange.2.2
      rw [if_neg adds] at drawn
      exact drawn.1
    rw [scriptTurn, if_neg adds]
    simp only [List.getElem?_eq_getElem inside]
    exact pick_turn_advances invariant adds inRange inside

end Invariant

section Runs

theorem all_in_range_append (state : ScriptState) (first second : List Draws) :
    AllInRange state (first ++ second) ↔
      AllInRange state first ∧ AllInRange (first.foldl scriptTurn state) second := by
  induction first generalizing state with
  | nil => simp [AllInRange]
  | cons draws rest ih => rw [List.cons_append, AllInRange, AllInRange, ih, List.foldl_cons, and_assoc]

/-- A run in range writes one row a turn and keeps the invariant. -/
theorem script_run {state : ScriptState} (invariant : ScriptInvariant state) (draws : List Draws)
    (inRange : AllInRange state draws) :
    ScriptInvariant (draws.foldl scriptTurn state) ∧
      ∃ written, (draws.foldl scriptTurn state).rows = state.rows ++ written ∧
        written.length = draws.length := by
  induction draws generalizing state with
  | nil => exact ⟨invariant, [], (List.append_nil _).symm, rfl⟩
  | cons first rest ih =>
      obtain ⟨firstInRange, later⟩ := inRange
      obtain ⟨next, row, wrote⟩ := script_turn_advances invariant firstInRange
      obtain ⟨ended, written, wroteLater, counted⟩ := ih next later
      refine ⟨ended, row :: written, ?_, ?_⟩
      · rw [List.foldl_cons, wroteLater, wrote, List.append_assoc, List.singleton_append]
      · rw [List.length_cons, List.length_cons, counted]

variable {draws : List Draws} (inRange : AllInRange {} draws)
include inRange

theorem run_script_invariant : ScriptInvariant (runScript draws) :=
  (script_run start_script_invariant draws inRange).1

theorem run_script_length : (runScript draws).rows.length = draws.length := by
  obtain ⟨_, written, wrote, counted⟩ := script_run start_script_invariant draws inRange
  rw [runScript, wrote]
  exact counted

theorem take_in_range (seen : Nat) : AllInRange {} (draws.take seen) := by
  rw [← List.take_append_drop seen draws] at inRange
  exact ((all_in_range_append _ _ _).mp inRange).1

/-- The first rows are those of the run over the first draws. -/
theorem run_script_take (seen : Nat) (within : seen ≤ draws.length) :
    (runScript draws).rows.take seen = (runScript (draws.take seen)).rows := by
  have first := take_in_range inRange seen
  have whole := inRange
  rw [← List.take_append_drop seen draws] at whole
  have later := ((all_in_range_append _ _ _).mp whole).2
  obtain ⟨_, written, wrote, _⟩ := script_run (run_script_invariant first) _ later
  have split : (runScript draws).rows = (runScript (draws.take seen)).rows ++ written := by
    rw [← wrote, runScript, runScript, ← List.foldl_append, List.take_append_drop]
  have counted : (runScript (draws.take seen)).rows.length = seen := by
    rw [run_script_length first, List.length_take]
    exact min_eq_left within
  rw [split, List.take_append_of_le_length counted.ge, List.take_of_length_le counted.le]

theorem run_script_writable (ids : ∀ row ∈ (runScript draws).rows, row.orderId < 2 ^ 64)
    (timestamps : ∀ row ∈ (runScript draws).rows, row.timestampNs < 2 ^ 64)
    (prices : ∀ row ∈ (runScript draws).rows, row.price < 2 ^ 63) :
    ∀ row ∈ (runScript draws).rows, Writable row := by
  intro row listed
  have sound := (run_script_invariant inRange).sound row listed
  have small := sound.quantity
  exact ⟨timestamps row listed, ids row listed, ⟨sound.price, prices row listed⟩,
    ⟨small.1, by omega⟩, sound.positive⟩

end Runs

section Feed

/-- Whatever the generator returns in range, while ids, timestamps, prices and
total quantity fit 64 bits: the feed parses back without errors, one event for
each turn and later than the one before, the strict book accepts all of them,
and after each it holds the script's list and is uncrossed. -/
theorem synthetic_feed_is_valid (draws : List Draws) (inRange : AllInRange {} draws)
    (ids : ∀ row ∈ (runScript draws).rows, row.orderId < 2 ^ 64)
    (timestamps : ∀ row ∈ (runScript draws).rows, row.timestampNs < 2 ^ 64)
    (prices : ∀ row ∈ (runScript draws).rows, row.price < 2 ^ 63)
    (quantities : ∀ seen ≤ draws.length,
      ((runScript (draws.take seen)).active.map ActiveOrder.quantity).sum < 2 ^ 63)
    (sourceName : Text) :
    let parsed := parseStream (scriptOutput draws) sourceName
    let events := parsed.events
    parsed.errors = [] ∧ events = (runScript draws).rows ∧ events.length = draws.length ∧
      events.Pairwise (fun earlier later => earlier.timestampNs < later.timestampNs) ∧
      outputs applyEvent {} events = List.replicate draws.length true ∧
      run64 {} events = some (finalState applyEvent {} events) ∧
      ∀ seen ≤ draws.length,
        let active := (runScript (draws.take seen)).active
        let book := finalState applyEvent {} (events.take seen)
        DistinctKeys ActiveOrder.orderId active ∧
          (∀ orderId : Nat, book.orders[orderId]? =
            (find ActiveOrder.orderId active orderId).map ActiveOrder.entry) ∧
          orderCount book = active.length ∧
          (∀ (orderId : Nat) (order : Order), book.orders[orderId]? = some order →
            (order.side = .buy → 1 ≤ order.price ∧ order.price ≤ 10000) ∧
              (order.side = .sell → 10005 ≤ order.price)) ∧
          ∀ bid ask, bestBid book = some bid → bestAsk book = some ask → bid < ask := by
  intro parsed events
  have invariant := run_script_invariant inRange
  have length := run_script_length inRange
  have read : parsed = ⟨(runScript draws).rows, []⟩ :=
    parse_write_feed .crlf _ (run_script_writable inRange ids timestamps prices) sourceName
  have sameEvents : events = (runScript draws).rows := congrArg ParseResult.events read
  rw [sameEvents]
  have produced : ∀ seen ≤ draws.length,
      Produces ((runScript draws).rows.take seen) (runScript (draws.take seen)).active := by
    intro seen within
    rw [run_script_take inRange seen within]
    exact (run_script_invariant (take_in_range inRange seen)).produces
  have fed := tracked_feed (fun seen within => produced seen (within.trans length.le))
    fun seen within => quantities seen (within.trans length.le)
  refine ⟨congrArg ParseResult.errors read, rfl, length, invariant.increasing, ?_, fed.2, ?_⟩
  · rw [← length]
    exact fed.1
  · intro seen within active book
    have run := produced seen within
    have banded : ∀ order ∈ active, InBand 100 order := fun order listed =>
      ((run_script_invariant (take_in_range inRange seen)).listed order listed).2
    obtain ⟨_, sameOrders, sameCount⟩ := produces_book run
    refine ⟨produces_distinct run, sameOrders, sameCount, ?_, ?_⟩
    · intro orderId order stored
      obtain ⟨live, listed, rfl⟩ := book_order_listed run stored
      exact ⟨(banded live listed).buy, (banded live listed).sell⟩
    · intro bid ask bestOfBids bestOfAsks
      have apart := uncrossed_by_bands run banded bestOfBids bestOfAsks
      omega

/-- A buy and a sell, a modified price, a trade that uses the sell up and a
cancelled buy. -/
theorem five_turn_feed_is_valid :
    let draws : List Draws :=
      [{ op := 0, price := 9990, quantity := 7, timeStep := 5 },
        { op := 0, sideRoll := 4503599627370496, price := 10010, quantity := 4, timeStep := 1000 },
        { op := 5000000000000000, priceMove := 3, quantity := 9 },
        { op := 7000000000000000, index := 1, tradedQuantity := 4 },
        { op := 9000000000000000 }]
    let parsed := parseStream (scriptOutput draws) "synthetic.csv".toList
    let events := parsed.events
    parsed.errors = [] ∧ events = (runScript draws).rows ∧ events.length = draws.length ∧
      events.Pairwise (fun earlier later => earlier.timestampNs < later.timestampNs) ∧
      outputs applyEvent {} events = List.replicate draws.length true ∧
      run64 {} events = some (finalState applyEvent {} events) ∧
      ∀ seen ≤ draws.length,
        let active := (runScript (draws.take seen)).active
        let book := finalState applyEvent {} (events.take seen)
        DistinctKeys ActiveOrder.orderId active ∧
          (∀ orderId : Nat, book.orders[orderId]? =
            (find ActiveOrder.orderId active orderId).map ActiveOrder.entry) ∧
          orderCount book = active.length ∧
          (∀ (orderId : Nat) (order : Order), book.orders[orderId]? = some order →
            (order.side = .buy → 1 ≤ order.price ∧ order.price ≤ 10000) ∧
              (order.side = .sell → 10005 ≤ order.price)) ∧
          ∀ bid ask, bestBid book = some bid → bestAsk book = some ask → bid < ask := by
  exact synthetic_feed_is_valid _ (by decide) (by decide) (by decide) (by decide) (by decide) _

/-- A sell order entered at the top of its range, of quantity one. -/
def topSell : Draws := { op := 0, sideRoll := buyBelow, price := 10055, quantity := 1 }

/-- The MODIFY that raises a price most. -/
def raise : Draws := { op := addBelow, priceMove := 3, quantity := 1 }

def climbingDraws (count : Nat) : List Draws := topSell :: List.replicate count raise

def climbingRow (step : Nat) : MarketEvent :=
  ⟨1000000001 + step, .modify, 1, .sell, 10055 + 3 * ((step : Int) + 1), 1⟩

theorem climbing_draws_succ (count : Nat) :
    climbingDraws (count + 1) = climbingDraws count ++ [raise] := by
  rw [climbingDraws, List.replicate_succ', climbingDraws, List.cons_append]

theorem raise_turn (rows : List MarketEvent) (price : Int) (timestampNs : Nat)
    (high : 10005 ≤ price) :
    scriptTurn
        { rows := rows
          active := [⟨1, .sell, price, 1⟩]
          nextOrderId := 2
          timestampNs := timestampNs } raise =
      { rows := rows ++ [⟨timestampNs, .modify, 1, .sell, price + 3, 1⟩]
        active := [⟨1, .sell, price + 3, 1⟩]
        nextOrderId := 2
        timestampNs := timestampNs + 1 } := by
  have climbed : max 10005 (max 1 (price + 3)) = price + 3 := by omega
  simp [scriptTurn, pickTurn, withRow, raise, addBelow, modifyBelow, climbed]

/-- Every MODIFY of the run raises the one order by three. -/
theorem climbing_run (count : Nat) :
    runScript (climbingDraws count) =
      { rows := ⟨1000000000, .add, 1, .sell, 10055, 1⟩ :: (List.range count).map climbingRow
        active := [⟨1, .sell, 10055 + 3 * (count : Int), 1⟩]
        nextOrderId := 2
        timestampNs := 1000000001 + count } := by
  induction count with
  | zero => rfl
  | succ count ih =>
      have next : 10055 + 3 * (count : Int) + 3 = 10055 + 3 * ((count : Int) + 1) := by omega
      rw [climbing_draws_succ, runScript, List.foldl_append, ← runScript, ih, List.foldl_cons,
        List.foldl_nil, raise_turn _ _ _ (by omega), next, List.range_succ, List.map_append,
        List.cons_append, List.map_singleton, climbingRow, Nat.cast_succ, Nat.add_assoc]

theorem climbing_in_range (count : Nat) : AllInRange {} (climbingDraws count) := by
  induction count with
  | zero => decide
  | succ count ih =>
      rw [climbing_draws_succ, all_in_range_append]
      refine ⟨ih, ?_, trivial⟩
      rw [← runScript, climbing_run]
      simp [InRange, raise, addBelow, modifyBelow]

/-- The rows of a climb stay inside all other limits. -/
theorem climbing_rows (count : Nat) :
    ∀ row ∈ (runScript (climbingDraws count)).rows,
      row.orderId = 1 ∧ row.timestampNs ≤ 1000000000 + count ∧ row.quantity = 1 := by
  intro row listed
  rw [climbing_run] at listed
  rcases List.mem_cons.mp listed with rfl | later
  · exact ⟨rfl, by simp, rfl⟩
  · obtain ⟨step, inside, rfl⟩ := List.mem_map.mp later
    have bound := List.mem_range.mp inside
    refine ⟨rfl, ?_, rfl⟩
    simp only [climbingRow]
    omega

theorem climbing_total (count : Nat) :
    ((runScript (climbingDraws count)).rows.map MarketEvent.quantity).sum = count + 1 := by
  have each : (List.range count).map (MarketEvent.quantity ∘ climbingRow) =
      List.replicate count 1 := by
    simp [Function.comp_def, climbingRow]
  rw [climbing_run, List.map_cons, List.map_map, each, List.sum_cons, List.sum_replicate]
  simp [add_comm]

theorem climbing_held (count seen : Nat) :
    ((runScript ((climbingDraws count).take seen)).active.map ActiveOrder.quantity).sum ≤ 1 := by
  cases seen with
  | zero =>
      rw [List.take_zero]
      decide
  | succ seen =>
      have cut : (climbingDraws count).take (seen + 1) = climbingDraws (min seen count) := by
        rw [climbingDraws, List.take_succ_cons, List.take_replicate, climbingDraws]
      rw [cut, climbing_run]
      simp

/-- A climb past `2^63` writes a row that the parser refuses. -/
theorem climb_not_parsed (count : Nat) (past : 2 ^ 63 ≤ 10055 + 3 * ((count : Int) + 1))
    (sourceName : Text) :
    (parseStream (scriptOutput (climbingDraws (count + 1))) sourceName).errors ≠ [] := by
  intro clean
  have listed : climbingRow count ∈ (runScript (climbingDraws (count + 1))).rows := by
    rw [climbing_run, List.range_succ, List.map_append, List.map_singleton]
    simp
  have writable := (parse_write_feed_ok_iff .crlf _ sourceName).mp clean _ listed
  exact absurd writable.price.2 (not_lt.mpr past)

/-- One sell order raised by three at each of `3074457345618255251` turns: ids,
times and quantities fit 64 bits, the last price does not. -/
theorem sell_prices_leave_64_bits :
    let draws := climbingDraws 3074457345618255251
    AllInRange {} draws ∧
      (∀ row ∈ (runScript draws).rows, row.orderId < 2 ^ 64) ∧
      (∀ row ∈ (runScript draws).rows, row.timestampNs < 2 ^ 64) ∧
      ((runScript draws).rows.map MarketEvent.quantity).sum < 2 ^ 63 ∧
      (∀ seen ≤ draws.length,
        ((runScript (draws.take seen)).active.map ActiveOrder.quantity).sum < 2 ^ 63) ∧
      (parseStream (scriptOutput draws) "synthetic.csv".toList).errors ≠ [] := by
  intro draws
  have rows := climbing_rows 3074457345618255251
  refine ⟨climbing_in_range _, ?_, ?_, ?_, ?_, climb_not_parsed 3074457345618255250 (by decide) _⟩
  · intro row listed
    rw [(rows row listed).1]
    decide
  · intro row listed
    have bound := (rows row listed).2.1
    omega
  · rw [climbing_total]
    decide
  · intro seen _
    exact (climbing_held _ seen).trans_lt (by decide)

end Feed

end TickForge.SyntheticFeed
