import TickForge.Int64DepthModel
import TickForge.StrictReference
import TickForge.CsvRoundTrip

/-!
# Depth in 64-bit arithmetic

A run in 64-bit arithmetic is the exact one cut down to levels below `2^63`: it is defined
exactly while every level the exact run shows stays below. With the totals of its sides it
is defined for the strict book exactly while the quantities resting on each side sum to
less than `2^63`.
-/

namespace TickForge.Int64Depth

open Std (ExtTreeMap)
open KeyedTotals StepRuns PartialRuns MarketEventModel OrderBookModel OrderBookStep DepthLedger
open Int64DepthModel StrictReference CsvParserModel CsvRoundTrip

set_option autoImplicit false

section Arithmetic

theorem add_int64_eq_some_iff (left right sum : Int) :
    addInt64 left right = some sum ↔ sum = left + right ∧ -2 ^ 63 ≤ sum ∧ sum < 2 ^ 63 := by
  unfold addInt64
  split_ifs with fits
  · rw [Option.some.injEq]
    constructor
    · rintro rfl
      exact ⟨rfl, fits⟩
    · exact fun same => same.1.symm
  · simp only [false_iff]
    rintro ⟨rfl, inRange⟩
    exact fits inRange

/-- A running sum that stays defined is the exact sum, and it ends in range. -/
theorem running_sum_sound (amounts : List Int) (start sum : Int)
    (startSmall : start < 2 ^ 63) (summed : amounts.foldlM addInt64 start = some sum) :
    sum = start + amounts.sum ∧ sum < 2 ^ 63 := by
  induction amounts generalizing start with
  | nil =>
      cases summed
      exact ⟨by simp, startSmall⟩
  | cons amount rest ih =>
      rw [List.foldlM_cons, Option.bind_eq_bind, Option.bind_eq_some_iff] at summed
      obtain ⟨next, added, later⟩ := summed
      obtain ⟨rfl, _, nextSmall⟩ := (add_int64_eq_some_iff _ _ _).mp added
      have rest_sum := ih _ nextSmall later
      rw [List.sum_cons]
      omega

/-- Nonnegative amounts that fit in total fit at every step. -/
theorem running_sum_fits (amounts : List Int) (nonneg : ∀ amount ∈ amounts, 0 ≤ amount)
    (start : Int) (startNonneg : 0 ≤ start) (fits : start + amounts.sum < 2 ^ 63) :
    amounts.foldlM addInt64 start = some (start + amounts.sum) := by
  induction amounts generalizing start with
  | nil => simp
  | cons amount rest ih =>
      rw [List.forall_mem_cons] at nonneg
      rw [List.sum_cons] at fits ⊢
      have restNonneg : 0 ≤ rest.sum := List.sum_nonneg nonneg.2
      have added : addInt64 start amount = some (start + amount) :=
        (add_int64_eq_some_iff _ _ _).mpr ⟨rfl, by omega, by omega⟩
      rw [List.foldlM_cons, added, Option.bind_eq_bind, Option.bind_some,
        ih nonneg.2 (start + amount) (by omega) (by omega), add_assoc]

end Arithmetic

section Agreement

theorem add_depth64_sound {book after : OrderBook} {side : Side} {price quantity : Int}
    (defined : addDepth64 book side price quantity = some after) :
    after = addDepth book side price quantity := by
  unfold addDepth64 at defined
  unfold addDepth
  split_ifs at defined ⊢ with nothing
  · exact (Option.some.inj defined).symm
  · cases side with
    | buy =>
        obtain ⟨held, added, rfl⟩ := Option.map_eq_some_iff.mp defined
        rw [((add_int64_eq_some_iff _ _ _).mp added).1]
    | sell =>
        obtain ⟨held, added, rfl⟩ := Option.map_eq_some_iff.mp defined
        rw [((add_int64_eq_some_iff _ _ _).mp added).1]

/-- The addition is defined where the exact one leaves a level in range. -/
theorem add_depth64_fits (book : OrderBook) (side : Side) (price quantity : Int)
    (nonneg : 0 ≤ depthAtPrice book side price)
    (fits : 0 < quantity → depthAtPrice book side price + quantity < 2 ^ 63) :
    addDepth64 book side price quantity = some (addDepth book side price quantity) := by
  unfold addDepth64 addDepth
  split_ifs with nothing
  · rfl
  · have small := fits (not_le.mp nothing)
    cases side with
    | buy =>
        have added : addInt64 (book.bids[price]?.getD 0) quantity =
            some (book.bids[price]?.getD 0 + quantity) := by
          simp only [depthAtPrice] at nonneg small
          exact (add_int64_eq_some_iff _ _ _).mpr ⟨rfl, by omega, small⟩
        simp only [added, Option.map_some]
    | sell =>
        have added : addInt64 (book.asks[price]?.getD 0) quantity =
            some (book.asks[price]?.getD 0 + quantity) := by
          simp only [depthAtPrice] at nonneg small
          exact (add_int64_eq_some_iff _ _ _).mpr ⟨rfl, by omega, small⟩
        simp only [added, Option.map_some]

/-- Where it is defined, a step in 64-bit arithmetic is the exact step. -/
theorem apply_event64_sound {book : OrderBook} {event : MarketEvent} {answered : Bool × OrderBook}
    (defined : applyEvent64 book event = some answered) : answered = applyEvent book event := by
  unfold applyEvent64 at defined
  unfold applyEvent
  cases kind : event.type with
  | cancel =>
      rw [kind] at defined
      exact (Option.some.inj defined).symm
  | trade =>
      rw [kind] at defined
      exact (Option.some.inj defined).symm
  | add =>
      simp only [kind, addOrder64] at defined
      simp only [addOrder]
      split_ifs at defined ⊢ with refused
      · exact (Option.some.inj defined).symm
      · cases known : book.orders[event.orderId]? with
        | some order =>
            rw [known] at defined
            exact (Option.some.inj defined).symm
        | none =>
            rw [known] at defined
            obtain ⟨after, added, rfl⟩ := Option.map_eq_some_iff.mp defined
            rw [add_depth64_sound added]
  | modify =>
      simp only [kind, modifyOrder64] at defined
      simp only [modifyOrder]
      by_cases refused : event.price < 0 ∨ event.quantity < 0
      · rw [if_pos refused] at defined ⊢
        exact (Option.some.inj defined).symm
      rw [if_neg refused] at defined ⊢
      cases known : book.orders[event.orderId]? with
      | none =>
          rw [known] at defined
          exact (Option.some.inj defined).symm
      | some order =>
          simp only [known] at defined ⊢
          split_ifs at defined ⊢ with short emptied
          · exact (Option.some.inj defined).symm
          · exact (Option.some.inj defined).symm
          · obtain ⟨after, added, rfl⟩ := Option.map_eq_some_iff.mp defined
            rw [add_depth64_sound added]

theorem reduce_depth_tidy {book : OrderBook} (tidy : TidyLevels book) (move : Move) :
    TidyLevels (reduceDepth book move.side move.price move.quantity).2 := by
  rw [reduce_depth_eq]
  by_cases covered : Covered book move
  · rw [if_pos covered]
    exact tidy_withdraw tidy move covered
  · rw [if_neg covered]
    exact tidy

theorem add_depth_depth (book : OrderBook) (side : Side) (price quantity : Int)
    (positive : 0 < quantity) :
    depthAtPrice (addDepth book side price quantity) side price =
      depthAtPrice book side price + quantity := by
  have added := add_depth_eq book ⟨side, price, quantity⟩ positive
  rw [added, depth_deposit]
  simp [carried]

/-- An addition whose result stays in range at its level is defined. -/
theorem add_depth64_of_result (book : OrderBook) (side : Side) (price quantity : Int)
    (tidy : ∀ side price, 0 ≤ depthAtPrice book side price)
    (fits : ∀ side' price', depthAtPrice (addDepth book side price quantity) side' price' < 2 ^ 63) :
    addDepth64 book side price quantity = some (addDepth book side price quantity) := by
  apply add_depth64_fits book side price quantity (tidy side price)
  intro positive
  rw [← add_depth_depth book side price quantity positive]
  exact fits side price

/-- A step whose levels end in range is defined in 64-bit arithmetic. -/
theorem apply_event64_fits {book : OrderBook} (tidy : TidyLevels book) (event : MarketEvent)
    (fits : ∀ side price, depthAtPrice (applyEvent book event).2 side price < 2 ^ 63) :
    applyEvent64 book event = some (applyEvent book event) := by
  unfold applyEvent64
  unfold applyEvent at fits ⊢
  cases kind : event.type with
  | cancel => rfl
  | trade => rfl
  | add =>
      simp only [kind, addOrder] at fits
      simp only [addOrder64, addOrder]
      by_cases refused : event.price < 0 ∨ event.quantity ≤ 0
      · rw [if_pos refused, if_pos refused]
      rw [if_neg refused, if_neg refused]
      rw [if_neg refused] at fits
      cases known : book.orders[event.orderId]? with
      | some order => rfl
      | none =>
          simp only [known] at fits ⊢
          rw [add_depth64_of_result _ _ _ _ ?nonneg fits, Option.map_some]
          intro side price
          exact depth_nonneg tidy side price
  | modify =>
      simp only [kind, modifyOrder] at fits
      simp only [modifyOrder64, modifyOrder]
      by_cases refused : event.price < 0 ∨ event.quantity < 0
      · rw [if_pos refused, if_pos refused]
      rw [if_neg refused, if_neg refused]
      rw [if_neg refused] at fits
      cases known : book.orders[event.orderId]? with
      | none => rfl
      | some order =>
          simp only [known] at fits ⊢
          split_ifs at fits ⊢ with short emptied
          · rfl
          · rfl
          · rw [add_depth64_of_result _ _ _ _ ?reduced fits, Option.map_some]
            intro side price
            exact depth_nonneg (reduce_depth_tidy tidy (orderMove order)) side price

end Agreement

section Levels

/-- Every level of the book is in range. -/
def SmallLevels (book : OrderBook) : Prop :=
  ∀ side price, depthAtPrice book side price < 2 ^ 63

theorem empty_small_levels (config : OrderBookConfig) : SmallLevels { config := config } := by
  intro side price
  have empty : depthAtPrice ({ config := config } : OrderBook) side price = 0 := by
    cases side <;> simp [depthAtPrice]
  rw [empty]
  decide

theorem reduce_depth_le (book : OrderBook) (move : Move) (side : Side) (price : Int) :
    depthAtPrice (reduceDepth book move.side move.price move.quantity).2 side price ≤
      depthAtPrice book side price := by
  rw [reduce_depth_eq]
  by_cases covered : Covered book move
  · rw [if_pos covered, depth_withdraw]
    have positive := covered.1
    unfold carried
    dsimp only
    split_ifs <;> omega
  · rw [if_neg covered]

theorem reduce_depth_small {book : OrderBook} (small : SmallLevels book) (move : Move) :
    SmallLevels (reduceDepth book move.side move.price move.quantity).2 := by
  intro side price
  exact (reduce_depth_le book move side price).trans_lt (small side price)

/-- A defined addition leaves its level in range. -/
theorem add_depth64_small {book after : OrderBook} {side : Side} {price quantity : Int}
    (small : SmallLevels book) (defined : addDepth64 book side price quantity = some after) :
    SmallLevels after := by
  have exactly := add_depth64_sound defined
  by_cases nothing : quantity ≤ 0
  · unfold addDepth64 at defined
    rw [if_pos nothing] at defined
    rw [← Option.some.inj defined]
    exact small
  have positive := not_le.mp nothing
  rw [exactly]
  intro otherSide otherPrice
  rw [add_depth_eq book ⟨side, price, quantity⟩ positive, depth_deposit]
  have before := small otherSide otherPrice
  simp only [carried]
  split_ifs with here
  · rcases here with ⟨rfl, rfl⟩
    unfold addDepth64 at defined
    rw [if_neg nothing] at defined
    cases side with
    | buy =>
        rcases Option.map_eq_some_iff.mp defined with ⟨held, added, _⟩
        rcases (add_int64_eq_some_iff _ _ _).mp added with ⟨rfl, _, inRange⟩
        exact inRange
    | sell =>
        rcases Option.map_eq_some_iff.mp defined with ⟨held, added, _⟩
        rcases (add_int64_eq_some_iff _ _ _).mp added with ⟨rfl, _, inRange⟩
        exact inRange
  · rwa [add_zero]

theorem cancel_small {book : OrderBook} (small : SmallLevels book) (event : MarketEvent) :
    SmallLevels (cancelOrder book event).2 := by
  unfold cancelOrder
  cases book.orders[event.orderId]? with
  | none =>
      dsimp only
      split_ifs
      · exact reduce_depth_small small (eventMove event)
      · exact small
  | some order =>
      have reduced := reduce_depth_small small (orderMove order)
      dsimp only
      split_ifs
      · exact reduced
      · exact reduced

theorem trade_small {book : OrderBook} (small : SmallLevels book) (event : MarketEvent) :
    SmallLevels (tradeOrder book event).2 := by
  unfold tradeOrder
  by_cases nothing : event.quantity ≤ 0
  · rw [if_pos nothing]
    exact small
  rw [if_neg nothing]
  cases book.orders[event.orderId]? with
  | none =>
      dsimp only
      split_ifs
      · exact reduce_depth_small small (eventMove event)
      · exact small
  | some order =>
      have reduced := reduce_depth_small small
        ⟨order.side, order.price, min event.quantity order.quantity⟩
      dsimp only
      split_ifs
      · exact small
      · exact reduced
      · exact reduced
      · exact reduced

/-- A defined step leaves every level in range. -/
theorem apply_event64_small {book : OrderBook} {event : MarketEvent}
    {answered : Bool × OrderBook} (small : SmallLevels book)
    (defined : applyEvent64 book event = some answered) : SmallLevels answered.2 := by
  unfold applyEvent64 at defined
  cases kind : event.type with
  | cancel =>
      rw [kind] at defined
      rw [← Option.some.inj defined]
      exact cancel_small small event
  | trade =>
      rw [kind] at defined
      rw [← Option.some.inj defined]
      exact trade_small small event
  | add =>
      simp only [kind, addOrder64] at defined
      split_ifs at defined with refused
      · rw [← Option.some.inj defined]
        exact small
      · cases known : book.orders[event.orderId]? with
        | some order =>
            rw [known] at defined
            rw [← Option.some.inj defined]
            exact small
        | none =>
            rw [known] at defined
            rcases Option.map_eq_some_iff.mp defined with ⟨after, added, rfl⟩
            refine add_depth64_small ?_ added
            exact small
  | modify =>
      simp only [kind, modifyOrder64] at defined
      by_cases refused : event.price < 0 ∨ event.quantity < 0
      · rw [if_pos refused] at defined
        rw [← Option.some.inj defined]
        exact small
      rw [if_neg refused] at defined
      cases known : book.orders[event.orderId]? with
      | none =>
          rw [known] at defined
          rw [← Option.some.inj defined]
          exact small
      | some order =>
          have reduced := reduce_depth_small small (orderMove order)
          simp only [known] at defined
          split_ifs at defined with short emptied
          · rw [← Option.some.inj defined]
            exact reduced
          · rw [← Option.some.inj defined]
            exact reduced
          · rcases Option.map_eq_some_iff.mp defined with ⟨after, added, rfl⟩
            refine add_depth64_small ?_ added
            exact reduced

/-- A step in 64-bit arithmetic is the exact step cut down to levels in range. -/
theorem apply_event64_restricts :
    Restricts applyEvent64 applyEvent (fun book => ∃ drained, Ledgered book drained)
      SmallLevels where
  sound := by
    rintro book event ⟨drained, ledgered⟩
    exact ⟨_, apply_event_ledgered ledgered event⟩
  defined_iff := by
    rintro book event answered ⟨drained, ledgered⟩ small
    constructor
    · intro defined
      have exactly := apply_event64_sound defined
      refine ⟨exactly, ?_⟩
      rw [← exactly]
      exact apply_event64_small small defined
    · rintro ⟨rfl, fits⟩
      exact apply_event64_fits ledgered.tidy event fits

theorem call_step64_restricts :
    Restricts callStep64 callStep (fun book => ∃ drained, Ledgered book drained)
      SmallLevels where
  sound := by
    rintro book call ⟨drained, ledgered⟩
    have stepped := audited_step_ledgered ⟨book, drained⟩ call ledgered
    have same := audited_run_book ⟨book, drained⟩ [call]
    simp only [final_state_cons, final_state_nil] at same
    rw [same] at stepped
    exact ⟨_, stepped⟩
  defined_iff := by
    rintro book call answered accounted small
    cases call with
    | applyEvent event =>
        have stepped := fun applied =>
          apply_event64_restricts.defined_iff book event applied accounted small
        simp only [callStep64, callStep]
        constructor
        · intro defined
          rcases Option.map_eq_some_iff.mp defined with ⟨applied, inner, rfl⟩
          rcases (stepped applied).mp inner with ⟨rfl, fits⟩
          exact ⟨rfl, fits⟩
        · rintro ⟨rfl, fits⟩
          rw [(stepped _).mpr ⟨rfl, fits⟩, Option.map_some]
    | setConfig config =>
        simp only [callStep64, Option.some.injEq]
        exact ⟨fun same => ⟨same.symm, small⟩, fun same => same.1.symm⟩
    | clear =>
        simp only [callStep64, Option.some.injEq]
        exact ⟨fun same => ⟨same.symm, empty_small_levels book.config⟩, fun same => same.1.symm⟩

/-- Every level stays in range at every point of the run. -/
def LevelsFit (book : OrderBook) (events : List MarketEvent) : Prop :=
  AlwaysFits applyEvent SmallLevels book events

theorem add_depth_grows (book : OrderBook) (move : Move) (side : Side) (price : Int) :
    depthAtPrice book side price ≤
      depthAtPrice (addDepth book move.side move.price move.quantity) side price := by
  by_cases positive : 0 < move.quantity
  · rw [add_depth_eq book move positive, depth_deposit, carried]
    split_ifs <;> omega
  · unfold addDepth
    rw [if_pos (not_lt.mp positive)]

/-- An ADD takes nothing off a level. -/
theorem add_order_grows (book : OrderBook) (event : MarketEvent) (side : Side) (price : Int) :
    depthAtPrice book side price ≤ depthAtPrice (addOrder book event).2 side price := by
  unfold addOrder
  split_ifs with refused
  · exact le_rfl
  cases book.orders[event.orderId]? with
  | some order => exact le_rfl
  | none => exact add_depth_grows { book with orders := _ } (eventMove event) side price

/-- Where the levels that orders add up to are in range, they were so all along. -/
theorem adds_levels_fit {events : List MarketEvent} (adds : ∀ event ∈ events, event.type = .add)
    (book : OrderBook) (small : SmallLevels (finalState applyEvent book events)) :
    LevelsFit book events := by
  apply always_fits_of_final events _ book small
  intro before event listed after side price
  have grown := add_order_grows before event side price
  rw [applyEvent, adds event listed] at after
  exact grown.trans_lt (after side price)

variable {book : OrderBook} (accounted : ∃ drained, Ledgered book drained)
include accounted

/-- A run in 64-bit arithmetic is defined exactly while every level is in range, and then
it is the exact run. -/
theorem run64_iff (small : SmallLevels book) (events : List MarketEvent) (after : OrderBook) :
    run64 book events = some after ↔
      after = finalState applyEvent book events ∧ LevelsFit book events :=
  partial_final_iff apply_event64_restricts book events accounted small after

theorem run64_of_levels_fit {events : List MarketEvent} (fits : LevelsFit book events) :
    run64 book events = some (finalState applyEvent book events) :=
  (run64_iff accounted (fits [] List.nil_prefix) events _).mpr ⟨rfl, fits⟩

theorem answers64_of_levels_fit {events : List MarketEvent} (fits : LevelsFit book events) :
    answers64 book events = (outputs applyEvent book events).map some :=
  partial_outputs_of_fits apply_event64_restricts book events accounted fits

end Levels

section Totals

theorem total_depth_eq_sum (book : OrderBook) (side : Side) :
    totalDepth book side = (levelQuantities book side).sum := by
  cases side with
  | buy => exact total_of_fold book.bids
  | sell => exact total_of_fold book.asks

theorem level_quantities_nonneg {book : OrderBook} (tidy : TidyLevels book) (side : Side) :
    ∀ quantity ∈ levelQuantities book side, 0 ≤ quantity := by
  have stored : ∀ quantity ∈ levelQuantities book side, ∃ price,
      levelAt book side price = some quantity := by
    intro quantity listed
    cases side with
    | buy =>
        obtain ⟨⟨price, held⟩, found, rfl⟩ := List.mem_map.mp listed
        exact ⟨price, ExtTreeMap.mem_toList_iff_getElem?_eq_some.mp found⟩
    | sell =>
        obtain ⟨⟨price, held⟩, found, rfl⟩ := List.mem_map.mp listed
        exact ⟨price, ExtTreeMap.mem_toList_iff_getElem?_eq_some.mp found⟩
  intro quantity listed
  obtain ⟨price, level⟩ := stored quantity listed
  exact (tidy side price quantity level).1.le

theorem depth_le_total {book : OrderBook} (tidy : TidyLevels book) (side : Side) (price : Int) :
    depthAtPrice book side price ≤ totalDepth book side := by
  rw [total_depth_eq_sum, depth_at_price_eq]
  have nonneg := level_quantities_nonneg tidy side
  cases level : levelAt book side price with
  | none => exact List.sum_nonneg nonneg
  | some quantity =>
      apply List.single_le_sum nonneg
      cases side with
      | buy => exact List.mem_map_of_mem (ExtTreeMap.mem_toList_iff_getElem?_eq_some.mpr level)
      | sell => exact List.mem_map_of_mem (ExtTreeMap.mem_toList_iff_getElem?_eq_some.mpr level)

/-- A total is defined exactly while it is in range, and then it is the exact total. -/
theorem total_depth64_iff {book : OrderBook} (tidy : TidyLevels book) (side : Side) (sum : Int) :
    totalDepth64 book side = some sum ↔
      sum = totalDepth book side ∧ totalDepth book side < 2 ^ 63 := by
  rw [total_depth_eq_sum, totalDepth64]
  constructor
  · intro summed
    rcases running_sum_sound _ 0 _ (by decide) summed with ⟨exactly, inRange⟩
    rw [zero_add] at exactly
    exact ⟨exactly, exactly ▸ inRange⟩
  · rintro ⟨rfl, inRange⟩
    rw [running_sum_fits _ (level_quantities_nonneg tidy side) 0 le_rfl (by rwa [zero_add]),
      zero_add]

/-- A run with its final totals is defined exactly while every level is in range and the
totals are. -/
theorem depth_defined_iff {book : OrderBook} (accounted : ∃ drained, Ledgered book drained)
    (small : SmallLevels book) (events : List MarketEvent) :
    DepthDefined book events ↔ LevelsFit book events ∧
      ∀ side, totalDepth (finalState applyEvent book events) side < 2 ^ 63 := by
  have ended : ∃ drained, Ledgered (finalState applyEvent book events) drained :=
    run_ledgered accounted events
  rcases ended with ⟨drained, ledgered⟩
  constructor
  · rintro ⟨after, defined, totals⟩
    rcases (run64_iff accounted small events after).mp defined with ⟨rfl, fits⟩
    refine ⟨fits, ?_⟩
    intro side
    rcases Option.isSome_iff_exists.mp (totals side) with ⟨sum, summed⟩
    exact ((total_depth64_iff ledgered.tidy side sum).mp summed).2
  · rintro ⟨fits, totals⟩
    refine ⟨_, run64_of_levels_fit accounted fits, ?_⟩
    intro side
    exact Option.isSome_iff_exists.mpr
      ⟨_, (total_depth64_iff ledgered.tidy side _).mpr ⟨rfl, totals side⟩⟩

end Totals

section Safety

def sideWeight (side : Side) (_ : Nat) (order : Order) : Int :=
  if order.side = side then order.quantity else 0

/-- The quantities of all orders resting on one side. -/
def restingOnSide (book : OrderBook) (side : Side) : Int := total (sideWeight side) book.orders

/-- No addition overflows up to any point of the run; there every stored level is
the positive sum of its resting quantities and `total_depth` is the side's. -/
def DepthSafe (events : List MarketEvent) : Prop :=
  ∀ seen, seen <+: events → ∃ book, run64 {} seen = some book ∧
    (∀ side price quantity, levelAt book side price = some quantity →
      quantity = restingAt book side price ∧ 0 < quantity) ∧
    ∀ side, totalDepth64 book side = some (restingOnSide book side)

/-- What rests on each side, by the orders alone, stays below `2^63`. -/
def FitsInt64 (events : List MarketEvent) : Prop :=
  ∀ seen, seen <+: events → ∀ side,
    referenceSideDepth (finalState referenceStep ∅ seen) side < 2 ^ 63

theorem refined_resting_on_side {book : OrderBook} {table : RestingTable}
    (refines : Refines book table) (side : Side) :
    restingOnSide book side = referenceSideDepth table side := by
  rw [restingOnSide, refined_orders refines, total_map]
  rfl

theorem refined_total_depth64 {book : OrderBook} {table : RestingTable}
    (refines : Refines book table) (side : Side)
    (fits : referenceSideDepth table side < 2 ^ 63) :
    totalDepth64 book side = some (restingOnSide book side) := by
  rw [total_depth64_iff refines.ledgered.tidy, refined_total_depth refines,
    refined_resting_on_side refines]
  exact ⟨rfl, fits⟩

/-- A level holds no more than its whole side. -/
theorem levels_fit_of_sides (events : List MarketEvent) (fits : FitsInt64 events) :
    LevelsFit {} events := by
  intro seen isPrefix side price
  have refines := (strict_run_refines seen).2.2
  have within := depth_le_total refines.ledgered.tidy side price
  rw [refined_total_depth refines] at within
  exact within.trans_lt (fits seen isPrefix side)

theorem run64_of_fits (events : List MarketEvent) (fits : FitsInt64 events) :
    run64 {} events = some (finalState applyEvent {} events) :=
  run64_of_levels_fit ⟨_, empty_ledgered {}⟩ (levels_fit_of_sides events fits)

/-- A run's depth arithmetic is safe exactly when each side always fits. -/
theorem depth_safe_iff (events : List MarketEvent) : DepthSafe events ↔ FitsInt64 events := by
  constructor
  · intro safe seen isPrefix side
    obtain ⟨book, defined, _, totals⟩ := safe seen isPrefix
    have refines := (strict_run_refines seen).2.2
    rcases (run64_iff ⟨_, empty_ledgered {}⟩ (empty_small_levels {}) seen book).mp defined with
      ⟨rfl, _⟩
    have inRange := ((total_depth64_iff refines.ledgered.tidy side _).mp (totals side)).2
    rwa [refined_total_depth refines] at inRange
  · intro fits seen isPrefix
    have seenFits : FitsInt64 seen := fun earlier inner => fits earlier (inner.trans isPrefix)
    have refines := (strict_run_refines seen).2.2
    refine ⟨_, run64_of_fits seen seenFits, ?_, ?_⟩
    · intro side price quantity level
      have account := refines.ledgered.balanced side price
      rw [depth_at_price_eq, level, Option.getD_some, add_zero] at account
      exact ⟨account, (refines.ledgered.tidy side price quantity level).1⟩
    · intro side
      exact refined_total_depth64 refines side (fits seen isPrefix side)

/-- For whatever events the parser reads from a text, the depth arithmetic of
the strict book is safe exactly when the quantities resting on each side always
sum to less than `2^63`. -/
theorem parsed_depth_safe_iff (input sourceName : Text) :
    DepthSafe (parseStream input sourceName).events ↔
      FitsInt64 (parseStream input sourceName).events :=
  depth_safe_iff _

/-- Two bids of the greatest admitted quantity at one price overflow their level. -/
theorem two_full_bids_overflow :
    let first : MarketEvent := ⟨1, .add, 1, .buy, 10000, 9223372036854775807⟩
    let second : MarketEvent := ⟨2, .add, 2, .buy, 10000, 9223372036854775807⟩
    let feed := writeFeed .lf [first, second]
    parseStream feed "feed.csv".toList = ⟨[first, second], []⟩ ∧
      run64 {} [first, second] = none ∧
      ¬DepthSafe (parseStream feed "feed.csv".toList).events := by
  intro first second feed
  have parsed : parseStream feed "feed.csv".toList = ⟨[first, second], []⟩ := by
    apply parse_write_feed
    intro event listed
    rcases List.mem_pair.mp listed with same | same
    · rw [same]
      exact ⟨by decide, by decide, by decide, by decide, by decide⟩
    · rw [same]
      exact ⟨by decide, by decide, by decide, by decide, by decide⟩
  have overflow : run64 {} [first, second] = none := by
    have undefined : (run64 {} [first, second]).isNone = true := by decide
    exact Option.isNone_iff_eq_none.mp undefined
  refine ⟨parsed, overflow, ?_⟩
  intro safe
  rw [parsed] at safe
  obtain ⟨book, defined, _⟩ := safe _ List.prefix_rfl
  rw [overflow] at defined
  cases defined

end Safety

end TickForge.Int64Depth
