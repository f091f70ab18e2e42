import TickForge.LobsterExchange
import TickForge.OrphanRemoval

/-!
# The snapshot and its seeds

The first orderbook row lists the occupied levels of both sides. The adapter
keeps them and writes one anonymous ADD for each; the engine accepts them all
and shows the listed depths.
-/

namespace TickForge.LobsterSnapshot

open Std (ExtTreeMap)
open KeyedTotals StepRuns MarketEventModel OrderBookModel OrderBookStep OrphanRemoval
open LobsterAdapterModel LobsterExchange

set_option autoImplicit false

section Snapshot

/-- The ask columns of an orderbook row, level by level. -/
def askColumns : List Int → List PriceLevel
  | askPrice :: askSize :: _ :: _ :: rest => (askPrice, askSize) :: askColumns rest
  | _ => []

def bidColumns : List Int → List PriceLevel
  | _ :: _ :: bidPrice :: bidSize :: rest => (bidPrice, bidSize) :: bidColumns rest
  | _ => []

/-- A level the row fills up with the sentinel price or size 0. -/
def Unoccupied (level : PriceLevel) : Prop :=
  level.1 = 9999999999 ∨ level.1 = -9999999999 ∨ level.2 = 0

/-- The columns of one side list each occupied level once, with its depth. -/
structure ListsLevels (columns : List PriceLevel) (depth : Int → Int) : Prop where
  right : ∀ level ∈ columns, Unoccupied level ∨ (0 < level.2 ∧ level.2 = depth level.1)
  complete : ∀ price, 0 < depth price → (price, depth price) ∈ columns
  once : columns.Pairwise fun first second =>
    Unoccupied first ∨ Unoccupied second ∨ first.1 ≠ second.1

theorem occupied_levels_eq (fields : List Int) :
    occupiedLevels fields =
      ((bidColumns fields).filter isOccupied, (askColumns fields).filter isOccupied) := by
  fun_induction occupiedLevels fields with
  | case1 askPrice askSize bidPrice bidSize rest below ih =>
      simp only [askColumns, bidColumns, List.filter_cons, below, ih]
  | case2 fields short =>
      have noColumns : askColumns fields = [] ∧ bidColumns fields = [] := by
        match fields with
        | [] => exact ⟨rfl, rfl⟩
        | [_] => exact ⟨rfl, rfl⟩
        | [_, _] => exact ⟨rfl, rfl⟩
        | [_, _, _] => exact ⟨rfl, rfl⟩
        | _ :: _ :: _ :: _ :: _ => exact absurd rfl (short _ _ _ _ _)
      rw [noColumns.1, noColumns.2]
      rfl

theorem is_occupied_iff (level : PriceLevel) :
    isOccupied level = true ↔ ¬Unoccupied level ∧ 0 < level.2 := by
  have priced : isOccupied level = true ↔ level.1.natAbs ≠ 9999999999 ∧ 0 < level.2 := by
    rw [isOccupied, Bool.and_eq_true]
    exact and_congr decide_eq_true_iff decide_eq_true_iff
  rw [priced, Unoccupied]
  omega

/-- The sizes a list of levels gives to one price. -/
def listedDepth (levels : List PriceLevel) (price : Int) : Int :=
  (levels.map fun level => if level.1 = price then level.2 else 0).sum

theorem listed_depth_absent (levels : List PriceLevel) (price : Int)
    (absent : ∀ level ∈ levels, level.1 ≠ price) : listedDepth levels price = 0 := by
  apply List.sum_eq_zero
  intro size listed
  rcases List.mem_map.mp listed with ⟨level, member, rfl⟩
  exact if_neg (absent level member)

theorem listed_depth_once (levels : List PriceLevel) (level : PriceLevel)
    (listed : level ∈ levels)
    (once : levels.Pairwise fun first second => first.1 ≠ second.1) :
    listedDepth levels level.1 = level.2 := by
  induction levels with
  | nil => cases listed
  | cons first rest ih =>
      rcases List.pairwise_cons.mp once with ⟨apart, onceBelow⟩
      rw [listedDepth, List.map_cons, List.sum_cons]
      change _ + listedDepth rest level.1 = _
      rcases List.mem_cons.mp listed with rfl | below
      · rw [if_pos rfl, listed_depth_absent rest level.1 fun other member =>
          (apart other member).symm]
        exact add_zero _
      · rw [if_neg (apart level below), ih below onceBelow]
        exact zero_add _

theorem occupied_once {columns : List PriceLevel} {depth : Int → Int}
    (lists : ListsLevels columns depth) :
    (columns.filter isOccupied).Pairwise fun first second => first.1 ≠ second.1 := by
  rw [List.pairwise_filter]
  apply lists.once.imp
  intro first second apart firstOccupied secondOccupied
  have firstShown := ((is_occupied_iff first).mp firstOccupied).1
  have secondShown := ((is_occupied_iff second).mp secondOccupied).1
  rcases apart with hidden | hidden | apart
  · exact absurd hidden firstShown
  · exact absurd hidden secondShown
  · exact apart

theorem occupied_right {columns : List PriceLevel} {depth : Int → Int}
    (lists : ListsLevels columns depth) :
    ∀ level ∈ columns.filter isOccupied, 0 < level.2 ∧ level.2 = depth level.1 := by
  intro level kept
  rcases List.mem_filter.mp kept with ⟨member, occupied⟩
  rcases lists.right level member with hidden | right
  · exact absurd hidden ((is_occupied_iff level).mp occupied).1
  · exact right

/-- The kept levels of one side give every price its depth. -/
theorem occupied_depth {columns : List PriceLevel} {depth : Int → Int}
    (lists : ListsLevels columns depth) (nonneg : ∀ price, 0 ≤ depth price)
    (priced : ∀ price, 0 < depth price → 0 ≤ price ∧ price ≠ 9999999999) (price : Int) :
    listedDepth (columns.filter isOccupied) price = depth price := by
  by_cases shown : 0 < depth price
  · have occupied : isOccupied (price, depth price) = true := by
      have sound := priced price shown
      simp only [is_occupied_iff, Unoccupied]
      omega
    have kept := List.mem_filter.mpr ⟨lists.complete price shown, occupied⟩
    exact listed_depth_once _ _ kept (occupied_once lists)
  · have hidden : depth price = 0 := le_antisymm (not_lt.mp shown) (nonneg price)
    rw [hidden]
    apply listed_depth_absent
    intro level kept here
    have right := occupied_right lists level kept
    rw [here, hidden] at right
    omega

/-- The kept levels of a sound book have a size to seed and a price to seed it at. -/
theorem kept_levels_sound {seedIdBase : Nat} {exchange : ExchangeBook} {side : Side}
    {columns : List PriceLevel} (sound : SoundExchange seedIdBase exchange)
    (lists : ListsLevels columns (exchangeDepth exchange side)) :
    ∀ level ∈ columns.filter isOccupied, 0 < level.2 ∧ 0 ≤ level.1 := by
  intro level kept
  rcases occupied_right lists level kept with ⟨positive, isDepth⟩
  have shown : 0 < exchangeDepth exchange side level.1 := by
    rw [← isDepth]
    exact positive
  exact ⟨positive, (sound_depth_priced sound side level.1 shown).1⟩

theorem kept_levels_depth {seedIdBase : Nat} {exchange : ExchangeBook} {side : Side}
    {columns : List PriceLevel} (sound : SoundExchange seedIdBase exchange)
    (lists : ListsLevels columns (exchangeDepth exchange side)) (price : Int) :
    listedDepth (columns.filter isOccupied) price = exchangeDepth exchange side price := by
  exact occupied_depth lists (sound_depth_nonneg sound side) (sound_depth_priced sound side) price

end Snapshot

section Seeding

/-- The book after some seeds: their ids are taken, every other id is free. -/
structure Seeded (seedIdBase nextSeedId : Nat) (book : OrderBook) (shown : Side → Int → Int) :
    Prop where
  accepts : book.config.acceptUnknownOrderOps = true
  from_base : seedIdBase ≤ nextSeedId
  free : ∀ orderId : Nat, orderId < seedIdBase ∨ nextSeedId ≤ orderId →
    book.orders[orderId]? = none
  depth : ∀ side price, depthAtPrice book side price = shown side price

theorem empty_seeded (seedIdBase : Nat) :
    Seeded seedIdBase seedIdBase orphanBook fun _ _ => 0 where
  accepts := rfl
  from_base := le_refl seedIdBase
  free := by
    intro orderId _
    exact ExtTreeMap.getElem?_empty
  depth := by
    intro side price
    cases side <;> rfl

theorem seed_accepted {seedIdBase nextSeedId : Nat} {book : OrderBook}
    {shown : Side → Int → Int} (seeded : Seeded seedIdBase nextSeedId book shown) (side : Side)
    (level : PriceLevel) (positive : 0 < level.2) (priced : 0 ≤ level.1) :
    (applyEvent book (seedRow nextSeedId side level).toEvent).1 = true ∧
      Seeded seedIdBase (nextSeedId + 1)
        (applyEvent book (seedRow nextSeedId side level).toEvent).2
        fun other price => shown other price +
          carried other price (some ⟨side, level.1, level.2⟩) := by
  let event := (seedRow nextSeedId side level).toEvent
  let plan : Plan := ⟨none, some (eventOrder event), some (eventMove event)⟩
  have fresh : book.orders[event.orderId]? = none := seeded.free nextSeedId (.inr (le_refl _))
  have planned : planOf book.config.acceptUnknownOrderOps book.orders[event.orderId]? event =
      some plan := by
    rw [fresh]
    exact if_pos ⟨priced, positive⟩
  have executed : applyEvent book event = (true, execute book nextSeedId plan) := by
    rw [apply_event_eq, planned]
    exact carry_out_give book nextSeedId _ _
  change (applyEvent book event).1 = true ∧ Seeded seedIdBase (nextSeedId + 1)
    (applyEvent book event).2 _
  rw [executed]
  refine ⟨rfl, ?_⟩
  constructor
  · rw [execute_config]
    exact seeded.accepts
  · exact Nat.le_succ_of_le seeded.from_base
  · intro orderId outside
    have base := seeded.from_base
    have other : nextSeedId ≠ orderId := by omega
    rw [execute_lookup, if_neg other]
    exact seeded.free orderId (by omega)
  · intro other price
    rw [execute_depth, seeded.depth]
    change shown other price - 0 + _ = _
    rw [sub_zero]
    rfl

theorem seeds_accepted {seedIdBase nextSeedId : Nat} {book : OrderBook}
    {shown : Side → Int → Int} (seeded : Seeded seedIdBase nextSeedId book shown) (side : Side)
    (levels : List PriceLevel) (sound : ∀ level ∈ levels, 0 < level.2 ∧ 0 ≤ level.1) :
    (∀ answer ∈ outputs applyEvent book (rowEvents (seedRows side nextSeedId levels)),
        answer = true) ∧
      Seeded seedIdBase (nextSeedId + levels.length)
        (finalState applyEvent book (rowEvents (seedRows side nextSeedId levels)))
        fun other price => shown other price +
          if side = other then listedDepth levels price else 0 := by
  induction levels generalizing nextSeedId book shown with
  | nil =>
      refine ⟨by simp [seedRows, rowEvents, outputs], ?_⟩
      have unchanged : (fun other price => shown other price +
          if side = other then listedDepth [] price else 0) = shown := by
        funext other price
        simp [listedDepth]
      rw [unchanged]
      exact seeded
  | cons level rest ih =>
      have levelSound := sound level List.mem_cons_self
      rcases seed_accepted seeded side level levelSound.1 levelSound.2 with ⟨answered, stepped⟩
      rcases ih stepped fun other member => sound other (List.mem_cons_of_mem level member) with
        ⟨accepted, finished⟩
      have regrouped : (fun other price => shown other price +
            if side = other then listedDepth (level :: rest) price else 0) =
          fun other price => shown other price +
            carried other price (some ⟨side, level.1, level.2⟩) +
            if side = other then listedDepth rest price else 0 := by
        funext other price
        by_cases same : side = other
        · simp [listedDepth, carried, same, add_assoc]
        · simp [carried, same]
      rw [regrouped, List.length_cons, ← Nat.add_assoc, Nat.add_right_comm]
      refine ⟨?_, finished⟩
      intro answer listed
      rcases List.mem_cons.mp listed with rfl | later
      · exact answered
      · exact accepted answer later

/-- The levels of a snapshot, by side. -/
def levelsOf (bids asks : List PriceLevel) : Side → List PriceLevel
  | .buy => bids
  | .sell => asks

/-- The asks are seeded first and the bids behind them: every seed is accepted and
each price shows what is listed for it. -/
theorem both_sides_seeded (seedIdBase : Nat) (bids asks : List PriceLevel)
    (soundBids : ∀ level ∈ bids, 0 < level.2 ∧ 0 ≤ level.1)
    (soundAsks : ∀ level ∈ asks, 0 < level.2 ∧ 0 ≤ level.1) :
    let seeds := rowEvents
      (seedRows .sell seedIdBase asks ++ seedRows .buy (seedIdBase + asks.length) bids)
    (∀ answer ∈ outputs applyEvent orphanBook seeds, answer = true) ∧
      Seeded seedIdBase (seedIdBase + asks.length + bids.length)
        (finalState applyEvent orphanBook seeds)
        fun side price => listedDepth (levelsOf bids asks side) price := by
  intro seeds
  rcases seeds_accepted (empty_seeded seedIdBase) .sell asks soundAsks with
    ⟨asksAccepted, asksSeeded⟩
  rcases seeds_accepted asksSeeded .buy bids soundBids with ⟨bidsAccepted, bidsSeeded⟩
  have split : seeds = rowEvents (seedRows .sell seedIdBase asks) ++
      rowEvents (seedRows .buy (seedIdBase + asks.length) bids) := List.map_append
  rw [split, outputs_append, final_state_append]
  constructor
  · intro answer member
    rcases List.mem_append.mp member with earlier | later
    · exact asksAccepted answer earlier
    · exact bidsAccepted answer later
  · have listed : (fun side price => listedDepth (levelsOf bids asks side) price) =
        fun side price => 0 + (if Side.sell = side then listedDepth asks price else 0) +
          if Side.buy = side then listedDepth bids price else 0 := by
      funext side price
      cases side <;> simp [levelsOf]
    rw [listed]
    exact bidsSeeded

end Seeding

end TickForge.LobsterSnapshot
