import TickForge.Int64Depth

/-!
# The views of a book

Best prices, spread, depth at a price, the first levels and the total are read
off the two ladders by separate queries. Each ladder lists its levels best
first and no stored level is empty, so the queries agree in every state that any
calls reach. Prices stay at zero or more, hence the spread of 64-bit prices is
a 64-bit number.
-/

namespace TickForge.BookViews

open Std (ExtTreeMap TransCmp LawfulEqCmp)
open KeyedTotals StepRuns MarketEventModel OrderBookModel OrderBookStep DepthLedger
open StrictReference Int64Depth

set_option autoImplicit false

section Ladders

/-- All levels of a side, in the order the ladder is walked. -/
def ladder (book : OrderBook) : Side → List PriceLevel
  | .buy => book.bids.toList
  | .sell => book.asks.toList

def levelCount (book : OrderBook) : Side → Nat
  | .buy => book.bids.size
  | .sell => book.asks.size

def bestPrice (book : OrderBook) : Side → Option Int
  | .buy => bestBid book
  | .sell => bestAsk book

/-- A higher bid and a lower ask stand nearer to the touch. -/
def Better (side : Side) (nearer farther : Int) : Prop :=
  match side with
  | .buy => farther < nearer
  | .sell => nearer < farther

/-- The loop of `top_n` collects the levels that come first. -/
theorem collect_levels_eq (n : Nat) (levels rest : List PriceLevel) (room : levels.length ≤ n) :
    collectLevels n levels rest = levels ++ rest.take (n - levels.length) := by
  induction rest generalizing levels with
  | nil => simp [collectLevels]
  | cons level rest ih =>
      unfold collectLevels
      split_ifs with full
      · rw [full, Nat.sub_self, List.take_zero, List.append_nil]
      · have shorter : n - levels.length = n - (levels.length + 1) + 1 := by omega
        have stillRoom : (levels ++ [level]).length ≤ n := by
          rw [List.length_append, List.length_singleton]
          omega
        rw [ih _ stillRoom, List.length_append, List.length_singleton, shorter,
          List.take_succ_cons, List.append_assoc, List.singleton_append]

theorem top_n_eq (book : OrderBook) (side : Side) (n : Nat) :
    topN book side n = (ladder book side).take n := by
  have collected := fun levels => collect_levels_eq n [] levels (Nat.zero_le n)
  cases side with
  | buy => exact collected book.bids.toList
  | sell => exact collected book.asks.toList

theorem ladder_length (book : OrderBook) (side : Side) :
    (ladder book side).length = levelCount book side := by
  cases side <;> exact ExtTreeMap.length_toList

theorem mem_ladder_iff (book : OrderBook) (side : Side) (price quantity : Int) :
    (price, quantity) ∈ ladder book side ↔ levelAt book side price = some quantity := by
  cases side <;> exact ExtTreeMap.mem_toList_iff_getElem?_eq_some

theorem ladder_best_first (book : OrderBook) (side : Side) :
    (ladder book side).Pairwise fun nearer farther => Better side nearer.1 farther.1 := by
  cases side with
  | buy =>
      apply List.Pairwise.imp _ book.bids.ordered_keys_toList
      intro nearer farther ordered
      exact Int.compare_eq_lt.mp ordered
  | sell =>
      apply List.Pairwise.imp _ book.asks.ordered_keys_toList
      intro nearer farther ordered
      exact Int.compare_eq_lt.mp ordered

/-- The ladder is settled by its levels. -/
theorem ladder_eq_of_sorted (book : OrderBook) (side : Side) (levels : List PriceLevel)
    (sorted : levels.Pairwise fun nearer farther => Better side nearer.1 farther.1)
    (same : ∀ price quantity,
      levelAt book side price = some quantity ↔ (price, quantity) ∈ levels) :
    ladder book side = levels := by
  cases side with
  | buy =>
      apply toList_eq_of_sorted book.bids levels _ same
      apply List.Pairwise.imp _ sorted
      intro nearer farther better
      exact Int.compare_eq_lt.mpr better
  | sell =>
      apply toList_eq_of_sorted book.asks levels _ same
      apply List.Pairwise.imp _ sorted
      intro nearer farther better
      exact Int.compare_eq_lt.mpr better

theorem best_price_eq (book : OrderBook) (side : Side) :
    bestPrice book side = ((ladder book side).head?).map Prod.fst := by
  cases side <;> rfl

theorem ladder_total_depth (book : OrderBook) (side : Side) :
    ((ladder book side).map Prod.snd).sum = totalDepth book side := by
  rw [total_depth_eq_sum]
  cases side <;> rfl

end Ladders

section Agreement

/-- The queries of one book tell the same story. The full list of a side is
`top_n` at the number of its levels. -/
structure ViewsAgree (book : OrderBook) : Prop where
  length : ∀ side n, (topN book side n).length = min n (levelCount book side)
  bestFirst : ∀ side n,
    (topN book side n).Pairwise fun nearer farther => Better side nearer.1 farther.1
  positive : ∀ side n, ∀ level ∈ topN book side n, 0 < level.2
  depth : ∀ side n, ∀ level ∈ topN book side n, depthAtPrice book side level.1 = level.2
  nested : ∀ side n m, n ≤ m → topN book side n <+: topN book side m
  first : ∀ side n, 1 ≤ n → ((topN book side n).head?).map Prod.fst = bestPrice book side
  vacant : ∀ side n, 1 ≤ n → (topN book side n = [] ↔ bestPrice book side = none)
  absent : ∀ side price, (∀ level ∈ topN book side (levelCount book side), level.1 ≠ price) →
    depthAtPrice book side price = 0
  total : ∀ side, ((topN book side (levelCount book side)).map Prod.snd).sum = totalDepth book side
  spread : ∀ width, spread book = some width ↔
    ∃ bid ask, bestBid book = some bid ∧ bestAsk book = some ask ∧ ask - bid = width

theorem full_list_eq (book : OrderBook) (side : Side) :
    topN book side (levelCount book side) = ladder book side := by
  rw [top_n_eq, ← ladder_length, List.take_length]

theorem listed_level {book : OrderBook} {side : Side} {n : Nat} {level : PriceLevel}
    (listed : level ∈ topN book side n) : levelAt book side level.1 = some level.2 := by
  rw [top_n_eq] at listed
  exact (mem_ladder_iff book side level.1 level.2).mp (List.mem_of_mem_take listed)

theorem unlisted_depth {book : OrderBook} {side : Side} {price : Int}
    (unlisted : ∀ level ∈ ladder book side, level.1 ≠ price) :
    depthAtPrice book side price = 0 := by
  rw [depth_at_price_eq]
  cases held : levelAt book side price with
  | none => rfl
  | some quantity =>
      have listed := (mem_ladder_iff book side price quantity).mpr held
      exact absurd rfl (unlisted _ listed)

theorem first_listed (book : OrderBook) (side : Side) (n : Nat) (asked : 1 ≤ n) :
    ((topN book side n).head?).map Prod.fst = bestPrice book side := by
  have nonzero : n ≠ 0 := Nat.one_le_iff_ne_zero.mp asked
  rw [top_n_eq, best_price_eq, List.head?_take, if_neg nonzero]

/-- Where no stored level is empty, the views agree. -/
theorem tidy_views_agree {book : OrderBook} (tidy : TidyLevels book) : ViewsAgree book where
  length := by
    intro side n
    rw [top_n_eq, List.length_take, ladder_length]
  bestFirst := by
    intro side n
    rw [top_n_eq]
    exact (ladder_best_first book side).take
  positive := by
    intro side n level listed
    exact (tidy side level.1 level.2 (listed_level listed)).1
  depth := by
    intro side n level listed
    rw [depth_at_price_eq, listed_level listed, Option.getD_some]
  nested := by
    intro side n m le
    rw [top_n_eq, top_n_eq]
    exact List.take_prefix_take_left le
  first := first_listed book
  vacant := by
    intro side n asked
    rw [← first_listed book side n asked, Option.map_eq_none_iff, List.head?_eq_none_iff]
  absent := by
    intro side price unlisted
    rw [full_list_eq] at unlisted
    exact unlisted_depth unlisted
  total := by
    intro side
    rw [full_list_eq, ladder_total_depth]
  spread := spread_eq_some_iff book

end Agreement

section Runs

/-- An event's price is a 64-bit number; the other calls carry none. -/
def PricedCall : BookCall → Prop
  | .applyEvent event => event.price < 2 ^ 63
  | .setConfig _ | .clear => True

/-- Every resting order is priced below the 64-bit limit. -/
def PricedOrders (book : OrderBook) : Prop :=
  ∀ (orderId : Nat) (order : Order), book.orders[orderId]? = some order → order.price < 2 ^ 63

theorem planned_entry_priced {acceptUnknown : Bool} {known : Option Order} {event : MarketEvent}
    {plan : Plan} (planned : Planned acceptUnknown event known plan)
    (priced : event.price < 2 ^ 63) (held : ∀ order ∈ known, order.price < 2 ^ 63) :
    ∀ order ∈ plan.entry, order.price < 2 ^ 63 := by
  intro stored entry
  cases planned with
  | adds isAdd nonnegative positive => cases entry; exact priced
  | drains isOrphan accepted positive => cases entry
  | removes order leaves => cases entry
  | moves order isModify nonnegative positive => cases entry; exact priced
  | fills order isTrade positive sameSide samePrice partially =>
      cases entry
      exact held order rfl

theorem call_priced (book : OrderBook) (call : BookCall) (priced : PricedCall call)
    (held : PricedOrders book) : PricedOrders (callStep book call).2 := by
  cases call with
  | applyEvent event =>
      change PricedOrders (applyEvent book event).2
      rcases apply_event_cases book event with refused | ⟨plan, planned, feasible, executed⟩
      · rwa [refused]
      · rw [executed]
        intro orderId order stored
        rw [execute_lookup] at stored
        split_ifs at stored with same
        · have shape := planned_of_plan _ _ _ _ planned
          exact planned_entry_priced shape priced (held event.orderId) order stored
        · exact held orderId order stored
  | setConfig config => exact held
  | clear =>
      intro orderId order stored
      cases stored

/-- A best price is some resting order's price. -/
theorem best_price_bounds {book : OrderBook} {drained : Side → Int → Int}
    (ledgered : Ledgered book drained) (priced : PricedOrders book) (side : Side) (price : Int)
    (best : bestPrice book side = some price) : 0 ≤ price ∧ price < 2 ^ 63 := by
  rw [best_price_eq, Option.map_eq_some_iff] at best
  obtain ⟨⟨listed, quantity⟩, first, rfl⟩ := best
  have level := (mem_ladder_iff book side listed quantity).mp (List.mem_of_head? first)
  obtain ⟨orderId, order, stored, _, samePrice⟩ :=
    exists_order_of_level ledgered side listed (Option.isSome_iff_exists.mpr ⟨quantity, level⟩)
  have bounded := priced orderId order stored
  rw [samePrice] at bounded
  exact ⟨(ledgered.tidy side listed quantity level).2, bounded⟩

/-- In every state any calls reach the views of the book agree, and the spread
of 64-bit prices is a 64-bit number. -/
theorem reached_views_agree (config : OrderBookConfig) (calls : List BookCall) :
    let book := finalState callStep { config := config } calls
    ViewsAgree book ∧
      ((∀ call ∈ calls, PricedCall call) →
        ∀ width, spread book = some width → -2 ^ 63 ≤ width ∧ width < 2 ^ 63) := by
  intro book
  have ledgered := audited_run_ledgered config calls
  rw [audited_run_book] at ledgered
  have agree : ViewsAgree book := tidy_views_agree ledgered.tidy
  refine ⟨agree, ?_⟩
  intro pricedCalls width wide
  have priced : PricedOrders book := by
    apply invariant_allowed_run callStep PricedCall PricedOrders call_priced _ calls pricedCalls
    intro orderId order stored
    cases stored
  obtain ⟨bid, ask, bestBid, bestAsk, rfl⟩ := (agree.spread width).mp wide
  have bidBounds := best_price_bounds ledgered priced .buy bid bestBid
  have askBounds := best_price_bounds ledgered priced .sell ask bestAsk
  omega

end Runs

end TickForge.BookViews
