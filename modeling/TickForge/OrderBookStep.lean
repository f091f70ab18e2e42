import TickForge.OrderBookModel

/-!
# What one event can do to the book

Each handler reads the table entry of its event, takes a quantity off one
level, rewrites that entry and gives a quantity to one level. `planOf` states
these three moves from the entry alone, `carryOut` performs them, and
`apply_event_eq` says that this is all `apply_event` ever does. Later modules
reason about plans and never unfold a handler.
-/

namespace TickForge.OrderBookStep

open Std (ExtTreeMap TransCmp LawfulEqCmp)
open KeyedTotals MarketEventModel OrderBookModel

set_option autoImplicit false

section Lookups

def levelAt (book : OrderBook) (side : Side) (price : Int) : Option Int :=
  match side with
  | .buy => book.bids[price]?
  | .sell => book.asks[price]?

def putLevel (book : OrderBook) (side : Side) (price : Int) (entry : Option Int) : OrderBook :=
  match side with
  | .buy => { book with bids := put book.bids price entry }
  | .sell => { book with asks := put book.asks price entry }

def putOrder (book : OrderBook) (orderId : Nat) (entry : Option Order) : OrderBook :=
  { book with orders := put book.orders orderId entry }

theorem depth_at_price_eq (book : OrderBook) (side : Side) (price : Int) :
    depthAtPrice book side price = (levelAt book side price).getD 0 := by
  cases side <;> rfl

@[simp] theorem put_level_orders (book : OrderBook) (side : Side) (price : Int)
    (entry : Option Int) : (putLevel book side price entry).orders = book.orders := by
  cases side <;> rfl

@[simp] theorem put_level_config (book : OrderBook) (side : Side) (price : Int)
    (entry : Option Int) : (putLevel book side price entry).config = book.config := by
  cases side <;> rfl

@[simp] theorem put_order_config (book : OrderBook) (orderId : Nat) (entry : Option Order) :
    (putOrder book orderId entry).config = book.config := rfl

@[simp] theorem depth_put_order (book : OrderBook) (orderId : Nat) (entry : Option Order)
    (side : Side) (price : Int) :
    depthAtPrice (putOrder book orderId entry) side price = depthAtPrice book side price := rfl

theorem put_order_lookup (book : OrderBook) (orderId other : Nat) (entry : Option Order) :
    (putOrder book orderId entry).orders[other]? =
      if orderId = other then entry else book.orders[other]? := by
  exact lookup_put book.orders orderId other entry

theorem level_at_put_level (book : OrderBook) (side other : Side) (price elsewhere : Int)
    (entry : Option Int) :
    levelAt (putLevel book side price entry) other elsewhere =
      if side = other ∧ price = elsewhere then entry else levelAt book other elsewhere := by
  cases side <;> cases other <;> simp [levelAt, putLevel, lookup_put]

theorem depth_put_level (book : OrderBook) (side other : Side) (price elsewhere : Int)
    (entry : Option Int) :
    depthAtPrice (putLevel book side price entry) other elsewhere =
      if side = other ∧ price = elsewhere then entry.getD 0
      else depthAtPrice book other elsewhere := by
  simp only [depth_at_price_eq, level_at_put_level]
  split_ifs <;> rfl

/-- A book is its configuration, its table and its levels. -/
theorem book_ext (left right : OrderBook) (config : left.config = right.config)
    (orders : ∀ orderId : Nat, left.orders[orderId]? = right.orders[orderId]?)
    (levels : ∀ side price, levelAt left side price = levelAt right side price) :
    left = right := by
  have sameOrders : left.orders = right.orders := ExtTreeMap.ext_getElem? orders
  have sameBids : left.bids = right.bids := ExtTreeMap.ext_getElem? (levels .buy)
  have sameAsks : left.asks = right.asks := ExtTreeMap.ext_getElem? (levels .sell)
  cases left
  cases right
  simp_all

theorem put_order_absent (book : OrderBook) (orderId : Nat)
    (absent : book.orders[orderId]? = none) : putOrder book orderId none = book := by
  apply book_ext
  · rfl
  · intro other
    rw [put_order_lookup]
    split_ifs with same
    · rw [← same, absent]
    · rfl
  · intro side price
    rfl

end Lookups

section Moves

/-- A quantity on its way to or from one level. -/
structure Move where
  side : Side
  price : Int
  quantity : Int
  deriving DecidableEq, Repr

/-- What a level still holds once `quantity` left it; an emptied level is gone. -/
def remainder (held quantity : Int) : Option Int :=
  if held = quantity then none else some (held - quantity)

theorem remainder_getD (held quantity : Int) : (remainder held quantity).getD 0 = held - quantity := by
  unfold remainder
  split_ifs with same
  · simp [same]
  · rfl

def Covered (book : OrderBook) (move : Move) : Prop :=
  0 < move.quantity ∧ move.quantity ≤ depthAtPrice book move.side move.price

instance (book : OrderBook) (move : Move) : Decidable (Covered book move) :=
  inferInstanceAs (Decidable (_ ∧ _))

def withdraw (book : OrderBook) (move : Move) : OrderBook :=
  putLevel book move.side move.price
    (remainder (depthAtPrice book move.side move.price) move.quantity)

def deposit (book : OrderBook) (move : Move) : OrderBook :=
  putLevel book move.side move.price
    (some (depthAtPrice book move.side move.price + move.quantity))

theorem reduce_levels_eq {cmp : Int → Int → Ordering} [TransCmp cmp] [LawfulEqCmp cmp]
    (levels : ExtTreeMap Int Int cmp) (price quantity : Int) (positive : 0 < quantity) :
    reduceLevels levels price quantity =
      if quantity ≤ levels[price]?.getD 0 then
        (true, put levels price (remainder (levels[price]?.getD 0) quantity))
      else (false, levels) := by
  unfold reduceLevels
  cases found : levels[price]? with
  | none => simp only [Option.getD_none, if_neg (not_le.mpr positive)]
  | some held =>
      simp only [Option.getD_some, remainder, sub_eq_zero]
      by_cases short : held < quantity
      · rw [if_pos short, if_neg (not_le.mpr short)]
      · rw [if_neg short, if_pos (not_lt.mp short)]
        by_cases emptied : held = quantity
        · rw [if_pos emptied, if_pos emptied]
          have erased := erase_put levels price (some (held - quantity))
          exact congrArg (Prod.mk true) erased
        · rw [if_neg emptied, if_neg emptied]
          rfl

theorem covered_iff (book : OrderBook) (move : Move) (positive : 0 < move.quantity) :
    Covered book move ↔ move.quantity ≤ depthAtPrice book move.side move.price := by
  exact and_iff_right positive

theorem reduce_depth_eq (book : OrderBook) (move : Move) :
    reduceDepth book move.side move.price move.quantity =
      if Covered book move then (true, withdraw book move) else (false, book) := by
  obtain ⟨side, price, quantity⟩ := move
  by_cases positive : 0 < quantity
  · have covered := covered_iff book ⟨side, price, quantity⟩ positive
    cases side with
    | buy =>
        by_cases deep : quantity ≤ book.bids[price]?.getD 0
        · rw [if_pos (covered.mpr deep)]
          simp only [reduceDepth, if_neg (not_le.mpr positive),
            reduce_levels_eq book.bids price quantity positive, if_pos deep]
          rfl
        · rw [if_neg fun enough => deep (covered.mp enough)]
          simp only [reduceDepth, if_neg (not_le.mpr positive),
            reduce_levels_eq book.bids price quantity positive, if_neg deep]
    | sell =>
        by_cases deep : quantity ≤ book.asks[price]?.getD 0
        · rw [if_pos (covered.mpr deep)]
          simp only [reduceDepth, if_neg (not_le.mpr positive),
            reduce_levels_eq book.asks price quantity positive, if_pos deep]
          rfl
        · rw [if_neg fun enough => deep (covered.mp enough)]
          simp only [reduceDepth, if_neg (not_le.mpr positive),
            reduce_levels_eq book.asks price quantity positive, if_neg deep]
  · rw [if_neg fun covered => positive covered.1]
    simp only [reduceDepth, if_pos (not_lt.mp positive)]

theorem add_depth_eq (book : OrderBook) (move : Move) (positive : 0 < move.quantity) :
    addDepth book move.side move.price move.quantity = deposit book move := by
  unfold addDepth
  rw [if_neg (not_le.mpr positive)]
  obtain ⟨side, price, quantity⟩ := move
  cases side <;> rfl

/-- What a move carries at one level. -/
def carried (side : Side) (price : Int) : Option Move → Int
  | none => 0
  | some move => if move.side = side ∧ move.price = price then move.quantity else 0

theorem depth_withdraw (book : OrderBook) (move : Move) (side : Side) (price : Int) :
    depthAtPrice (withdraw book move) side price =
      depthAtPrice book side price - carried side price (some move) := by
  unfold withdraw
  simp only [depth_put_level, carried]
  split_ifs with here
  · obtain ⟨rfl, rfl⟩ := here
    exact remainder_getD _ _
  · exact (sub_zero _).symm

theorem depth_deposit (book : OrderBook) (move : Move) (side : Side) (price : Int) :
    depthAtPrice (deposit book move) side price =
      depthAtPrice book side price + carried side price (some move) := by
  unfold deposit
  simp only [depth_put_level, carried]
  split_ifs with here
  · obtain ⟨rfl, rfl⟩ := here
    rfl
  · exact (add_zero _).symm

@[simp] theorem withdraw_orders (book : OrderBook) (move : Move) :
    (withdraw book move).orders = book.orders := put_level_orders _ _ _ _

@[simp] theorem deposit_orders (book : OrderBook) (move : Move) :
    (deposit book move).orders = book.orders := put_level_orders _ _ _ _

@[simp] theorem withdraw_config (book : OrderBook) (move : Move) :
    (withdraw book move).config = book.config := put_level_config _ _ _ _

@[simp] theorem deposit_config (book : OrderBook) (move : Move) :
    (deposit book move).config = book.config := put_level_config _ _ _ _

end Moves

section Plans

/-- The moves an event calls for, given the table entry it names. -/
structure Plan where
  takes : Option Move
  entry : Option Order
  gives : Option Move
  deriving DecidableEq, Repr

def eventMove (event : MarketEvent) : Move := ⟨event.side, event.price, event.quantity⟩

def orderMove (order : Order) : Move := ⟨order.side, order.price, order.quantity⟩

def eventOrder (event : MarketEvent) : Order :=
  ⟨event.orderId, event.side, event.price, event.quantity⟩

/-- `none` where the handler refuses before it looks at any level. -/
def planOf (acceptUnknown : Bool) (known : Option Order) (event : MarketEvent) : Option Plan :=
  match event.type, known with
  | .add, some _ => none
  | .add, none =>
      if 0 ≤ event.price ∧ 0 < event.quantity then
        some ⟨none, some (eventOrder event), some (eventMove event)⟩
      else none
  | .cancel, some order => some ⟨some (orderMove order), none, none⟩
  | .modify, none => none
  | .modify, some order =>
      if 0 ≤ event.price ∧ 0 ≤ event.quantity then
        if event.quantity = 0 then some ⟨some (orderMove order), none, none⟩
        else some ⟨some (orderMove order),
          some { order with side := event.side, price := event.price, quantity := event.quantity },
          some (eventMove event)⟩
      else none
  | .trade, some order =>
      if 0 < event.quantity ∧ event.side = order.side ∧ event.price = order.price then
        some ⟨some ⟨order.side, order.price, min event.quantity order.quantity⟩,
          if order.quantity ≤ event.quantity then none
          else some { order with quantity := order.quantity - event.quantity }, none⟩
      else none
  | .cancel, none | .trade, none =>
      if acceptUnknown = true ∧ 0 < event.quantity then
        some ⟨some (eventMove event), none, none⟩
      else none

/-- Why a known order leaves the table altogether. -/
def Leaves (event : MarketEvent) (order : Order) : Prop :=
  event.type = .cancel ∨
    (event.type = .modify ∧ 0 ≤ event.price ∧ event.quantity = 0) ∨
    (event.type = .trade ∧ 0 < event.quantity ∧ event.side = order.side ∧
      event.price = order.price ∧ order.quantity ≤ event.quantity)

/-- The five kinds of plan, each with the guards its handler checked. -/
inductive Planned (acceptUnknown : Bool) (event : MarketEvent) : Option Order → Plan → Prop where
  | adds (isAdd : event.type = .add) (priced : 0 ≤ event.price) (positive : 0 < event.quantity) :
      Planned acceptUnknown event none ⟨none, some (eventOrder event), some (eventMove event)⟩
  | drains (isOrphan : event.type = .cancel ∨ event.type = .trade)
      (accepted : acceptUnknown = true) (positive : 0 < event.quantity) :
      Planned acceptUnknown event none ⟨some (eventMove event), none, none⟩
  | removes (order : Order) (leaves : Leaves event order) :
      Planned acceptUnknown event (some order) ⟨some (orderMove order), none, none⟩
  | moves (order : Order) (isModify : event.type = .modify) (priced : 0 ≤ event.price)
      (positive : 0 < event.quantity) :
      Planned acceptUnknown event (some order) ⟨some (orderMove order),
        some { order with side := event.side, price := event.price, quantity := event.quantity },
        some (eventMove event)⟩
  | fills (order : Order) (isTrade : event.type = .trade) (positive : 0 < event.quantity)
      (sameSide : event.side = order.side) (samePrice : event.price = order.price)
      (partially : event.quantity < order.quantity) :
      Planned acceptUnknown event (some order) ⟨some (eventMove event),
        some { order with quantity := order.quantity - event.quantity }, none⟩

theorem planned_of_plan (acceptUnknown : Bool) (known : Option Order) (event : MarketEvent)
    (plan : Plan) (planned : planOf acceptUnknown known event = some plan) :
    Planned acceptUnknown event known plan := by
  cases kind : event.type with
  | add =>
      cases known with
      | none =>
          simp only [planOf, kind] at planned
          split_ifs at planned with guards
          cases planned
          exact .adds kind guards.1 guards.2
      | some order => simp [planOf, kind] at planned
  | cancel =>
      cases known with
      | none =>
          simp only [planOf, kind] at planned
          split_ifs at planned with guards
          cases planned
          exact .drains (.inl kind) guards.1 guards.2
      | some order =>
          simp only [planOf, kind] at planned
          cases planned
          exact .removes order (.inl kind)
  | modify =>
      cases known with
      | none => simp [planOf, kind] at planned
      | some order =>
          simp only [planOf, kind] at planned
          split_ifs at planned with guards emptied
          · cases planned
            exact .removes order (.inr (.inl ⟨kind, guards.1, emptied⟩))
          · cases planned
            exact .moves order kind guards.1 (by omega)
  | trade =>
      cases known with
      | none =>
          simp only [planOf, kind] at planned
          split_ifs at planned with guards
          cases planned
          exact .drains (.inr kind) guards.1 guards.2
      | some order =>
          simp only [planOf, kind] at planned
          split_ifs at planned with guards filled
          · cases planned
            rw [min_eq_right filled]
            exact .removes order
              (.inr (.inr ⟨kind, guards.1, guards.2.1, guards.2.2, filled⟩))
          · cases planned
            have partially : event.quantity < order.quantity := not_le.mp filled
            have taken : (⟨order.side, order.price, event.quantity⟩ : Move) = eventMove event := by
              simp only [eventMove, guards.2.1, guards.2.2]
            rw [min_eq_left partially.le, taken]
            exact .fills order kind guards.1 guards.2.1 guards.2.2 partially

/-- The level a plan draws on, if any, is deep enough. -/
def Plan.Feasible (book : OrderBook) (plan : Plan) : Prop :=
  ∀ move ∈ plan.takes, Covered book move

instance (book : OrderBook) (plan : Plan) : Decidable (plan.Feasible book) :=
  inferInstanceAs (Decidable (∀ move ∈ plan.takes, Covered book move))

def takeMove (book : OrderBook) : Option Move → OrderBook
  | none => book
  | some move => withdraw book move

def giveMove (book : OrderBook) : Option Move → OrderBook
  | none => book
  | some move => deposit book move

def execute (book : OrderBook) (orderId : Nat) (plan : Plan) : OrderBook :=
  giveMove (putOrder (takeMove book plan.takes) orderId plan.entry) plan.gives

def carryOut (book : OrderBook) (orderId : Nat) : Option Plan → Bool × OrderBook
  | none => (false, book)
  | some plan =>
      if plan.Feasible book then (true, execute book orderId plan) else (false, book)

theorem carry_out_covered (book : OrderBook) (orderId : Nat) (move : Move)
    (entry : Option Order) (gives : Option Move) (covered : Covered book move) :
    carryOut book orderId (some ⟨some move, entry, gives⟩) =
      (true, giveMove (putOrder (withdraw book move) orderId entry) gives) := by
  have feasible : Plan.Feasible book ⟨some move, entry, gives⟩ := by
    intro taken same
    cases same
    exact covered
  rw [carryOut, if_pos feasible]
  rfl

theorem carry_out_uncovered (book : OrderBook) (orderId : Nat) (move : Move)
    (entry : Option Order) (gives : Option Move) (short : ¬Covered book move) :
    carryOut book orderId (some ⟨some move, entry, gives⟩) = (false, book) := by
  have infeasible : ¬Plan.Feasible book ⟨some move, entry, gives⟩ := by
    intro feasible
    exact short (feasible move rfl)
  rw [carryOut, if_neg infeasible]

theorem carry_out_take (book : OrderBook) (orderId : Nat) (move : Move)
    (entry : Option Order) (gives : Option Move) :
    carryOut book orderId (some ⟨some move, entry, gives⟩) =
      if Covered book move then
        (true, giveMove (putOrder (withdraw book move) orderId entry) gives)
      else (false, book) := by
  split_ifs with covered
  · exact carry_out_covered book orderId move entry gives covered
  · exact carry_out_uncovered book orderId move entry gives covered

theorem carry_out_give (book : OrderBook) (orderId : Nat) (entry : Option Order)
    (gives : Option Move) :
    carryOut book orderId (some ⟨none, entry, gives⟩) =
      (true, giveMove (putOrder book orderId entry) gives) := by
  have feasible : Plan.Feasible book ⟨none, entry, gives⟩ := by
    intro taken same
    cases same
  rw [carryOut, if_pos feasible]
  rfl

theorem orphan_reduction_eq (book : OrderBook) (event : MarketEvent)
    (unknown : book.orders[event.orderId]? = none) :
    reduceDepth book event.side event.price event.quantity =
      carryOut book event.orderId (some ⟨some (eventMove event), none, none⟩) := by
  have reduced := reduce_depth_eq book (eventMove event)
  simp only [eventMove] at reduced
  rw [reduced]
  by_cases covered : Covered book (eventMove event)
  · have absent : (withdraw book (eventMove event)).orders[event.orderId]? = none := by
      simpa using unknown
    rw [carry_out_covered _ _ _ _ _ covered, put_order_absent _ _ absent]
    exact if_pos covered
  · rw [carry_out_uncovered _ _ _ _ _ covered]
    exact if_neg covered

theorem add_order_eq (book : OrderBook) (event : MarketEvent) (isAdd : event.type = .add) :
    addOrder book event = carryOut book event.orderId
      (planOf book.config.acceptUnknownOrderOps book.orders[event.orderId]? event) := by
  unfold addOrder
  cases known : book.orders[event.orderId]? with
  | some order => simp only [planOf, isAdd, carryOut, ite_self]
  | none =>
      simp only [planOf, isAdd]
      by_cases valid : 0 ≤ event.price ∧ 0 < event.quantity
      · have notRefused : ¬(event.price < 0 ∨ event.quantity ≤ 0) := by omega
        rw [if_neg notRefused, if_pos valid, carry_out_give]
        exact congrArg (Prod.mk true) (add_depth_eq _ (eventMove event) valid.2)
      · have refused : event.price < 0 ∨ event.quantity ≤ 0 := by omega
        rw [if_pos refused, if_neg valid]
        rfl

/-- Taking a resting order's own quantity off its level. -/
theorem reduce_order_eq (book : OrderBook) (order : Order) :
    reduceDepth book order.side order.price order.quantity =
      if Covered book (orderMove order) then (true, withdraw book (orderMove order))
      else (false, book) := by
  exact reduce_depth_eq book (orderMove order)

theorem cancel_order_eq (book : OrderBook) (event : MarketEvent)
    (isCancel : event.type = .cancel) :
    cancelOrder book event = carryOut book event.orderId
      (planOf book.config.acceptUnknownOrderOps book.orders[event.orderId]? event) := by
  unfold cancelOrder
  cases known : book.orders[event.orderId]? with
  | none =>
      simp only [planOf, isCancel]
      split_ifs with orphan
      · exact orphan_reduction_eq book event known
      · rfl
  | some order =>
      have reduced := reduce_order_eq book order
      simp only [planOf, isCancel, reduced]
      by_cases covered : Covered book (orderMove order)
      · rw [carry_out_covered _ _ _ _ _ covered, if_pos covered]
        rfl
      · rw [carry_out_uncovered _ _ _ _ _ covered, if_neg covered]
        rfl

theorem modify_order_eq (book : OrderBook) (event : MarketEvent)
    (isModify : event.type = .modify) :
    modifyOrder book event = carryOut book event.orderId
      (planOf book.config.acceptUnknownOrderOps book.orders[event.orderId]? event) := by
  unfold modifyOrder
  cases known : book.orders[event.orderId]? with
  | none => simp only [planOf, isModify, carryOut, ite_self]
  | some order =>
      have reduced := reduce_order_eq book order
      simp only [planOf, isModify, reduced]
      by_cases valid : 0 ≤ event.price ∧ 0 ≤ event.quantity
      · have notRefused : ¬(event.price < 0 ∨ event.quantity < 0) := by omega
        rw [if_neg notRefused, if_pos valid]
        by_cases covered : Covered book (orderMove order)
        · by_cases emptied : event.quantity = 0
          · rw [if_pos covered, if_pos emptied, if_pos emptied,
              carry_out_covered _ _ _ _ _ covered]
            rfl
          · have positive : 0 < event.quantity := by omega
            rw [if_pos covered, if_neg emptied, if_neg emptied,
              carry_out_covered _ _ _ _ _ covered]
            exact congrArg (Prod.mk true) (add_depth_eq _ (eventMove event) positive)
        · simp only [if_neg covered, Bool.not_false, if_true]
          split_ifs <;> exact (carry_out_uncovered _ _ _ _ _ covered).symm
      · have refused : event.price < 0 ∨ event.quantity < 0 := by omega
        rw [if_pos refused, if_neg valid]
        rfl

theorem trade_order_eq (book : OrderBook) (event : MarketEvent)
    (isTrade : event.type = .trade) :
    tradeOrder book event = carryOut book event.orderId
      (planOf book.config.acceptUnknownOrderOps book.orders[event.orderId]? event) := by
  unfold tradeOrder
  by_cases positive : 0 < event.quantity
  · rw [if_neg (not_le.mpr positive)]
    cases known : book.orders[event.orderId]? with
    | none =>
        simp only [planOf, isTrade, positive, and_true]
        split_ifs with orphan
        · exact orphan_reduction_eq book event known
        · rfl
    | some order =>
        simp only [planOf, isTrade, positive, true_and]
        by_cases matching : event.side = order.side ∧ event.price = order.price
        · have notRefused : ¬(event.side ≠ order.side ∨ event.price ≠ order.price) := by
            simpa [not_or] using matching
          let move : Move := ⟨order.side, order.price, min event.quantity order.quantity⟩
          have reduced : reduceDepth book order.side order.price
                (min event.quantity order.quantity) =
              if Covered book move then (true, withdraw book move) else (false, book) :=
            reduce_depth_eq book move
          rw [if_neg notRefused, if_pos matching, reduced]
          by_cases covered : Covered book move
          · rw [if_pos covered, carry_out_covered _ _ _ _ _ covered]
            by_cases filled : order.quantity ≤ event.quantity
            · rw [if_pos filled, if_pos (min_eq_right filled)]
              rfl
            · have partially : min event.quantity order.quantity = event.quantity :=
                min_eq_left (le_of_not_ge filled)
              have notFilled : min event.quantity order.quantity ≠ order.quantity := by omega
              rw [if_neg filled, if_neg notFilled]
              simp only [move, partially]
              rfl
          · rw [if_neg covered, carry_out_uncovered _ _ _ _ _ covered]
            rfl
        · have refused : event.side ≠ order.side ∨ event.price ≠ order.price := by
            by_contra accepted
            exact matching (by simpa [not_or] using accepted)
          rw [if_pos refused, if_neg matching]
          rfl
  · rw [if_pos (not_lt.mp positive)]
    cases known : book.orders[event.orderId]? with
    | none => simp only [planOf, isTrade, positive, and_false, if_false, carryOut]
    | some order => simp only [planOf, isTrade, positive, false_and, if_false, carryOut]

/-- Every handler is the execution of its event's plan. -/
theorem apply_event_eq (book : OrderBook) (event : MarketEvent) :
    applyEvent book event = carryOut book event.orderId
      (planOf book.config.acceptUnknownOrderOps book.orders[event.orderId]? event) := by
  unfold applyEvent
  cases kind : event.type with
  | add => exact add_order_eq book event kind
  | cancel => exact cancel_order_eq book event kind
  | modify => exact modify_order_eq book event kind
  | trade => exact trade_order_eq book event kind

theorem execute_lookup (book : OrderBook) (orderId other : Nat) (plan : Plan) :
    (execute book orderId plan).orders[other]? =
      if orderId = other then plan.entry else book.orders[other]? := by
  obtain ⟨takes, entry, gives⟩ := plan
  cases takes <;> cases gives <;>
    simp [execute, takeMove, giveMove, put_order_lookup]

theorem execute_config (book : OrderBook) (orderId : Nat) (plan : Plan) :
    (execute book orderId plan).config = book.config := by
  obtain ⟨takes, entry, gives⟩ := plan
  cases takes <;> cases gives <;> simp [execute, takeMove, giveMove]

theorem execute_depth (book : OrderBook) (orderId : Nat) (plan : Plan) (side : Side)
    (price : Int) :
    depthAtPrice (execute book orderId plan) side price =
      depthAtPrice book side price - carried side price plan.takes +
        carried side price plan.gives := by
  obtain ⟨takes, entry, gives⟩ := plan
  cases takes <;> cases gives <;>
    simp [execute, takeMove, giveMove, depth_deposit, depth_withdraw, carried]

end Plans

end TickForge.OrderBookStep
