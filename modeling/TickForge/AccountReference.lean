import TickForge.Int64Depth

/-!
# The book in either mode against its account

The account keeps the resting orders and, for each level, what orphan reductions
took off it. Every answer is decided by these two, through switches of the mode
and through `clear`, and the levels of the book are what is left of the orders. The
account also says how long the 64-bit additions of the book are defined.
-/

namespace TickForge.AccountReference

open Std (ExtTreeMap)
open KeyedTotals StepRuns PartialRuns MarketEventModel OrderBookModel OrderBookStep DepthLedger
open StrictReference Int64DepthModel Int64Depth

set_option autoImplicit false

section Account

/-- What an account remembers of a book. -/
structure Account where
  acceptUnknown : Bool
  table : RestingTable := ∅
  drained : Side → Int → Int := fun _ _ => 0

/-- What a level shows: the resting quantities less what was drained. -/
def Account.shown (account : Account) (side : Side) (price : Int) : Int :=
  referenceDepth account.table side price - account.drained side price

/-- A CANCEL or TRADE that names no resting order and is let through. -/
def IsOrphan (acceptUnknown : Bool) (known : Option Resting) (event : MarketEvent) : Prop :=
  acceptUnknown = true ∧ known = none ∧ (event.type = .cancel ∨ event.type = .trade) ∧
    0 < event.quantity

instance (acceptUnknown : Bool) (known : Option Resting) (event : MarketEvent) :
    Decidable (IsOrphan acceptUnknown known event) :=
  inferInstanceAs (Decidable (_ ∧ _ ∧ _ ∧ _))

/-- What an event wants off a level. -/
def wanted (known : Option Resting) (event : MarketEvent) : Option Move :=
  match event.type, known with
  | .add, _ | .modify, none => none
  | .cancel, none | .trade, none => some (eventMove event)
  | .trade, some resting =>
      some ⟨resting.side, resting.price, min event.quantity resting.quantity⟩
  | .cancel, some resting | .modify, some resting =>
      some ⟨resting.side, resting.price, resting.quantity⟩

/-- The event is one the mode lets through and its level shows what it wants. -/
def Account.Accepts (account : Account) (event : MarketEvent) : Prop :=
  let known := account.table[event.orderId]?
  (referenceAccepts known event = true ∨ IsOrphan account.acceptUnknown known event) ∧
    ∀ move ∈ wanted known event, move.quantity ≤ account.shown move.side move.price

instance (account : Account) (event : MarketEvent) : Decidable (account.Accepts event) :=
  inferInstanceAs (Decidable (_ ∧ ∀ move ∈ wanted _ event, _))

/-- What an accepted event drains: nothing, unless it is an orphan. -/
def drainedBy (known : Option Resting) (event : MarketEvent) : Option Move :=
  match known with
  | none => wanted none event
  | some _ => none

def accountEvent (account : Account) (event : MarketEvent) : Bool × Account :=
  let known := account.table[event.orderId]?
  if account.Accepts event then
    (true,
      { account with
        table := put account.table event.orderId (referenceEntry known event)
        drained := fun side price =>
          account.drained side price + carried side price (drainedBy known event) })
  else (false, account)

def accountStep (account : Account) : BookCall → Option Bool × Account
  | .applyEvent event =>
      let answered := accountEvent account event
      (some answered.1, answered.2)
  | .setConfig config => (none, { account with acceptUnknown := config.acceptUnknownOrderOps })
  | .clear => (none, { acceptUnknown := account.acceptUnknown })

end Account

section Refinement

/-- The book holds the orders of the account and balances with what it drained. -/
structure Accounts (book : OrderBook) (account : Account) : Prop where
  mode : book.config.acceptUnknownOrderOps = account.acceptUnknown
  ledgered : Ledgered book account.drained
  orders : ∀ orderId : Nat,
    book.orders[orderId]? = account.table[orderId]?.map (restingOrder orderId)

variable {book : OrderBook} {account : Account}

theorem accounted_orders (accounts : Accounts book account) :
    book.orders = account.table.map restingOrder := by
  apply ExtTreeMap.ext_getElem?
  intro orderId
  rw [accounts.orders orderId, ExtTreeMap.getElem?_map]

theorem accounted_resting (accounts : Accounts book account) (side : Side) (price : Int) :
    restingAt book side price = referenceDepth account.table side price := by
  rw [restingAt, accounted_orders accounts]
  exact total_map _ _ _

theorem accounted_depth (accounts : Accounts book account) (side : Side) (price : Int) :
    depthAtPrice book side price = account.shown side price := by
  have balanced := accounts.ledgered.balanced side price
  rw [accounted_resting accounts] at balanced
  exact eq_sub_of_add_eq balanced

/-- Planning takes what the account wants and writes the entry of the reference. -/
theorem account_plan_eq (acceptUnknown : Bool) (known : Option Resting) (event : MarketEvent) :
    (planOf acceptUnknown (known.map (restingOrder event.orderId)) event).map
        (fun plan => (plan.takes, plan.entry)) =
      if referenceAccepts known event = true ∨ IsOrphan acceptUnknown known event then
        some (wanted known event, (referenceEntry known event).map (restingOrder event.orderId))
      else none := by
  cases known with
  | none =>
      cases kind : event.type <;>
        simp only [planOf, referenceAccepts, referenceEntry, wanted, IsOrphan, kind,
          Option.map_none, Option.isSome_none, decide_eq_true_eq, reduceCtorEq, false_or,
          or_false, or_true, and_false, false_and, true_and, if_false] <;>
        split_ifs <;> rfl
  | some resting =>
      have notOrphan : ¬IsOrphan acceptUnknown (some resting) event := by
        rintro ⟨_, unknown, _⟩
        cases unknown
      simp only [notOrphan, or_false]
      cases kind : event.type with
      | add => simp [planOf, referenceAccepts, kind]
      | cancel => simp [planOf, referenceAccepts, referenceEntry, wanted, kind, orderMove, restingOrder]
      | modify =>
          simp only [planOf, referenceAccepts, referenceEntry, wanted, kind, Option.map_some,
            decide_eq_true_eq]
          split_ifs <;> rfl
      | trade =>
          simp only [planOf, referenceAccepts, referenceEntry, wanted, kind, Option.map_some,
            decide_eq_true_eq, restingOrder]
          by_cases matching : 0 < event.quantity ∧ event.side = resting.side ∧
              event.price = resting.price
          · rw [if_pos matching, if_pos matching]
            by_cases filled : resting.quantity ≤ event.quantity
            · have emptied : resting.quantity - min event.quantity resting.quantity = 0 := by omega
              rw [if_pos filled, if_pos emptied]
              rfl
            · have remains : resting.quantity - min event.quantity resting.quantity ≠ 0 := by omega
              have partially : min event.quantity resting.quantity = event.quantity := by omega
              rw [if_neg filled, if_neg remains]
              simp only [partially]
              rfl
          · rw [if_neg matching, if_neg matching]
            rfl

theorem planned_takes_positive {acceptUnknown : Bool} {known : Option Order} {event : MarketEvent}
    {plan : Plan} (planned : Planned acceptUnknown event known plan)
    (sound : ∀ order ∈ known, 0 < order.quantity) : ∀ move ∈ plan.takes, 0 < move.quantity := by
  intro move taken
  cases planned with
  | adds isAdd priced positive => cases taken
  | drains isOrphan accepted positive => cases taken; exact positive
  | removes order leaves => cases taken; exact sound order rfl
  | moves order isModify priced positive => cases taken; exact sound order rfl
  | fills order isTrade positive sameSide samePrice partially => cases taken; exact positive

/-- A plan can be carried out where the levels show what it takes. -/
theorem feasible_iff_shown (accounts : Accounts book account) {event : MarketEvent} {plan : Plan}
    (planned : Planned book.config.acceptUnknownOrderOps event book.orders[event.orderId]? plan) :
    plan.Feasible book ↔
      ∀ move ∈ plan.takes, move.quantity ≤ account.shown move.side move.price := by
  have positive := planned_takes_positive planned fun order stored =>
    (accounts.ledgered.sound event.orderId order stored).quantity
  constructor
  · intro feasible move taken
    rw [← accounted_depth accounts]
    exact (feasible move taken).2
  · intro shown move taken
    refine ⟨positive move taken, ?_⟩
    rw [accounted_depth accounts]
    exact shown move taken

theorem orphan_take_eq (known : Option Resting) (orderId : Nat) (plan : Plan) {event : MarketEvent}
    (takes : plan.takes = wanted known event) :
    orphanTake (known.map (restingOrder orderId)) plan = drainedBy known event := by
  cases known with
  | none => exact takes
  | some resting => rfl

theorem apply_event_accounts (accounts : Accounts book account) (event : MarketEvent) :
    (applyEvent book event).1 = (accountEvent account event).1 ∧
      Accounts (applyEvent book event).2 (accountEvent account event).2 := by
  have sameMoves := account_plan_eq account.acceptUnknown account.table[event.orderId]? event
  rw [← accounts.orders event.orderId, ← accounts.mode] at sameMoves
  rw [apply_event_eq, accountEvent]
  cases planned : planOf book.config.acceptUnknownOrderOps book.orders[event.orderId]? event with
  | none =>
      rw [planned, Option.map_none, accounts.mode] at sameMoves
      split_ifs at sameMoves with letThrough
      have refused : ¬account.Accepts event := fun accepts => letThrough accepts.1
      rw [if_neg refused]
      exact ⟨rfl, accounts⟩
  | some plan =>
      rw [planned, Option.map_some, accounts.mode] at sameMoves
      split_ifs at sameMoves with letThrough
      have moves := Prod.mk.inj (Option.some.inj sameMoves)
      have shape := planned_of_plan _ _ _ _ planned
      have enough := feasible_iff_shown accounts shape
      rw [moves.1] at enough
      by_cases feasible : plan.Feasible book
      · have accepts : account.Accepts event := ⟨letThrough, enough.mp feasible⟩
        have executed := execute_ledgered accounts.ledgered event plan shape feasible
        rw [accounts.orders event.orderId,
          orphan_take_eq account.table[event.orderId]? event.orderId plan moves.1] at executed
        rw [carryOut, if_pos feasible, if_pos accepts]
        refine ⟨rfl, ?_, executed, ?_⟩
        · rw [execute_config, accounts.mode]
        · intro orderId
          rw [execute_lookup, lookup_put]
          split_ifs with same
          · rw [← same]
            exact moves.2
          · exact accounts.orders orderId
      · have refused : ¬account.Accepts event := fun accepts => feasible (enough.mpr accepts.2)
        rw [carryOut, if_neg feasible, if_neg refused]
        exact ⟨rfl, accounts⟩

theorem empty_accounts (config : OrderBookConfig) :
    Accounts { config := config } { acceptUnknown := config.acceptUnknownOrderOps } where
  mode := rfl
  ledgered := empty_ledgered config
  orders := by
    intro orderId
    simp

theorem call_step_accounts (accounts : Accounts book account) (call : BookCall) :
    (callStep book call).1 = (accountStep account call).1 ∧
      Accounts (callStep book call).2 (accountStep account call).2 := by
  cases call with
  | applyEvent event =>
      have stepped := apply_event_accounts accounts event
      exact ⟨congrArg some stepped.1, stepped.2⟩
  | setConfig config =>
      have ledgered := accounts.ledgered
      exact ⟨rfl, rfl, ⟨ledgered.sound, ledgered.tidy, ledgered.balanced, ledgered.drained_nonneg⟩,
        accounts.orders⟩
  | clear =>
      refine ⟨rfl, accounts.mode, empty_ledgered book.config, ?_⟩
      intro orderId
      exact (empty_accounts book.config).orders orderId

end Refinement

section Runs

variable {book : OrderBook} {account : Account}

/-- A level stands where something is left to show, with just that. -/
theorem accounted_level (accounts : Accounts book account) (side : Side) (price : Int) :
    levelAt book side price =
      if account.shown side price = 0 then none else some (account.shown side price) := by
  rw [← accounted_depth accounts, depth_at_price_eq]
  cases level : levelAt book side price with
  | none => rfl
  | some quantity =>
      have positive := (accounts.ledgered.tidy side price quantity level).1
      exact (if_neg positive.ne').symm

theorem drained_le_resting (accounts : Accounts book account) (side : Side) (price : Int) :
    0 ≤ account.drained side price ∧
      account.drained side price ≤ referenceDepth account.table side price := by
  have shown := depth_nonneg accounts.ledgered.tidy side price
  rw [accounted_depth accounts, Account.shown] at shown
  exact ⟨accounts.ledgered.drained_nonneg side price, sub_nonneg.mp shown⟩

/-- The account of a new book after these calls. -/
def accountAfter (config : OrderBookConfig) (calls : List BookCall) : Account :=
  finalState accountStep { acceptUnknown := config.acceptUnknownOrderOps } calls

theorem account_after_run (config : OrderBookConfig) (calls : List BookCall) :
    outputs callStep { config := config } calls =
        outputs accountStep { acceptUnknown := config.acceptUnknownOrderOps } calls ∧
      Accounts (finalState callStep { config := config } calls) (accountAfter config calls) := by
  have simulated := simulation_run callStep accountStep Accounts
    (fun _ _ call accounts => call_step_accounts accounts call) { config := config }
    { acceptUnknown := config.acceptUnknownOrderOps } calls (empty_accounts config)
  exact ⟨simulated.1, simulated.2.2⟩

/-- The levels are in range all the way exactly where the account shows no more. -/
theorem small_levels_iff_shown (config : OrderBookConfig) (calls : List BookCall) :
    AlwaysFits callStep SmallLevels { config := config } calls ↔
      ∀ seen, seen <+: calls → ∀ side price,
        (accountAfter config seen).shown side price < 2 ^ 63 := by
  apply forall₂_congr
  intro seen _
  apply forall₂_congr
  intro side price
  rw [accounted_depth (account_after_run config seen).2]

/-- Through any calls, in either mode and with the mode switched on the way, the additions
of the book are defined exactly while its account shows less than `2^63` on every level;
then the book answers what its account answers, holds its orders and shows on each level
what they leave undrained. -/
theorem book_answers_from_its_account (config : OrderBookConfig) (calls : List BookCall) :
    let account := accountAfter config calls
    ((∃ book, partialFinal callStep64 { config := config } calls = some book) ↔
        ∀ seen, seen <+: calls → ∀ side price,
          (accountAfter config seen).shown side price < 2 ^ 63) ∧
      ∀ book, partialFinal callStep64 { config := config } calls = some book →
        partialOutputs callStep64 { config := config } calls =
            (outputs accountStep { acceptUnknown := config.acceptUnknownOrderOps } calls).map some ∧
          book.config.acceptUnknownOrderOps = account.acceptUnknown ∧
          (∀ orderId : Nat,
            book.orders[orderId]? = account.table[orderId]?.map (restingOrder orderId)) ∧
          (∀ side price, levelAt book side price =
            if account.shown side price = 0 then none else some (account.shown side price)) ∧
          ∀ side price, 0 ≤ account.drained side price ∧
            account.drained side price ≤ referenceDepth account.table side price := by
  intro account
  have accounted : ∃ drained, Ledgered ({ config := config } : OrderBook) drained :=
    ⟨_, empty_ledgered config⟩
  have reached := partial_final_iff call_step64_restricts _ calls accounted
    (empty_small_levels config)
  rcases account_after_run config calls with ⟨answered, accounts⟩
  rw [← small_levels_iff_shown]
  constructor
  · constructor
    · rintro ⟨book, defined⟩
      exact ((reached book).mp defined).2
    · exact fun fits => ⟨_, (reached _).mpr ⟨rfl, fits⟩⟩
  · intro book defined
    rcases (reached book).mp defined with ⟨rfl, fits⟩
    refine ⟨?_, accounts.mode, accounts.orders, accounted_level accounts,
      drained_le_resting accounts⟩
    rw [partial_outputs_of_fits call_step64_restricts _ calls accounted fits, answered]

end Runs

end TickForge.AccountReference
