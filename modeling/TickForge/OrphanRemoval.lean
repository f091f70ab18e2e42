import TickForge.Int64Depth

/-!
# Known orders beside orphan reductions

A known order leaves its level only while the level shows at least the order's
quantity. Orphan reductions, and known orders leaving a level that orphans have
drained, can take that cover away; the order then rests in the table for good.
The run keeps every known order removable exactly when no step uncovers another
order and no level outgrows its 64 bits.
-/

namespace TickForge.OrphanRemoval

open KeyedTotals StepRuns PartialRuns MarketEventModel OrderBookModel OrderBookStep DepthLedger
open Int64DepthModel Int64Depth

set_option autoImplicit false

/-- The empty book that accepts operations on unknown orders. -/
def orphanBook : OrderBook := { config := { acceptUnknownOrderOps := true } }

section OneState

/-- A CANCEL of the id succeeds and clears its entry, and so does every well-formed
MODIFY that leaves the levels in range. -/
structure Removable (book : OrderBook) (orderId : Nat) : Prop where
  cancels : ∀ event : MarketEvent, event.type = .cancel → event.orderId = orderId →
    ∃ after, applyEvent64 book event = some (true, after) ∧ after.orders[orderId]? = none
  modifies : ∀ event : MarketEvent, event.type = .modify → event.orderId = orderId →
    0 ≤ event.price → 0 ≤ event.quantity → SmallLevels (applyEvent book event).2 →
    ∃ after, applyEvent64 book event = some (true, after)

theorem removal_plan (acceptUnknown : Bool) (order : Order) (event : MarketEvent)
    (isCancel : event.type = .cancel) :
    planOf acceptUnknown (some order) event = some ⟨some (orderMove order), none, none⟩ := by
  simp only [planOf, isCancel]

theorem modify_plan (acceptUnknown : Bool) (order : Order) (event : MarketEvent)
    (isModify : event.type = .modify) (priced : 0 ≤ event.price)
    (nonnegative : 0 ≤ event.quantity) :
    ∃ entry gives, planOf acceptUnknown (some order) event =
      some ⟨some (orderMove order), entry, gives⟩ := by
  simp only [planOf, isModify, if_pos (And.intro priced nonnegative)]
  split_ifs
  · exact ⟨none, none, rfl⟩
  · exact ⟨_, _, rfl⟩

/-- A known order can be removed exactly when its level covers it. -/
theorem removable_iff_covered {book : OrderBook} (tidy : TidyLevels book) (orderId : Nat)
    (order : Order) (stored : book.orders[orderId]? = some order) :
    Removable book orderId ↔ Covered book (orderMove order) := by
  constructor
  · intro removable
    rcases removable.cancels { type := .cancel, orderId := orderId } rfl rfl with
      ⟨after, cancelled, _⟩
    have exactly := apply_event64_sound cancelled
    by_contra uncovered
    rw [apply_event_eq, stored, removal_plan _ _ _ rfl,
      carry_out_uncovered _ _ _ _ _ uncovered] at exactly
    cases exactly
  · intro covered
    constructor
    · rintro event isCancel rfl
      have defined : applyEvent64 book event = some (applyEvent book event) := by
        rw [applyEvent64, applyEvent, isCancel]
      rw [defined, apply_event_eq, stored, removal_plan _ _ _ isCancel,
        carry_out_covered _ _ _ _ _ covered]
      refine ⟨_, rfl, ?_⟩
      simp only [giveMove, put_order_lookup, if_true]
    · rintro event isModify rfl priced nonnegative fits
      rcases modify_plan book.config.acceptUnknownOrderOps order event isModify priced
        nonnegative with ⟨entry, gives, planned⟩
      rw [apply_event64_fits tidy event fits, apply_event_eq, stored, planned,
        carry_out_covered _ _ _ _ _ covered]
      exact ⟨_, rfl⟩

end OneState

section OneStep

/-- Where the event is carried out, the level of every other resting order still
shows that order's quantity: displayed depth before, less what the event takes
there, plus what it gives there. -/
def SparesOthers (book : OrderBook) (event : MarketEvent) : Prop :=
  ∀ plan : Plan,
    planOf book.config.acceptUnknownOrderOps book.orders[event.orderId]? event = some plan →
    plan.Feasible book →
    ∀ (orderId : Nat) (order : Order), orderId ≠ event.orderId →
      book.orders[orderId]? = some order →
      order.quantity ≤ depthAtPrice book order.side order.price -
        carried order.side order.price plan.takes + carried order.side order.price plan.gives

def AllCovered (book : OrderBook) : Prop :=
  ∀ (orderId : Nat) (order : Order), book.orders[orderId]? = some order →
    Covered book (orderMove order)

/-- The entry an event rewrites stays covered if it was covered before. -/
theorem own_entry_covered {book : OrderBook} {drained : Side → Int → Int}
    (ledgered : Ledgered book drained) (event : MarketEvent) (plan : Plan)
    (planned : Planned book.config.acceptUnknownOrderOps event book.orders[event.orderId]? plan)
    (feasible : plan.Feasible book)
    (covered : ∀ order, book.orders[event.orderId]? = some order → Covered book (orderMove order))
    (order : Order) (entry : plan.entry = some order) :
    order.quantity ≤ depthAtPrice (execute book event.orderId plan) order.side order.price := by
  rw [execute_depth]
  have tidy := depth_nonneg ledgered.tidy
  generalize book.orders[event.orderId]? = known at planned covered
  have given : carried event.side event.price (some (eventMove event)) = event.quantity :=
    if_pos ⟨rfl, rfl⟩
  cases planned with
  | adds isAdd priced positive =>
      cases entry
      have held := tidy event.side event.price
      change event.quantity ≤ depthAtPrice book event.side event.price - 0 +
        carried event.side event.price (some (eventMove event))
      omega
  | drains isOrphan accepted positive => cases entry
  | removes held leaves => cases entry
  | moves held isModify priced positive =>
      cases entry
      have left := depth_nonneg (tidy_withdraw ledgered.tidy _ (covered held rfl))
        event.side event.price
      rw [depth_withdraw] at left
      change event.quantity ≤ depthAtPrice book event.side event.price -
        carried event.side event.price (some (orderMove held)) +
        carried event.side event.price (some (eventMove event))
      omega
  | fills held isTrade positive sameSide samePrice partially =>
      cases entry
      have deep : held.quantity ≤ depthAtPrice book held.side held.price := (covered held rfl).2
      change held.quantity - event.quantity ≤ depthAtPrice book held.side held.price -
        carried held.side held.price (some (eventMove event)) + 0
      rw [← sameSide, ← samePrice] at deep ⊢
      omega

/-- One step leaves every order covered exactly when it spares the others. -/
theorem step_covered_iff {book : OrderBook} {drained : Side → Int → Int}
    (ledgered : Ledgered book drained) (covered : AllCovered book) (event : MarketEvent) :
    SparesOthers book event ↔ AllCovered (applyEvent book event).2 := by
  rcases apply_event_cases book event with refused | ⟨plan, planned, feasible, executed⟩
  · have nothing : SparesOthers book event := by
      intro plan planned feasible
      rw [apply_event_eq, planned, carryOut, if_pos feasible] at refused
      cases refused
    rw [refused]
    exact ⟨fun _ => covered, fun _ => nothing⟩
  · have shape := planned_of_plan _ _ _ _ planned
    have sound := (execute_ledgered ledgered event plan shape feasible).sound
    rw [executed]
    constructor
    · intro spares orderId order stored
      refine ⟨(sound orderId order stored).quantity, ?_⟩
      rw [execute_lookup] at stored
      split_ifs at stored with own
      · exact own_entry_covered ledgered event plan shape feasible
          (fun held found => covered _ held found) order stored
      · have spared := spares plan planned feasible orderId order (Ne.symm own) stored
        rwa [← execute_depth] at spared
    · intro stillCovered other otherPlanned _ orderId order apart stored
      cases Option.some.inj (planned.symm.trans otherPlanned)
      have kept : (execute book event.orderId plan).orders[orderId]? = some order := by
        rw [execute_lookup, if_neg (Ne.symm apart), stored]
      have deep := (stillCovered orderId order kept).2
      simpa only [orderMove, execute_depth] using deep

end OneStep

section Runs

theorem orphan_run_ledgered (events : List MarketEvent) :
    ∃ drained, Ledgered (finalState applyEvent orphanBook events) drained :=
  run_ledgered ⟨_, empty_ledgered { acceptUnknownOrderOps := true }⟩ events

/-- Every step of the run spares the orders it does not name. -/
def SparingRun (events : List MarketEvent) : Prop :=
  ∀ before event after, events = before ++ event :: after →
    SparesOthers (finalState applyEvent orphanBook before) event

theorem sparing_run_covered (events : List MarketEvent) :
    SparingRun events ↔ ∀ before after, events = before ++ after →
      AllCovered (finalState applyEvent orphanBook before) := by
  constructor
  · intro spares before
    induction before using List.reverseRecOn with
    | nil =>
        intro after _ orderId order stored
        cases stored
    | append_singleton earlier event ih =>
        intro after whole
        have split : events = earlier ++ event :: after := by simpa using whole
        obtain ⟨drained, ledgered⟩ := orphan_run_ledgered earlier
        rw [final_state_append]
        exact (step_covered_iff ledgered (ih (event :: after) split) event).mp
          (spares earlier event after split)
  · intro covered before event after whole
    obtain ⟨drained, ledgered⟩ := orphan_run_ledgered before
    apply (step_covered_iff ledgered (covered before _ whole) event).mpr
    have stepped := covered (before ++ [event]) after (by simpa using whole)
    rwa [final_state_append] at stepped

/-- In a run with orphan operations accepted, every addition is defined and every resting
order can be cancelled and modified in every state reached exactly when every step spares
the orders it does not name and every level stays below `2^63`. -/
theorem known_orders_removable_iff_run_sparing (events : List MarketEvent) :
    (∀ before after, events = before ++ after → ∃ book, run64 orphanBook before = some book ∧
      ∀ (orderId : Nat) (order : Order), book.orders[orderId]? = some order →
        Removable book orderId) ↔
    SparingRun events ∧ LevelsFit orphanBook events := by
  have accounted : ∃ drained, Ledgered orphanBook drained := orphan_run_ledgered []
  have small : SmallLevels orphanBook := empty_small_levels { acceptUnknownOrderOps := true }
  rw [sparing_run_covered]
  constructor
  · intro removable
    constructor
    · intro before after whole orderId order stored
      rcases orphan_run_ledgered before with ⟨drained, ledgered⟩
      rcases removable before after whole with ⟨book, reached, all⟩
      rcases (run64_iff accounted small before book).mp reached with ⟨rfl, _⟩
      exact (removable_iff_covered ledgered.tidy orderId order stored).mp
        (all orderId order stored)
    · rcases removable events [] (List.append_nil events).symm with ⟨book, reached, _⟩
      exact ((run64_iff accounted small events book).mp reached).2
  · rintro ⟨covered, fits⟩ before after whole
    have reached := run64_of_levels_fit accounted (fits.before ⟨after, whole.symm⟩)
    refine ⟨_, reached, ?_⟩
    intro orderId order stored
    rcases orphan_run_ledgered before with ⟨drained, ledgered⟩
    exact (removable_iff_covered ledgered.tidy orderId order stored).mpr
      (covered before after whole orderId order stored)

/-- An orphan CANCEL takes 12 off the level of a resting order of 30; the order still
rests and its own CANCEL is refused. -/
theorem drained_order_cannot_be_cancelled :
    let entered : MarketEvent := { orderId := 1, side := .buy, price := 10000, quantity := 30 }
    let orphan : MarketEvent :=
      { type := .cancel, orderId := 999, side := .buy, price := 10000, quantity := 12 }
    let removal : MarketEvent := { type := .cancel, orderId := 1 }
    answers64 orphanBook [entered, orphan, removal] = [some true, some true, some false] ∧
      ¬ ∀ before after, [entered, orphan] = before ++ after →
        ∃ book, run64 orphanBook before = some book ∧
          ∀ (orderId : Nat) (order : Order), book.orders[orderId]? = some order →
            Removable book orderId := by
  intro entered orphan removal
  refine ⟨by decide, ?_⟩
  intro removable
  rcases removable [entered, orphan] [] rfl with ⟨book, reached, all⟩
  have resting : (run64 orphanBook [entered, orphan]).bind (fun book => book.orders[1]?) =
      some ⟨1, .buy, 10000, 30⟩ := by decide
  have refused : ((run64 orphanBook [entered, orphan]).bind fun book =>
      (applyEvent64 book removal).map Prod.fst) = some false := by decide
  rw [reached, Option.bind_some] at resting refused
  rcases (all 1 _ resting).cancels removal rfl rfl with ⟨after, cancelled, _⟩
  rw [cancelled] at refused
  cases refused

end Runs

end TickForge.OrphanRemoval
