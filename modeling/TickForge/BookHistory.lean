import TickForge.OrphanRemoval
import TickForge.StrictReference

/-!
# What a book keeps of its history

The mode makes itself felt where an orphan reduction is accepted and nowhere
else. A strict book keeps of its events the resting orders only: entered anew in
any order they are the same book.
-/

namespace TickForge.BookHistory

open Std (ExtTreeMap)
open KeyedTotals StepRuns MarketEventModel OrderBookModel OrderBookStep DepthLedger StrictReference
open OrphanRemoval

set_option autoImplicit false

section Modes

/-- The book with orphan operations switched on. -/
def acceptingOrphans (book : OrderBook) : OrderBook :=
  setConfig book { acceptUnknownOrderOps := true }

theorem depth_accepting (book : OrderBook) (side : Side) (price : Int) :
    depthAtPrice (acceptingOrphans book) side price = depthAtPrice book side price := by
  cases side <;> rfl

theorem feasible_accepting (book : OrderBook) (plan : Plan) :
    plan.Feasible (acceptingOrphans book) ↔ plan.Feasible book := by
  unfold Plan.Feasible Covered
  simp only [depth_accepting]

theorem put_level_accepting (book : OrderBook) (side : Side) (price : Int) (entry : Option Int) :
    putLevel (acceptingOrphans book) side price entry =
      acceptingOrphans (putLevel book side price entry) := by
  cases side <;> rfl

theorem execute_accepting (book : OrderBook) (orderId : Nat) (plan : Plan) :
    execute (acceptingOrphans book) orderId plan =
      acceptingOrphans (execute book orderId plan) := by
  have taken : takeMove (acceptingOrphans book) plan.takes =
      acceptingOrphans (takeMove book plan.takes) := by
    cases plan.takes with
    | none => rfl
    | some move =>
        rw [takeMove, takeMove, withdraw, withdraw, depth_accepting, put_level_accepting]
  have given : ∀ stored : OrderBook, giveMove (acceptingOrphans stored) plan.gives =
      acceptingOrphans (giveMove stored plan.gives) := by
    intro stored
    cases plan.gives with
    | none => rfl
    | some move => rw [giveMove, giveMove, deposit, deposit, depth_accepting, put_level_accepting]
  rw [execute, execute, taken, ← given]
  rfl

theorem carry_out_accepting (book : OrderBook) (orderId : Nat) (plan : Option Plan) :
    carryOut (acceptingOrphans book) orderId plan =
      ((carryOut book orderId plan).1, acceptingOrphans (carryOut book orderId plan).2) := by
  cases plan with
  | none => rfl
  | some plan =>
      simp only [carryOut, feasible_accepting, execute_accepting]
      split_ifs <;> rfl

/-- The two modes plan alike, but for a reduction that names no resting order. -/
theorem plan_modes (known : Option Order) (event : MarketEvent) :
    planOf true known event = planOf false known event ∨
      (known = none ∧ (event.type = .cancel ∨ event.type = .trade) ∧
        planOf false known event = none ∧
        planOf true known event = some ⟨some (eventMove event), none, none⟩) := by
  cases known with
  | some order =>
      left
      cases kind : event.type <;> simp only [planOf, kind]
  | none =>
      cases kind : event.type with
      | add => simp [planOf, kind]
      | modify => simp [planOf, kind]
      | cancel => by_cases positive : 0 < event.quantity <;> simp [planOf, kind, positive]
      | trade => by_cases positive : 0 < event.quantity <;> simp [planOf, kind, positive]

variable {book : OrderBook}

/-- One event either fares the same in both modes, or the strict book refuses it and
the other one drains a level for it. -/
theorem event_modes (strict : book.config.acceptUnknownOrderOps = false) (event : MarketEvent) :
    (acceptedOrphan (acceptingOrphans book) event = none ∧
      applyEvent (acceptingOrphans book) event =
        ((applyEvent book event).1, acceptingOrphans (applyEvent book event).2)) ∨
    (acceptedOrphan (acceptingOrphans book) event = some (eventMove event) ∧
      applyEvent book event = (false, book) ∧
      (applyEvent (acceptingOrphans book) event).1 = true) := by
  have accepting : applyEvent (acceptingOrphans book) event = carryOut (acceptingOrphans book)
      event.orderId (planOf true book.orders[event.orderId]? event) :=
    apply_event_eq (acceptingOrphans book) event
  have refusing := apply_event_eq book event
  rw [strict] at refusing
  rcases plan_modes book.orders[event.orderId]? event with
    same | ⟨unknown, isOrphan, noPlan, drains⟩
  · left
    rw [same, carry_out_accepting, ← refusing] at accepting
    refine ⟨?_, accepting⟩
    by_contra drained
    simp only [acceptedOrphan, ite_eq_right_iff, reduceCtorEq, imp_false, not_not] at drained
    rw [accepting, refusing] at drained
    rcases drained with ⟨isOrphan, unknown, accepted⟩
    have unknownHere : book.orders[event.orderId]? = none := unknown
    rw [unknownHere] at accepted
    rcases isOrphan with isCancel | isTrade
    · simp [planOf, isCancel, carryOut] at accepted
    · simp [planOf, isTrade, carryOut] at accepted
  · rw [drains] at accepting
    rw [noPlan] at refusing
    have unknownThere : (acceptingOrphans book).orders[event.orderId]? = none := unknown
    by_cases covered : Covered (acceptingOrphans book) (eventMove event)
    · right
      rw [carry_out_covered _ _ _ _ _ covered] at accepting
      refine ⟨?_, refusing, congrArg Prod.fst accepting⟩
      exact if_pos ⟨isOrphan, unknownThere, congrArg Prod.fst accepting⟩
    · left
      rw [carry_out_uncovered _ _ _ _ _ covered] at accepting
      constructor
      · apply if_neg
        rintro ⟨_, _, accepted⟩
        rw [accepting] at accepted
        cases accepted
      · rw [accepting, refusing]
        rfl

/-- No orphan reduction of the run is accepted. -/
def NoOrphanAccepted (events : List MarketEvent) : Prop :=
  ∀ before event after, events = before ++ event :: after →
    acceptedOrphan (finalState applyEvent orphanBook before) event = none

theorem no_orphan_snoc (events : List MarketEvent) (event : MarketEvent) :
    NoOrphanAccepted (events ++ [event]) ↔
      NoOrphanAccepted events ∧ acceptedOrphan (finalState applyEvent orphanBook events) event =
        none := by
  constructor
  · intro none
    refine ⟨?_, none events event [] rfl⟩
    intro before other after split
    apply none before other (after ++ [event])
    rw [split, List.append_assoc, List.cons_append]
  · rintro ⟨earlier, last⟩ before other after split
    rcases List.eq_nil_or_concat after with rfl | ⟨rest, final, rfl⟩
    · have ends := List.append_inj' split rfl
      rw [← ends.1, ← List.singleton_inj.mp ends.2]
      exact last
    · have regrouped : events ++ [event] = (before ++ other :: rest) ++ [final] := by
        rw [split, List.append_assoc, List.cons_append, List.concat_eq_append]
      exact earlier before other rest (List.append_inj' regrouped rfl).1

/-- Up to the first accepted orphan reduction the two runs go together. -/
theorem runs_together (events : List MarketEvent) (noOrphan : NoOrphanAccepted events) :
    outputs applyEvent {} events = outputs applyEvent orphanBook events ∧
      finalState applyEvent orphanBook events =
        acceptingOrphans (finalState applyEvent {} events) := by
  induction events using List.reverseRecOn with
  | nil => exact ⟨rfl, rfl⟩
  | append_singleton earlier event ih =>
      rcases (no_orphan_snoc earlier event).mp noOrphan with ⟨before, last⟩
      rcases ih before with ⟨sameAnswers, sameBook⟩
      have strict := (strict_run_refines earlier).2.2.strict
      rw [sameBook] at last
      rcases event_modes strict event with ⟨_, together⟩ | ⟨drained, _⟩
      · simp only [outputs_append, final_state_append, sameAnswers, sameBook, outputs,
          final_state_cons, final_state_nil, together, and_self]
      · rw [last] at drained
        cases drained

/-- The two modes give the same answers exactly where no orphan reduction is
accepted, and then their books differ in nothing but the mode. -/
theorem modes_agree_iff_no_orphan_accepted (events : List MarketEvent) :
    (outputs applyEvent {} events = outputs applyEvent orphanBook events ↔
        NoOrphanAccepted events) ∧
      (NoOrphanAccepted events → finalState applyEvent orphanBook events =
        acceptingOrphans (finalState applyEvent {} events)) := by
  refine ⟨⟨?_, fun noOrphan => (runs_together events noOrphan).1⟩,
    fun noOrphan => (runs_together events noOrphan).2⟩
  induction events using List.reverseRecOn with
  | nil =>
      intro _ before event after split
      exact absurd split (by simp)
  | append_singleton earlier event ih =>
      intro sameAnswers
      simp only [outputs_append, outputs] at sameAnswers
      have answers := List.append_inj' sameAnswers rfl
      have noOrphan := ih answers.1
      rw [no_orphan_snoc]
      refine ⟨noOrphan, ?_⟩
      have strict := (strict_run_refines earlier).2.2.strict
      have sameBook := (runs_together earlier noOrphan).2
      have sameAnswer := List.singleton_inj.mp answers.2
      rw [sameBook] at sameAnswer ⊢
      rcases event_modes strict event with ⟨none, _⟩ | ⟨_, refused, accepted⟩
      · exact none
      · rw [refused, accepted] at sameAnswer
        cases sameAnswer

end Modes

section Entries

/-- The orders of a book in the order of their ids. -/
def restingOrders (book : OrderBook) : List Order := book.orders.toList.map Prod.snd

/-- The events enter the orders of the book, each once, in any order and at any time. -/
structure EntersOrders (book : OrderBook) (entries : List MarketEvent) : Prop where
  adds : ∀ entry ∈ entries, entry.type = .add
  orders : (entries.map eventOrder).Perm (restingOrders book)

variable {book : OrderBook} {table : RestingTable} {entries : List MarketEvent}

/-- An id names the order resting under it, or none. -/
theorem own_orders (refines : Refines book table) (orderId : Nat) :
    ((restingOrders book).filter fun order => order.orderId = orderId).Perm
      book.orders[orderId]?.toList := by
  have ids : ∀ entry ∈ book.orders.toList, entry.2.orderId = entry.1 := by
    intro entry listed
    have stored := ExtTreeMap.mem_toList_iff_getElem?_eq_some.mp listed
    exact (refines.ledgered.sound entry.1 entry.2 stored).id
  rw [restingOrders, List.filter_map]
  cases known : book.orders[orderId]? with
  | none =>
      have absent : book.orders.toList.filter
          ((fun order => decide (order.orderId = orderId)) ∘ Prod.snd) = [] := by
        apply List.filter_eq_nil_iff.mpr
        intro entry listed isOwn
        have stored := ExtTreeMap.mem_toList_iff_getElem?_eq_some.mp listed
        have same : entry.1 = orderId := (ids entry listed).symm.trans (of_decide_eq_true isOwn)
        rw [same, known] at stored
        cases stored
      rw [absent]
      exact .nil
  | some order =>
      have drawn := toList_perm_cons_erase book.orders orderId order known
      have others : (book.orders.erase orderId).toList.filter
          ((fun order => decide (order.orderId = orderId)) ∘ Prod.snd) = [] := by
        apply List.filter_eq_nil_iff.mpr
        intro entry listed isOwn
        have listedBefore := drawn.symm.subset (List.mem_cons_of_mem _ listed)
        have same : entry.1 = orderId :=
          (ids entry listedBefore).symm.trans (of_decide_eq_true isOwn)
        have stored := ExtTreeMap.mem_toList_iff_getElem?_eq_some.mp listed
        rw [lookup_erase, if_pos same.symm] at stored
        cases stored
      have isOwn : ((fun order => decide (order.orderId = orderId)) ∘ Prod.snd)
          (orderId, order) = true := by
        exact decide_eq_true (refines.ledgered.sound orderId order known).id
      have kept := drawn.filter ((fun order => decide (order.orderId = orderId)) ∘ Prod.snd)
      rw [List.filter_cons_of_pos isOwn, others] at kept
      exact kept.map Prod.snd

/-- Among the entries an id finds its resting order alone, or nothing. -/
theorem own_entries (refines : Refines book table) (enters : EntersOrders book entries)
    (orderId : Nat) :
    ((entries.filter fun entry => entry.orderId = orderId).map eventOrder).Perm
      book.orders[orderId]?.toList := by
  have named := enters.orders.filter fun order => order.orderId = orderId
  rw [List.filter_map] at named
  exact named.trans (own_orders refines orderId)

/-- The events of one id enter its order or do nothing, and are accepted. -/
theorem own_entries_run (refines : Refines book table) (enters : EntersOrders book entries)
    (orderId : Nat) :
    finalState referenceEntryStep none (entries.filter fun entry => entry.orderId = orderId) =
        table[orderId]? ∧
      ∀ pair ∈ trace referenceEntryStep none
        (entries.filter fun entry => entry.orderId = orderId), pair.2 = true := by
  have own := own_entries refines enters orderId
  cases known : table[orderId]? with
  | none =>
      rw [refines.orders orderId, known] at own
      have nothing := List.map_eq_nil_iff.mp (List.perm_nil.mp own)
      rw [nothing]
      exact ⟨rfl, fun pair listed => absurd listed List.not_mem_nil⟩
  | some resting =>
      have stored : book.orders[orderId]? = some (restingOrder orderId resting) := by
        rw [refines.orders orderId, known, Option.map_some]
      rw [stored] at own
      rcases List.map_eq_singleton_iff.mp (List.perm_singleton.mp own) with ⟨entry, alone, enteredOrder⟩
      have listed : entry ∈ entries := by
        have kept : entry ∈ entries.filter fun entry => entry.orderId = orderId := by
          rw [alone]
          exact List.mem_singleton_self entry
        exact List.mem_of_mem_filter kept
      have isAdd := enters.adds entry listed
      have sound := refines.ledgered.sound orderId _ stored
      have fields := enteredOrder
      simp only [eventOrder, restingOrder, Order.mk.injEq] at fields
      rcases fields with ⟨-, side, price, quantity⟩
      have priced : 0 ≤ resting.price := sound.price
      have positive : 0 < resting.quantity := sound.quantity
      have step : referenceEntryStep none entry = (true, some resting) := by
        simp only [referenceEntryStep, referenceAccepts, referenceEntry, isAdd, side, price, quantity,
          priced, positive, and_self, decide_true, if_true]
      rw [alone]
      constructor
      · rw [final_state_cons, step, final_state_nil]
      · intro pair inTrace
        rw [trace, step, trace, List.mem_singleton] at inTrace
        rw [inTrace]

/-- A strict book is the book of its resting orders: entered into an empty book in any
order and at any times, all are accepted and the book is the same, so no answer ever
after depends on how it came about. -/
theorem strict_book_forgets_its_history (events entries : List MarketEvent)
    (enters : EntersOrders (finalState applyEvent {} events) entries) :
    (∀ answer ∈ outputs applyEvent {} entries, answer = true) ∧
      finalState applyEvent {} entries = finalState applyEvent {} events := by
  have refines := (strict_run_refines events).2.2
  have entered := strict_run_refines entries
  have sameTable : finalState referenceStep ∅ entries = finalState referenceStep ∅ events := by
    apply ExtTreeMap.ext_getElem?
    intro orderId
    rw [reference_final_lookup]
    exact (own_entries_run refines enters orderId).1
  refine ⟨?_, refines_unique entered.2.2 (sameTable ▸ refines)⟩
  intro answer answered
  rw [entered.1, ← trace_outputs] at answered
  rcases List.mem_map.mp answered with ⟨pair, inTrace, rfl⟩
  have own : pair ∈ (trace referenceStep ∅ entries).filter
      fun other => other.1.orderId = pair.1.orderId := by
    exact List.mem_filter.mpr ⟨inTrace, decide_eq_true rfl⟩
  have filtered := keyed_trace_filter MarketEvent.orderId referenceEntryStep
    (∅ : RestingTable) entries pair.1.orderId
  exact (own_entries_run refines enters pair.1.orderId).2 pair (filtered ▸ own)

/-- A bid comes, grows and is partly filled; its order entered anew makes the same book. -/
theorem filled_bid_forgets_its_history :
    let events : List MarketEvent :=
      [{ orderId := 7, side := .buy, price := 100, quantity := 5 },
        { timestampNs := 1, type := .modify, orderId := 7, side := .buy, price := 101, quantity := 9 },
        { timestampNs := 2, type := .trade, orderId := 7, side := .buy, price := 101, quantity := 2 }]
    let entries : List MarketEvent :=
      [{ timestampNs := 3, orderId := 7, side := .buy, price := 101, quantity := 7 }]
    (∀ answer ∈ outputs applyEvent {} entries, answer = true) ∧
      finalState applyEvent {} entries = finalState applyEvent {} events := by
  intro events entries
  apply strict_book_forgets_its_history
  constructor
  · decide
  · have same : entries.map eventOrder = restingOrders (finalState applyEvent {} events) := by
      decide
    rw [same]

end Entries

end TickForge.BookHistory
