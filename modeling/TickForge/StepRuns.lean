import TickForge.KeyedTotals
import Mathlib.Data.List.Basic
import Mathlib.Logic.Relation
import Mathlib.Order.Monotone.Basic

/-!
# Runs of deterministic step functions

A step function reads one input, answers with an output and moves to the next
state. An invariant or a simulation is shown for one step and then holds along
every run. A keyed machine steps one table entry at a time; what it does to a
key depends on that key's inputs alone. A step relation, for systems that choose
their steps, follows the same invariant rule. An endless run with a bound on its work
ends up retrying; where steps use up a measure, their number is bounded.
-/

namespace TickForge.StepRuns

open Std (ExtTreeMap TransCmp LawfulEqCmp)
open KeyedTotals

set_option autoImplicit false

variable {State Model Input Output : Type*}

def finalState (step : State → Input → Output × State) : State → List Input → State
  | state, [] => state
  | state, input :: rest => finalState step (step state input).2 rest

def outputs (step : State → Input → Output × State) : State → List Input → List Output
  | _, [] => []
  | state, input :: rest => (step state input).1 :: outputs step (step state input).2 rest

/-- Every input beside the answer it got. -/
def trace (step : State → Input → Output × State) :
    State → List Input → List (Input × Output)
  | _, [] => []
  | state, input :: rest =>
      (input, (step state input).1) :: trace step (step state input).2 rest

section Runs

variable (step : State → Input → Output × State)

@[simp] theorem final_state_nil (state : State) : finalState step state [] = state := rfl

@[simp] theorem final_state_cons (state : State) (input : Input) (rest : List Input) :
    finalState step state (input :: rest) = finalState step (step state input).2 rest := rfl

theorem final_state_append (state : State) (first second : List Input) :
    finalState step state (first ++ second) =
      finalState step (finalState step state first) second := by
  induction first generalizing state with
  | nil => rfl
  | cons input rest ih => exact ih (step state input).2

theorem outputs_append (state : State) (first second : List Input) :
    outputs step state (first ++ second) =
      outputs step state first ++ outputs step (finalState step state first) second := by
  induction first generalizing state with
  | nil => rfl
  | cons input rest ih =>
      simp only [List.cons_append, outputs, final_state_cons, ih (step state input).2]

theorem trace_inputs (state : State) (inputs : List Input) :
    (trace step state inputs).map Prod.fst = inputs := by
  induction inputs generalizing state with
  | nil => rfl
  | cons input rest ih => simp only [trace, List.map_cons, ih (step state input).2]

theorem trace_outputs (state : State) (inputs : List Input) :
    (trace step state inputs).map Prod.snd = outputs step state inputs := by
  induction inputs generalizing state with
  | nil => rfl
  | cons input rest ih => simp only [trace, List.map_cons, outputs, ih (step state input).2]

theorem trace_eq_zip (state : State) (inputs : List Input) :
    trace step state inputs = inputs.zip (outputs step state inputs) := by
  induction inputs generalizing state with
  | nil => rfl
  | cons input rest ih => simp only [trace, outputs, List.zip_cons_cons, ih (step state input).2]

theorem trace_append (state : State) (first second : List Input) :
    trace step state (first ++ second) =
      trace step state first ++ trace step (finalState step state first) second := by
  induction first generalizing state with
  | nil => rfl
  | cons input rest ih =>
      simp only [List.cons_append, trace, final_state_cons, ih (step state input).2]

/-- The invariant rule: what every step keeps, every run keeps. -/
theorem invariant_run (Holds : State → Prop)
    (preserved : ∀ state input, Holds state → Holds (step state input).2)
    (state : State) (inputs : List Input) (initially : Holds state) :
    Holds (finalState step state inputs) := by
  induction inputs generalizing state with
  | nil => exact initially
  | cons input rest ih => exact ih (step state input).2 (preserved state input initially)

/-- The invariant rule for runs whose inputs all satisfy a condition. -/
theorem invariant_allowed_run (Allowed : Input → Prop) (Holds : State → Prop)
    (preserved : ∀ state input, Allowed input → Holds state → Holds (step state input).2)
    (state : State) (inputs : List Input) (allowed : ∀ input ∈ inputs, Allowed input)
    (initially : Holds state) : Holds (finalState step state inputs) := by
  induction inputs generalizing state with
  | nil => exact initially
  | cons input rest ih =>
      apply ih
      · intro later member
        exact allowed later (List.mem_cons_of_mem input member)
      · exact preserved state input (allowed input List.mem_cons_self) initially

variable (modelStep : Model → Input → Output × Model)

/-- The simulation rule: related states that answer alike and stay related
answer alike along every run and end related. -/
theorem simulation_run (Related : State → Model → Prop)
    (simulates : ∀ state model input, Related state model →
      (step state input).1 = (modelStep model input).1 ∧
        Related (step state input).2 (modelStep model input).2)
    (state : State) (model : Model) (inputs : List Input) (initially : Related state model) :
    outputs step state inputs = outputs modelStep model inputs ∧
      trace step state inputs = trace modelStep model inputs ∧
      Related (finalState step state inputs) (finalState modelStep model inputs) := by
  induction inputs generalizing state model with
  | nil => exact ⟨rfl, rfl, initially⟩
  | cons input rest ih =>
      obtain ⟨sameAnswer, stillRelated⟩ := simulates state model input initially
      obtain ⟨sameOutputs, sameTrace, ending⟩ := ih _ _ stillRelated
      refine ⟨?_, ?_, ending⟩
      · simp only [outputs, sameAnswer, sameOutputs]
      · simp only [trace, sameAnswer, sameTrace]

/-- The isolation rule: where the inputs outside leave no trace in what is related, a
run answers the inputs inside as the run of these alone does. -/
theorem isolated_run (Allowed : Input → Prop) (inside : Input → Bool)
    (Related : State → State → Prop)
    (within : ∀ state part input, Allowed input → inside input = true → Related state part →
      (step state input).1 = (step part input).1 ∧ Related (step state input).2 (step part input).2)
    (without : ∀ state part input, Allowed input → inside input = false → Related state part →
      Related (step state input).2 part)
    (state part : State) (inputs : List Input) (allowed : ∀ input ∈ inputs, Allowed input)
    (initially : Related state part) :
    (trace step state inputs).filter (fun pair => inside pair.1) =
        trace step part (inputs.filter inside) ∧
      Related (finalState step state inputs) (finalState step part (inputs.filter inside)) := by
  induction inputs generalizing state part with
  | nil => exact ⟨rfl, initially⟩
  | cons input rest ih =>
      rw [List.forall_mem_cons] at allowed
      rw [trace, List.filter_cons, List.filter_cons, final_state_cons]
      cases isInside : inside input with
      | true =>
          have stepped := within state part input allowed.1 isInside initially
          have later := ih _ _ allowed.2 stepped.2
          simp only [if_true, trace, final_state_cons, stepped.1, later.1]
          exact ⟨trivial, later.2⟩
      | false =>
          have later := ih _ _ allowed.2 (without state part input allowed.1 isInside initially)
          simp only [Bool.false_eq_true, if_false]
          exact later

end Runs

section Relations

variable {step : State → State → Prop}

/-- The invariant rule for a step relation. -/
theorem invariant_reached (Holds : State → Prop)
    (preserved : ∀ state next, Holds state → step state next → Holds next)
    {start state : State} (initially : Holds start)
    (reached : Relation.ReflTransGen step start state) : Holds state := by
  induction reached with
  | refl => exact initially
  | tail _ stepped ih => exact preserved _ _ ih stepped

/-- The states of an endless run are reached from its first. -/
theorem run_reaches (run : Nat → State) (steps : ∀ n, step (run n) (run (n + 1))) (n : Nat) :
    Relation.ReflTransGen step (run 0) (run n) := by
  induction n with
  | zero => exact .refl
  | succ n ih => exact ih.tail (steps n)

/-- Where every step either adds to a bounded amount of work or is a retry that
undoes none, all steps from some point on are retries. -/
theorem run_settles (Retry : State → State → Prop) (work : State → Nat) (bound : Nat)
    (run : Nat → State) (bounded : ∀ n, work (run n) ≤ bound)
    (works : ∀ n, work (run n) < work (run (n + 1)) ∨
      (work (run n) ≤ work (run (n + 1)) ∧ Retry (run n) (run (n + 1)))) :
    ∃ settled, ∀ n, settled ≤ n → Retry (run n) (run (n + 1)) := by
  have monotone : Monotone fun n => work (run n) := by
    apply monotone_nat_of_le_succ
    intro n
    rcases works n with worked | retried
    · exact worked.le
    · exact retried.1
  -- The work still open after step `n` bounds how often work is yet to be done.
  have settles : ∀ left n, bound ≤ work (run n) + left →
      ∃ settled, ∀ later, settled ≤ later → Retry (run later) (run (later + 1)) := by
    intro left
    induction left with
    | zero =>
        intro n spent
        refine ⟨n, ?_⟩
        intro later reached
        have kept : work (run n) ≤ work (run later) := monotone reached
        rcases works later with worked | retried
        · have limit := bounded (later + 1)
          omega
        · exact retried.2
    | succ left ih =>
        intro n remaining
        by_cases quiet : ∀ later, n ≤ later → Retry (run later) (run (later + 1))
        · exact ⟨n, quiet⟩
        · push Not at quiet
          obtain ⟨later, reached, noRetry⟩ := quiet
          have kept : work (run n) ≤ work (run later) := monotone reached
          rcases works later with worked | retried
          · exact ih (later + 1) (by omega)
          · exact absurd retried.2 noRetry
  exact settles bound 0 (Nat.le_add_left _ _)

/-- Where every state comes to an end or gets some of a bounded amount of work done,
every state comes to an end. -/
theorem reaches_final (Holds Final : State → Prop) (work : State → Nat) (bound : Nat)
    (bounded : ∀ state, Holds state → work state ≤ bound)
    (kept : ∀ state next, Holds state → Relation.ReflTransGen step state next → Holds next)
    (advances : ∀ state, Holds state →
      (∃ last, Relation.ReflTransGen step state last ∧ Final last) ∨
        ∃ next, Relation.ReflTransGen step state next ∧ work state < work next)
    (state : State) (holds : Holds state) :
    ∃ last, Relation.ReflTransGen step state last ∧ Final last := by
  -- The induction is on the work still open.
  have finishes : ∀ left state, Holds state → bound ≤ work state + left →
      ∃ last, Relation.ReflTransGen step state last ∧ Final last := by
    intro left
    induction left with
    | zero =>
        intro state holds spent
        rcases advances state holds with ends | ⟨next, run, worked⟩
        · exact ends
        · have limit := bounded next (kept state next holds run)
          omega
    | succ left ih =>
        intro state holds remaining
        rcases advances state holds with ends | ⟨next, run, worked⟩
        · exact ends
        · obtain ⟨last, later, final⟩ := ih next (kept state next holds run) (by omega)
          exact ⟨last, run.trans later, final⟩
  exact finishes bound state holds (Nat.le_add_left _ _)

/-- The termination rule: where every step lowers a measure and none is missing short of a
final state, a final state can be reached. -/
theorem falls_to_final (Holds Final : State → Prop) (measure : State → Nat)
    (falls : ∀ state next, Holds state → step state next →
      Holds next ∧ measure next < measure state)
    (progress : ∀ state, Holds state → Final state ∨ ∃ next, step state next)
    {state : State} (holds : Holds state) :
    ∃ last, Relation.ReflTransGen step state last ∧ Final last := by
  induction left : measure state using Nat.strong_induction_on generalizing state with
  | _ count ih =>
      rcases progress state holds with final | ⟨next, stepped⟩
      · exact ⟨state, .refl, final⟩
      · rcases falls state next holds stepped with ⟨kept, lower⟩
        rcases ih (measure next) (left ▸ lower) kept rfl with ⟨last, run, final⟩
        exact ⟨last, .head stepped run, final⟩

end Relations

section Counting

variable (step free : State → State → Prop)

/-- A run from `start`, with the number of its steps and of its free steps. -/
inductive CountedRun (start : State) : Nat → Nat → State → Prop where
  | start : CountedRun start 0 0 start
  | steps {count freeCount : Nat} {state next : State}
      (run : CountedRun start count freeCount state) (stepped : step state next) :
      CountedRun start (count + 1) freeCount next
  | frees {count freeCount : Nat} {state next : State}
      (run : CountedRun start count freeCount state) (stepped : free state next) :
      CountedRun start count (freeCount + 1) next

/-- Where every step lowers a measure and a free step raises it by no more than
`gain`, the free steps bound the others. -/
theorem counted_run_bounded (Holds : State → Prop) (measure : State → Nat) (gain : Nat)
    (steps : ∀ state next, Holds state → step state next →
      Holds next ∧ measure next < measure state)
    (frees : ∀ state next, Holds state → free state next →
      Holds next ∧ measure next ≤ measure state + gain)
    {start state : State} {count freeCount : Nat} (initially : Holds start)
    (run : CountedRun step free start count freeCount state) :
    Holds state ∧ count + measure state ≤ measure start + gain * freeCount := by
  induction run with
  | start => exact ⟨initially, by omega⟩
  | steps run stepped ih =>
      obtain ⟨holds, bounded⟩ := ih
      obtain ⟨kept, lower⟩ := steps _ _ holds stepped
      exact ⟨kept, by omega⟩
  | frees run stepped ih =>
      obtain ⟨holds, bounded⟩ := ih
      obtain ⟨kept, raised⟩ := frees _ _ holds stepped
      rw [Nat.mul_succ]
      exact ⟨kept, by omega⟩

end Counting

section Keyed

variable {Key Value : Type*} {cmp : Key → Key → Ordering} [TransCmp cmp] [LawfulEqCmp cmp]
variable [DecidableEq Key] (keyOf : Input → Key)
variable (entryStep : Option Value → Input → Output × Option Value)

/-- The table machine that serves each input at its own key. -/
def keyedStep (table : ExtTreeMap Key Value cmp) (input : Input) :
    Output × ExtTreeMap Key Value cmp :=
  let answered := entryStep table[keyOf input]? input
  (answered.1, put table (keyOf input) answered.2)

theorem keyed_step_lookup (table : ExtTreeMap Key Value cmp) (input : Input) (key : Key) :
    (keyedStep keyOf entryStep table input).2[key]? =
      if keyOf input = key then (entryStep table[key]? input).2 else table[key]? := by
  simp only [keyedStep, lookup_put]
  split_ifs with same
  · rw [same]
  · rfl

/-- A key's entry at the end is the run of its own inputs. -/
theorem keyed_final_lookup (table : ExtTreeMap Key Value cmp) (inputs : List Input) (key : Key) :
    (finalState (keyedStep keyOf entryStep) table inputs)[key]? =
      finalState entryStep table[key]? (inputs.filter fun input => keyOf input = key) := by
  induction inputs generalizing table with
  | nil => rfl
  | cons input rest ih =>
      rw [final_state_cons, ih, keyed_step_lookup]
      by_cases same : keyOf input = key
      · simp [same]
      · simp [same]

/-- The answers to a key's inputs are those of the run of its own inputs. -/
theorem keyed_trace_filter (table : ExtTreeMap Key Value cmp) (inputs : List Input) (key : Key) :
    (trace (keyedStep keyOf entryStep) table inputs).filter (fun pair => keyOf pair.1 = key) =
      trace entryStep table[key]? (inputs.filter fun input => keyOf input = key) := by
  induction inputs generalizing table with
  | nil => rfl
  | cons input rest ih =>
      simp only [trace, List.filter_cons]
      rw [ih, keyed_step_lookup]
      by_cases same : keyOf input = key
      · simp [same, trace, keyedStep]
      · simp [same]

/-- Alone in the table, a key is served as if it were the whole table. -/
theorem keyed_trace_own (table : ExtTreeMap Key Value cmp) (inputs : List Input) (key : Key) :
    trace (keyedStep keyOf entryStep) table (inputs.filter fun input => keyOf input = key) =
      trace entryStep table[key]? (inputs.filter fun input => keyOf input = key) := by
  have filtered := keyed_trace_filter keyOf entryStep table
    (inputs.filter fun input => keyOf input = key) key
  rw [List.filter_filter, List.filter_eq_self.mpr] at filtered
  · simpa using filtered
  · intro pair member
    have asked : pair.1 ∈ inputs.filter fun input => keyOf input = key := by
      rw [← trace_inputs (keyedStep keyOf entryStep) table
        (inputs.filter fun input => keyOf input = key)]
      exact List.mem_map_of_mem member
    exact (List.mem_filter.mp asked).2

end Keyed

end TickForge.StepRuns
