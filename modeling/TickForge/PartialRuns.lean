import TickForge.StepRuns

/-!
# Runs of steps that may have no result

A step that may have no result is run on optional states; once a step had none, no later
one has. Where it simulates a step that always has one, so does the run. Where it is
another step cut down to states inside a limit, the run has a result exactly when every
state the other run passes through keeps to the limit, and then it is the other run.
-/

namespace TickForge.PartialRuns

open StepRuns

set_option autoImplicit false

variable {State Model Input Output : Type*}

section PartialSteps

variable (step : State → Input → Option (Output × State))

/-- A step that may have no result, as a step on optional states. -/
def partialStep (state : Option State) (input : Input) : Option Output × Option State :=
  let stepped := state.bind fun current => step current input
  (stepped.map Prod.fst, stepped.map Prod.snd)

/-- Where a run of a step that may have no result ends. -/
def partialFinal (state : State) (inputs : List Input) : Option State :=
  finalState (partialStep step) (some state) inputs

def partialOutputs (state : State) (inputs : List Input) : List (Option Output) :=
  outputs (partialStep step) (some state) inputs

theorem partial_final_nil (state : State) : partialFinal step state [] = some state := rfl

theorem partial_final_none (inputs : List Input) :
    finalState (partialStep step) none inputs = none := by
  induction inputs with
  | nil => rfl
  | cons input rest ih => exact ih

theorem partial_final_cons (state : State) (input : Input) (rest : List Input) :
    partialFinal step state (input :: rest) =
      (step state input).bind fun stepped => partialFinal step stepped.2 rest := by
  unfold partialFinal
  rw [final_state_cons]
  cases stepped : step state input with
  | none => simp only [partialStep, Option.bind_some, stepped, Option.map_none,
      partial_final_none, Option.bind_none]
  | some answered => simp only [partialStep, Option.bind_some, stepped, Option.map_some]

/-- The simulation rule for steps that may have no result: where every related
step has one, so has every run. -/
theorem partial_simulation_run (modelStep : Model → Input → Output × Model)
    (Related : State → Model → Prop)
    (simulates : ∀ state model input, Related state model →
      ∃ next, step state input = some ((modelStep model input).1, next) ∧
        Related next (modelStep model input).2)
    (state : State) (model : Model) (inputs : List Input) (initially : Related state model) :
    ∃ after, partialFinal step state inputs = some after ∧
      partialOutputs step state inputs = (outputs modelStep model inputs).map some ∧
      Related after (finalState modelStep model inputs) := by
  induction inputs generalizing state model with
  | nil => exact ⟨state, rfl, rfl, initially⟩
  | cons input rest ih =>
      rcases simulates state model input initially with ⟨next, stepped, stillRelated⟩
      rcases ih next _ stillRelated with ⟨after, ended, answered, related⟩
      have first : partialStep step (some state) input =
          (some (modelStep model input).1, some next) := by
        simp only [partialStep, Option.bind_some, stepped, Option.map_some]
      refine ⟨after, ?_, ?_, related⟩
      · unfold partialFinal at ended ⊢
        rw [final_state_cons, first]
        exact ended
      · unfold partialOutputs at answered ⊢
        simp only [outputs, first, answered, List.map_cons]

end PartialSteps

section Restrictions

/-- `partialStep` is `step` cut down to where `Fits` holds afterwards, on states that are
`Sound` and fit already. -/
structure Restricts (cut : State → Input → Option (Output × State))
    (step : State → Input → Output × State) (Sound Fits : State → Prop) : Prop where
  sound : ∀ state input, Sound state → Sound (step state input).2
  defined_iff : ∀ state input answered, Sound state → Fits state →
    (cut state input = some answered ↔ answered = step state input ∧ Fits (step state input).2)

variable {cut : State → Input → Option (Output × State)}
variable {step : State → Input → Output × State} {Sound Fits : State → Prop}

/-- Every state a run passes through fits. -/
def AlwaysFits (step : State → Input → Output × State) (Fits : State → Prop) (state : State)
    (inputs : List Input) : Prop :=
  ∀ seen, seen <+: inputs → Fits (finalState step state seen)

theorem always_fits_cons (state : State) (input : Input) (rest : List Input) :
    AlwaysFits step Fits state (input :: rest) ↔
      Fits state ∧ AlwaysFits step Fits (step state input).2 rest := by
  constructor
  · intro fits
    refine ⟨fits [] (List.nil_prefix), ?_⟩
    intro seen isPrefix
    exact fits (input :: seen) (List.cons_prefix_cons.mpr ⟨rfl, isPrefix⟩)
  · rintro ⟨first, later⟩ seen isPrefix
    cases seen with
    | nil => exact first
    | cons same seen =>
        rcases List.cons_prefix_cons.mp isPrefix with ⟨rfl, inner⟩
        exact later seen inner

theorem AlwaysFits.before {state : State} {seen inputs : List Input}
    (fits : AlwaysFits step Fits state inputs) (isPrefix : seen <+: inputs) :
    AlwaysFits step Fits state seen :=
  fun earlier inner => fits earlier (inner.trans isPrefix)

theorem always_fits_snoc (state : State) (inputs : List Input) (input : Input) :
    AlwaysFits step Fits state (inputs ++ [input]) ↔
      AlwaysFits step Fits state inputs ∧ Fits (finalState step state (inputs ++ [input])) := by
  constructor
  · intro fits
    exact ⟨fits.before (List.prefix_append _ _), fits _ List.prefix_rfl⟩
  · rintro ⟨earlier, last⟩ seen isPrefix
    rcases List.prefix_concat_iff.mp isPrefix with rfl | inside
    · exact last
    · exact earlier seen inside

/-- Where no step can repair a state that does not fit, the last state speaks for all. -/
theorem always_fits_of_final (inputs : List Input)
    (back : ∀ state, ∀ input ∈ inputs, Fits (step state input).2 → Fits state) (state : State)
    (last : Fits (finalState step state inputs)) : AlwaysFits step Fits state inputs := by
  induction inputs generalizing state with
  | nil =>
      intro seen isPrefix
      rw [List.prefix_nil.mp isPrefix]
      exact last
  | cons input rest ih =>
      have later := ih (fun state input listed => back state input (List.mem_cons_of_mem _ listed))
        (step state input).2 last
      have fits := back state input List.mem_cons_self (later [] List.nil_prefix)
      exact (always_fits_cons state input rest).mpr ⟨fits, later⟩

/-- The restriction rule: a run of the cut step has a result exactly when every state of
the other run fits, and then it is that run. -/
theorem partial_final_iff (restricts : Restricts cut step Sound Fits) (state : State)
    (inputs : List Input) (sound : Sound state) (fits : Fits state) (after : State) :
    partialFinal cut state inputs = some after ↔
      after = finalState step state inputs ∧ AlwaysFits step Fits state inputs := by
  induction inputs generalizing state with
  | nil =>
      rw [partial_final_nil, Option.some.injEq]
      constructor
      · rintro rfl
        refine ⟨rfl, ?_⟩
        intro seen isPrefix
        rwa [List.prefix_nil.mp isPrefix]
      · exact fun same => same.1.symm
  | cons input rest ih =>
      have kept := restricts.sound state input sound
      rw [partial_final_cons, Option.bind_eq_some_iff, always_fits_cons, final_state_cons]
      constructor
      · rintro ⟨answered, stepped, later⟩
        rcases (restricts.defined_iff state input answered sound fits).mp stepped with
          ⟨rfl, stillFits⟩
        rcases (ih _ kept stillFits).mp later with ⟨ended, restFits⟩
        exact ⟨ended, fits, restFits⟩
      · rintro ⟨ended, _, restFits⟩
        have stillFits : Fits (step state input).2 := restFits [] List.nil_prefix
        refine ⟨step state input, ?_, (ih _ kept stillFits).mpr ⟨ended, restFits⟩⟩
        exact (restricts.defined_iff state input _ sound fits).mpr ⟨rfl, stillFits⟩

/-- A run of the cut step answers as the other run where every state of it fits. -/
theorem partial_outputs_of_fits (restricts : Restricts cut step Sound Fits) (state : State)
    (inputs : List Input) (sound : Sound state) (always : AlwaysFits step Fits state inputs) :
    partialOutputs cut state inputs = (outputs step state inputs).map some := by
  induction inputs generalizing state with
  | nil => rfl
  | cons input rest ih =>
      rcases (always_fits_cons state input rest).mp always with ⟨fits, restFits⟩
      have stillFits : Fits (step state input).2 := restFits [] List.nil_prefix
      have stepped : cut state input = some (step state input) :=
        (restricts.defined_iff state input _ sound fits).mpr ⟨rfl, stillFits⟩
      have later := ih _ (restricts.sound state input sound) restFits
      unfold partialOutputs at later ⊢
      simp only [outputs, partialStep, Option.bind_some, stepped, Option.map_some, later,
        List.map_cons]

end Restrictions

end TickForge.PartialRuns
