import Mathlib.Data.List.Basic

/-! Runs of a partial step function, with their invariant and guard rules.
A step that returns nothing ends the run, so every executed run is a run of steps
that all returned.
-/

namespace StepRuns

variable {σ ι : Type*}

/-- The state a run of `inputs` reaches from `state`, if no step ends it earlier. -/
def exec (step : σ → ι → Option σ) : σ → List ι → Option σ
  | state, [] => some state
  | state, input :: rest => (step state input).bind (fun next => exec step next rest)

/-- Every step of the run meets `guard`, read on the state before the step and its input. -/
def AllSteps (step : σ → ι → Option σ) (guard : σ → ι → Prop) : σ → List ι → Prop
  | _, [] => True
  | state, input :: rest =>
      guard state input ∧ ∀ next, step state input = some next → AllSteps step guard next rest

/-- When the first step returns nothing, its own guard is all there is to meet. -/
theorem allSteps_of_none {step : σ → ι → Option σ} {guard : σ → ι → Prop} {state : σ}
    {input : ι} {rest : List ι} (stuck : step state input = none)
    : guard state input ↔ AllSteps step guard state (input :: rest) := by
  simp [AllSteps, stuck]

/-- When the first step returns, the run goes on from there. -/
theorem allSteps_of_some {step : σ → ι → Option σ} {guard : σ → ι → Prop} {state next : σ}
    {input : ι} {rest : List ι} (taken : step state input = some next)
    : guard state input ∧ AllSteps step guard next rest
      ↔ AllSteps step guard state (input :: rest) := by
  simp [AllSteps, taken]

/-- A guard that can be evaluated can be evaluated along a run. -/
instance decidableAllSteps (step : σ → ι → Option σ) (guard : σ → ι → Prop)
    [∀ state input, Decidable (guard state input)]
    : ∀ state inputs, Decidable (AllSteps step guard state inputs)
  | _, [] => isTrue trivial
  | state, input :: rest =>
      match taken : step state input with
      | none => decidable_of_iff _ (allSteps_of_none taken)
      | some next =>
          haveI := decidableAllSteps step guard next rest
          decidable_of_iff _ (allSteps_of_some taken)

@[simp] theorem exec_cons (step : σ → ι → Option σ) (state : σ) (input : ι)
    (rest : List ι)
    : exec step state (input :: rest)
      = (step state input).bind (fun next => exec step next rest) := rfl

/-- A run of at least one step is a returning step followed by a run. -/
theorem exec_cons_eq_some {step : σ → ι → Option σ} {state final : σ} {input : ι}
    {rest : List ι}
    : exec step state (input :: rest) = some final
      ↔ ∃ next, step state input = some next ∧ exec step next rest = some final := by
  simp only [exec_cons, Option.bind_eq_some_iff]

/-- A run goes on from the state that its first part leads to, by induction on that part. -/
theorem exec_append {step : σ → ι → Option σ} {state : σ} {inputs more : List ι}
    : exec step state (inputs ++ more)
      = (exec step state inputs).bind (fun next => exec step next more) := by
  induction inputs generalizing state with
  | nil => rfl
  | cons input rest ih => simp only [List.cons_append, exec_cons, ih, Option.bind_assoc]

/-- What every guarded step preserves holds wherever a guarded run leads, by induction on
the inputs.
-/
theorem exec_invariant_of_guard {step : σ → ι → Option σ} (guard : σ → ι → Prop)
    (inv : σ → Prop) {state final : σ} {inputs : List ι}
    (preserved
      : ∀ {state input next},
          inv state → guard state input → step state input = some next → inv next)
    (start : inv state) (guarded : AllSteps step guard state inputs)
    (reached : exec step state inputs = some final)
    : inv final := by
  induction inputs generalizing state with
  | nil => exact Option.some.inj reached ▸ start
  | cons input rest ih =>
      obtain ⟨next, taken, later⟩ := exec_cons_eq_some.mp reached
      exact ih (preserved start guarded.1 taken) (guarded.2 next taken) later

/-- When every guarded step returns and preserves an invariant, a guarded run leads to a state
where it holds, by induction on the inputs.
-/
theorem exec_returns_of_guard {step : σ → ι → Option σ} (guard : σ → ι → Prop)
    (inv : σ → Prop) {state : σ} {inputs : List ι}
    (returns
      : ∀ {state input},
          inv state → guard state input → ∃ next, step state input = some next ∧ inv next)
    (start : inv state) (guarded : AllSteps step guard state inputs)
    : ∃ final, exec step state inputs = some final ∧ inv final := by
  induction inputs generalizing state with
  | nil => exact ⟨state, rfl, start⟩
  | cons input rest ih =>
      obtain ⟨next, taken, held⟩ := returns start guarded.1
      obtain ⟨final, reached, holds⟩ := ih held (guarded.2 next taken)
      exact ⟨final, exec_cons_eq_some.mpr ⟨next, taken, reached⟩, holds⟩

/-- When every step returns and follows a step of an abstract machine, a run does, by induction
on the inputs.
-/
theorem exec_simulates {τ : Type*} {step : σ → ι → Option σ} (next : τ → ι → τ)
    (relation : σ → τ → Prop) {state : σ} {abstract : τ} {inputs : List ι}
    (simulated
      : ∀ {state abstract input},
          relation state abstract
          → ∃ after, step state input = some after ∧ relation after (next abstract input))
    (start : relation state abstract)
    : ∃ final,
        exec step state inputs = some final ∧ relation final (inputs.foldl next abstract) := by
  induction inputs generalizing state abstract with
  | nil => exact ⟨state, rfl, start⟩
  | cons input rest ih =>
      obtain ⟨after, taken, related⟩ := simulated start
      obtain ⟨final, reached, holds⟩ := ih related
      exact ⟨final, exec_cons_eq_some.mpr ⟨after, taken, reached⟩, holds⟩

/-- The trivial guard restricts nothing. -/
theorem allSteps_true (step : σ → ι → Option σ) (state : σ) (inputs : List ι)
    : AllSteps step (fun _ _ => True) state inputs := by
  induction inputs generalizing state with
  | nil => trivial
  | cons input rest ih => exact ⟨trivial, fun next _ => ih next⟩

/-- A guard on inputs alone holds along a run when it holds of each input. -/
theorem allSteps_of_forall {step : σ → ι → Option σ} {good : ι → Prop} {state : σ}
    {inputs : List ι} (all : ∀ input ∈ inputs, good input)
    : AllSteps step (fun _ input => good input) state inputs := by
  induction inputs generalizing state with
  | nil => trivial
  | cons input rest ih =>
      exact ⟨all input (by simp),
        fun next _ => ih (fun later member => all later (by simp [member]))⟩

/-- Steps that meet two guards meet both at once. -/
theorem AllSteps.and {step : σ → ι → Option σ} {guard other : σ → ι → Prop} {state : σ}
    {inputs : List ι} (first : AllSteps step guard state inputs)
    (second : AllSteps step other state inputs)
    : AllSteps step (fun state input => guard state input ∧ other state input) state inputs := by
  induction inputs generalizing state with
  | nil => trivial
  | cons input rest ih =>
      exact ⟨⟨first.1, second.1⟩, fun next taken => ih (first.2 next taken) (second.2 next taken)⟩

/-- All steps of a run meet a guard exactly when it holds of every input in the state that
the inputs before it lead to, by induction on the inputs.
-/
theorem allSteps_iff_reached {step : σ → ι → Option σ} {guard : σ → ι → Prop} {state : σ}
    {inputs : List ι}
    : AllSteps step guard state inputs
      ↔ ∀ done input rest reached,
          inputs = done ++ input :: rest → exec step state done = some reached
          → guard reached input := by
  induction inputs generalizing state with
  | nil => simp [AllSteps]
  | cons head rest ih =>
      constructor
      · rintro ⟨first, later⟩ done input after reached split ends
        cases done with
        | nil =>
            obtain ⟨rfl, -⟩ := List.cons.inj split
            exact Option.some.inj ends ▸ first
        | cons _ done =>
            obtain ⟨rfl, restSplit⟩ := List.cons.inj split
            obtain ⟨next, taken, restEnds⟩ := exec_cons_eq_some.mp ends
            exact ih.mp (later next taken) done input after reached restSplit restEnds
      · intro every
        refine ⟨every [] head rest state rfl rfl, fun next taken => ih.mpr ?_⟩
        intro done input after reached split ends
        exact every (head :: done) input after reached (congrArg (head :: ·) split)
          (exec_cons_eq_some.mpr ⟨next, taken, ends⟩)

/-- What every step preserves holds wherever a run leads. -/
theorem exec_invariant {step : σ → ι → Option σ} (inv : σ → Prop) {state final : σ}
    {inputs : List ι}
    (preserved : ∀ {state input next}, inv state → step state input = some next → inv next)
    (start : inv state) (reached : exec step state inputs = some final)
    : inv final :=
  exec_invariant_of_guard (fun _ _ => True) inv (fun held _ taken => preserved held taken)
    start (allSteps_true step state inputs) reached

/-- When each step keeps a property exactly if it meets the guard, a run keeps the
property exactly if all its steps meet the guard. The invariant carries what the steps
need; witness: induction on the inputs, each step adding its own guard to the condition.
-/
theorem exec_property_iff {step : σ → ι → Option σ} (guard : σ → ι → Prop)
    (inv property : σ → Prop) {state final : σ} {inputs : List ι}
    (preserved : ∀ {state input next}, inv state → step state input = some next → inv next)
    (kept
      : ∀ {state input next},
          inv state → step state input = some next
          → (property next ↔ property state ∧ guard state input))
    (start : inv state) (reached : exec step state inputs = some final)
    : property final ↔ property state ∧ AllSteps step guard state inputs := by
  induction inputs generalizing state with
  | nil => simp [← Option.some.inj reached, AllSteps]
  | cons input rest ih =>
      obtain ⟨next, taken, later⟩ := exec_cons_eq_some.mp reached
      rw [ih (preserved start taken) later, kept start taken, and_assoc]
      simp only [AllSteps, taken, Option.some.injEq, forall_eq']

/-- When each step keeps a property exactly if it meets the guard, the property holds in all
states along a run exactly if all steps meet the guard. The invariant need only survive
guarded steps; witness: induction on the inputs.
-/
theorem exec_always_iff {step : σ → ι → Option σ} (guard : σ → ι → Prop)
    (inv property : σ → Prop) {state : σ} {inputs : List ι}
    (kept
      : ∀ {state input},
          inv state → (guard state input ↔ ∀ next, step state input = some next → property next))
    (preserved
      : ∀ {state input next},
          inv state → guard state input → step state input = some next → inv next)
    (holds : ∀ {state}, inv state → property state) (start : inv state)
    : (∀ done, done <+: inputs → ∀ reached, exec step state done = some reached → property reached)
      ↔ AllSteps step guard state inputs := by
  induction inputs generalizing state with
  | nil =>
      refine iff_of_true ?_ trivial
      intro done isPrefix reached ends
      obtain rfl := List.prefix_nil.mp isPrefix
      exact Option.some.inj ends ▸ holds start
  | cons input rest ih =>
      constructor
      · intro always
        have first : guard state input := by
          refine (kept start).mpr fun next taken => always [input] (by simp) next ?_
          exact exec_cons_eq_some.mpr ⟨next, taken, rfl⟩
        refine ⟨first, fun next taken => (ih (preserved start first taken)).mp ?_⟩
        intro done isPrefix reached ends
        exact always (input :: done) (List.cons_prefix_cons.mpr ⟨rfl, isPrefix⟩) reached
          (exec_cons_eq_some.mpr ⟨next, taken, ends⟩)
      · rintro ⟨first, later⟩ done isPrefix reached ends
        cases done with
        | nil => exact Option.some.inj ends ▸ holds start
        | cons head done =>
            obtain ⟨rfl, restPrefix⟩ := List.cons_prefix_cons.mp isPrefix
            obtain ⟨next, taken, restEnds⟩ := exec_cons_eq_some.mp ends
            exact (ih (preserved start first taken)).mpr (later next taken) done restPrefix
              reached restEnds

end StepRuns
