import Mathlib.Data.List.Basic

/-! # Runs of a deterministic machine

A machine answers one action after the other.  A run keeps what every step keeps; two runs
that start related stay related; and an observer whose view the other parties' actions do not
touch cannot tell a run from the same run with those actions removed. -/

namespace Machine

variable {α ρ σ τ : Type}

/-- The results of a list of actions, and the state after the last one. -/
def run (step : α → σ → ρ × σ) : List α → σ → List ρ × σ
  | [], state => ([], state)
  | action :: rest, state =>
    ((step action state).1 :: (run step rest (step action state).2).1,
      (run step rest (step action state).2).2)

@[simp] theorem run_nil (step : α → σ → ρ × σ) (state : σ) : run step [] state = ([], state) :=
  rfl

@[simp] theorem run_cons (step : α → σ → ρ × σ) (action : α) (rest : List α) (state : σ) :
    run step (action :: rest) state =
      ((step action state).1 :: (run step rest (step action state).2).1,
        (run step rest (step action state).2).2) := rfl

theorem run_append (step : α → σ → ρ × σ) (first second : List α) (state : σ) :
    run step (first ++ second) state =
      ((run step first state).1 ++ (run step second (run step first state).2).1,
        (run step second (run step first state).2).2) := by
  induction first generalizing state with
  | nil => rfl
  | cons action rest ih => simp [ih]

/-- What every step keeps, a run keeps. -/
theorem run_invariant {step : α → σ → ρ × σ} (invariant : σ → Prop) {actions : List α}
    (kept : ∀ action ∈ actions, ∀ state, invariant state → invariant (step action state).2)
    {state : σ} (start : invariant state) : invariant (run step actions state).2 := by
  induction actions generalizing state with
  | nil => exact start
  | cons action rest ih =>
    exact ih (fun later member => kept later (List.mem_cons_of_mem _ member))
      (kept action List.mem_cons_self state start)

/-- What each action and its result satisfy, a run and its results satisfy. -/
theorem run_forall₂ {step : α → σ → ρ × σ} {holds : α → ρ → Prop} {actions : List α}
    (each : ∀ action ∈ actions, ∀ state, holds action (step action state).1) (state : σ) :
    List.Forall₂ holds actions (run step actions state).1 := by
  induction actions generalizing state with
  | nil => exact .nil
  | cons action rest ih =>
    apply List.Forall₂.cons (each action List.mem_cons_self state)
    exact ih (fun later member => each later (List.mem_cons_of_mem _ member)) _

/-- A reflexive and transitive relation that every step respects holds across a run. -/
theorem run_frame {step : α → σ → ρ × σ} (frame : σ → σ → Prop)
    (refl : ∀ state, frame state state)
    (trans : ∀ {a b c}, frame a b → frame b c → frame a c)
    (kept : ∀ action state, frame state (step action state).2) (actions : List α) (state : σ) :
    frame state (run step actions state).2 := by
  induction actions generalizing state with
  | nil => exact refl state
  | cons action rest ih => exact trans (kept action state) (ih _)

/-- Two machines whose steps agree on related states agree on runs from related states. -/
theorem run_related {step₁ : α → σ → ρ × σ} {step₂ : α → τ → ρ × τ} (related : σ → τ → Prop)
    {actions : List α}
    (kept : ∀ action ∈ actions, ∀ state₁ state₂, related state₁ state₂ →
      (step₁ action state₁).1 = (step₂ action state₂).1 ∧
        related (step₁ action state₁).2 (step₂ action state₂).2)
    {state₁ : σ} {state₂ : τ} (start : related state₁ state₂) :
    (run step₁ actions state₁).1 = (run step₂ actions state₂).1 ∧
      related (run step₁ actions state₁).2 (run step₂ actions state₂).2 := by
  induction actions generalizing state₁ state₂ with
  | nil => exact ⟨rfl, start⟩
  | cons action rest ih =>
    obtain ⟨result, after⟩ := kept action List.mem_cons_self state₁ state₂ start
    obtain ⟨results, final⟩ :=
      ih (fun later member => kept later (List.mem_cons_of_mem _ member)) after
    exact ⟨congrArg₂ _ result results, final⟩

/-- The results of the actions an observer has issued. -/
def resultsOf (mine : α → Bool) : List α → List ρ → List ρ
  | action :: actions, result :: results =>
    if mine action then result :: resultsOf mine actions results
    else resultsOf mine actions results
  | _, _ => []

/-- Unwinding: where the observer's own actions depend on the view alone and the actions of
others leave the view alone, the observer's results are those of the run without the others. -/
theorem run_purge {step : α → σ → ρ × σ} {mine : α → Bool} {view : σ → σ → Prop}
    {actions : List α}
    (consistent : ∀ action ∈ actions, mine action = true → ∀ state₁ state₂, view state₁ state₂ →
      (step action state₁).1 = (step action state₂).1 ∧
        view (step action state₁).2 (step action state₂).2)
    (invisible : ∀ action ∈ actions, mine action = false → ∀ state₁ state₂, view state₁ state₂ →
      view (step action state₁).2 state₂)
    {state₁ state₂ : σ} (start : view state₁ state₂) :
    resultsOf mine actions (run step actions state₁).1 =
        (run step (actions.filter mine) state₂).1 ∧
      view (run step actions state₁).2 (run step (actions.filter mine) state₂).2 := by
  induction actions generalizing state₁ state₂ with
  | nil => exact ⟨rfl, start⟩
  | cons action rest ih =>
    have consistentRest := fun later member =>
      consistent later (List.mem_cons_of_mem action member)
    have invisibleRest := fun later member =>
      invisible later (List.mem_cons_of_mem action member)
    cases own : mine action with
    | true =>
      obtain ⟨result, after⟩ :=
        consistent action List.mem_cons_self own state₁ state₂ start
      obtain ⟨results, final⟩ := ih consistentRest invisibleRest after
      simp only [List.filter_cons, own, if_true, run_cons, resultsOf]
      exact ⟨congrArg₂ _ result results, final⟩
    | false =>
      obtain ⟨results, final⟩ :=
        ih consistentRest invisibleRest (invisible action List.mem_cons_self own state₁ state₂ start)
      simp only [List.filter_cons, own, run_cons, resultsOf]
      exact ⟨results, final⟩

end Machine
