import DenyFS.Library.Machine

/-! # Machines that refine a specification

A specification says which answers a request may get in an abstract state, and which abstract
state may follow.  A machine refines it where each step is one that the specification allows;
then every run of the machine is a trace of the specification, and what all traces of the
specification share, all runs of the machine share. -/

namespace Refinement

open Machine

variable {α ρ σ A B : Type}

/-- A request, the abstract state it meets, its answer, and the state that follows. -/
abbrev Spec (α ρ A : Type) : Type := α → A → ρ → A → Prop

/-- Answers to one request after the other, as the specification allows them. -/
inductive Traces (spec : Spec α ρ A) : List α → A → List ρ → A → Prop where
  | nil {state : A} : Traces spec [] state [] state
  | cons {request : α} {rest : List α} {first middle last : A} {answer : ρ} {answers : List ρ} :
    spec request first answer middle → Traces spec rest middle answers last →
    Traces spec (request :: rest) first (answer :: answers) last

namespace Traces

variable {spec : Spec α ρ A} {requests : List α} {answers : List ρ} {first last : A}

theorem append {later : List α} {laterAnswers : List ρ} {middle : A}
    (before : Traces spec requests first answers middle)
    (after : Traces spec later middle laterAnswers last) :
    Traces spec (requests ++ later) first (answers ++ laterAnswers) last := by
  induction before with
  | nil => exact after
  | cons step _ ih => exact .cons step (ih after)

/-- A trace splits where its requests do. -/
theorem split {later : List α} (trace : Traces spec (requests ++ later) first answers last) :
    ∃ middle front back, answers = front ++ back ∧ Traces spec requests first front middle ∧
      Traces spec later middle back last := by
  induction requests generalizing first answers with
  | nil => exact ⟨first, [], answers, rfl, .nil, trace⟩
  | cons request rest ih =>
    cases trace with
    | cons step trace =>
      obtain ⟨middle, front, back, same, before, after⟩ := ih trace
      exact ⟨middle, _ :: front, back, by simp [same], .cons step before, after⟩

/-- What every step keeps, a trace keeps. -/
theorem invariant (trace : Traces spec requests first answers last) {holds : A → Prop}
    (kept : ∀ request ∈ requests, ∀ before answer after, holds before →
      spec request before answer after → holds after) (start : holds first) : holds last := by
  induction trace with
  | nil => exact start
  | cons step _ ih =>
    apply ih fun request member => kept request (List.mem_cons_of_mem _ member)
    exact kept _ List.mem_cons_self _ _ _ start step

theorem length_eq (trace : Traces spec requests first answers last) :
    answers.length = requests.length := by
  induction trace with
  | nil => rfl
  | cons _ _ ih => simp [ih]

/-- A specification that refines another: its traces are traces of the other. -/
theorem map {coarse : Spec α ρ B} {related : A → B → Prop}
    (trace : Traces spec requests first answers last)
    (refines : ∀ request ∈ requests, ∀ before answer after coarseBefore, related before coarseBefore →
      spec request before answer after →
      ∃ coarseAfter, coarse request coarseBefore answer coarseAfter ∧ related after coarseAfter)
    {coarseFirst : B} (start : related first coarseFirst) :
    ∃ coarseLast, Traces coarse requests coarseFirst answers coarseLast ∧ related last coarseLast := by
  induction trace generalizing coarseFirst with
  | nil => exact ⟨coarseFirst, .nil, start⟩
  | cons step _ ih =>
    obtain ⟨middle, allowed, after⟩ := refines _ List.mem_cons_self _ _ _ _ start step
    obtain ⟨final, trace, ends⟩ :=
      ih (fun request member => refines request (List.mem_cons_of_mem _ member)) after
    exact ⟨final, .cons allowed trace, ends⟩

end Traces

/-- Each step of the machine from a related state is a step of the specification, as long as it
meets a condition on the request and the state. -/
def Refines (step : α → σ → ρ × σ) (spec : Spec α ρ A) (meets : σ → α → Prop)
    (related : σ → A → Prop) : Prop :=
  ∀ request state abstract, related state abstract → meets state request →
    ∃ abstract', spec request abstract (step request state).1 abstract' ∧
      related (step request state).2 abstract'

/-- Every request of a run meets a condition on itself and the state it meets. -/
def MeetsAll (step : α → σ → ρ × σ) (meets : σ → α → Prop) : List α → σ → Prop
  | [], _ => True
  | request :: rest, state =>
    meets state request ∧ MeetsAll step meets rest (step request state).2

theorem meetsAll_of_mem {step : α → σ → ρ × σ} {meets : σ → α → Prop} {requests : List α}
    (always : ∀ request ∈ requests, ∀ state, meets state request) (state : σ) :
    MeetsAll step meets requests state := by
  induction requests generalizing state with
  | nil => trivial
  | cons request rest ih =>
    constructor
    · exact always request List.mem_cons_self state
    · exact ih (fun later member => always later (List.mem_cons_of_mem _ member)) _

/-- Every run of a machine that refines a specification is a trace of it. -/
theorem Refines.run {step : α → σ → ρ × σ} {spec : Spec α ρ A} {meets : σ → α → Prop}
    {related : σ → A → Prop} (refines : Refines step spec meets related) {requests : List α}
    {state : σ} {abstract : A} (start : related state abstract)
    (met : MeetsAll step meets requests state) :
    ∃ abstract', Traces spec requests abstract (run step requests state).1 abstract' ∧
      related (run step requests state).2 abstract' := by
  induction requests generalizing state abstract with
  | nil => exact ⟨abstract, .nil, start⟩
  | cons request rest ih =>
    obtain ⟨middle, allowed, after⟩ := refines request state abstract start met.1
    obtain ⟨final, trace, ends⟩ := ih after met.2
    exact ⟨final, .cons allowed trace, ends⟩

/-! ## Specifications side by side -/

section Family

variable {ι : Type} [DecidableEq ι]

/-- A family of components, of which each request goes to its owner. -/
def family (owner : α → ι) (specs : ι → Spec α ρ A) : Spec α ρ (ι → A) :=
  fun request before answer after =>
    specs (owner request) request (before (owner request)) answer (after (owner request)) ∧
      ∀ i, i ≠ owner request → after i = before i

/-- Each component sees a trace of its own. -/
theorem Traces.own {owner : α → ι} {specs : ι → Spec α ρ A} {requests : List α} {answers : List ρ}
    {before after : ι → A} (trace : Traces (family owner specs) requests before answers after)
    (i : ι) : Traces (specs i) (requests.filter fun request => owner request = i) (before i)
      (resultsOf (fun request => owner request = i) requests answers) (after i) := by
  induction trace with
  | nil => exact .nil
  | @cons request rest start middle final answer answers step _ ih =>
    by_cases mine : owner request = i
    · subst mine
      simp only [List.filter_cons, resultsOf, decide_true, if_true]
      exact .cons step.1 ih
    · simp only [List.filter_cons, resultsOf, decide_eq_false mine, Bool.false_eq_true, if_false]
      rw [step.2 i (Ne.symm mine)] at ih
      exact ih

end Family

end Refinement
