import RegistrationCenter.Lib.Runs

/-!
# `RegistrationCenter.Lib.Refinement`: runs of a relation and of its implementation

An abstract system is a relation `Next a l b`: from `a` a step with the label `l` can lead
to `b`. A label has what is seen of the step from outside. `run_of_stepsMeet` is the rule of
refinement. The implementation is a step function with an invariant, `abs` is what a state
of it stands for, and each of its steps that meets a condition is one of the relation. Then
each of its runs whose steps all meet the condition is one of the relation, with the same
labels. `run_of_step` is the rule for a step function that needs no condition.
-/

set_option autoImplicit false

namespace RegistrationCenter.Lib

variable {α κ σ ε : Type*} {Next : α → κ → α → Prop}

/-- A run of the relation, with the labels of its steps. -/
inductive Run (Next : α → κ → α → Prop) : α → List κ → α → Prop
  | nil (a : α) : Run Next a [] a
  | cons {a b c : α} {l : κ} {ls : List κ} (head : Next a l b) (tail : Run Next b ls c) :
      Run Next a (l :: ls) c

/-- What each step with a label of the run keeps, the run keeps. -/
theorem Run.keeps {P : α → Prop} {a b : α} {ls : List κ} (h : Run Next a ls b)
    (hkeep : ∀ l ∈ ls, ∀ c d, Next c l d → P c → P d) (ha : P a) : P b := by
  induction h with
  | nil a => exact ha
  | cons head tail ih =>
      rw [List.forall_mem_cons] at hkeep
      exact ih hkeep.2 (hkeep.1 _ _ head ha)

/-- The labels of a run of the implementation. -/
def trace (step : σ → ε → σ) (label : σ → ε → κ) : σ → List ε → List κ :=
  along step fun s e => [label s e]

theorem trace_cons (step : σ → ε → σ) (label : σ → ε → κ) (s : σ) (e : ε) (es : List ε) :
    trace step label s (e :: es) = label s e :: trace step label (step s e) es := rfl

/-- What is true of the label of each step is true of those of a run. -/
theorem forall_mem_trace {step : σ → ε → σ} {label : σ → ε → κ} {P : κ → Prop}
    (hP : ∀ s e, P (label s e)) : ∀ (es : List ε) (s : σ), ∀ l ∈ trace step label s es, P l := by
  intro es
  induction es with
  | nil => intro s l hl; exact absurd hl List.not_mem_nil
  | cons e es ih =>
      intro s
      rw [trace_cons, List.forall_mem_cons]
      exact ⟨hP s e, ih (step s e)⟩

variable {step : σ → ε → σ} {Inv : σ → Prop} {C : σ → ε → Prop}

/-- An implementation has only runs of the relation, as long as its steps meet the condition under
which each of them is one of the relation. -/
theorem run_of_stepsMeet {abs : σ → α} {label : σ → ε → κ}
    (hkeep : ∀ s e, Inv s → C s e → Inv (step s e))
    (hstep : ∀ s e, Inv s → C s e → Next (abs s) (label s e) (abs (step s e))) :
    ∀ (es : List ε) {s : σ}, Inv s → StepsMeet step C s es →
      Run Next (abs s) (trace step label s es) (abs (es.foldl step s)) := by
  intro es
  induction es with
  | nil => intro s _ _; exact .nil _
  | cons e es ih =>
      intro s hs hC
      exact .cons (hstep s e hs hC.1) (ih (hkeep s e hs hC.1) hC.2)

/-- An implementation each of whose steps is one of the relation has only runs of the relation. -/
theorem run_of_step {abs : σ → α} {label : σ → ε → κ}
    (hkeep : ∀ s e, Inv s → Inv (step s e))
    (hstep : ∀ s e, Inv s → Next (abs s) (label s e) (abs (step s e))) (es : List ε) {s : σ}
    (hs : Inv s) : Run Next (abs s) (trace step label s es) (abs (es.foldl step s)) :=
  run_of_stepsMeet (fun s e hs _ => hkeep s e hs) (fun s e hs _ => hstep s e hs) es hs
    stepsMeet_true

end RegistrationCenter.Lib
