import Mathlib.Data.List.Basic
import Mathlib.Order.WellFounded

/-!
# `RegistrationCenter.Lib.Runs`: runs of a step function

A system is a step function `step : σ → ε → σ`. The state after a run is the
left fold of the step over its events. Two predicates speak about the whole
run and not only about its last state:

* `AllStates step P s es`: `P` holds in the start state and after every event.
* `StepsMeet step C s es`: every event meets the condition `C` in the state it
  is taken from.

`allStates_of_stepsMeet` is the induction rule: an invariant that the start
state has and that every step meeting `C` keeps gives `P` in all states.
`allStates_iff_stepsMeet` adds the other direction for a condition that is
exact, one whose violation breaks `P` at once; `allStates_iff_stepsMeet_of` does
so under an assumption about the environment.

`conserved` is the rule for a queue: what has gone in is what has come out, and what is left.

An infinite run is a sequence of events, and `stateAt` its state after each number of them.
`exists_goal_of_measure` is the rule for what must happen in it: a measure that no step
raises, and that goes down again and again, cannot go on before the goal is reached.
-/

set_option autoImplicit false

namespace RegistrationCenter.Lib

variable {σ ε : Type*} {step : σ → ε → σ} {P Inv : σ → Prop} {C : σ → ε → Prop}

/-- `P` holds in the start state of the run and after each of its events. -/
def AllStates (step : σ → ε → σ) (P : σ → Prop) : σ → List ε → Prop
  | s, [] => P s
  | s, e :: es => P s ∧ AllStates step P (step s e) es

/-- Each event of the run meets `C` in the state it is taken from. -/
def StepsMeet (step : σ → ε → σ) (C : σ → ε → Prop) : σ → List ε → Prop
  | _, [] => True
  | s, e :: es => C s e ∧ StepsMeet step C (step s e) es

theorem AllStates.head {s : σ} {es : List ε} (h : AllStates step P s es) : P s := by
  cases es with
  | nil => exact h
  | cons e es => exact h.1

theorem AllStates.imp {Q : σ → Prop} (hPQ : ∀ s, P s → Q s) :
    ∀ {es : List ε} {s : σ}, AllStates step P s es → AllStates step Q s es := by
  intro es
  induction es with
  | nil => intro s h; exact hPQ s h
  | cons e es ih => intro s h; exact ⟨hPQ s h.1, ih h.2⟩

/-- `P` in all states of a run gives `P` in all states after every prefix. -/
theorem AllStates.drop {es₁ : List ε} :
    ∀ {s : σ} {es₂ : List ε}, AllStates step P s (es₁ ++ es₂) →
      AllStates step P (es₁.foldl step s) es₂ := by
  induction es₁ with
  | nil => intro s es₂ h; exact h
  | cons e es₁ ih => intro s es₂ h; exact ih h.2

theorem AllStates.last {es : List ε} {s : σ} (h : AllStates step P s es) :
    P (es.foldl step s) := by
  rw [← List.append_nil es] at h
  exact h.drop

/-- The run rule for an invariant that each step meeting `C` keeps. -/
theorem allStates_of_stepsMeet (hkeep : ∀ s e, Inv s → C s e → Inv (step s e)) :
    ∀ {es : List ε} {s : σ}, Inv s → StepsMeet step C s es → AllStates step Inv s es := by
  intro es
  induction es with
  | nil => intro s hs _; exact hs
  | cons e es ih => intro s hs hC; exact ⟨hs, ih (hkeep s e hs hC.1) hC.2⟩

/-- The invariant holds after every run when each step keeps it. -/
theorem inv_foldl (hkeep : ∀ s e, Inv s → Inv (step s e)) (es : List ε) {s : σ}
    (hs : Inv s) : Inv (es.foldl step s) :=
  List.foldlRecOn es step hs fun s hs e _ => hkeep s e hs

/-- A condition on the events alone. -/
theorem stepsMeet_iff_forall {C : ε → Prop} : ∀ {es : List ε} {s : σ},
    StepsMeet step (fun _ e => C e) s es ↔ ∀ e ∈ es, C e := by
  intro es
  induction es with
  | nil => intro s; exact ⟨fun _ e he => absurd he List.not_mem_nil, fun _ => trivial⟩
  | cons e es ih =>
      intro s
      rw [List.forall_mem_cons]
      exact and_congr_right fun _ => ih

/-- What each step that meets `C` does from a state with the invariant. -/
theorem StepsMeet.imp {B : σ → ε → Prop} (hkeep : ∀ s e, Inv s → C s e → Inv (step s e))
    (hB : ∀ s e, Inv s → C s e → B s e) :
    ∀ {es : List ε} {s : σ}, Inv s → StepsMeet step C s es → StepsMeet step B s es := by
  intro es
  induction es with
  | nil => intro s _ _; exact trivial
  | cons e es ih => intro s hs hC; exact ⟨hB s e hs hC.1, ih (hkeep s e hs hC.1) hC.2⟩

/-- An exact condition, in runs whose steps all meet an assumption `A`: a step that meets
`C` keeps the invariant, and a step that does not meet it leaves a state without `P`. Then
`P` holds in all states of a run exactly when all its steps meet `C`. -/
theorem allStates_iff_stepsMeet_of {A : σ → ε → Prop} (hP : ∀ s, Inv s → P s)
    (hkeep : ∀ s e, Inv s → A s e → C s e → Inv (step s e))
    (hexact : ∀ s e, Inv s → A s e → ¬ C s e → ¬ P (step s e)) :
    ∀ {es : List ε} {s : σ}, Inv s → StepsMeet step A s es →
      (AllStates step P s es ↔ StepsMeet step C s es) := by
  intro es
  -- The induction is on the run; the invariant goes along for as long as the steps meet `C`.
  induction es with
  | nil => intro s hs _; exact ⟨fun _ => trivial, fun _ => hP s hs⟩
  | cons e es ih =>
      intro s hs hA
      constructor
      · rintro ⟨_, htail⟩
        -- `P` holds after the step, so the step met `C`.
        have hC : C s e := by
          by_contra hC
          exact hexact s e hs hA.1 hC htail.head
        exact ⟨hC, (ih (hkeep s e hs hA.1 hC) hA.2).mp htail⟩
      · rintro ⟨hC, htail⟩
        exact ⟨hP s hs, (ih (hkeep s e hs hA.1 hC) hA.2).mpr htail⟩

/-- Every run meets the assumption that asks for nothing. -/
theorem stepsMeet_true {es : List ε} {s : σ} : StepsMeet step (fun _ _ => True) s es :=
  stepsMeet_iff_forall.mpr fun _ _ => trivial

/-- An exact condition in all runs. -/
theorem allStates_iff_stepsMeet (hP : ∀ s, Inv s → P s)
    (hkeep : ∀ s e, Inv s → C s e → Inv (step s e))
    (hexact : ∀ s e, Inv s → ¬ C s e → ¬ P (step s e)) {es : List ε} {s : σ} (hs : Inv s) :
    AllStates step P s es ↔ StepsMeet step C s es :=
  allStates_iff_stepsMeet_of hP (fun s e hs _ => hkeep s e hs) (fun s e hs _ => hexact s e hs) hs
    stepsMeet_true

/-! ## What goes in and comes out -/

/-- What `f` says of the steps of a run, one after another. -/
def along {α : Type*} (step : σ → ε → σ) (f : σ → ε → List α) : σ → List ε → List α
  | _, [] => []
  | s, e :: es => f s e ++ along step f (step s e) es

/-- A history that each step adds to is what the steps of a run add. -/
theorem history_foldl {α : Type*} {history : σ → List α} {f : σ → ε → List α}
    (hstep : ∀ s e, history (step s e) = history s ++ f s e) :
    ∀ (es : List ε) (s : σ), history (es.foldl step s) = history s ++ along step f s es := by
  intro es
  induction es with
  | nil => intro s; exact (List.append_nil _).symm
  | cons e es ih =>
      intro s
      show history (es.foldl step (step s e)) = history s ++ (f s e ++ along step f (step s e) es)
      rw [ih, hstep, List.append_assoc]

/-- When each step takes `input` in at the end of the content and lets `output` out at the front,
a run takes in what it lets out and what is left. -/
theorem conserved {α : Type*} {content : σ → List α} {input output : σ → ε → List α}
    (hkeep : ∀ s e, Inv s → C s e → Inv (step s e))
    (hstep : ∀ s e, Inv s → C s e →
      content s ++ input s e = output s e ++ content (step s e)) :
    ∀ {es : List ε} {s : σ}, Inv s → StepsMeet step C s es →
      content s ++ along step input s es = along step output s es ++ content (es.foldl step s) := by
  intro es
  induction es with
  | nil => intro s _ _; exact List.append_nil _
  | cons e es ih =>
      intro s hs hC
      have htail := ih (hkeep s e hs hC.1) hC.2
      show content s ++ (input s e ++ along step input (step s e) es) =
        output s e ++ along step output (step s e) es ++ content (es.foldl step (step s e))
      rw [← List.append_assoc, hstep s e hs hC.1, List.append_assoc, htail, List.append_assoc]

/-- A second step function that does the same from each state of a run makes the same run. -/
theorem run_congr {α : Type*} {step' : σ → ε → σ} (f : σ → ε → List α)
    (hkeep : ∀ s e, Inv s → C s e → Inv (step s e))
    (heq : ∀ s e, Inv s → C s e → step' s e = step s e) :
    ∀ {es : List ε} {s : σ}, Inv s → StepsMeet step C s es →
      es.foldl step' s = es.foldl step s ∧ along step' f s es = along step f s es := by
  intro es
  induction es with
  | nil => intro s _ _; exact ⟨rfl, rfl⟩
  | cons e es ih =>
      intro s hs hC
      obtain ⟨hfold, halong⟩ := ih (hkeep s e hs hC.1) hC.2
      have hstep := heq s e hs hC.1
      constructor
      · rw [List.foldl_cons, List.foldl_cons, hstep, hfold]
      · rw [along, along, hstep, halong]

/-! ## Infinite runs -/

/-- The state of an infinite run after its first `n` events. -/
def stateAt (step : σ → ε → σ) (s : σ) (events : Nat → ε) : Nat → σ
  | 0 => s
  | n + 1 => step (stateAt step s events n) (events n)

/-- Again and again in the run, an event is one that `A` asks for in its state. -/
def InfinitelyOften (step : σ → ε → σ) (A : σ → ε → Prop) (s : σ) (events : Nat → ε) : Prop :=
  ∀ n, ∃ m ≥ n, A (stateAt step s events m) (events m)

theorem inv_stateAt (hkeep : ∀ s e, Inv s → Inv (step s e)) {s : σ} (hs : Inv s)
    (events : Nat → ε) : ∀ n, Inv (stateAt step s events n) := by
  intro n
  induction n with
  | zero => exact hs
  | succ n ih => exact hkeep _ _ ih

/-- An infinite run goes on from each of its states. -/
theorem stateAt_add (s : σ) (events : Nat → ε) (n : Nat) : ∀ m, stateAt step s events (n + m) =
    stateAt step (stateAt step s events n) (fun k => events (n + k)) m := by
  intro m
  induction m with
  | zero => rfl
  | succ m ih => exact congrArg (step · (events (n + m))) ih

theorem InfinitelyOften.drop {A : σ → ε → Prop} {s : σ} {events : Nat → ε}
    (h : InfinitelyOften step A s events) (n : Nat) :
    InfinitelyOften step A (stateAt step s events n) fun k => events (n + k) := by
  intro k
  obtain ⟨m, hm, hA⟩ := h (n + k)
  obtain ⟨d, rfl⟩ := Nat.exists_eq_add_of_le (Nat.le_of_add_right_le hm)
  refine ⟨d, Nat.le_of_add_le_add_left hm, ?_⟩
  rw [← stateAt_add]
  exact hA

/-- Until the goal is reached no step raises the measure, and the steps that `A` asks for
lower it. Then the goal is reached. -/
theorem exists_goal_of_measure {β : Type*} [Preorder β] [WellFoundedLT β] (measure : σ → β)
    {A : σ → ε → Prop} {Goal : σ → Prop} (hkeep : ∀ s e, Inv s → Inv (step s e))
    (hle : ∀ s e, Inv s → ¬ Goal s → measure (step s e) ≤ measure s)
    (hlt : ∀ s e, Inv s → ¬ Goal s → A s e → measure (step s e) < measure s)
    {s : σ} (hs : Inv s) {events : Nat → ε} (hA : InfinitelyOften step A s events) :
    ∃ n, Goal (stateAt step s events n) := by
  by_contra hnever
  have hnever : ∀ n, ¬ Goal (stateAt step s events n) := fun n hn => hnever ⟨n, hn⟩
  have hinv := inv_stateAt hkeep hs events
  have hmono : ∀ n m, n ≤ m →
      measure (stateAt step s events m) ≤ measure (stateAt step s events n) := by
    intro n m hnm
    induction m, hnm using Nat.le_induction with
    | base => exact le_refl _
    | succ m _ ih => exact (hle _ (events m) (hinv m) (hnever m)).trans ih
  -- From each value that the measure has in the run it still goes down.
  have hfalse : ∀ b, ∀ n, measure (stateAt step s events n) = b → False := by
    intro b
    induction b using WellFoundedLT.induction with
    | ind b ih =>
        intro n hn
        obtain ⟨m, hnm, hm⟩ := hA n
        have hdown : measure (stateAt step s events (m + 1)) < b := by
          rw [← hn]
          exact (hlt _ _ (hinv m) (hnever m) hm).trans_le (hmono n m hnm)
        exact ih _ hdown (m + 1) rfl
  exact hfalse _ 0 rfl

open Classical in
/-- The same in a run all of whose events meet a condition. -/
theorem exists_goal_of_measure_of {β : Type*} [Preorder β] [WellFoundedLT β] (measure : σ → β)
    {A : σ → ε → Prop} {Goal : σ → Prop} (hkeep : ∀ s e, Inv s → C s e → Inv (step s e))
    (hle : ∀ s e, Inv s → C s e → ¬ Goal s → measure (step s e) ≤ measure s)
    (hlt : ∀ s e, Inv s → C s e → ¬ Goal s → A s e → measure (step s e) < measure s)
    {s : σ} (hs : Inv s) {events : Nat → ε} (hC : ∀ n, C (stateAt step s events n) (events n))
    (hA : InfinitelyOften step A s events) : ∃ n, Goal (stateAt step s events n) := by
  -- An event that does not meet the condition is taken as one that does nothing.
  let step' : σ → ε → σ := fun s e => if C s e then step s e else s
  have hsame : ∀ n, stateAt step' s events n = stateAt step s events n := by
    intro n
    induction n with
    | zero => rfl
    | succ n ih =>
        show step' (stateAt step' s events n) (events n) = step (stateAt step s events n) (events n)
        rw [ih]
        exact if_pos (hC n)
  have hkeep' : ∀ s e, Inv s → Inv (step' s e) := by
    intro s e hs
    by_cases hCe : C s e
    · rw [show step' s e = step s e from if_pos hCe]
      exact hkeep s e hs hCe
    · rw [show step' s e = s from if_neg hCe]
      exact hs
  have hle' : ∀ s e, Inv s → ¬ Goal s → measure (step' s e) ≤ measure s := by
    intro s e hs hgoal
    by_cases hCe : C s e
    · rw [show step' s e = step s e from if_pos hCe]
      exact hle s e hs hCe hgoal
    · rw [show step' s e = s from if_neg hCe]
  have hlt' : ∀ s e, Inv s → ¬ Goal s → C s e ∧ A s e → measure (step' s e) < measure s := by
    intro s e hs hgoal hA
    rw [show step' s e = step s e from if_pos hA.1]
    exact hlt s e hs hA.1 hgoal hA.2
  have hA' : InfinitelyOften step' (fun s e => C s e ∧ A s e) s events := by
    intro n
    obtain ⟨m, hm, hAm⟩ := hA n
    rw [← hsame] at hAm
    exact ⟨m, hm, hsame m ▸ hC m, hAm⟩
  obtain ⟨n, hn⟩ := exists_goal_of_measure measure hkeep' hle' hlt' hs hA'
  exact ⟨n, hsame n ▸ hn⟩

end RegistrationCenter.Lib
