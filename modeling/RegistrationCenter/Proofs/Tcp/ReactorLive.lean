import Mathlib.Data.Prod.Lex
import RegistrationCenter.Proofs.Tcp.ReactorRuns

/-!
# `RegistrationCenter.Proofs.Tcp.ReactorLive`: what happens in the end

Infinite runs in which each loop takes a step again and again. Nothing is assumed of the network,
of the kernel or of the user.

`TurnStep` says what one step of a thread can do to its turn. A thread comes round: it swaps its
queue again and again, and polls again and again. So each functor that is queued is run
(`functor_runs`), and a connection that is closed goes through `removeConnectionInLoop` and
`connectDestoryed` until nobody holds it (`eventually_destroyed`).
-/

set_option autoImplicit false

namespace RegistrationCenter

open Lib

namespace Reactor

variable {n : Nat} {s s' s'' : Reactor n} {c : Nat} {o : ConnectionObject n}

/-! ## What is queued -/

/-- The turns are as they were, and each queue has got functors at its end, all with `P`. -/
structure Queued (P : Task → Prop) (s s' : Reactor n) : Prop where
  turn : s'.turn = s.turn
  pending : ∀ i, ∃ ts, s'.m_pendingFunctors i = s.m_pendingFunctors i ++ ts ∧ ∀ t ∈ ts, P t

namespace Queued

variable {P : Task → Prop}

theorem refl (P : Task → Prop) (s : Reactor n) : Queued P s s :=
  ⟨rfl, fun _ => ⟨[], (List.append_nil _).symm, fun _ ht => absurd ht List.not_mem_nil⟩⟩

theorem trans (h : Queued P s s') (h' : Queued P s' s'') : Queued P s s'' where
  turn := h'.turn.trans h.turn
  pending i := by
    obtain ⟨ts, hts, hP⟩ := h.pending i
    obtain ⟨ts', hts', hP'⟩ := h'.pending i
    refine ⟨ts ++ ts', by rw [hts', hts, List.append_assoc], fun t ht => ?_⟩
    rcases List.mem_append.mp ht with ht | ht
    · exact hP t ht
    · exact hP' t ht

theorem imp {Q : Task → Prop} (h : Queued P s s') (hPQ : ∀ t, P t → Q t) : Queued Q s s' where
  turn := h.turn
  pending i := by
    obtain ⟨ts, hts, hP⟩ := h.pending i
    exact ⟨ts, hts, fun t ht => hPQ t (hP t ht)⟩

theorem mem (h : Queued P s s') {i : Fin (n + 1)} {t : Task}
    (ht : t ∈ s'.m_pendingFunctors i) : t ∈ s.m_pendingFunctors i ∨ P t := by
  obtain ⟨ts, hts, hP⟩ := h.pending i
  rw [hts] at ht
  exact (List.mem_append.mp ht).imp_right (hP t)

end Queued

theorem queued_queueInLoop (s : Reactor n) (i : Fin (n + 1)) (t : Task) :
    Queued (· = t) s (s.queueInLoop i t) where
  turn := rfl
  pending j := by
    by_cases hj : j = i
    · subst hj
      exact ⟨[t], Function.update_self .., fun t' ht' => List.mem_singleton.mp ht'⟩
    · refine ⟨[], ?_, fun _ ht' => absurd ht' List.not_mem_nil⟩
      rw [List.append_nil]
      exact Function.update_of_ne hj ..

theorem queued_removeConnectionInLoop (s : Reactor n) (c : Nat) :
    Queued (· = .connectDestoryed c) s (s.removeConnectionInLoop c) := by
  rw [removeConnectionInLoop]
  split
  · exact { Queued.refl _ s with }
  · rename_i o _
    exact { queued_queueInLoop { s with m_connections := s.m_connections.erase o.m_name } o.m_loop
      (.connectDestoryed c) with }

theorem queued_removeConnection (s : Reactor n) (i : Fin (n + 1)) (c : Nat) :
    Queued (·.connection = c) s (s.removeConnection i c) := by
  rw [removeConnection]
  split
  · exact (queued_removeConnectionInLoop s c).imp fun t ht => ht ▸ rfl
  · exact (queued_queueInLoop s _ _).imp fun t ht => ht ▸ rfl

/-- The callbacks of the user that a function leaves. -/
theorem queued_ran (s : Reactor n) (i : Fin (n + 1)) (c : Nat) (o : ConnectionObject n)
    (l : ConnectionLife) :
    Queued (fun t => t.connection = c ∧ l.connection.queued ≠ []) s (s.ran i c o l) where
  turn := rfl
  pending j := by
    by_cases hj : j = o.m_loop
    · subst hj
      refine ⟨_, Function.update_self .., fun t ht => ?_⟩
      obtain ⟨f, hf, rfl⟩ := List.mem_map.mp ht
      exact ⟨rfl, List.ne_nil_of_mem hf⟩
    · refine ⟨[], ?_, fun _ ht' => absurd ht' List.not_mem_nil⟩
      rw [List.append_nil]
      exact Function.update_of_ne hj ..

theorem queued_run (s : Reactor n) (i : Fin (n + 1)) (c : Nat)
    (f : ConnectionLife → ConnectionLife) : Queued (·.connection = c) s (s.run i c f) := by
  cases hc : s.objects c with
  | none =>
      rw [run, hc]
      exact { Queued.refl _ s with }
  | some o =>
      rw [run_eq hc]
      generalize (f (s.found o)).removing = times
      induction times with
      | zero => exact (queued_ran s i c o _).imp fun t ht => ht.1
      | succ times ih =>
          rw [Function.iterate_succ_apply']
          exact ih.trans (queued_removeConnection _ i c)

theorem queued_handle (s : Reactor n) (i : Fin (n + 1)) (c : Nat) (input : Input)
    (callback : ChannelCallback) :
    Queued (·.connection = c) s (s.handle i c input callback) := by
  cases callback
  all_goals
    rw [handle]
    exact queued_run ..

theorem queued_runTask (s : Reactor n) (i : Fin (n + 1)) (input : Input) (t : Task) :
    Queued (·.connection = t.connection) s (s.runTask i input t) := by
  cases t with
  | removeConnectionInLoop c =>
      exact (queued_removeConnectionInLoop s c).imp fun t ht => ht ▸ rfl
  | _ =>
      rw [runTask]
      exact queued_run ..

theorem queued_newConnection (s : Reactor n) (fd : Nat) (input : Input) :
    Queued (·.connection = s.next) s (s.newConnection fd input) := by
  rw [newConnection]
  generalize s.m_threadPool.getNextLoop = next
  obtain ⟨ioLoop, pool⟩ := next
  show Queued _ s (if ioLoop = baseLoop then (s.accepted ioLoop pool fd).run baseLoop s.next _
    else (s.accepted ioLoop pool fd).queueInLoop ioLoop (.connectEstablished s.next))
  split
  · exact { queued_run (s.accepted ioLoop pool fd) baseLoop s.next _ with }
  · exact { (queued_queueInLoop (s.accepted ioLoop pool fd) ioLoop
      (.connectEstablished s.next)).imp fun t ht => ht ▸ rfl with }

/-! ## The turns of a thread -/

/-- What a step of the thread does to its turn. -/
inductive TurnStep : Turn → Turn → Prop
  | poll (active : List (Nat × Revents)) : TurnStep .polling (.dispatching active)
  | swap (todo : List Task) : TurnStep (.dispatching []) (.running [] todo)
  | skip (e : Nat × Revents) (active : List (Nat × Revents)) :
      TurnStep (.dispatching (e :: active)) (.dispatching active)
  | enter (c : Nat) (revents : Revents) (guard : Bool) (active : List (Nat × Revents)) :
      TurnStep (.dispatching ((c, revents) :: active))
        (.handling c guard (Channel.handelEventWithGuard revents) active)
  | leave (c : Nat) (guard : Bool) (active : List (Nat × Revents)) :
      TurnStep (.handling c guard [] active) (.dispatching active)
  | call (c : Nat) (guard : Bool) (callback : ChannelCallback) (callbacks : List ChannelCallback)
      (active : List (Nat × Revents)) :
      TurnStep (.handling c guard (callback :: callbacks) active)
        (.handling c guard callbacks active)
  | functor (done todo : List Task) (t : Task) :
      TurnStep (.running done (t :: todo)) (.running (done ++ [t]) todo)
  | finish (done : List Task) : TurnStep (.running done []) .polling

/-- A functor of the batch is the next one, or it stays in the batch. -/
theorem TurnStep.todo {turn turn' : Turn} (h : TurnStep turn turn') {t : Task}
    (ht : t ∈ turn.todo) :
    (∃ done todo, turn = .running done (t :: todo)) ∨ t ∈ turn'.todo := by
  cases h with
  | functor done todo t' =>
      rcases List.mem_cons.mp ht with rfl | ht
      · exact .inl ⟨done, todo, rfl⟩
      · exact .inr ht
  | poll active => exact absurd ht List.not_mem_nil
  | swap todo => exact absurd ht List.not_mem_nil
  | skip e active => exact absurd ht List.not_mem_nil
  | enter c revents guard active => exact absurd ht List.not_mem_nil
  | leave c guard active => exact absurd ht List.not_mem_nil
  | call c guard callback callbacks active => exact absurd ht List.not_mem_nil
  | finish done => exact absurd ht List.not_mem_nil

/-- Only the swap brings functors into a batch. -/
theorem TurnStep.funcs {turn turn' : Turn} (h : TurnStep turn turn')
    (hturn : turn ≠ .dispatching []) {t : Task} (ht : t ∈ turn'.funcs) : t ∈ turn.funcs := by
  cases h with
  | swap todo => exact absurd rfl hturn
  | functor done todo t' =>
      have hmem : t ∈ done ++ [t'] ++ todo := ht
      rwa [List.append_assoc] at hmem
  | poll active => exact absurd ht List.not_mem_nil
  | skip e active => exact absurd ht List.not_mem_nil
  | enter c revents guard active => exact absurd ht List.not_mem_nil
  | leave c guard active => exact absurd ht List.not_mem_nil
  | call c guard callback callbacks active => exact absurd ht List.not_mem_nil
  | finish done => exact absurd ht List.not_mem_nil

theorem turn_setTurn (s : Reactor n) (i : Fin (n + 1)) (turn : Turn) :
    (s.setTurn i turn).turn i = turn :=
  Function.update_self ..

theorem turnStep_advance (s : Reactor n) (i : Fin (n + 1)) (input : Input) :
    TurnStep (s.turn i) ((s.advance i input).turn i) := by
  rw [advance]
  split
  case h_1 hturn =>
    rw [hturn, turn_setTurn]
    exact .poll _
  case h_2 hturn =>
    rw [hturn]
    show TurnStep _ ((s.setTurn i _).turn i)
    rw [turn_setTurn]
    exact .swap _
  case h_3 c revents active hturn =>
    rw [hturn]
    split
    · show TurnStep _ ((s.setTurn i _).turn i)
      rw [turn_setTurn]
      exact .skip _ _
    · rw [turn_setTurn]
      exact .enter ..
  case h_4 hturn =>
    rw [hturn, turn_setTurn]
    exact .leave ..
  case h_5 hturn =>
    rw [hturn, turn_setTurn]
    exact .call ..
  case h_6 hturn =>
    rw [hturn, turn_setTurn]
    exact .functor ..
  case h_7 hturn =>
    rw [hturn, turn_setTurn]
    exact .finish _

/-- The step is one of the thread of loop `i`. -/
def IsNext (i : Fin (n + 1)) (e : Event n) : Prop := ∃ input, e = .next i input

/-- What a step of the thread of loop `i` queues in the loops. -/
theorem queued_advance (s : Reactor n) (i : Fin (n + 1)) (input : Input)
    (hturn : s.turn i ≠ .dispatching []) (j : Fin (n + 1)) :
    ∃ ts, (s.advance i input).m_pendingFunctors j = s.m_pendingFunctors j ++ ts := by
  have hnone : ∃ ts, s.m_pendingFunctors j = s.m_pendingFunctors j ++ ts :=
    ⟨[], (List.append_nil _).symm⟩
  rw [advance]
  split
  case h_1 => exact hnone
  case h_2 hnil => exact absurd hnil hturn
  case h_3 =>
    split
    · exact hnone
    · exact hnone
  case h_4 => exact hnone
  case h_5 c guard callback callbacks active _ =>
    obtain ⟨ts, hts, -⟩ := (queued_handle s i c input callback).pending j
    exact ⟨ts, hts⟩
  case h_6 done t todo _ =>
    obtain ⟨ts, hts, -⟩ := (queued_runTask s i input t).pending j
    exact ⟨ts, hts⟩
  case h_7 => exact hnone

theorem turn_setTurn_of_ne (s : Reactor n) {i j : Fin (n + 1)} (hij : i ≠ j) (turn : Turn) :
    (s.setTurn j turn).turn i = s.turn i :=
  Function.update_of_ne hij ..

theorem turn_advance_of_ne (s : Reactor n) {i j : Fin (n + 1)} (hij : i ≠ j) (input : Input) :
    (s.advance j input).turn i = s.turn i := by
  rw [advance]
  split
  case h_1 => exact turn_setTurn_of_ne s hij _
  case h_2 => exact turn_setTurn_of_ne s hij _
  case h_3 =>
    split
    · exact turn_setTurn_of_ne s hij _
    · exact turn_setTurn_of_ne s hij _
  case h_4 => exact turn_setTurn_of_ne s hij _
  case h_5 => rw [turn_setTurn_of_ne _ hij, (queued_handle ..).turn]
  case h_6 => rw [turn_setTurn_of_ne _ hij, (queued_runTask ..).turn]
  case h_7 => exact turn_setTurn_of_ne s hij _

/-- A step of the server and the turn of loop `i`. -/
theorem step_turn (s : Reactor n) (e : Event n) (i : Fin (n + 1)) :
    IsNext i e ∧ TurnStep (s.turn i) ((s.step e).turn i) ∨
      ¬ IsNext i e ∧ (s.step e).turn i = s.turn i := by
  cases e with
  | accept fd input =>
      refine .inr ⟨fun hnext => ?_, ?_⟩
      · obtain ⟨_, heq⟩ := hnext
        cases heq
      · rw [step]
        split
        · exact congrFun (queued_newConnection s fd input).turn i
        · rfl
  | next j input =>
      by_cases hij : i = j
      · subst hij
        exact .inl ⟨⟨input, rfl⟩, turnStep_advance s i input⟩
      · refine .inr ⟨fun hnext => ?_, turn_advance_of_ne s hij input⟩
        obtain ⟨_, heq⟩ := hnext
        cases heq
        exact hij rfl

/-- A step of the server and the queue of loop `i`: its thread swaps the queue, or functors come
to its end. -/
theorem step_pending (s : Reactor n) (e : Event n) (i : Fin (n + 1)) :
    (IsNext i e ∧ s.turn i = .dispatching [] ∧ (s.step e).m_pendingFunctors i = [] ∧
        (s.step e).turn i = .running [] (s.m_pendingFunctors i)) ∨
      ¬ (IsNext i e ∧ s.turn i = .dispatching []) ∧
        ∃ ts, (s.step e).m_pendingFunctors i = s.m_pendingFunctors i ++ ts := by
  cases e with
  | accept fd input =>
      refine .inr ⟨?_, ?_⟩
      · rintro ⟨⟨_, heq⟩, -⟩
        cases heq
      rw [step]
      split
      · obtain ⟨ts, hts, -⟩ := (queued_newConnection s fd input).pending i
        exact ⟨ts, hts⟩
      · exact ⟨[], (List.append_nil _).symm⟩
  | next j input =>
      by_cases hturn : s.turn j = .dispatching []
      · have hstep : s.step (.next j input) =
            ({ s.setTurn j (.running [] (s.m_pendingFunctors j)) with
              m_pendingFunctors :=
                Function.update s.m_pendingFunctors j [] } : Reactor n).reap := by
          rw [step, advance, hturn]
        by_cases hij : i = j
        · subst hij
          rw [hstep]
          exact .inl ⟨⟨input, rfl⟩, hturn, Function.update_self .., Function.update_self ..⟩
        · rw [hstep]
          refine .inr ⟨?_, [], ?_⟩
          · rintro ⟨⟨_, heq⟩, -⟩
            cases heq
            exact hij rfl
          · rw [List.append_nil]
            exact Function.update_of_ne hij ..
      · refine .inr ⟨?_, queued_advance s j input hturn i⟩
        rintro ⟨⟨_, heq⟩, hnil⟩
        cases heq
        exact hturn hnil

/-- The next functor of loop `i` is `t`. -/
def NextFunctor (s : Reactor n) (i : Fin (n + 1)) (t : Task) : Prop :=
  ∃ done todo, s.turn i = .running done (t :: todo)

/-- A functor of the batch stays there until it is its turn. -/
theorem mem_todo_step {e : Event n} {i : Fin (n + 1)} {t : Task}
    (ht : t ∈ (s.turn i).todo) (hnot : ¬ (IsNext i e ∧ s.NextFunctor i t)) :
    t ∈ ((s.step e).turn i).todo := by
  rcases step_turn s e i with ⟨hnext, hstep⟩ | ⟨-, hsame⟩
  · rcases hstep.todo ht with hrun | hkept
    · exact absurd ⟨hnext, hrun⟩ hnot
    · exact hkept
  · rw [hsame]
    exact ht

/-- A functor that waits goes on to wait until it is its turn. -/
theorem mem_waiting_step {e : Event n} {i : Fin (n + 1)} {t : Task}
    (ht : t ∈ s.waiting i) (hnot : ¬ (IsNext i e ∧ s.NextFunctor i t)) :
    t ∈ (s.step e).waiting i := by
  rcases List.mem_append.mp ht with htodo | hpending
  · exact List.mem_append_left _ (mem_todo_step htodo hnot)
  · rcases step_pending s e i with ⟨-, -, -, hturn⟩ | ⟨-, ts, hts⟩
    · rw [waiting, hturn]
      exact List.mem_append_left _ hpending
    · rw [waiting, hts]
      exact List.mem_append_right _ (List.mem_append_left _ hpending)

/-- The batch of a loop comes out of its queue. -/
theorem funcs_step {e : Event n} {i : Fin (n + 1)} {t : Task}
    (ht : t ∈ ((s.step e).turn i).funcs) : t ∈ s.tasks i := by
  rcases step_pending s e i with ⟨-, -, -, hturn⟩ | ⟨hnoSwap, -⟩
  · rw [hturn] at ht
    exact List.mem_append_left _ ht
  · rcases step_turn s e i with ⟨hnext, hstep⟩ | ⟨-, hsame⟩
    · exact List.mem_append_right _ (hstep.funcs (fun hnil => hnoSwap ⟨hnext, hnil⟩) ht)
    · rw [hsame] at ht
      exact List.mem_append_right _ ht

/-! ## A thread comes round -/

variable {events : Nat → Event n}

/-- The thread of loop `i` takes a step again and again. -/
def Fair (i : Fin (n + 1)) (events : Nat → Event n) : Prop :=
  ∀ k, ∃ m ≥ k, IsNext i (events m)

/-- A rank of the turns that each step of the thread lowers, up to a turn with `G`: the thread
gets there. -/
theorem exists_turn {i : Fin (n + 1)} (hfair : Fair i events) {G : Turn → Prop}
    (rank : Turn → ℕ ×ₗ ℕ)
    (hrank : ∀ turn turn', TurnStep turn turn' → ¬ G turn → rank turn' < rank turn)
    (s : Reactor n) (k : Nat) : ∃ m ≥ k, G ((stateAt step s events m).turn i) := by
  have hdown : ∀ (s : Reactor n) (e : Event n), True → ¬ G (s.turn i) → IsNext i e →
      rank ((s.step e).turn i) < rank (s.turn i) := by
    intro s e _ hG hnext
    rcases step_turn s e i with ⟨-, hstep⟩ | ⟨hnot, -⟩
    · exact hrank _ _ hstep hG
    · exact absurd hnext hnot
  have hle : ∀ (s : Reactor n) (e : Event n), True → ¬ G (s.turn i) →
      rank ((s.step e).turn i) ≤ rank (s.turn i) := by
    intro s e _ hG
    rcases step_turn s e i with ⟨hnext, -⟩ | ⟨-, hsame⟩
    · exact le_of_lt (hdown s e trivial hG hnext)
    · rw [hsame]
  have hoften : InfinitelyOften step (fun _ e => IsNext i e) s events := hfair
  have hkeep : ∀ (s : Reactor n) (e : Event n), True → True := fun _ _ h => h
  obtain ⟨m, hm⟩ := exists_goal_of_measure (fun s : Reactor n => rank (s.turn i)) hkeep hle hdown
    trivial (hoften.drop k)
  rw [← stateAt_add] at hm
  exact ⟨k + m, Nat.le_add_right _ _, hm⟩

/-- A turn stays until the thread takes its step. -/
theorem exists_next {i : Fin (n + 1)} (hfair : Fair i events) (s : Reactor n) (k : Nat) :
    ∃ m ≥ k, IsNext i (events m) ∧
      (stateAt step s events m).turn i = (stateAt step s events k).turn i := by
  -- The induction is on how far off the step is that the thread takes some time.
  have hstays : ∀ d k, IsNext i (events (k + d)) → ∃ m ≥ k, IsNext i (events m) ∧
      (stateAt step s events m).turn i = (stateAt step s events k).turn i := by
    intro d
    induction d with
    | zero => exact fun k hnext => ⟨k, le_refl k, hnext, rfl⟩
    | succ d ih =>
        intro k hnext
        rcases step_turn (stateAt step s events k) (events k) i with ⟨hnow, -⟩ | ⟨-, hsame⟩
        · exact ⟨k, le_refl k, hnow, rfl⟩
        · have hnext' : IsNext i (events (k + 1 + d)) := by
            rw [Nat.add_right_comm]
            exact hnext
          obtain ⟨m, hm, hnext, hturn⟩ := ih (k + 1) hnext'
          exact ⟨m, Nat.le_of_succ_le hm, hnext, hturn.trans hsame⟩
  obtain ⟨m, hm, hnext⟩ := hfair k
  obtain ⟨d, rfl⟩ := Nat.exists_eq_add_of_le hm
  exact hstays d k hnext

/-- How much the active channels have to do. -/
def dispatchRank (active : List (Nat × Revents)) : Nat :=
  (active.map fun e => (Channel.handelEventWithGuard e.2).length + 2).sum

/-- The steps to the next `poll`: the active channels first, then the batch. -/
def pollRank : Turn → ℕ ×ₗ ℕ
  | .polling => toLex (0, 0)
  | .dispatching active => toLex (1, dispatchRank active)
  | .handling _ _ callbacks active => toLex (1, callbacks.length + 1 + dispatchRank active)
  | .running _ todo => toLex (0, todo.length + 1)

/-- The steps to the next swap: the batch first, then `poll` and the active channels. -/
def swapRank : Turn → ℕ ×ₗ ℕ
  | .polling => toLex (1, 0)
  | .dispatching active => toLex (0, dispatchRank active)
  | .handling _ _ callbacks active => toLex (0, callbacks.length + 1 + dispatchRank active)
  | .running _ todo => toLex (1, todo.length + 1)

theorem pollRank_lt {turn turn' : Turn} (h : TurnStep turn turn') (hpolling : turn ≠ .polling) :
    pollRank turn' < pollRank turn := by
  cases h with
  | poll active => exact absurd rfl hpolling
  | swap todo => exact Prod.Lex.toLex_lt_toLex.mpr (.inl Nat.zero_lt_one)
  | skip e active =>
      refine Prod.Lex.toLex_lt_toLex.mpr (.inr ⟨rfl, ?_⟩)
      simp [dispatchRank]
  | enter c revents guard active =>
      refine Prod.Lex.toLex_lt_toLex.mpr (.inr ⟨rfl, ?_⟩)
      simp [dispatchRank]
  | leave c guard active =>
      refine Prod.Lex.toLex_lt_toLex.mpr (.inr ⟨rfl, ?_⟩)
      simp
  | call c guard callback callbacks active =>
      refine Prod.Lex.toLex_lt_toLex.mpr (.inr ⟨rfl, ?_⟩)
      simp
  | functor done todo t =>
      refine Prod.Lex.toLex_lt_toLex.mpr (.inr ⟨rfl, ?_⟩)
      simp
  | finish done => exact Prod.Lex.toLex_lt_toLex.mpr (.inr ⟨rfl, Nat.zero_lt_one⟩)

theorem swapRank_lt {turn turn' : Turn} (h : TurnStep turn turn')
    (hswap : turn ≠ .dispatching []) : swapRank turn' < swapRank turn := by
  cases h with
  | poll active => exact Prod.Lex.toLex_lt_toLex.mpr (.inl Nat.zero_lt_one)
  | swap todo => exact absurd rfl hswap
  | skip e active =>
      refine Prod.Lex.toLex_lt_toLex.mpr (.inr ⟨rfl, ?_⟩)
      simp [dispatchRank]
  | enter c revents guard active =>
      refine Prod.Lex.toLex_lt_toLex.mpr (.inr ⟨rfl, ?_⟩)
      simp [dispatchRank]
  | leave c guard active =>
      refine Prod.Lex.toLex_lt_toLex.mpr (.inr ⟨rfl, ?_⟩)
      simp
  | call c guard callback callbacks active =>
      refine Prod.Lex.toLex_lt_toLex.mpr (.inr ⟨rfl, ?_⟩)
      simp
  | functor done todo t =>
      refine Prod.Lex.toLex_lt_toLex.mpr (.inr ⟨rfl, ?_⟩)
      simp
  | finish done => exact Prod.Lex.toLex_lt_toLex.mpr (.inr ⟨rfl, Nat.zero_lt_one⟩)

/-- The thread polls again and again. -/
theorem exists_polling {i : Fin (n + 1)} (hfair : Fair i events) (s : Reactor n) (k : Nat) :
    ∃ m ≥ k, (stateAt step s events m).turn i = .polling :=
  exists_turn hfair pollRank (fun _ _ h hG => pollRank_lt h hG) s k

/-- The thread swaps its queue again and again. -/
theorem exists_swap {i : Fin (n + 1)} (hfair : Fair i events) (s : Reactor n) (k : Nat) :
    ∃ m ≥ k, IsNext i (events m) ∧ (stateAt step s events m).turn i = .dispatching [] := by
  obtain ⟨m, hm, hturn⟩ := exists_turn hfair swapRank (fun _ _ h hG => swapRank_lt h hG) s k
  obtain ⟨m', hm', hnext, hsame⟩ := exists_next hfair s m
  exact ⟨m', hm.trans hm', hnext, hsame.trans hturn⟩

/-! ## The functors are run -/

/-- Each functor that waits in a loop is run by the thread of the loop in the end, as long as this
thread takes its steps, whatever the other threads do. -/
theorem functor_runs (s : Reactor n) {i : Fin (n + 1)} (hfair : Fair i events) {k : Nat} {t : Task}
    (ht : t ∈ (stateAt step s events k).waiting i) :
    ∃ m ≥ k, IsNext i (events m) ∧ (stateAt step s events m).NextFunctor i t := by
  by_contra hnever
  have hnot : ∀ m ≥ k,
      ¬ (IsNext i (events m) ∧ (stateAt step s events m).NextFunctor i t) :=
    fun m hm hrun => hnever ⟨m, hm, hrun⟩
  have hwaits : ∀ m ≥ k, t ∈ (stateAt step s events m).waiting i := by
    intro m hm
    induction m, hm using Nat.le_induction with
    | base => exact ht
    | succ m hm ih => exact mem_waiting_step ih (hnot m hm)
  -- The next swap brings it into the batch, where it stays for ever.
  obtain ⟨m₁, hm₁, hnext, hturn⟩ := exists_swap hfair s k
  have hbatch : t ∈ ((stateAt step s events (m₁ + 1)).turn i).todo := by
    have hpending := hwaits m₁ hm₁
    rw [waiting, hturn] at hpending
    rcases step_pending (stateAt step s events m₁) (events m₁) i with
      ⟨-, -, -, hturn'⟩ | ⟨hnoSwap, -⟩
    · show t ∈ ((step (stateAt step s events m₁) (events m₁)).turn i).todo
      rw [hturn']
      exact hpending
    · exact absurd ⟨hnext, hturn⟩ hnoSwap
  have hstays : ∀ m ≥ m₁ + 1, t ∈ ((stateAt step s events m).turn i).todo := by
    intro m hm
    induction m, hm using Nat.le_induction with
    | base => exact hbatch
    | succ m hm ih => exact mem_todo_step ih (hnot m (by omega))
  -- But the batch comes to its end.
  obtain ⟨m₂, hm₂, hpolling⟩ := exists_polling hfair s (m₁ + 1)
  have hmem := hstays m₂ hm₂
  rw [hpolling] at hmem
  exact absurd hmem List.not_mem_nil

/-- When no more functors with `P` come into the queue of a loop, it has none in the end. -/
theorem exists_flushed (s : Reactor n) {i : Fin (n + 1)} (hfair : Fair i events) {P : Task → Prop}
    {k : Nat} (hnew : ∀ m ≥ k, ∀ t, P t → t ∈ (stateAt step s events (m + 1)).m_pendingFunctors i →
      t ∈ (stateAt step s events m).m_pendingFunctors i) :
    ∃ m ≥ k, ∀ m' ≥ m, ∀ t ∈ (stateAt step s events m').tasks i, ¬ P t := by
  obtain ⟨m₁, hm₁, hnext, hturn⟩ := exists_swap hfair s k
  -- The swap leaves the queue empty, and none with `P` comes after it.
  have hpending : ∀ m ≥ m₁ + 1, ∀ t ∈ (stateAt step s events m).m_pendingFunctors i, ¬ P t := by
    intro m hm
    induction m, hm using Nat.le_induction with
    | base =>
        rcases step_pending (stateAt step s events m₁) (events m₁) i with
          ⟨-, -, hnil, -⟩ | ⟨hnoSwap, -⟩
        · show ∀ t ∈ (step (stateAt step s events m₁) (events m₁)).m_pendingFunctors i, ¬ P t
          rw [hnil]
          exact fun t ht => absurd ht List.not_mem_nil
        · exact absurd ⟨hnext, hturn⟩ hnoSwap
    | succ m hm ih => exact fun t ht hP => ih t (hnew m (by omega) t hP ht) hP
  -- At the next `poll` the batch is over, too.
  obtain ⟨m₂, hm₂, hpolling⟩ := exists_polling hfair s (m₁ + 1)
  refine ⟨m₂, by omega, fun m hm => ?_⟩
  induction m, hm using Nat.le_induction with
  | base =>
      intro t ht
      rw [tasks, hpolling] at ht
      exact hpending m₂ hm₂ t (by simpa [Turn.funcs] using ht)
  | succ m hm ih =>
      intro t ht
      rcases List.mem_append.mp ht with hmem | hfunc
      · exact hpending (m + 1) (by omega) t hmem
      · exact ih t (funcs_step hfunc)

/-! ## A closed connection -/

/-- What a step keeps of a connection: its loop, its name, that it is closed, and that the channel
of a closed connection has been removed. -/
structure Later (o o' : ConnectionObject n) : Prop where
  m_loop : o'.m_loop = o.m_loop
  m_name : o'.m_name = o.m_name
  closed : o.life.connection.m_state = .kDisconnected →
    o'.life.connection.m_state = .kDisconnected
  removed : o.life.connection.m_state = .kDisconnected → o.life.m_channel.m_index = .kNew →
    o'.life.m_channel.m_index = .kNew

theorem Later.refl (o : ConnectionObject n) : Later o o :=
  ⟨rfl, rfl, fun h => h, fun _ h => h⟩

theorem Later.of_kept {l : ConnectionLife} (h : ConnectionLife.Kept (s.found o) l) :
    Later o { o with life := l } := by
  refine ⟨rfl, rfl, fun hclosed => ?_, fun _ hnew => h.registered.mpr hnew⟩
  rcases h.state with hsame | ⟨hconnected, -⟩
  · exact hsame.trans hclosed
  · exact StateE.noConfusion (hclosed.symm.trans hconnected)

theorem Later.of_closed {l : ConnectionLife} (h : ConnectionLife.Closed (s.found o) l)
    (hindex : o.life.m_channel.m_index ≠ .kNew) : Later o { o with life := l } :=
  ⟨rfl, rfl, fun _ => h.state, fun _ hnew => absurd hnew hindex⟩

theorem objects_removeConnection (s : Reactor n) (i : Fin (n + 1)) (c : Nat) :
    (s.removeConnection i c).objects = s.objects := by
  rw [removeConnection]
  split
  · rw [removeConnectionInLoop]
    split
    · rfl
    · rfl
  · rfl

theorem objects_run (hc : s.objects c = some o) (i : Fin (n + 1))
    (f : ConnectionLife → ConnectionLife) : (s.run i c f).objects =
      Function.update s.objects c (some { o with life := f (s.found o) }) := by
  rw [run_eq hc]
  generalize (f (s.found o)).removing = times
  induction times with
  | zero => rfl
  | succ times ih => rw [Function.iterate_succ_apply', objects_removeConnection, ih]

/-- A function runs on one connection. -/
theorem later_run {a : Nat} {oa : ConnectionObject n} (ha : s.objects a = some oa)
    (i : Fin (n + 1)) {f : ConnectionLife → ConnectionLife}
    (hlater : Later oa { oa with life := f (s.found oa) }) {o' : ConnectionObject n}
    (hc' : (s.run i a f).objects c = some o') : ∃ o, s.objects c = some o ∧ Later o o' := by
  rw [objects_run ha] at hc'
  by_cases hca : c = a
  · subst hca
    rw [Function.update_self] at hc'
    obtain rfl := Option.some.inj hc'
    exact ⟨oa, ha, hlater⟩
  · rw [Function.update_of_ne hca] at hc'
    exact ⟨o', hc', .refl o'⟩

/-- `connectEstablished` waits for a connection that is not established. -/
theorem Sound.connecting (h : s.Sound) (hc : s.objects c = some o)
    (ht : .connectEstablished c ∈ s.waiting o.m_loop) :
    o.life.connection.m_state = .kConnecting := by
  have hcount := List.count_pos_iff.mpr ht
  have hwaits := (h.stands c o hc).waits
  by_contra hne
  rw [if_neg hne] at hwaits
  exact absurd (hwaits ▸ hcount) (Nat.lt_irrefl 0)

/-- `connectDestoryed` waits for a closed connection. -/
theorem Sound.closed (h : s.Sound) (hc : s.objects c = some o)
    (ht : .connectDestoryed c ∈ s.waiting o.m_loop) :
    o.life.connection.m_state = .kDisconnected := by
  have hcount := List.count_pos_iff.mpr ht
  by_contra hne
  exact absurd (((h.stands c o hc).quiet hne).2 ▸ hcount) (Nat.lt_irrefl 0)

theorem Sound.later_runTask (h : s.Sound) {i : Fin (n + 1)} {t : Task}
    (ht : t ∈ s.waiting i) (input : Input) {o' : ConnectionObject n}
    (hc' : (s.runTask i input t).objects c = some o') :
    ∃ o, s.objects c = some o ∧ Later o o' := by
  obtain ⟨oa, ha, hhome⟩ := h.tasks i t (mem_tasks_of_waiting ht)
  have hs := h.stands t.connection oa ha
  have hplaced : (s.found oa).m_channel.Placed (s.found oa).poller :=
    (h.object t.connection oa ha).placed
  cases t with
  | connectEstablished a =>
      obtain rfl : oa.m_loop = i := hhome
      have hconnecting := h.connecting ha ht
      refine later_run ha oa.m_loop (f := fun l => l.connectEstablished.act input.actions)
        ⟨rfl, rfl, fun hclosed => ?_, fun hclosed => ?_⟩ hc'
      · exact StateE.noConfusion (hconnecting.symm.trans hclosed)
      · exact StateE.noConfusion (hconnecting.symm.trans hclosed)
  | removeConnectionInLoop a =>
      have hsame := objects_removeConnection s baseLoop a
      rw [removeConnection, if_pos rfl] at hsame
      have hc₁ : (s.removeConnectionInLoop a).objects c = some o' := hc'
      rw [hsame] at hc₁
      exact ⟨o', hc₁, .refl o'⟩
  | connectDestoryed a =>
      obtain rfl : oa.m_loop = i := hhome
      have hclosed := h.closed ha ht
      obtain ⟨-, hstate, hindex, -⟩ :=
        ConnectionLife.connectDestoryed_spec (l := s.found oa) hplaced hclosed
      exact later_run ha oa.m_loop (f := ConnectionLife.connectDestoryed)
        ⟨rfl, rfl, fun _ => hstate, fun _ _ => hindex⟩ hc'
  | userCallback a =>
      exact later_run ha i (f := fun l => l.act input.actions)
        (Later.of_kept (ConnectionLife.kept_act input.actions hplaced hs.reads)) hc'

theorem Sound.later_advance (h : s.Sound) (i : Fin (n + 1)) (input : Input)
    {o' : ConnectionObject n} (hc' : (s.advance i input).objects c = some o') :
    ∃ o, s.objects c = some o ∧ Later o o' := by
  have hactive := h.active i
  rw [Reactor.advance] at hc'
  split at hc'
  case h_1 => exact ⟨o', hc', .refl o'⟩
  case h_2 => exact ⟨o', hc', .refl o'⟩
  case h_3 =>
    split at hc'
    · exact ⟨o', hc', .refl o'⟩
    · exact ⟨o', hc', .refl o'⟩
  case h_4 => exact ⟨o', hc', .refl o'⟩
  case h_5 a guard callback callbacks active hturn =>
    rw [hturn] at hactive
    obtain ⟨oa, ha, -, hindex⟩ := hactive a (List.mem_cons_self ..)
    obtain ⟨f, hf, hkept | hclosed⟩ := h.handle_cases ha hindex input callback
    · have hc₁ : (s.handle i a input callback).objects c = some o' := hc'
      rw [hf] at hc₁
      exact later_run ha i (Later.of_kept hkept) hc₁
    · have hc₁ : (s.handle i a input callback).objects c = some o' := hc'
      rw [hf] at hc₁
      exact later_run ha i (Later.of_closed hclosed hindex) hc₁
  case h_6 done t todo hturn =>
    have ht : t ∈ s.waiting i := by
      rw [waiting, hturn]
      exact List.mem_append_left _ (List.mem_cons_self ..)
    exact h.later_runTask ht input hc'
  case h_7 => exact ⟨o', hc', .refl o'⟩

/-- A connection of after the step was there before, but for a new one. -/
theorem Sound.later_step (h : s.Sound) (e : Event n) (hlt : c < s.next)
    {o' : ConnectionObject n} (hc' : (s.step e).objects c = some o') :
    ∃ o, s.objects c = some o ∧ Later o o' := by
  cases e with
  | next i input => exact h.later_advance i input (objects_reap_eq_some hc').2
  | accept fd input =>
      rw [Reactor.step] at hc'
      split at hc'
      · have hne : c ≠ s.next := Nat.ne_of_lt hlt
        have hnew := (objects_reap_eq_some hc').2
        rw [Reactor.newConnection] at hnew
        generalize s.m_threadPool.getNextLoop = next at hnew
        obtain ⟨ioLoop, pool⟩ := next
        have hnew : (if ioLoop = baseLoop then
            (s.accepted ioLoop pool fd).run baseLoop s.next fun l =>
              l.connectEstablished.act input.actions
          else (s.accepted ioLoop pool fd).queueInLoop ioLoop
            (.connectEstablished s.next)).objects c = some o' := hnew
        split at hnew
        · rw [objects_run objects_accepted_next, Function.update_of_ne hne,
            objects_accepted_of_ne hne] at hnew
          exact ⟨o', hnew, .refl o'⟩
        · have hold : (s.accepted ioLoop pool fd).objects c = some o' := hnew
          rw [objects_accepted_of_ne hne] at hold
          exact ⟨o', hold, .refl o'⟩
      · exact ⟨o', hc', .refl o'⟩

/-- `m_connections` gets an entry for a new connection only. -/
theorem listed_step (e : Event n) (hlt : c < s.next) {name : String}
    (hlisted : (s.step e).m_connections.lookup name = some c) :
    s.m_connections.lookup name = some c := by
  cases e with
  | next i input => exact (samePlaces_advance s i input).listed name c hlisted
  | accept fd input =>
      rw [step] at hlisted
      split at hlisted
      · have hnew : (s.newConnection fd input).m_connections.lookup name = some c := hlisted
        obtain ⟨ioLoop, pool, hsame, -⟩ := samePlaces_newConnection s fd input
        have hinsert : (s.m_connections.insert (s.newObject ioLoop fd).m_name s.next).lookup name =
          some c := hsame.listed name c hnew
        by_cases hname : name = (s.newObject ioLoop fd).m_name
        · rw [hname, AList.lookup_insert] at hinsert
          exact absurd (Option.some.inj hinsert).symm (Nat.ne_of_lt hlt)
        · rw [AList.lookup_insert_ne hname] at hinsert
          exact hinsert
      · exact hlisted

theorem next_step (s : Reactor n) (e : Event n) : s.next ≤ (s.step e).next := by
  cases e with
  | next i input => exact le_of_eq (samePlaces_advance s i input).next.symm
  | accept fd input =>
      rw [step]
      split
      · obtain ⟨ioLoop, pool, hsame, -⟩ := samePlaces_newConnection s fd input
        have hnext : (s.newConnection fd input).next = s.next + 1 := hsame.next
        show s.next ≤ (s.newConnection fd input).next
        omega
      · exact le_refl _

/-! ### The functors that lead to the end -/

theorem step_functor {i : Fin (n + 1)} {e : Event n} (hnext : IsNext i e) {t : Task}
    (ht : s.NextFunctor i t) : ∃ input done todo,
      s.step e = ((s.runTask i input t).setTurn i (.running (done ++ [t]) todo)).reap := by
  obtain ⟨input, rfl⟩ := hnext
  obtain ⟨done, todo, hturn⟩ := ht
  refine ⟨input, done, todo, ?_⟩
  rw [step, advance, hturn]

/-- `removeConnectionInLoop` takes the connection out of `m_connections`, and hands over
`connectDestoryed`. -/
theorem step_removeConnectionInLoop {e : Event n} (hnext : IsNext baseLoop e)
    (hrun : s.NextFunctor baseLoop (.removeConnectionInLoop c)) (hc : s.objects c = some o) :
    (s.step e).m_connections.lookup o.m_name = none ∧
      .connectDestoryed c ∈ (s.step e).waiting o.m_loop := by
  obtain ⟨input, done, todo, hstep⟩ := step_functor hnext hrun
  rw [hstep]
  refine ⟨lookup_removeConnectionInLoop hc, List.mem_append_right _ ?_⟩
  show Task.connectDestoryed c ∈ (s.removeConnectionInLoop c).m_pendingFunctors o.m_loop
  rw [removeConnectionInLoop_eq hc]
  show _ ∈ Function.update s.m_pendingFunctors o.m_loop _ o.m_loop
  rw [Function.update_self]
  exact List.mem_append_right _ (List.mem_singleton.mpr rfl)

/-- `connectDestoryed` removes the channel of a closed connection. -/
theorem Sound.step_connectDestoryed (h : s.Sound) {i : Fin (n + 1)} {e : Event n}
    (hnext : IsNext i e) (hrun : s.NextFunctor i (.connectDestoryed c))
    (hc : s.objects c = some o) (hclosed : o.life.connection.m_state = .kDisconnected)
    {o' : ConnectionObject n} (hc' : (s.step e).objects c = some o') :
    o'.life.m_channel.m_index = .kNew := by
  obtain ⟨input, done, todo, hstep⟩ := step_functor hnext hrun
  rw [hstep] at hc'
  have hrun : (s.run i c ConnectionLife.connectDestoryed).objects c = some o' :=
    (objects_reap_eq_some hc').2
  rw [objects_run hc, Function.update_self] at hrun
  obtain rfl := Option.some.inj hrun
  exact (ConnectionLife.connectDestoryed_spec (l := s.found o) (h.object c o hc).placed
    hclosed).2.2.1

/-- All that is left of a connection is who holds it. -/
structure Gone (s : Reactor n) (c : Nat) : Prop where
  fresh : c < s.next
  closed : ∀ o, s.objects c = some o → o.life.connection.m_state = .kDisconnected
  removed : ∀ o, s.objects c = some o → o.life.m_channel.m_index = .kNew
  unlisted : ∀ o, s.objects c = some o → s.m_connections.lookup o.m_name ≠ some c

theorem Gone.step (hg : s.Gone c) (h : s.Sound) (e : Event n) : (s.step e).Gone c where
  fresh := hg.fresh.trans_le (next_step s e)
  closed o' hc' := by
    obtain ⟨o, hc, hlater⟩ := h.later_step e hg.fresh hc'
    exact hlater.closed (hg.closed o hc)
  removed o' hc' := by
    obtain ⟨o, hc, hlater⟩ := h.later_step e hg.fresh hc'
    exact hlater.removed (hg.closed o hc) (hg.removed o hc)
  unlisted o' hc' hlisted := by
    obtain ⟨o, hc, hlater⟩ := h.later_step e hg.fresh hc'
    rw [hlater.m_name] at hlisted
    exact hg.unlisted o hc (listed_step e hg.fresh hlisted)

/-- A function that leaves no functor and does not close. -/
theorem queued_run_quiet (hc : s.objects c = some o) (i : Fin (n + 1))
    {f : ConnectionLife → ConnectionLife} (hremoving : (f (s.found o)).removing = 0)
    (hqueued : (f (s.found o)).connection.queued = []) :
    Queued (fun _ => False) s (s.run i c f) := by
  rw [run_eq hc, hremoving]
  exact (queued_ran s i c o _).imp fun t ht => ht.2 hqueued

/-- Of a connection that is gone, only `removeConnectionInLoop` still makes functors. -/
theorem Gone.pending (hg : s.Gone c) (h : s.Sound) (e : Event n) {j : Fin (n + 1)} {t : Task}
    (htc : t.connection = c) (ht : t ∈ (s.step e).m_pendingFunctors j) :
    t ∈ s.m_pendingFunctors j ∨
      t = .connectDestoryed c ∧ .removeConnectionInLoop c ∈ s.tasks baseLoop := by
  cases e with
  | accept fd input =>
      rw [Reactor.step] at ht
      split at ht
      · rcases (queued_newConnection s fd input).mem ht with hold | hnew
        · exact .inl hold
        · exact absurd (htc.symm.trans hnew) (Nat.ne_of_lt hg.fresh)
      · exact .inl ht
  | next i input =>
      have ht : t ∈ (s.advance i input).m_pendingFunctors j := ht
      have hactive := h.active i
      rw [Reactor.advance] at ht
      split at ht
      case h_1 => exact .inl ht
      case h_2 =>
        have hmem : t ∈ Function.update s.m_pendingFunctors i [] j := ht
        by_cases hji : j = i
        · subst hji
          rw [Function.update_self] at hmem
          exact absurd hmem List.not_mem_nil
        · rw [Function.update_of_ne hji] at hmem
          exact .inl hmem
      case h_3 =>
        split at ht
        · exact .inl ht
        · exact .inl ht
      case h_4 => exact .inl ht
      -- The channel of the connection has been removed, and is not active.
      case h_5 a guard callback callbacks active hturn =>
        rw [hturn] at hactive
        obtain ⟨oa, ha, -, hindex⟩ := hactive a (List.mem_cons_self ..)
        rcases (queued_handle s i a input callback).mem ht with hold | hnew
        · exact .inl hold
        · obtain rfl : a = c := hnew.symm.trans htc
          exact absurd (hg.removed oa ha) hindex
      case h_6 done t' todo hturn =>
        have ht' : t' ∈ s.waiting i := by
          rw [waiting, hturn]
          exact List.mem_append_left _ (List.mem_cons_self ..)
        rcases (queued_runTask s i input t').mem ht with hold | hnew
        · exact .inl hold
        · obtain ⟨oc, hc, hhome⟩ := h.tasks i t' (mem_tasks_of_waiting ht')
          have hclosed := hg.closed oc ((hnew.symm.trans htc) ▸ hc)
          have hplaced : (s.found oc).m_channel.Placed (s.found oc).poller :=
            (h.object t'.connection oc hc).placed
          cases t' with
          | connectEstablished a =>
              obtain rfl : oc.m_loop = i := hhome
              exact StateE.noConfusion ((h.connecting hc ht').symm.trans hclosed)
          | removeConnectionInLoop a =>
              obtain rfl : baseLoop = i := hhome
              obtain rfl : a = c := hnew.symm.trans htc
              rcases (queued_removeConnectionInLoop s a).mem ht with hold | heq
              · exact .inl hold
              · exact .inr ⟨heq, mem_tasks_of_waiting ht'⟩
          | connectDestoryed a =>
              obtain ⟨-, -, -, hremoving⟩ :=
                ConnectionLife.connectDestoryed_spec (l := s.found oc) hplaced hclosed
              have hfound : (s.found oc).connection.m_state = .kDisconnected := hclosed
              have hqueued : (s.found oc).connectDestoryed.connection.queued = [] := by
                rw [ConnectionLife.connectDestoryed, if_pos hfound]
                rfl
              rcases (queued_run_quiet hc i hremoving hqueued).mem ht with hold | hfalse
              · exact .inl hold
              · exact absurd hfalse id
          | userCallback a =>
              have hact : (s.found oc).act input.actions = s.found oc := by
                refine ConnectionLife.act_of_ne (fun hs' => ?_) _
                exact StateE.noConfusion (hclosed.symm.trans hs')
              have hremoving : ((s.found oc).act input.actions).removing = 0 := by
                rw [hact]
                rfl
              have hqueued : ((s.found oc).act input.actions).connection.queued = [] := by
                rw [hact]
                rfl
              rcases (queued_run_quiet hc i (f := fun l => l.act input.actions) hremoving
                hqueued).mem ht with hold | hfalse
              · exact .inl hold
              · exact absurd hfalse id
      case h_7 => exact .inl ht

/-! ### The end of a connection -/

/-- Nobody holds a connection that is gone and has no functor left. -/
theorem Gone.not_held (hg : s.Gone c) (h : s.Sound)
    (hnone : ∀ i, ∀ t ∈ s.tasks i, t.connection ≠ c) : ¬ s.Held c := by
  rintro (⟨⟨name, a⟩, hmem, rfl⟩ | ⟨i, ⟨t, ht, htc⟩ | hguard⟩)
  · have hlookup : s.m_connections.lookup name = some a := AList.mem_lookup_iff.mpr hmem
    obtain ⟨o, hc, rfl⟩ := h.table name a hlookup
    exact hg.unlisted o hc hlookup
  · exact hnone i t ht htc
  · obtain ⟨o, hc, -, hindex⟩ := h.active i c (Turn.active_of_guard hguard)
    exact hindex (hg.removed o hc)

section Closed

variable {s₀ : Reactor n}

theorem sound_stateAt (h : s₀.Sound) (events : Nat → Event n) (m : Nat) :
    (stateAt step s₀ events m).Sound :=
  inv_stateAt (fun _ e h => h.step e) h events m

/-- A connection that is closed stays so for as long as it is there. -/
theorem closed_stateAt (h : s₀.Sound) {k : Nat} (hlt : c < (stateAt step s₀ events k).next)
    (hclosed : ∀ o, (stateAt step s₀ events k).objects c = some o →
      o.life.connection.m_state = .kDisconnected) :
    ∀ m ≥ k, c < (stateAt step s₀ events m).next ∧
      ∀ o, (stateAt step s₀ events m).objects c = some o →
        o.life.connection.m_state = .kDisconnected := by
  intro m hm
  induction m, hm using Nat.le_induction with
  | base => exact ⟨hlt, hclosed⟩
  | succ m _ ih =>
      refine ⟨ih.1.trans_le (next_step _ (events m)), fun o' hc' => ?_⟩
      obtain ⟨o, hc, hlater⟩ := (sound_stateAt h events m).later_step (events m) ih.1 hc'
      exact hlater.closed (ih.2 o hc)

/-- A closed connection gets out of `m_connections`. -/
theorem exists_unlisted (h : s₀.Sound) (hfair : ∀ i, Fair i events) {k : Nat}
    (hc : (stateAt step s₀ events k).objects c = some o)
    (hclosed : o.life.connection.m_state = .kDisconnected) :
    ∃ m ≥ k, ∀ o', (stateAt step s₀ events m).objects c = some o' →
      (stateAt step s₀ events m).m_connections.lookup o'.m_name ≠ some c := by
  by_cases hlisted : (stateAt step s₀ events k).m_connections.lookup o.m_name = some c
  · have hk := sound_stateAt h events k
    have hremoving := ((hk.stands c o hc).leaving hclosed hlisted)
    obtain ⟨m, hm, hnext, hrun⟩ :=
      functor_runs s₀ (hfair baseLoop) (List.count_pos_iff.mp hremoving)
    refine ⟨m + 1, Nat.le_succ_of_le hm, fun o' hc' hlisted' => ?_⟩
    have hs := sound_stateAt h events m
    have hlt : c < (stateAt step s₀ events m).next :=
      (closed_stateAt h (hk.object c o hc).fresh
        (fun o' hc' => (Option.some.inj (hc.symm.trans hc')) ▸ hclosed) m hm).1
    obtain ⟨om, hcm, hlater⟩ := hs.later_step (events m) hlt hc'
    have hnone := (step_removeConnectionInLoop hnext hrun hcm).1
    rw [hlater.m_name] at hlisted'
    exact absurd (hnone.symm.trans hlisted') (Option.some_ne_none c).symm
  · refine ⟨k, le_refl k, fun o' hc' => ?_⟩
    obtain rfl := Option.some.inj (hc.symm.trans hc')
    exact hlisted

/-- The functor `connectDestoryed` waits for a closed connection: its channel is removed. -/
theorem exists_removed_of_destroying (h : s₀.Sound) (hfair : ∀ i, Fair i events) {k : Nat}
    (hc : (stateAt step s₀ events k).objects c = some o)
    (ht : .connectDestoryed c ∈ (stateAt step s₀ events k).waiting o.m_loop) :
    ∃ m ≥ k, ∀ o', (stateAt step s₀ events m).objects c = some o' →
      o'.life.m_channel.m_index = .kNew := by
  have hk := sound_stateAt h events k
  have hclosed := hk.closed hc ht
  obtain ⟨m, hm, hnext, hrun⟩ := functor_runs s₀ (hfair o.m_loop) ht
  refine ⟨m + 1, Nat.le_succ_of_le hm, fun o' hc' => ?_⟩
  have hs := sound_stateAt h events m
  obtain ⟨hlt, hclosed'⟩ := closed_stateAt h (hk.object c o hc).fresh
    (fun o' hc' => (Option.some.inj (hc.symm.trans hc')) ▸ hclosed) m hm
  obtain ⟨om, hcm, -⟩ := hs.later_step (events m) hlt hc'
  exact hs.step_connectDestoryed hnext hrun hcm (hclosed' om hcm) hc'

/-- The channel of a closed connection gets removed. -/
theorem exists_removed (h : s₀.Sound) (hfair : ∀ i, Fair i events) {k : Nat}
    (hlt : c < (stateAt step s₀ events k).next)
    (hclosed : ∀ o, (stateAt step s₀ events k).objects c = some o →
      o.life.connection.m_state = .kDisconnected)
    (hunlisted : ∀ o, (stateAt step s₀ events k).objects c = some o →
      (stateAt step s₀ events k).m_connections.lookup o.m_name ≠ some c) :
    ∃ m ≥ k, ∀ o, (stateAt step s₀ events m).objects c = some o →
      o.life.m_channel.m_index = .kNew := by
  cases hc : (stateAt step s₀ events k).objects c with
  | none => exact ⟨k, le_refl k, fun o ho => absurd (hc.symm.trans ho) (Option.some_ne_none o).symm⟩
  | some o =>
      have hk := sound_stateAt h events k
      by_cases hindex : o.life.m_channel.m_index = .kNew
      · exact ⟨k, le_refl k, fun o' ho' => (Option.some.inj (hc.symm.trans ho')) ▸ hindex⟩
      · rcases (hk.stands c o hc).anchored hindex with hlisted | hremoving | hdestroying
        · exact absurd hlisted (hunlisted o hc)
        -- `removeConnectionInLoop` runs, and makes `connectDestoryed` wait.
        · obtain ⟨m, hm, hnext, hrun⟩ :=
            functor_runs s₀ (hfair baseLoop) (List.count_pos_iff.mp hremoving)
          have hs := sound_stateAt h events m
          have hltm := (closed_stateAt h hlt hclosed m hm).1
          cases hc' : (stateAt step s₀ events (m + 1)).objects c with
          | none =>
              exact ⟨m + 1, Nat.le_succ_of_le hm,
                fun o' ho' => absurd (hc'.symm.trans ho') (Option.some_ne_none o').symm⟩
          | some o' =>
              obtain ⟨om, hcm, hlater⟩ := hs.later_step (events m) hltm hc'
              have hdestroying := (step_removeConnectionInLoop hnext hrun hcm).2
              rw [← hlater.m_loop] at hdestroying
              obtain ⟨m', hm', hremoved⟩ := exists_removed_of_destroying h hfair hc' hdestroying
              exact ⟨m', (Nat.le_succ_of_le hm).trans hm', hremoved⟩
        · exact exists_removed_of_destroying h hfair hc (List.count_pos_iff.mp hdestroying)

theorem exists_gone (h : s₀.Sound) (hfair : ∀ i, Fair i events) {k : Nat}
    (hc : (stateAt step s₀ events k).objects c = some o)
    (hclosed : o.life.connection.m_state = .kDisconnected) :
    ∃ m ≥ k, (stateAt step s₀ events m).Gone c := by
  have hstays := closed_stateAt h ((sound_stateAt h events k).object c o hc).fresh
    fun o' hc' => (Option.some.inj (hc.symm.trans hc')) ▸ hclosed
  obtain ⟨m₁, hm₁, hunlisted⟩ := exists_unlisted h hfair hc hclosed
  -- A name does not come back.
  have hunlisted : ∀ m ≥ m₁, ∀ o', (stateAt step s₀ events m).objects c = some o' →
      (stateAt step s₀ events m).m_connections.lookup o'.m_name ≠ some c := by
    intro m hm
    induction m, hm using Nat.le_induction with
    | base => exact hunlisted
    | succ m hm ih =>
        intro o' hc' hlisted
        have hlt := (hstays m (hm₁.trans hm)).1
        obtain ⟨om, hcm, hlater⟩ := (sound_stateAt h events m).later_step (events m) hlt hc'
        rw [hlater.m_name] at hlisted
        exact ih om hcm (listed_step (events m) hlt hlisted)
  obtain ⟨hlt, hclosed₁⟩ := hstays m₁ hm₁
  obtain ⟨m₂, hm₂, hremoved⟩ :=
    exists_removed h hfair hlt hclosed₁ (hunlisted m₁ (le_refl m₁))
  obtain ⟨hlt₂, hclosed₂⟩ := hstays m₂ (hm₁.trans hm₂)
  exact ⟨m₂, hm₁.trans hm₂, hlt₂, hclosed₂, hremoved, hunlisted m₂ hm₂⟩

/-- Of a connection that is gone, all functors are run. -/
theorem exists_no_functors (h : s₀.Sound) (hfair : ∀ i, Fair i events) {k : Nat}
    (hgone : ∀ m ≥ k, (stateAt step s₀ events m).Gone c) :
    ∃ m ≥ k, ∀ i, ∀ t ∈ (stateAt step s₀ events m).tasks i, t.connection ≠ c := by
  -- First the base loop runs each `removeConnectionInLoop`.
  obtain ⟨m₁, hm₁, hnone⟩ := exists_flushed s₀ (hfair baseLoop)
    (P := (· = .removeConnectionInLoop c)) (k := k) fun m hm t ht hmem => by
      rcases (hgone m hm).pending (sound_stateAt h events m) (events m) (ht ▸ rfl) hmem with
        hold | ⟨hdestroying, -⟩
      · exact hold
      · exact Task.noConfusion (ht.symm.trans hdestroying)
  -- Then no functor is made any longer, and each loop runs what it has.
  have hloop : ∀ i, ∃ m ≥ m₁, ∀ m' ≥ m, ∀ t ∈ (stateAt step s₀ events m').tasks i,
      ¬ t.connection = c := fun i =>
    exists_flushed s₀ (hfair i) fun m hm t ht hmem => by
      rcases (hgone m (hm₁.trans hm)).pending (sound_stateAt h events m) (events m) ht hmem with
        hold | ⟨-, hremoving⟩
      · exact hold
      · exact absurd rfl (hnone m hm _ hremoving)
  choose last hlast hempty using hloop
  have hle : ∀ i, last i ≤ Finset.univ.sup last := fun i => Finset.le_sup (Finset.mem_univ i)
  refine ⟨Finset.univ.sup last, ?_, fun i => hempty i _ (hle i)⟩
  exact hm₁.trans ((hlast baseLoop).trans (hle baseLoop))

end Closed

theorem reaped_stateAt (n : Nat) (ipPort : String) (writeComplete : Bool)
    (events : Nat → Event n) (m : Nat) :
    (stateAt step (start n ipPort writeComplete) events m).Reaped := by
  have hstart : (start n ipPort writeComplete).Reaped :=
    fun _ o hc => absurd hc (Option.some_ne_none o).symm
  have hkeep : ∀ (s : Reactor n) (e : Event n), s.Reaped → (s.step e).Reaped :=
    fun _ e h => reaped_step h e
  exact inv_stateAt hkeep hstart events m

/-- As long as each loop takes its steps, a closed connection is destroyed in the end, and its fd
with it, whatever the network, the kernel and the users do. -/
theorem eventually_destroyed (n : Nat) (ipPort : String) (writeComplete : Bool)
    (events : Nat → Event n) (hfair : ∀ i, Fair i events) (k c : Nat)
    (hclosed : ∃ o ∈ (stateAt step (start n ipPort writeComplete) events k).objects c,
      o.life.connection.m_state = .kDisconnected) :
    ∃ m ≥ k, ∀ m' ≥ m,
      (stateAt step (start n ipPort writeComplete) events m').objects c = none := by
  obtain ⟨o, hc, hclosed⟩ := hclosed
  have h := sound_start n ipPort writeComplete
  obtain ⟨m₁, hm₁, hgone⟩ := exists_gone h hfair hc hclosed
  have hgone : ∀ m ≥ m₁, (stateAt step (start n ipPort writeComplete) events m).Gone c := by
    intro m hm
    induction m, hm using Nat.le_induction with
    | base => exact hgone
    | succ m _ ih => exact ih.step (sound_stateAt h events m) (events m)
  obtain ⟨m₂, hm₂, hnone⟩ := exists_no_functors h hfair hgone
  refine ⟨m₂, hm₁.trans hm₂, fun m hm => ?_⟩
  induction m, hm using Nat.le_induction with
  | base =>
      cases hc₂ : (stateAt step (start n ipPort writeComplete) events m₂).objects c with
      | none => rfl
      | some o₂ =>
          have hheld := reaped_stateAt n ipPort writeComplete events m₂ c o₂ hc₂
          exact absurd hheld ((hgone m₂ hm₂).not_held (sound_stateAt h events m₂) hnone)
  | succ m hm ih =>
      cases hc' : (stateAt step (start n ipPort writeComplete) events (m + 1)).objects c with
      | none => rfl
      | some o' =>
          -- An address is not used again.
          obtain ⟨om, hcm, -⟩ := (sound_stateAt h events m).later_step (events m)
            (hgone m (hm₂.trans hm)).fresh hc'
          exact absurd (ih.symm.trans hcm) (Option.some_ne_none om).symm

/-- A step of a loop in which the kernel reports that the peer of fd 7 has closed. -/
def hangUp : Input :=
  { ready := [(7, ⟨false, false, false, false, true⟩)]
    incoming := []
    consumed := 0
    outcome := .accepted 0
    actions := [] }

/-- A server with one loop in its pool, which has the only connection: its peer closes it. The two
loops take turns. -/
theorem eventually_destroyed_hangUp :
    let events : Nat → Event 1 := fun k =>
      if k = 1 then .accept 7 hangUp else .next (Fin.ofNat 2 k) hangUp
    (∀ i, Fair i events) ∧ ∃ m ≥ 16, ∀ m' ≥ m,
      (stateAt step (start 1 "127.0.0.1:80" false) events m').objects 0 = none := by
  intro events
  have hfair : ∀ i, Fair i events := by
    intro i k
    refine ⟨2 * (k + 1) + i.val, by omega, hangUp, ?_⟩
    have hnot : ¬ 2 * (k + 1) + i.val = 1 := by omega
    have hloop : Fin.ofNat 2 (2 * (k + 1) + i.val) = i := by
      refine Fin.ext ?_
      show (2 * (k + 1) + i.val) % 2 = i.val
      have hi := i.isLt
      omega
    show (if 2 * (k + 1) + i.val = 1 then _ else _) = _
    rw [if_neg hnot, hloop]
  exact ⟨hfair, eventually_destroyed 1 "127.0.0.1:80" false events hfair 16 0 (by decide +kernel)⟩

end Reactor

end RegistrationCenter
