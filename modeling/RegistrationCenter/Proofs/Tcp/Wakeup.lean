import RegistrationCenter.Lib.Runs
import RegistrationCenter.Spec.Tcp.EventLoop

/-!
# `RegistrationCenter.Proofs.Tcp.Wakeup`: no queued functor is lost or left sleeping

`nothingLost_run` is about every order of the steps of the loop and of the threads that queue
functors. The functors run, the rest of the batch and the pending ones are what was queued, in
its order, and what was queued are the functors of the events that queue one. When the loop
blocks in `poll`, each pending functor still has its `wakeup` to come.

The loop's own `queueInLoop` leaves the `wakeup` out when it comes from a handler. `Sound`
says why it may: from there the loop gets to the swap before it polls again. Everywhere else a
pending functor has a wakeup on its way, or the eventfd is readable already.
-/

set_option autoImplicit false

namespace RegistrationCenter

open Lib

namespace EventLoop

variable {F : Type} {s : EventLoop F}

/-- Each pending functor has a thread that is about to call `wakeup` for it. -/
def Announced (s : EventLoop F) : Prop :=
  ∀ i < s.m_pendingFunctors.length,
    ∃ thread, s.waking thread = some (s.ran.length + s.batch.length + i)

/-- What holds in all states of a loop. -/
structure NothingLost (s : EventLoop F) : Prop where
  inOrder : s.ran ++ s.batch ++ s.m_pendingFunctors = s.queued
  awake : s.phase = .polling → s.counter = 0 → s.Announced

/-- The thread of the loop is in `doPendingFunctors`. -/
def inPendingFunctors (s : EventLoop F) : Bool :=
  match s.phase with
  | .swapping => true
  | .running _ => true
  | _ => false

/-- The thread of the loop swaps the pending functors out before it polls again. -/
def swapsFirst (s : EventLoop F) : Bool :=
  match s.phase with
  | .handling _ => true
  | .swapping => true
  | _ => false

/-- The pending functors do not wait for a timeout of `poll`. -/
def Covered (s : EventLoop F) : Prop := 0 < s.counter ∨ s.selfWaking = true ∨ s.Announced

/-- The invariant. -/
structure Sound (s : EventLoop F) : Prop where
  inOrder : s.ran ++ s.batch ++ s.m_pendingFunctors = s.queued
  flag : s.m_callingPendingFunctors = s.inPendingFunctors
  /-- The loop calls `wakeup` itself only while it runs functors. -/
  own : s.selfWaking = true → s.m_callingPendingFunctors = true
  covered : s.swapsFirst = false → s.Covered

theorem Sound.nothingLost (h : s.Sound) : s.NothingLost where
  inOrder := h.inOrder
  awake hphase hzero := by
    have hswaps : s.swapsFirst = false := by rw [swapsFirst, hphase]
    rcases h.covered hswaps with hpos | hself | hannounced
    · omega
    · -- The flag is not set in `poll`.
      have hflag := (h.own hself).symm.trans h.flag
      rw [inPendingFunctors, hphase] at hflag
      exact Bool.noConfusion hflag
    · exact hannounced

theorem sound_new : (new : EventLoop F).Sound where
  inOrder := rfl
  flag := rfl
  own hself := Bool.noConfusion hself
  covered _ := .inr (.inr fun _ hi => absurd hi (Nat.not_lt_zero _))

theorem writeEventFd_pos (counter : Nat) : 0 < writeEventFd counter := by
  rw [writeEventFd]
  split
  · exact Nat.succ_pos _
  · omega

/-! ## What each step keeps -/

theorem Sound.wakeup (h : s.Sound) : s.wakeup.Sound :=
  ⟨h.inOrder, h.flag, h.own, fun _ => .inl (writeEventFd_pos _)⟩

theorem Sound.quit (h : s.Sound) : s.quit.Sound :=
  ⟨h.inOrder, h.flag, h.own, h.covered⟩

/-- The place of the next functor among all that were queued. -/
theorem Sound.length_queued (h : s.Sound) :
    s.queued.length = s.ran.length + s.batch.length + s.m_pendingFunctors.length := by
  rw [← h.inOrder, List.length_append, List.length_append]

theorem Sound.inOrder_append (h : s.Sound) (f : F) :
    s.ran ++ s.batch ++ (s.m_pendingFunctors ++ [f]) = s.queued ++ [f] := by
  rw [← List.append_assoc, h.inOrder]

/-- Callbacks run while the channels are handled and while functors run, nowhere else. -/
theorem inPendingFunctors_of_callsOut (hcalls : s.callsOut = true)
    (hswaps : s.swapsFirst = false) : s.inPendingFunctors = true := by
  rw [callsOut] at hcalls
  rw [swapsFirst] at hswaps
  rw [inPendingFunctors]
  cases hphase : s.phase with
  | running _ => rfl
  | handling _ => simp [hphase] at hswaps
  | swapping => rfl
  | _ => simp [hphase] at hcalls

/-- A functor that the loop queues itself. In a handler the swap is still to come, in a functor
the loop calls `wakeup` next. -/
theorem Sound.queueInLoop (h : s.Sound) (f : F) : (s.queueInLoop f).Sound := by
  rw [EventLoop.queueInLoop]
  split
  · rename_i hcalls
    -- The flag is set while functors run. There the `wakeup` comes next.
    refine ⟨h.inOrder_append f, h.flag, fun hself => hself, fun hswaps => .inr (.inl ?_)⟩
    exact h.flag.trans (inPendingFunctors_of_callsOut hcalls hswaps)
  · exact h

theorem Announced.queueFrom (h : s.Announced) {thread : Nat} (hnone : s.waking thread = none)
    (hlength :
      s.queued.length = s.ran.length + s.batch.length + s.m_pendingFunctors.length) (f : F) :
    (s.queueFrom thread f).Announced := by
  rw [EventLoop.queueFrom, if_pos hnone]
  intro i hi
  have hi : i < (s.m_pendingFunctors ++ [f]).length := hi
  rw [List.length_append, List.length_singleton] at hi
  rcases Nat.lt_succ_iff_lt_or_eq.mp hi with hi | hi
  -- A functor that was there keeps its thread: this one is not about to wake up the loop.
  · obtain ⟨other, hother⟩ := h i hi
    have hne : other ≠ thread := by
      intro heq
      rw [heq, hnone] at hother
      cases hother
    exact ⟨other, (Function.update_of_ne hne _ _).trans hother⟩
  -- The new functor has this thread.
  · refine ⟨thread, (Function.update_self _ _ _).trans ?_⟩
    rw [hlength, hi]
    rfl

theorem Sound.queueFrom (h : s.Sound) (thread : Nat) (f : F) : (s.queueFrom thread f).Sound := by
  by_cases hnone : s.waking thread = none
  · have hannounced := fun ha : s.Announced => ha.queueFrom hnone h.length_queued f
    rw [EventLoop.queueFrom, if_pos hnone] at hannounced ⊢
    refine ⟨h.inOrder_append f, h.flag, h.own, fun hswaps => ?_⟩
    rcases h.covered hswaps with hpos | hself | ha
    · exact .inl hpos
    · exact .inr (.inl hself)
    · exact .inr (.inr (hannounced ha))
  · rw [EventLoop.queueFrom, if_neg hnone]
    exact h

theorem Sound.wakeupFrom (h : s.Sound) (thread : Nat) : (s.wakeupFrom thread).Sound := by
  rw [EventLoop.wakeupFrom]
  split
  · exact h
  · exact ⟨h.inOrder, h.flag, h.own, fun _ => .inl (writeEventFd_pos _)⟩

/-- A step of `loop`, by the phase it is in. -/
theorem Sound.advance (h : s.Sound) (hself : s.selfWaking = false) (readable : Bool) :
    (s.advance readable).Sound := by
  obtain ⟨looping, quit, calling, pending, counter, phase, selfWaking, waking, queued, ran⟩ := s
  have hown : selfWaking = true → False := fun hs => Bool.false_ne_true (hself.symm.trans hs)
  cases phase with
  | calling => exact ⟨h.inOrder, h.flag, h.own, h.covered⟩
  | entering => exact ⟨h.inOrder, h.flag, h.own, h.covered⟩
  | testing =>
      cases quit with
      | true => exact ⟨h.inOrder, h.flag, h.own, h.covered⟩
      | false => exact ⟨h.inOrder, h.flag, h.own, h.covered⟩
  -- From here to the swap the pending functors need no wakeup.
  | polling => exact ⟨h.inOrder, h.flag, h.own, fun hs => Bool.noConfusion hs⟩
  | handling readable =>
      cases readable with
      -- The counter is reset, and the swap comes next.
      | true => exact ⟨h.inOrder, h.flag, h.own, fun hs => Bool.noConfusion hs⟩
      | false => exact ⟨h.inOrder, rfl, fun hs => (hown hs).elim, fun hs => Bool.noConfusion hs⟩
  -- All pending functors go into the batch, so none is left to wait.
  | swapping =>
      refine ⟨?_, h.flag, h.own, fun _ => .inr (.inr fun i hi => ?_)⟩
      · have hinOrder : ran ++ [] ++ pending = queued := h.inOrder
        show ran ++ pending ++ [] = queued
        rw [List.append_nil, ← hinOrder, List.append_nil]
      · exact absurd hi (Nat.not_lt_zero _)
  | running funcs =>
      cases funcs with
      | nil => exact ⟨h.inOrder, rfl, fun hs => (hown hs).elim, h.covered⟩
      -- A functor runs: the places of those behind it stay the same.
      | cons f funcs =>
          have hinOrder : ran ++ f :: funcs ++ pending = queued := h.inOrder
          refine ⟨?_, h.flag, h.own, fun _ => ?_⟩
          · show ran ++ [f] ++ funcs ++ pending = queued
            rw [← hinOrder, List.append_assoc ran [f]]
            rfl
          · rcases h.covered rfl with hpos | hs | hannounced
            · exact .inl hpos
            · exact (hown hs).elim
            · refine .inr (.inr fun i hi => ?_)
              obtain ⟨thread, hthread⟩ := hannounced i hi
              have hthread : waking thread = some (ran.length + (f :: funcs).length + i) :=
                hthread
              refine ⟨thread, ?_⟩
              show waking thread = some ((ran ++ [f]).length + funcs.length + i)
              rw [hthread, List.length_append, List.length_singleton, List.length_cons]
              exact congrArg some (by omega)
  | leaving => exact ⟨h.inOrder, h.flag, h.own, h.covered⟩
  | exited => exact h

theorem Sound.next (h : s.Sound) (readable : Bool) : (s.next readable).Sound := by
  rw [EventLoop.next]
  split
  -- The `wakeup` of its own `queueInLoop`.
  · exact ⟨h.inOrder, h.flag, fun hs => Bool.noConfusion hs, fun _ => .inl (writeEventFd_pos _)⟩
  · rename_i hself
    exact h.advance (Bool.eq_false_of_not_eq_true hself) readable

theorem Sound.step (h : s.Sound) (e : Event F) : (s.step e).Sound := by
  cases e with
  | next readable => exact h.next readable
  | queueInLoop f => exact h.queueInLoop f
  | queueFrom thread f => exact h.queueFrom thread f
  | wakeupFrom thread => exact h.wakeupFrom thread
  | quit => exact h.quit
  | wakeup => exact h.wakeup

/-- The functor that an event queues. A thread whose `wakeup` is still to come queues none, and the
thread of the loop only where a handler or a functor runs. -/
def queues (s : EventLoop F) : Event F → List F
  | .queueInLoop f => if s.callsOut then [f] else []
  | .queueFrom thread f => if s.waking thread = none then [f] else []
  | .next _ => []
  | .wakeupFrom _ => []
  | .quit => []
  | .wakeup => []

/-- The steps of `loop` queue nothing. -/
theorem queued_next (s : EventLoop F) (readable : Bool) : (s.next readable).queued = s.queued := by
  rw [EventLoop.next]
  split
  · rfl
  · rw [EventLoop.advance]
    split
    case h_3 => split <;> rfl
    all_goals rfl

theorem queued_step (s : EventLoop F) (e : Event F) :
    (s.step e).queued = s.queued ++ s.queues e := by
  cases e with
  | next readable => exact (s.queued_next readable).trans (List.append_nil _).symm
  | queueInLoop f =>
      show (s.queueInLoop f).queued = s.queued ++ if s.callsOut then [f] else []
      rw [EventLoop.queueInLoop]
      split
      · rfl
      · exact (List.append_nil _).symm
  | queueFrom thread f =>
      show (s.queueFrom thread f).queued = s.queued ++ if s.waking thread = none then [f] else []
      rw [EventLoop.queueFrom]
      split
      · rfl
      · exact (List.append_nil _).symm
  | wakeupFrom thread =>
      show (s.wakeupFrom thread).queued = s.queued ++ []
      rw [EventLoop.wakeupFrom, List.append_nil]
      split
      · rfl
      · rfl
  | quit => exact (List.append_nil _).symm
  | wakeup => exact (List.append_nil _).symm

/-- In all states of a run of a new loop no queued functor is lost, repeated, reordered or left
sleeping, and the queued functors are those of the events of the run. -/
theorem nothingLost_run (events : List (Event F)) :
    AllStates step NothingLost (new : EventLoop F) events ∧
      (events.foldl step (new : EventLoop F)).queued = along step queues new events := by
  have hkeep : ∀ (s : EventLoop F) (e : Event F), s.Sound → True → (s.step e).Sound :=
    fun _ e hs _ => hs.step e
  have hall : AllStates step Sound (new : EventLoop F) events :=
    allStates_of_stepsMeet hkeep sound_new stepsMeet_true
  exact ⟨hall.imp fun _ hs => hs.nothingLost, history_foldl queued_step events new⟩

end EventLoop

end RegistrationCenter
