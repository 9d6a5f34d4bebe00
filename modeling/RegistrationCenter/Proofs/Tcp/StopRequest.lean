import Mathlib.Data.Prod.Lex
import RegistrationCenter.Spec.Tcp.EventLoopThread
import RegistrationCenter.Proofs.Tcp.Wakeup

/-!
# `RegistrationCenter.Proofs.Tcp.StopRequest`: when a stop request is kept

The owner may call `quit` as soon as `startLoop` has returned, and the thread of the loop may
then still stand before `m_quit = false` at the head of `loop`. That store clears the request,
and `join` waits for ever.

`stopKept_iff` says that this is the only way to lose it. Its measure for the end of the loop
is the phase and then the number of functors left: other threads may queue functors at any
time, but the batch is fixed by the swap.
-/

set_option autoImplicit false

namespace RegistrationCenter

open Lib

namespace EventLoop

variable {F : Type} {s : EventLoop F}

/-- The loop has executed `m_quit = false`. -/
def hasEntered (s : EventLoop F) : Bool :=
  match s.phase with
  | .calling => false
  | .entering => false
  | _ => true

/-- The loop has left its `while`. -/
def hasLeft (s : EventLoop F) : Bool :=
  match s.phase with
  | .leaving => true
  | .exited => true
  | _ => false

/-- The phases from here to the end of a loop whose `m_quit` is set, counted down. -/
def stage (s : EventLoop F) : Nat :=
  match s.phase with
  | .polling => 8
  | .handling true => 7
  | .handling false => 6
  | .swapping => 5
  | .running _ => 4
  | .testing => 3
  | .leaving => 2
  | _ => 1

/-- The way to the end of the loop: the phase, then the functors that are left to run. -/
def wayOut (s : EventLoop F) : Nat ×ₗ Nat := toLex (s.stage, s.batch.length)

/-- Queueing and waking leave the loop where it is. -/
def SamePlace (s s' : EventLoop F) : Prop := s'.phase = s.phase ∧ s'.m_quit = s.m_quit

theorem samePlace_queueInLoop (s : EventLoop F) (f : F) : SamePlace s (s.queueInLoop f) := by
  rw [queueInLoop]
  split
  · exact ⟨rfl, rfl⟩
  · exact ⟨rfl, rfl⟩

theorem samePlace_queueFrom (s : EventLoop F) (thread : Nat) (f : F) :
    SamePlace s (s.queueFrom thread f) := by
  rw [queueFrom]
  split
  · exact ⟨rfl, rfl⟩
  · exact ⟨rfl, rfl⟩

theorem samePlace_wakeupFrom (s : EventLoop F) (thread : Nat) :
    SamePlace s (s.wakeupFrom thread) := by
  rw [wakeupFrom]
  split
  · exact ⟨rfl, rfl⟩
  · exact ⟨rfl, rfl⟩

theorem SamePlace.hasEntered {s' : EventLoop F} (h : SamePlace s s') :
    s'.hasEntered = s.hasEntered := by
  rw [EventLoop.hasEntered, EventLoop.hasEntered, h.1]

theorem SamePlace.hasLeft {s' : EventLoop F} (h : SamePlace s s') : s'.hasLeft = s.hasLeft := by
  rw [EventLoop.hasLeft, EventLoop.hasLeft, h.1]

theorem SamePlace.wayOut {s' : EventLoop F} (h : SamePlace s s') : s'.wayOut = s.wayOut := by
  rw [EventLoop.wayOut, EventLoop.wayOut, stage, stage, batch, batch, h.1]

/-- Past the head of `loop` a step keeps `m_quit`. -/
theorem advance_keepsQuit (h : s.hasEntered = true) (readable : Bool) :
    (s.advance readable).m_quit = s.m_quit ∧ (s.advance readable).hasEntered = true := by
  obtain ⟨looping, quit, calling, pending, counter, phase, selfWaking, waking, queued, ran⟩ := s
  -- The cases are those of `advance`. Only the step out of `entering` writes `m_quit`.
  cases phase with
  | calling => exact Bool.noConfusion h
  | entering => exact Bool.noConfusion h
  | testing =>
      cases quit with
      | true => exact ⟨rfl, rfl⟩
      | false => exact ⟨rfl, rfl⟩
  | handling readable =>
      cases readable with
      | true => exact ⟨rfl, rfl⟩
      | false => exact ⟨rfl, rfl⟩
  | running funcs =>
      cases funcs with
      | nil => exact ⟨rfl, rfl⟩
      | cons f funcs => exact ⟨rfl, rfl⟩
  | _ => exact ⟨rfl, rfl⟩

theorem next_eq_advance (hself : s.selfWaking = false) (readable : Bool) :
    s.next readable = s.advance readable := by
  rw [next, if_neg (hself ▸ Bool.false_ne_true)]

/-- The `wakeup` of its own `queueInLoop` leaves the loop where it is, too. -/
theorem samePlace_next (hself : s.selfWaking = true) (readable : Bool) :
    SamePlace s (s.next readable) := by
  rw [next, if_pos hself]
  exact ⟨rfl, rfl⟩

theorem next_keepsQuit (h : s.hasEntered = true) (readable : Bool) :
    (s.next readable).m_quit = s.m_quit ∧ (s.next readable).hasEntered = true := by
  cases hself : s.selfWaking with
  | true =>
      have hplace := samePlace_next hself readable
      exact ⟨hplace.2, hplace.hasEntered.trans h⟩
  | false =>
      rw [next_eq_advance hself]
      exact advance_keepsQuit h readable

theorem next_hasLeft (h : s.hasLeft = true) (readable : Bool) :
    (s.next readable).hasLeft = true := by
  cases hself : s.selfWaking with
  | true => exact (samePlace_next hself readable).hasLeft.trans h
  | false =>
      rw [next_eq_advance hself]
      rw [hasLeft] at h
      cases hphase : s.phase with
      | leaving => rw [advance, hphase, hasLeft]
      | exited => rw [advance, hphase, hasLeft, hphase]
      | _ => simp [hphase] at h

/-- A loop that is not told to stop, or will have forgotten it, goes on. -/
def GoesOn (s : EventLoop F) : Prop :=
  s.hasEntered = false ∨ s.m_quit = false ∧ s.hasLeft = false

theorem GoesOn.advance (h : s.GoesOn) (readable : Bool) :
    (s.advance readable).GoesOn ∧ (s.advance readable).selfWaking = s.selfWaking := by
  obtain ⟨looping, quit, calling, pending, counter, phase, selfWaking, waking, queued, ran⟩ := s
  -- Past the head of `loop`, `m_quit` is not set.
  have hquit : hasEntered ⟨looping, quit, calling, pending, counter, phase, selfWaking, waking,
      queued, ran⟩ = true → quit = false := by
    intro hentered
    rcases h with hnot | hgoes
    · exact absurd (hnot.symm.trans hentered) Bool.false_ne_true
    · exact hgoes.1
  cases phase with
  -- These two come before the store that clears `m_quit`.
  | calling => exact ⟨.inl rfl, rfl⟩
  | entering => exact ⟨.inr ⟨rfl, rfl⟩, rfl⟩
  | testing =>
      have hquit := hquit rfl
      subst hquit
      exact ⟨.inr ⟨rfl, rfl⟩, rfl⟩
  | handling readable =>
      cases readable with
      | true => exact ⟨.inr ⟨hquit rfl, rfl⟩, rfl⟩
      | false => exact ⟨.inr ⟨hquit rfl, rfl⟩, rfl⟩
  | running funcs =>
      cases funcs with
      | nil => exact ⟨.inr ⟨hquit rfl, rfl⟩, rfl⟩
      | cons f funcs => exact ⟨.inr ⟨hquit rfl, rfl⟩, rfl⟩
  | polling => exact ⟨.inr ⟨hquit rfl, rfl⟩, rfl⟩
  | swapping => exact ⟨.inr ⟨hquit rfl, rfl⟩, rfl⟩
  -- The loop has left its `while`, which it does only with `m_quit` set.
  | leaving =>
      exact h.elim (fun hnot => Bool.noConfusion hnot) fun hgoes => Bool.noConfusion hgoes.2
  | exited =>
      exact h.elim (fun hnot => Bool.noConfusion hnot) fun hgoes => Bool.noConfusion hgoes.2

/-- A test that finds `m_quit` set leaves the `while`. -/
theorem next_testing (hphase : s.phase = .testing) (hself : s.selfWaking = false)
    (hquit : s.m_quit = true) (readable : Bool) : (s.next readable).hasLeft = true := by
  rw [next_eq_advance hself, advance, hphase]
  simp [hquit, hasLeft]

/-- The loop wakes itself up only from inside. -/
theorem Sound.selfWaking_of_notEntered (h : s.Sound) (hentered : s.hasEntered = false) :
    s.selfWaking = false := by
  by_contra hself
  have hflag := (h.own (Bool.eq_true_of_not_eq_false hself)).symm.trans h.flag
  rw [inPendingFunctors] at hflag
  rw [hasEntered] at hentered
  cases hphase : s.phase with
  | calling => simp [hphase] at hflag
  | entering => simp [hphase] at hflag
  | _ => simp [hphase] at hentered

/-- With `m_quit` set each step takes the loop closer to its end. -/
theorem wayOut_advance (h : s.hasEntered = true) (hquit : s.m_quit = true)
    (hexited : s.phase ≠ .exited) (readable : Bool) :
    (s.advance readable).wayOut < s.wayOut := by
  obtain ⟨looping, quit, calling, pending, counter, phase, selfWaking, waking, queued, ran⟩ := s
  have hquit : quit = true := hquit
  subst hquit
  refine Prod.Lex.toLex_lt_toLex.mpr ?_
  cases phase with
  | calling => exact Bool.noConfusion h
  | entering => exact Bool.noConfusion h
  -- The eventfd is reported, and is to be read first, or it is not.
  | polling =>
      refine .inl ?_
      rw [advance, stage]
      cases readable && decide (0 < counter) with
      | true => exact Nat.lt_succ_self 7
      | false => exact Nat.lt_succ_of_lt (Nat.lt_succ_self 6)
  | handling readable =>
      cases readable with
      | true => exact .inl (Nat.lt_succ_self 6)
      | false => exact .inl (Nat.lt_succ_self 5)
  | running funcs =>
      cases funcs with
      | nil => exact .inl (Nat.lt_succ_self 3)
      -- The phase stays, and one functor less is left.
      | cons f funcs => exact .inr ⟨rfl, Nat.lt_succ_self funcs.length⟩
  | exited => exact absurd rfl hexited
  | _ => exact .inl (Nat.lt_succ_self _)

end EventLoop

namespace EventLoopThread

variable {F : Type} {s : EventLoopThread F}

/-- The thread of the loop takes a step that is not only a `wakeup` of its own. It does so
again and again when its handlers and functors return. -/
def ThreadAdvances (s : EventLoopThread F) (e : Event F) : Prop :=
  (∃ readable, e = .thread readable) ∧ s.loop.selfWaking = false

/-- The stop request is not lost. -/
structure StopKept (s : EventLoopThread F) : Prop where
  /-- No step clears it. -/
  kept : s.quitStored = true → s.loop.m_quit = true
  /-- No poll starts after the test that follows it. -/
  noPoll : s.quitTested = true → s.loop.phase ≠ .polling
  /-- The owner gets through `join`. -/
  joins : s.quitStored = true → ∀ events : Nat → Event F,
    InfinitelyOften step ThreadAdvances s events →
    InfinitelyOften step (fun _ e => e = .owner) s events →
      ∃ n, (stateAt step s events n).owner = .destroyed

/-- The store of `quit` finds the loop past `m_quit = false`. -/
def StoresInLoop (s : EventLoopThread F) (e : Event F) : Prop :=
  e = .owner → s.owner = .storing → s.loop.hasEntered = true

/-- What holds once the store of `quit` is done. -/
structure Stopping (s : EventLoopThread F) : Prop where
  entered : s.loop.hasEntered = true
  quit : s.loop.m_quit = true
  owner : s.owner = .waking ∨ s.owner = .joining ∨ s.owner = .destroyed
  thread : s.thread = .looping ∨ s.thread = .finished

/-- The invariant. -/
structure Sound (s : EventLoopThread F) : Prop where
  loop : s.loop.Sound
  notStarted : s.owner = .starting → s.thread = .notStarted
  notEntered : s.thread ≠ .looping → s.thread ≠ .finished → s.loop.phase = .calling
  exited : s.thread = .finished → s.loop.phase = .exited
  stopping : s.quitStored = true → s.Stopping
  tested : s.quitTested = true → s.quitStored = true ∧ s.loop.hasLeft = true

theorem sound_new : (new : EventLoopThread F).Sound where
  loop := EventLoop.sound_new
  notStarted _ := rfl
  notEntered _ _ := rfl
  exited h := nomatch h
  stopping h := Bool.noConfusion h
  tested h := Bool.noConfusion h

/-! ## What each step keeps -/

/-- In `loop` the thread takes a step of it, or comes back from it. -/
theorem threadFunc_looping (hthread : s.thread = .looping) (readable : Bool) :
    s.loop.phase = .exited ∧
        s.threadFunc readable = { s with m_loop := false, thread := .finished } ∨
      s.loop.phase ≠ .exited ∧ s.threadFunc readable =
        { s with
          loop := s.loop.next readable
          quitTested := s.quitTested || s.quitStored && s.testsQuit } := by
  rw [threadFunc, hthread]
  cases hphase : s.loop.phase with
  -- `loop` has returned, and the address is taken back.
  | exited => exact .inl ⟨rfl, rfl⟩
  | _ => exact .inr ⟨nofun, rfl⟩

/-- The events besides the steps of the thread and its owner change the loop only, and leave
it in its place. -/
theorem step_cases (s : EventLoopThread F) (e : Event F) :
    (∃ readable, e = .thread readable) ∨ e = .owner ∨
      ∃ loop, s.step e = { s with loop := loop } ∧ s.loop.SamePlace loop ∧
        (s.loop.Sound → loop.Sound) := by
  cases e with
  | thread readable => exact .inl ⟨readable, rfl⟩
  | owner => exact .inr (.inl rfl)
  | queueInLoop f =>
      exact .inr (.inr ⟨_, rfl, s.loop.samePlace_queueInLoop f, fun h => h.queueInLoop f⟩)
  | queueFrom thread f =>
      refine .inr (.inr ?_)
      rw [step]
      split
      · exact ⟨_, rfl, s.loop.samePlace_queueFrom thread f, fun h => h.queueFrom thread f⟩
      -- The loop is not published, and nobody queues.
      · exact ⟨s.loop, rfl, ⟨rfl, rfl⟩, id⟩
  | wakeupFrom thread =>
      exact .inr (.inr ⟨_, rfl, s.loop.samePlace_wakeupFrom thread, fun h => h.wakeupFrom thread⟩)

/-- Another thread, or a handler or functor, queues or wakes up. -/
theorem Stopping.congr (h : s.Stopping) {loop : EventLoop F} (hplace : s.loop.SamePlace loop) :
    ({ s with loop := loop } : EventLoopThread F).Stopping :=
  ⟨hplace.hasEntered.trans h.entered, hplace.2.trans h.quit, h.owner, h.thread⟩

theorem Stopping.threadFunc (h : s.Stopping) (readable : Bool) :
    (s.threadFunc readable).Stopping := by
  rcases h.thread with hthread | hthread
  -- In `loop`, past its head: nothing writes `m_quit` any more.
  · rcases threadFunc_looping hthread readable with ⟨-, heq⟩ | ⟨-, heq⟩
    · rw [heq]
      exact ⟨h.entered, h.quit, h.owner, .inr rfl⟩
    · have hkeeps := EventLoop.next_keepsQuit h.entered readable
      rw [heq]
      exact ⟨hkeeps.2, hkeeps.1.trans h.quit, h.owner, .inl hthread⟩
  · rw [EventLoopThread.threadFunc, hthread]
    exact h

theorem Stopping.ownerStep (h : s.Stopping) : s.ownerStep.Stopping := by
  rw [EventLoopThread.ownerStep]
  rcases h.owner with howner | howner | howner
  -- The `wakeup` of `quit`.
  · rw [howner]
    exact ⟨h.entered, h.quit, .inr (.inl rfl), h.thread⟩
  -- In `join`.
  · rw [howner]
    show (if _ then _ else s : EventLoopThread F).Stopping
    split
    · exact ⟨h.entered, h.quit, .inr (.inr rfl), h.thread⟩
    · exact h
  -- Past the destructor.
  · rw [howner]
    exact h

theorem Stopping.step (h : s.Stopping) (e : Event F) : (s.step e).Stopping := by
  rcases s.step_cases e with ⟨readable, rfl⟩ | rfl | ⟨loop, heq, hplace, -⟩
  · exact h.threadFunc readable
  · exact h.ownerStep
  · rw [heq]
    exact h.congr hplace

theorem Sound.congr (h : s.Sound) {loop : EventLoop F} (hloop : loop.Sound)
    (hplace : s.loop.SamePlace loop) : ({ s with loop := loop } : EventLoopThread F).Sound where
  loop := hloop
  notStarted := h.notStarted
  notEntered hlooping hfinished := hplace.1.trans (h.notEntered hlooping hfinished)
  exited hfinished := hplace.1.trans (h.exited hfinished)
  stopping hstored := (h.stopping hstored).congr hplace
  tested htested := ⟨(h.tested htested).1, hplace.hasLeft.trans (h.tested htested).2⟩

/-- Nothing is stored before the thread is in `loop`. -/
theorem Sound.notStored (h : s.Sound) (hlooping : s.thread ≠ .looping)
    (hfinished : s.thread ≠ .finished) : s.quitStored ≠ true := by
  intro hstored
  rcases (h.stopping hstored).thread with hthread | hthread
  · exact hlooping hthread
  · exact hfinished hthread

/-- The test of `m_quit` after the store leaves the loop, and the loop stays left. -/
theorem Sound.tested_next (h : s.Sound) (readable : Bool)
    (htested : (s.quitTested || s.quitStored && s.testsQuit) = true) :
    s.quitStored = true ∧ (s.loop.next readable).hasLeft = true := by
  rcases Bool.or_eq_true_iff.mp htested with htested | hnow
  -- The test was before: the loop has left.
  · obtain ⟨hstored, hleft⟩ := h.tested htested
    exact ⟨hstored, EventLoop.next_hasLeft hleft readable⟩
  -- This step is the test, and `m_quit` is still set.
  · obtain ⟨hstored, htests⟩ := Bool.and_eq_true_iff.mp hnow
    refine ⟨hstored, ?_⟩
    rw [testsQuit] at htests
    split at htests
    · rename_i hphase
      have hself : s.loop.selfWaking = false := Bool.not_eq_true' _ |>.mp htests
      exact EventLoop.next_testing hphase hself (h.stopping hstored).quit readable
    · exact Bool.noConfusion htests

theorem Sound.threadFunc (h : s.Sound) (readable : Bool) : (s.threadFunc readable).Sound := by
  have hstopping : s.quitStored = true → (s.threadFunc readable).Stopping :=
    fun hstored => (h.stopping hstored).threadFunc readable
  have hstarted : s.thread ≠ .notStarted → s.owner ≠ .starting :=
    fun hthread howner => hthread (h.notStarted howner)
  have hnot := h.notStored
  cases hthread : s.thread with
  | notStarted =>
      rw [EventLoopThread.threadFunc, hthread]
      exact h
  -- A new loop. The owner does not have its address yet, so nothing is stored.
  | initializing =>
      rw [hthread] at hstarted hnot
      have hnot := hnot nofun nofun
      rw [EventLoopThread.threadFunc, hthread]
      exact ⟨EventLoop.sound_new, fun howner => absurd howner (hstarted nofun), fun _ _ => rfl,
        fun hf => ThreadPhase.noConfusion hf, fun hstored => absurd hstored hnot,
        fun ht => absurd (h.tested ht).1 hnot⟩
  | publishing =>
      rw [hthread] at hstarted hnot
      have hnot := hnot nofun nofun
      rw [EventLoopThread.threadFunc, hthread]
      exact ⟨h.loop, fun howner => absurd howner (hstarted nofun), fun hl => absurd rfl hl,
        fun hf => ThreadPhase.noConfusion hf, fun hstored => absurd hstored hnot, h.tested⟩
  | looping =>
      rw [hthread] at hstarted
      rcases threadFunc_looping hthread readable with ⟨hphase, heq⟩ | ⟨-, heq⟩
      · rw [heq] at hstopping ⊢
        exact ⟨h.loop, fun howner => absurd howner (hstarted nofun), fun _ hf => absurd rfl hf,
          fun _ => hphase, hstopping, h.tested⟩
      · rw [heq] at hstopping ⊢
        exact ⟨h.loop.next readable, h.notStarted, fun hl => absurd hthread hl,
          fun hf => ThreadPhase.noConfusion (hthread.symm.trans hf), hstopping,
          h.tested_next readable⟩
  | finished =>
      rw [EventLoopThread.threadFunc, hthread]
      exact h

/-- A step of the owner before the store of `quit`, or one that skips it. -/
theorem Sound.moveOwner (h : s.Sound) (hnot : s.quitStored ≠ true) (owner : OwnerPhase)
    (howner : owner ≠ .starting) (exiting : Bool) :
    ({ s with owner := owner, m_exiting := exiting } : EventLoopThread F).Sound :=
  ⟨h.loop, fun heq => absurd heq howner, h.notEntered, h.exited,
    fun hstored => absurd hstored hnot, h.tested⟩

theorem Sound.ownerStep (h : s.Sound) (hC : s.StoresInLoop .owner) : s.ownerStep.Sound := by
  have hstopping : s.quitStored = true → s.ownerStep.Stopping :=
    fun hstored => (h.stopping hstored).ownerStep
  have hnot : s.owner ≠ .waking → s.owner ≠ .joining → s.owner ≠ .destroyed →
      s.quitStored ≠ true := by
    intro hwaking hjoining hdestroyed hstored
    rcases (h.stopping hstored).owner with howner | howner | howner
    · exact hwaking howner
    · exact hjoining howner
    · exact hdestroyed howner
  rw [EventLoopThread.ownerStep] at hstopping ⊢
  cases howner : s.owner with
  -- Up to the store the invariant says nothing about `m_quit`.
  | starting =>
      rw [howner] at hnot
      have hthread := h.notStarted howner
      have hphase : s.loop.phase = .calling :=
        h.notEntered (hthread ▸ ThreadPhase.noConfusion) (hthread ▸ ThreadPhase.noConfusion)
      exact ⟨h.loop, nofun, fun _ _ => hphase, nofun,
        fun hstored => absurd hstored (hnot nofun nofun nofun), h.tested⟩
  | waiting =>
      rw [howner] at hnot
      show (if _ then _ else s : EventLoopThread F).Sound
      split
      · exact h.moveOwner (hnot nofun nofun nofun) .started nofun s.m_exiting
      · exact h
  | started =>
      rw [howner] at hnot
      exact h.moveOwner (hnot nofun nofun nofun) .testing nofun true
  | testing =>
      rw [howner] at hnot
      show (if _ then _ else _ : EventLoopThread F).Sound
      split
      · exact h.moveOwner (hnot nofun nofun nofun) .storing nofun s.m_exiting
      · exact h.moveOwner (hnot nofun nofun nofun) .destroyed nofun s.m_exiting
  -- The store. Here the condition is needed.
  | storing =>
      have hentered := hC rfl howner
      -- The thread is in `loop`, for it has gone past its head.
      have hthread : s.thread = .looping ∨ s.thread = .finished := by
        by_contra hthread
        have hphase := h.notEntered (fun hl => hthread (.inl hl)) fun hf => hthread (.inr hf)
        rw [EventLoop.hasEntered, hphase] at hentered
        exact Bool.noConfusion hentered
      exact ⟨h.loop.quit, nofun, h.notEntered, h.exited,
        fun _ => ⟨hentered, rfl, .inl rfl, hthread⟩, fun ht => ⟨rfl, (h.tested ht).2⟩⟩
  -- From here the request is known to be kept.
  | waking =>
      rw [howner] at hstopping
      exact ⟨h.loop.wakeup, nofun, h.notEntered, h.exited, hstopping, h.tested⟩
  | joining =>
      rw [howner] at hstopping
      have hstopping : s.quitStored = true → (if _ then _ else s : EventLoopThread F).Stopping :=
        hstopping
      show (if _ then _ else s : EventLoopThread F).Sound
      split
      · rename_i hfinished
        rw [if_pos hfinished] at hstopping
        exact ⟨h.loop, nofun, h.notEntered, h.exited, hstopping, h.tested⟩
      · exact h
  | destroyed => exact h

theorem Sound.step (h : s.Sound) (e : Event F) (hC : s.StoresInLoop e) : (s.step e).Sound := by
  rcases s.step_cases e with ⟨readable, rfl⟩ | rfl | ⟨loop, heq, hplace, hloop⟩
  · exact h.threadFunc readable
  · exact h.ownerStep hC
  · rw [heq]
    exact h.congr (hloop h.loop) hplace

/-! ## The end of the loop -/

/-- The way to the end of `threadFunc`. -/
def wayOut (s : EventLoopThread F) : Nat ×ₗ Nat :=
  if s.thread = .finished then toLex (0, s.loop.batch.length) else s.loop.wayOut

theorem wayOut_congr {s' : EventLoopThread F} (hthread : s'.thread = s.thread)
    (hplace : s.loop.SamePlace s'.loop) : s'.wayOut = s.wayOut := by
  have hbatch : s'.loop.batch = s.loop.batch := by
    rw [EventLoop.batch, EventLoop.batch, hplace.1]
  rw [wayOut, wayOut, hthread, hplace.wayOut, hbatch]

/-- A step of the thread in its own `wakeup` leads nowhere, any other closer to the end. -/
theorem Stopping.wayOut_threadFunc (h : s.Stopping) (hlooping : s.thread = .looping)
    (readable : Bool) :
    (s.loop.selfWaking = true ∧ (s.threadFunc readable).wayOut = s.wayOut) ∨
      (s.threadFunc readable).wayOut < s.wayOut := by
  have hway : s.wayOut = s.loop.wayOut := if_neg (hlooping ▸ ThreadPhase.noConfusion)
  rcases threadFunc_looping hlooping readable with ⟨hphase, heq⟩ | ⟨hphase, heq⟩
  -- The end of `threadFunc`.
  · refine .inr ?_
    rw [heq, hway]
    refine Prod.Lex.toLex_lt_toLex.mpr (.inl ?_)
    rw [EventLoop.stage, hphase]
    exact Nat.zero_lt_one
  · rw [heq]
    cases hself : s.loop.selfWaking with
    | true =>
        exact .inl ⟨rfl, wayOut_congr rfl (EventLoop.samePlace_next hself readable)⟩
    | false =>
        refine .inr ?_
        rw [hway, EventLoop.next_eq_advance hself, wayOut,
          if_neg (hlooping ▸ ThreadPhase.noConfusion)]
        exact EventLoop.wayOut_advance h.entered h.quit hphase readable

theorem Stopping.wayOut_ownerStep (h : s.Stopping) : s.ownerStep.wayOut = s.wayOut := by
  rw [EventLoopThread.ownerStep]
  rcases h.owner with howner | howner | howner
  · rw [howner]
    exact wayOut_congr rfl ⟨rfl, rfl⟩
  · rw [howner]
    show (if _ then _ else s : EventLoopThread F).wayOut = _
    split
    · exact wayOut_congr rfl ⟨rfl, rfl⟩
    · rfl
  · rw [howner]

theorem Stopping.wayOut_step (h : s.Stopping) (hnot : s.thread ≠ .finished) (e : Event F) :
    (s.step e).wayOut ≤ s.wayOut := by
  rcases s.step_cases e with ⟨readable, rfl⟩ | rfl | ⟨loop, heq, hplace, -⟩
  · rcases h.wayOut_threadFunc (h.thread.resolve_right hnot) readable with ⟨-, heq⟩ | hlt
    · exact le_of_eq heq
    · exact le_of_lt hlt
  · exact le_of_eq h.wayOut_ownerStep
  -- Functors queued now are not in the batch.
  · rw [heq]
    exact le_of_eq (wayOut_congr rfl hplace)

/-- The thread comes to its end. -/
theorem Stopping.finishes (h : s.Stopping) {events : Nat → Event F}
    (hthread : InfinitelyOften EventLoopThread.step ThreadAdvances s events) :
    ∃ n, (stateAt EventLoopThread.step s events n).thread = .finished := by
  -- No event raises the measure, and each step that advances lowers it.
  refine exists_goal_of_measure wayOut (fun _ e hs => hs.step e)
    (fun _ e hs hnot => hs.wayOut_step hnot e) ?_ h hthread
  rintro s e hs hnot ⟨⟨readable, rfl⟩, hself⟩
  rcases hs.wayOut_threadFunc (hs.thread.resolve_right hnot) readable with ⟨hwaking, -⟩ | hlt
  · exact absurd (hself.symm.trans hwaking) Bool.false_ne_true
  · exact hlt

/-- The steps of the owner that are left. -/
def ownerLeft (s : EventLoopThread F) : Nat :=
  match s.owner with
  | .waking => 2
  | .joining => 1
  | _ => 0

/-- After the end of the thread each step of the owner is one more of its destructor. -/
theorem Stopping.ownerStep_finished (h : s.Stopping) (hfinished : s.thread = .finished) :
    s.ownerStep.thread = .finished ∧
      (s.owner = .destroyed ∨ s.ownerStep.ownerLeft < s.ownerLeft) := by
  rw [EventLoopThread.ownerStep, ownerLeft, ownerLeft]
  rcases h.owner with howner | howner | howner
  · rw [howner]
    exact ⟨hfinished, .inr (Nat.lt_succ_self 1)⟩
  · rw [howner]
    simp only [if_pos hfinished]
    exact ⟨hfinished, .inr Nat.zero_lt_one⟩
  · rw [howner]
    exact ⟨hfinished, .inl rfl⟩

/-- The other events change neither. -/
theorem step_finished (hfinished : s.thread = .finished) {e : Event F} (he : e ≠ .owner) :
    (s.step e).thread = .finished ∧ (s.step e).owner = s.owner := by
  rcases s.step_cases e with ⟨readable, rfl⟩ | rfl | ⟨loop, heq, -, -⟩
  · show (s.threadFunc readable).thread = _ ∧ (s.threadFunc readable).owner = _
    rw [EventLoopThread.threadFunc, hfinished]
    exact ⟨hfinished, rfl⟩
  · exact absurd rfl he
  · rw [heq]
    exact ⟨hfinished, rfl⟩

/-- Once the thread has finished, `join` returns. -/
theorem Stopping.destroys (h : s.Stopping) (hfinished : s.thread = .finished)
    {events : Nat → Event F}
    (howner : InfinitelyOften EventLoopThread.step (fun _ e => e = .owner) s events) :
    ∃ n, (stateAt EventLoopThread.step s events n).owner = .destroyed := by
  have hkeep : ∀ (s : EventLoopThread F) (e : Event F), s.Stopping ∧ s.thread = .finished →
      (s.step e).Stopping ∧ (s.step e).thread = .finished := by
    rintro s e ⟨hs, hfinished⟩
    refine ⟨hs.step e, ?_⟩
    by_cases he : e = .owner
    · rw [he]
      exact (hs.ownerStep_finished hfinished).1
    · exact (step_finished hfinished he).1
  have hlt : ∀ (s : EventLoopThread F) (e : Event F), s.Stopping ∧ s.thread = .finished →
      ¬ s.owner = .destroyed → e = .owner → (s.step e).ownerLeft < s.ownerLeft := by
    rintro s e ⟨hs, hfinished⟩ hnot rfl
    exact (hs.ownerStep_finished hfinished).2.resolve_left hnot
  have hle : ∀ (s : EventLoopThread F) (e : Event F), s.Stopping ∧ s.thread = .finished →
      ¬ s.owner = .destroyed → (s.step e).ownerLeft ≤ s.ownerLeft := by
    intro s e hs hnot
    by_cases he : e = .owner
    · exact le_of_lt (hlt s e hs hnot he)
    · rw [ownerLeft, ownerLeft, (step_finished hs.2 he).2]
  -- The thread stays finished, and the owner has at most two steps to go.
  exact exists_goal_of_measure ownerLeft hkeep hle hlt ⟨h, hfinished⟩ howner

theorem Sound.stopKept (h : s.Sound) : s.StopKept where
  kept hstored := (h.stopping hstored).quit
  noPoll htested hphase := by
    have hleft := (h.tested htested).2
    rw [EventLoop.hasLeft, hphase] at hleft
    exact Bool.noConfusion hleft
  joins hstored events hthread howner := by
    have hstopping := h.stopping hstored
    -- First the thread comes to its end, then the owner gets through `join`.
    obtain ⟨n, hfinished⟩ := hstopping.finishes hthread
    have hkeep : ∀ (s : EventLoopThread F) (e : Event F), s.Stopping → (s.step e).Stopping :=
      fun _ e hs => hs.step e
    have hthere := inv_stateAt hkeep hstopping events n
    obtain ⟨m, hdestroyed⟩ := hthere.destroys hfinished (howner.drop n)
    exact ⟨n + m, (stateAt_add s events n m).symm ▸ hdestroyed⟩

/-! ## A request that is lost -/

/-- The store of `quit` came too early, and the owner waits in `join`. -/
structure Lost (s : EventLoopThread F) : Prop where
  owner : s.owner = .waking ∨ s.owner = .joining
  thread : s.thread ≠ .finished
  selfWaking : s.loop.selfWaking = false
  goesOn : s.loop.GoesOn

theorem Lost.threadFunc (h : s.Lost) (readable : Bool) : (s.threadFunc readable).Lost := by
  cases hthread : s.thread with
  | notStarted =>
      rw [EventLoopThread.threadFunc, hthread]
      exact h
  -- A loop that is built now has not entered `loop`.
  | initializing =>
      rw [EventLoopThread.threadFunc, hthread]
      exact ⟨h.owner, nofun, rfl, .inl rfl⟩
  | publishing =>
      rw [EventLoopThread.threadFunc, hthread]
      exact ⟨h.owner, nofun, h.selfWaking, h.goesOn⟩
  | looping =>
      rcases threadFunc_looping hthread readable with ⟨hphase, -⟩ | ⟨-, heq⟩
      · -- A loop that goes on is not at its end.
        rcases h.goesOn with hnot | ⟨-, hleft⟩
        · rw [EventLoop.hasEntered, hphase] at hnot
          exact Bool.noConfusion hnot
        · rw [EventLoop.hasLeft, hphase] at hleft
          exact Bool.noConfusion hleft
      · obtain ⟨hgoes, hself⟩ := h.goesOn.advance readable
        rw [heq, EventLoop.next_eq_advance h.selfWaking]
        exact ⟨h.owner, h.thread, hself.trans h.selfWaking, hgoes⟩
  | finished => exact absurd hthread h.thread

theorem Lost.ownerStep (h : s.Lost) : s.ownerStep.Lost := by
  rw [EventLoopThread.ownerStep]
  rcases h.owner with howner | howner
  · rw [howner]
    exact ⟨.inr rfl, h.thread, h.selfWaking, h.goesOn⟩
  · rw [howner]
    show (if _ then _ else s : EventLoopThread F).Lost
    -- The thread has not finished, so `join` does not return.
    rw [if_neg h.thread]
    exact h

/-- The thread and its owner take turns. -/
def turns (n : Nat) : Event F := if n % 2 = 0 then .thread false else .owner

theorem Lost.stateAt_turns (h : s.Lost) : ∀ n, (stateAt step s turns n).Lost := by
  intro n
  induction n with
  | zero => exact h
  | succ n ih =>
      rw [stateAt, turns]
      split
      · exact ih.threadFunc false
      · exact ih.ownerStep

/-- The owner waits for ever, for the loop does not end. -/
theorem Lost.not_stopKept (h : s.Lost) (hstored : s.quitStored = true) : ¬ s.StopKept := by
  -- The turns are fair to both of them, and still the owner does not get through.
  intro hkept
  have hlost := h.stateAt_turns
  have hthread : InfinitelyOften step ThreadAdvances s turns := by
    intro n
    refine ⟨2 * n, by omega, ⟨false, if_pos (by omega)⟩, (hlost _).selfWaking⟩
  have howner : InfinitelyOften step (fun _ e => e = .owner) s turns := by
    intro n
    exact ⟨2 * n + 1, by omega, if_neg (by omega)⟩
  obtain ⟨n, hdestroyed⟩ := hkept.joins hstored turns hthread howner
  rcases (hlost n).owner with hother | hother
  · exact OwnerPhase.noConfusion (hother.symm.trans hdestroyed)
  · exact OwnerPhase.noConfusion (hother.symm.trans hdestroyed)

theorem Sound.not_stopKept_step (h : s.Sound) {e : Event F} (hC : ¬ s.StoresInLoop e) :
    ¬ (s.step e).StopKept := by
  obtain ⟨rfl, howner, hentered⟩ : e = .owner ∧ s.owner = .storing ∧ s.loop.hasEntered = false := by
    simpa [StoresInLoop] using hC
  have hstep : s.step .owner =
      { s with loop := s.loop.quit, quitStored := true, owner := .waking } := by
    show s.ownerStep = _
    rw [EventLoopThread.ownerStep, howner]
  have hthread : s.thread ≠ .finished := by
    intro hfinished
    rw [EventLoop.hasEntered, h.exited hfinished] at hentered
    exact Bool.noConfusion hentered
  -- The store has been made, and the loop will clear it.
  rw [hstep]
  exact Lost.not_stopKept
    ⟨.inl rfl, hthread, h.loop.selfWaking_of_notEntered hentered, .inl hentered⟩ rfl

/-- In a run of a thread and its owner the stop request is kept exactly when the store of
`quit` comes after the `m_quit = false` of `loop`. -/
theorem stopKept_iff (events : List (Event F)) :
    AllStates step StopKept (new : EventLoopThread F) events ↔
      StepsMeet step StoresInLoop (new : EventLoopThread F) events := by
  have hkeep : ∀ (s : EventLoopThread F) (e : Event F),
      s.Sound → s.StoresInLoop e → (s.step e).Sound := fun _ e hs hC => hs.step e hC
  have hexact : ∀ (s : EventLoopThread F) (e : Event F),
      s.Sound → ¬ s.StoresInLoop e → ¬ (s.step e).StopKept := fun _ _ hs hC =>
    hs.not_stopKept_step hC
  exact allStates_iff_stepsMeet (fun _ hs => hs.stopKept) hkeep hexact sound_new

/-- The owner starts the thread and destroys it at once: its `quit` comes between the
publication of the loop and `m_quit = false`. -/
theorem not_stopKept_destroyedAtOnce :
    ¬ AllStates step StopKept (new : EventLoopThread Unit)
      [.owner, .thread false, .thread false, .owner, .owner, .owner, .owner, .thread false,
        .thread false] := by
  intro hall
  have hquit := hall.last.kept rfl
  exact Bool.noConfusion hquit

end EventLoopThread

end RegistrationCenter
