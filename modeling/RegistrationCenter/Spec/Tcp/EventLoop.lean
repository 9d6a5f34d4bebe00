import Mathlib.Logic.Function.Basic

/-!
# `RegistrationCenter.Spec.Tcp.EventLoop`: the loop and its queue of functors

`src/tcp/EventLoop.h` and `src/tcp/EventLoop.cpp`. The thread of the loop runs `loop`, one
step after the other: what is one step is what other threads cannot come in between. Other
threads append a functor under the mutex and then call `wakeup`, so each of them may stand
between the two. The thread of the loop does the same when a handler or a functor calls
`queueInLoop`.

The eventfd is readable while its counter is not zero, and reading resets it. The poller may
leave it out of a round, and it may return for another reason, at the latest after
`kPollTimeMs`.
-/

set_option autoImplicit false

namespace RegistrationCenter

/-- Where the thread of the loop stands in `loop`. -/
inductive LoopPhase (F : Type)
  /-- Before the call of `loop`. -/
  | calling
  /-- Before `m_quit = false`. -/
  | entering
  /-- Before the test of `m_quit`. -/
  | testing
  /-- In `poll`, or about to call it. -/
  | polling
  /-- Handling the active channels; the eventfd is one of them and still to be read. -/
  | handling (readable : Bool)
  /-- In `doPendingFunctors`, before the swap. -/
  | swapping
  /-- Running the functors that have been swapped out; these are left. -/
  | running (funcs : List F)
  /-- Before `m_looping = false`. -/
  | leaving
  | exited

structure EventLoop (F : Type) where
  m_looping : Bool
  m_quit : Bool
  m_callingPendingFunctors : Bool
  m_pendingFunctors : List F
  /-- The counter of the eventfd. -/
  counter : Nat
  phase : LoopPhase F
  /-- The thread of the loop has appended a functor and is about to call `wakeup`. -/
  selfWaking : Bool
  /-- The other threads that have appended a functor and are about to call `wakeup`, each with
  the place of its functor among all that were queued. -/
  waking : Nat → Option Nat
  /-- All functors queued so far, in the order of their appends. -/
  queued : List F
  /-- All functors run so far. -/
  ran : List F

namespace EventLoop

variable {F : Type}

/-- The constructor. -/
def new : EventLoop F :=
  { m_looping := false
    m_quit := false
    m_callingPendingFunctors := false
    m_pendingFunctors := []
    counter := 0
    phase := .calling
    selfWaking := false
    waking := fun _ => none
    queued := []
    ran := [] }

/-- `::write` of a one to the eventfd, which does not block: a counter at its greatest value
stays. -/
def writeEventFd (counter : Nat) : Nat :=
  if counter < 0xfffffffffffffffe then counter + 1 else counter

def wakeup (s : EventLoop F) : EventLoop F := { s with counter := writeEventFd s.counter }

/-- `handleRead`, the read callback of the eventfd. -/
def handleRead (s : EventLoop F) : EventLoop F := { s with counter := 0 }

/-- The append of `queueInLoop`. -/
def append (s : EventLoop F) (f : F) : EventLoop F :=
  { s with m_pendingFunctors := s.m_pendingFunctors ++ [f], queued := s.queued ++ [f] }

/-- The functors of the batch that are still to run. -/
def batch (s : EventLoop F) : List F :=
  match s.phase with
  | .running funcs => funcs
  | _ => []

/-- The next step of `loop`. `readable` says whether `poll` reports the eventfd, which it can
do while the counter is not zero. -/
def advance (s : EventLoop F) (readable : Bool) : EventLoop F :=
  match s.phase with
  | .calling => { s with m_looping := true, phase := .entering }
  | .entering => { s with m_quit := false, phase := .testing }
  | .testing => if s.m_quit then { s with phase := .leaving } else { s with phase := .polling }
  | .polling => { s with phase := .handling (readable && decide (0 < s.counter)) }
  | .handling true => { s.handleRead with phase := .handling false }
  | .handling false => { s with m_callingPendingFunctors := true, phase := .swapping }
  | .swapping => { s with m_pendingFunctors := [], phase := .running s.m_pendingFunctors }
  | .running (f :: funcs) => { s with phase := .running funcs, ran := s.ran ++ [f] }
  | .running [] => { s with m_callingPendingFunctors := false, phase := .testing }
  | .leaving => { s with m_looping := false, phase := .exited }
  | .exited => s

/-- The next step of the thread of the loop: the `wakeup` of its own `queueInLoop`, if that is
to come, else a step of `loop`. -/
def next (s : EventLoop F) (readable : Bool) : EventLoop F :=
  if s.selfWaking then { s.wakeup with selfWaking := false } else s.advance readable

/-- A handler or a functor runs in the thread of the loop. -/
def callsOut (s : EventLoop F) : Bool :=
  match s.phase with
  | .handling _ => !s.selfWaking
  | .running _ => !s.selfWaking
  | _ => false

/-- `queueInLoop` in the thread of the loop. It calls `wakeup` only while functors run. -/
def queueInLoop (s : EventLoop F) (f : F) : EventLoop F :=
  if s.callsOut then { s.append f with selfWaking := s.m_callingPendingFunctors } else s

/-- `queueInLoop` in another thread, up to the append. -/
def queueFrom (s : EventLoop F) (thread : Nat) (f : F) : EventLoop F :=
  if s.waking thread = none then
    { s.append f with waking := Function.update s.waking thread (some s.queued.length) }
  else s

/-- The rest of `queueInLoop` in another thread. -/
def wakeupFrom (s : EventLoop F) (thread : Nat) : EventLoop F :=
  if s.waking thread = none then s
  else { s.wakeup with waking := Function.update s.waking thread none }

/-- The store of `quit`. -/
def quit (s : EventLoop F) : EventLoop F := { s with m_quit := true }

/-- What happens to a loop. `quit` may come from any thread, and is followed by a `wakeup` in
the others. -/
inductive Event (F : Type)
  | next (readable : Bool)
  | queueInLoop (f : F)
  | queueFrom (thread : Nat) (f : F)
  | wakeupFrom (thread : Nat)
  | quit
  | wakeup

def step (s : EventLoop F) : Event F → EventLoop F
  | .next readable => s.next readable
  | .queueInLoop f => s.queueInLoop f
  | .queueFrom thread f => s.queueFrom thread f
  | .wakeupFrom thread => s.wakeupFrom thread
  | .quit => s.quit
  | .wakeup => s.wakeup

end EventLoop

end RegistrationCenter
