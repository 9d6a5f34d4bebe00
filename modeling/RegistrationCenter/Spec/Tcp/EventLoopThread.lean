import RegistrationCenter.Spec.Tcp.EventLoop

/-!
# `RegistrationCenter.Spec.Tcp.EventLoopThread`: a loop, its thread and their owner

`src/tcp/EventLoopThread.h` and `src/tcp/EventLoopThread.cpp`. `threadFunc` builds the loop,
publishes its address in `m_loop` and enters `loop`. The owner calls `startLoop`, which waits
for the address, and later the destructor, which calls `quit` and `join`. Here `quit` is two
steps, its store and its `wakeup`, so that the thread of the loop may come in between.
-/

set_option autoImplicit false

namespace RegistrationCenter

/-- Where the thread of the loop stands in `threadFunc`. -/
inductive ThreadPhase
  | notStarted
  /-- Building the loop and calling `m_threadInitCallback`, which leaves the loop alone here. -/
  | initializing
  /-- Before `m_loop = &loop`. -/
  | publishing
  /-- In `loop`, or between its end and `m_loop = nullptr`. -/
  | looping
  | finished
deriving DecidableEq

/-- Where the owner stands in `startLoop` and in the destructor. -/
inductive OwnerPhase
  /-- Before `m_thread.start()`. -/
  | starting
  /-- Waiting for `m_loop`. -/
  | waiting
  /-- Past `startLoop`, before the destructor. -/
  | started
  /-- Before the test of `m_loop`. -/
  | testing
  /-- Before the store of `quit`. -/
  | storing
  /-- Before the `wakeup` of `quit`. -/
  | waking
  /-- In `join`. -/
  | joining
  /-- Past the destructor. -/
  | destroyed
deriving DecidableEq

structure EventLoopThread (F : Type) where
  /-- The address of the loop is published. -/
  m_loop : Bool
  m_exiting : Bool
  thread : ThreadPhase
  owner : OwnerPhase
  /-- The loop on the stack of `threadFunc`. -/
  loop : EventLoop F
  /-- The owner has called `quit`, and its store is done. -/
  quitStored : Bool
  /-- The loop has tested `m_quit` after that store. -/
  quitTested : Bool

namespace EventLoopThread

variable {F : Type}

/-- The constructor. The thread is not running yet. -/
def new : EventLoopThread F :=
  { m_loop := false
    m_exiting := false
    thread := .notStarted
    owner := .starting
    loop := EventLoop.new
    quitStored := false
    quitTested := false }

/-- The loop is about to test `m_quit`. -/
def testsQuit (s : EventLoopThread F) : Bool :=
  match s.loop.phase with
  | .testing => !s.loop.selfWaking
  | _ => false

/-- The next step of `threadFunc`. -/
def threadFunc (s : EventLoopThread F) (readable : Bool) : EventLoopThread F :=
  match s.thread with
  | .notStarted => s
  | .initializing => { s with loop := EventLoop.new, thread := .publishing }
  | .publishing => { s with m_loop := true, thread := .looping }
  | .looping =>
      match s.loop.phase with
      | .exited => { s with m_loop := false, thread := .finished }
      | _ =>
          { s with
            loop := s.loop.next readable
            quitTested := s.quitTested || s.quitStored && s.testsQuit }
  | .finished => s

/-- The next step of the owner, in `startLoop` and then in the destructor. -/
def ownerStep (s : EventLoopThread F) : EventLoopThread F :=
  match s.owner with
  | .starting => { s with thread := .initializing, owner := .waiting }
  | .waiting => if s.m_loop then { s with owner := .started } else s
  | .started => { s with m_exiting := true, owner := .testing }
  | .testing => if s.m_loop then { s with owner := .storing } else { s with owner := .destroyed }
  | .storing => { s with loop := s.loop.quit, quitStored := true, owner := .waking }
  | .waking => { s with loop := s.loop.wakeup, owner := .joining }
  | .joining => if s.thread = .finished then { s with owner := .destroyed } else s
  | .destroyed => s

/-- What happens to the thread and its owner. Other threads reach the loop once its address is
published. -/
inductive Event (F : Type)
  | thread (readable : Bool)
  | owner
  | queueInLoop (f : F)
  | queueFrom (thread : Nat) (f : F)
  | wakeupFrom (thread : Nat)

def step (s : EventLoopThread F) : Event F → EventLoopThread F
  | .thread readable => s.threadFunc readable
  | .owner => s.ownerStep
  | .queueInLoop f => { s with loop := s.loop.queueInLoop f }
  | .queueFrom thread f => if s.m_loop then { s with loop := s.loop.queueFrom thread f } else s
  | .wakeupFrom thread => { s with loop := s.loop.wakeupFrom thread }

end EventLoopThread

end RegistrationCenter
