import RegistrationCenter.Spec.Tcp.TcpConnection

/-!
# `RegistrationCenter.Spec.Tcp.HalfClose`: `send` and `shutdown` from any thread

`send` and `shutdown` of `src/tcp/TcpConnection.cpp` may be called in any thread. In another
thread than the loop's they only test and set the state and hand a functor to the loop, so such
a call is taken apart: it has tested the state, it has set it, it has handed over. Everything
else runs in the thread of the loop, one function after the other.
-/

set_option autoImplicit false

namespace RegistrationCenter

/-- A functor of the connection in the queue of its loop. -/
inductive LoopFunctor
  | sendInLoop (message : StringObject)
  | shutdownInLoop
  deriving DecidableEq

/-- A connection with the calls on it that are under way. -/
structure HalfClose where
  connection : TcpConnection
  /-- The functors in the queue of the loop, in their order. -/
  functors : List LoopFunctor
  /-- The calls of `send` in other threads that have seen a connected state. -/
  sending : List StringObject
  /-- How many calls of `shutdown` in other threads have seen a connected state. -/
  shutdownTested : Nat
  /-- How many of them have set the state and not yet handed over `shutdownInLoop`. -/
  shutdownSet : Nat
  /-- The bytes that waited at each call of `shutdownWrite`. -/
  shutdownWrites : List Bytes

namespace HalfClose

inductive Event
  | send (message : StringObject) (outcome : WriteOutcome) (before : UInt8)
  | shutdown
  | writable (outcome : WriteOutcome)
  /-- The loop runs the first functor of its queue. -/
  | runFunctor (outcome : WriteOutcome) (before : UInt8)
  | sendTest (message : StringObject)
  | sendHandOver (i : Nat)
  | shutdownTest
  | shutdownSet
  | shutdownHandOver

/-- Run a function of the connection. When it calls `shutdownWrite`, which nothing else shows
than the flag `isShutdown`, the bytes that wait are written down. -/
def run (s : HalfClose) (f : TcpConnection → TcpConnection) : HalfClose :=
  let c := f { s.connection with isShutdown := false }
  let waiting := c.m_outputBuffer.peek c.m_outputBuffer.readableBytes
  { s with
      connection := { c with isShutdown := s.connection.isShutdown || c.isShutdown }
      shutdownWrites :=
        if c.isShutdown then s.shutdownWrites ++ [waiting] else s.shutdownWrites }

/-- What a functor does to the connection. -/
def call (outcome : WriteOutcome) (before : UInt8) (c : TcpConnection) :
    LoopFunctor → TcpConnection
  | .sendInLoop message => (c.sendInLoop message outcome before).2
  | .shutdownInLoop => c.shutdownInLoop

def step (s : HalfClose) : Event → HalfClose
  | .send message outcome before => s.run fun c => (c.send message outcome before).2
  | .shutdown => s.run fun c => c.shutdown
  | .writable outcome => s.run fun c => (c.handleWrite outcome).2
  | .runFunctor outcome before =>
      match s.functors with
      | [] => s
      | f :: functors => { s with functors := functors }.run fun c => call outcome before c f
  | .sendTest message =>
      if s.connection.m_state = .kConnected then { s with sending := s.sending ++ [message] } else s
  | .sendHandOver i =>
      match s.sending[i]? with
      | none => s
      | some message =>
          { s with
              sending := s.sending.eraseIdx i
              functors := s.functors ++ [.sendInLoop message] }
  | .shutdownTest =>
      if s.connection.m_state = .kConnected then { s with shutdownTested := s.shutdownTested + 1 }
      else s
  | .shutdownSet =>
      match s.shutdownTested with
      | 0 => s
      | n + 1 =>
          { s with
              connection := { s.connection with m_state := .kDisconnecting }
              shutdownTested := n
              shutdownSet := s.shutdownSet + 1 }
  | .shutdownHandOver =>
      match s.shutdownSet with
      | 0 => s
      | n + 1 => { s with shutdownSet := n, functors := s.functors ++ [.shutdownInLoop] }

/-- A connection just established, which nobody uses yet. -/
def established (highWaterMark : UInt64) (writeComplete highWater : Bool) : HalfClose :=
  { connection := .established highWaterMark writeComplete highWater
    functors := []
    sending := []
    shutdownTested := 0
    shutdownSet := 0
    shutdownWrites := [] }

end HalfClose

end RegistrationCenter
