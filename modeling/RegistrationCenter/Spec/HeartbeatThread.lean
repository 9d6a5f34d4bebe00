import RegistrationCenter.Spec.Messages

/-!
# `RegistrationCenter.Spec.HeartbeatThread`: the UDP loop

`HeartbeatCounter::ThreadFunc` of `src/HeartbeatCounter.cpp`: the thread that ticks the
heartbeat counter and receives the heartbeats. What `recvfrom` returns is the environment's;
the socket has a time-out of a second, so an error is nothing unusual.

The loop writes to an array of 256 bytes. Each index that it writes to is recorded, as a
number with a sign: what a write outside the array does is not modelled.
-/

set_option autoImplicit false

namespace RegistrationCenter

/-- What `recvfrom` meets: an error, of which the time-out is one, or a datagram. -/
inductive RecvOutcome
  | failed
  | datagram (data : Bytes)

/-- The size of `buf`. -/
def bufSize : Nat := 256

/-- `::recvfrom` with room for `bufSize` bytes: the bytes that it stores, and its result. The
rest of a longer datagram is lost. -/
def recvfrom : RecvOutcome → Bytes × Int
  | .failed => ([], -1)
  | .datagram data => (data.take bufSize, (data.take bufSize).length)

/-- The thread between two rounds, with the world `ω` that its calls change. -/
structure HeartbeatThreadState (ω : Type) where
  buf : Bytes
  /-- The indices of `buf` that the loop has written to. -/
  writes : List Int
  /-- The session ids with which the callback has been run. -/
  callbacks : List UInt64
  world : ω

namespace HeartbeatThreadState

variable {ω : Type}

/-- Before the first round. -/
def init (world : ω) : HeartbeatThreadState ω :=
  { buf := List.replicate bufSize 0, writes := [], callbacks := [], world := world }

/-- A round of `ThreadFunc`, with the callback that the server has set. `leftover` is what a
failed parse leaves in the message. -/
def round (tick : ω → ω) (m_onUDPMessageCallback : UInt64 → ω → ω)
    (leftover : Bytes → HeartbeatMessage) (s : HeartbeatThreadState ω) (outcome : RecvOutcome) :
    HeartbeatThreadState ω :=
  let world := tick s.world
  let (data, n) := recvfrom outcome
  let received := data ++ s.buf.drop data.length
  let s₁ : HeartbeatThreadState ω :=
    { s with
        -- `buf[n] = 0`, before `n` is looked at.
        buf := if 0 ≤ n then received.set n.toNat 0 else received
        writes := s.writes ++ (List.range data.length).map Int.ofNat ++ [n]
        world := world }
  if n ≤ 0 then s₁
  else
    -- Whether the parse succeeds is not looked at.
    let msg := (ParseFromString HeartbeatMessage (s₁.buf.take n.toNat)).getD
      (leftover (s₁.buf.take n.toNat))
    { s₁ with
        callbacks := s₁.callbacks ++ [msg.sessionId]
        world := m_onUDPMessageCallback msg.sessionId world }

/-- `ThreadFunc`, as far as these results of `recvfrom`. -/
def ThreadFunc (tick : ω → ω) (m_onUDPMessageCallback : UInt64 → ω → ω)
    (leftover : Bytes → HeartbeatMessage) (world : ω) (outcomes : List RecvOutcome) :
    HeartbeatThreadState ω :=
  outcomes.foldl (round tick m_onUDPMessageCallback leftover) (init world)

end HeartbeatThreadState

end RegistrationCenter
