import RegistrationCenter.Spec.HeapTimer
import RegistrationCenter.Spec.HeapHeartbeatCounter

/-!
# `RegistrationCenter.Spec.HeartbeatCounter`: missed heartbeats of the sessions

`src/HeartbeatCounter.h` and `src/HeartbeatCounter.cpp`. Each session has a node in
the timer and a node in the counter. When the timer of a session expires,
`timeoutFunc` starts it again and adds one to the count. When the count reaches
the limit, `heartbeatReach` deletes the timer and runs the callback that the
owner has set.

The callbacks that the two heaps store are bound member functions, named here by
`TimeoutCallback` and `CountCallback`. `onReach` is `m_heartbeatCountReachCallback`
as a function on the world `ω` of the owner.
-/

set_option autoImplicit false

namespace RegistrationCenter

open Lib

/-- The callback the timer nodes hold: `timeoutFunc` bound to the counter. -/
inductive TimeoutCallback
  | timeoutFunc

/-- The callback the counter nodes hold: `heartbeatReach` bound to the counter. -/
inductive CountCallback
  | heartbeatReach

structure HeartbeatCounter where
  m_timer : HeapTimer TimeoutCallback
  m_counter : HeapHeartBeatCounter CountCallback
  /-- Milliseconds within which one heartbeat is expected. -/
  m_timeout : Int
  /-- Clock readings taken so far. -/
  reads : Nat

namespace HeartbeatCounter

variable {ω : Type}

/-- The constructor, less the socket and the thread. -/
def init (timeout max_heartbeat : Int) : HeartbeatCounter :=
  { m_timer := IndexedHeap.empty
    m_counter := { heap := IndexedHeap.empty, LIMIT := max_heartbeat }
    m_timeout := timeout
    reads := 0 }

/-- `push`. -/
def push (clk : Nat → Int) (h : HeartbeatCounter) (id : UInt64) : HeartbeatCounter :=
  let (timer, reads) := h.m_timer.push clk h.reads id h.m_timeout .timeoutFunc
  { h with
      m_timer := timer
      m_counter := h.m_counter.push id .heartbeatReach
      reads := reads }

/-- `reset`. -/
def reset (clk : Nat → Int) (h : HeartbeatCounter) (id : UInt64) : HeartbeatCounter :=
  let counter := h.m_counter.adjust id 0
  let (timer, reads) := h.m_timer.adjust clk h.reads id h.m_timeout
  { h with m_timer := timer, m_counter := counter, reads := reads }

/-- `timeoutFunc`: start the timer again, then add one to the count. -/
def timeoutFunc (clk : Nat → Int) (timeout : Int) (id : UInt64)
    (s : HeapTimer TimeoutCallback × Nat × HeapHeartBeatCounter CountCallback) :
    HeapTimer TimeoutCallback × Nat × HeapHeartBeatCounter CountCallback :=
  let (timer, reads) := s.1.push clk s.2.1 id timeout .timeoutFunc
  (timer, reads, s.2.2.addOne id)

/-- `heartbeatReach`: delete the timer, then run the owner's callback. -/
def heartbeatReach (onReach : UInt64 → ω → ω) (id : UInt64) (s : HeapTimer TimeoutCallback × ω) :
    HeapTimer TimeoutCallback × ω :=
  (s.1.del id, onReach id s.2)

/-- The timer half of `tick`. -/
def tickTimer (clk : Nat → Int) (h : HeartbeatCounter) : HeartbeatCounter :=
  let (timer, reads, counter) :=
    h.m_timer.tick clk (fun | .timeoutFunc => timeoutFunc clk h.m_timeout) h.reads h.m_counter
  { h with m_timer := timer, m_counter := counter, reads := reads }

/-- The counter half of `tick`. -/
def tickCounter (onReach : UInt64 → ω → ω) (h : HeartbeatCounter) (w : ω) :
    HeartbeatCounter × ω :=
  let (counter, timer, w') :=
    h.m_counter.tick (fun | .heartbeatReach => heartbeatReach onReach) (h.m_timer, w)
  ({ h with m_timer := timer, m_counter := counter }, w')

/-- `tick`. -/
def tick (clk : Nat → Int) (onReach : UInt64 → ω → ω) (h : HeartbeatCounter) (w : ω) :
    HeartbeatCounter × ω :=
  (h.tickTimer clk).tickCounter onReach w

end HeartbeatCounter

end RegistrationCenter
