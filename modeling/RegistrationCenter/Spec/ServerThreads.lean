import Mathlib.Logic.Function.Basic
import RegistrationCenter.Spec.SRCServer

/-!
# `RegistrationCenter.Spec.ServerThreads`: the threads of the server

`SRCServer` takes `onMessage` and a round of the UDP thread as one step each. Here the threads go
from call to call: an IO thread in `onMessage`, the UDP thread in `ThreadFunc`, and any thread
can come between two calls of another. A call is one of the session manager, of the store, which
both have a mutex, of the heartbeat counter or, within its `tick`, of one of its two heaps.

The heartbeat counter and its heaps have no mutex. That their calls are atomic is an assumption
here: `push` and `reset`, which are two heap calls each, and `m_timer.tick` with all its callbacks
are one step each.

An IO thread that has a connection request generates a session id, adds the session, pushes it
and sends the response. All other messages take one call at most, that of the store, and a
response. The UDP thread ticks the timer and then goes through the loop of the counter's `tick`.
The callback of the root deletes its timer, removes the session and removes its session nodes, and
after it the root is popped.
-/

set_option autoImplicit false

namespace RegistrationCenter

/-- The call of an IO thread that comes next. -/
inductive IoThread
  | idle
  | add (sessionId : UInt64) (peerAddress : InetAddress)
  | push (sessionId : UInt64)
  | send (resp : WrappedResponse)

/-- The call of the UDP thread that comes next. The calls of a callback, and the pop after it,
go with the id that the callback was run for. -/
inductive UdpThread
  | tickTimer
  /-- The condition of the loop of the counter's `tick`. -/
  | tickCounter
  | del (id : UInt64)
  | remove (id : UInt64)
  | removeEphemeral (id : UInt64)
  | pop (id : UInt64)
  | recvfrom
  | reset (id : UInt64)

structure ServerThreads where
  server : SRCServer
  /-- The IO threads, by their numbers. -/
  io : Nat → IoThread
  udp : UdpThread

namespace ServerThreads

/-- The server after `start`. -/
def init (timeout max_heartbeat : Int) : ServerThreads :=
  { server := .init timeout max_heartbeat, io := fun _ => .idle, udp := .tickTimer }

/-- What the scheduler lets happen. -/
inductive Event
  /-- An IO thread has read a message. -/
  | onMessage (thread : Nat) (peerAddress : InetAddress) (data : Bytes)
  /-- An IO thread makes its next call. -/
  | io (thread : Nat)
  /-- The UDP thread makes its next call. When it receives, it has this session id or nothing. -/
  | udp (received : Option UInt64)

/-- An IO thread goes to its next call. -/
def goto (s : ServerThreads) (thread : Nat) (next : IoThread) : ServerThreads :=
  { s with io := Function.update s.io thread next }

/-- `onMessage`, up to the first call that others wait for. -/
def onMessage (env : Environment) (s : ServerThreads) (thread : Nat) (peerAddress : InetAddress)
    (data : Bytes) : ServerThreads :=
  match (ParseFromString WrappedRequest data).map WrappedRequest.requestType with
  | some .Connection =>
      let sessionId := env.generateSessionId s.server.generated
      { s with server := { s.server with generated := s.server.generated + 1 } }.goto thread
        (.add sessionId peerAddress)
  | _ =>
      let (resp, server) := s.server.onData env peerAddress data
      { s with server := server }.goto thread (.send resp)

/-- The next call of an IO thread. -/
def ioStep (env : Environment) (s : ServerThreads) (thread : Nat) : ServerThreads :=
  match s.io thread with
  | .idle => s
  | .add sessionId peerAddress =>
      { s with server := s.server.addSession sessionId peerAddress }.goto thread (.push sessionId)
  | .push sessionId =>
      let connRes : ConnectionResponse := { sessionId := sessionId }
      { s with server := s.server.pushSession env sessionId }.goto thread
        (.send { responseType := .Connection, data := SerializeAsString connRes })
  | .send _ => s.goto thread .idle

/-- The counter with another timer. -/
def setTimer (s : SRCServer) (timer : HeapTimer TimeoutCallback) : SRCServer :=
  { s with m_heartbeatCounter := { s.m_heartbeatCounter with m_timer := timer } }

/-- The counter with other counts. -/
def setCounter (s : SRCServer) (counter : HeapHeartBeatCounter CountCallback) : SRCServer :=
  { s with m_heartbeatCounter := { s.m_heartbeatCounter with m_counter := counter } }

/-- The next call of the UDP thread. -/
def udpStep (env : Environment) (s : ServerThreads) (received : Option UInt64) : ServerThreads :=
  let counter := s.server.m_heartbeatCounter
  match s.udp with
  | .tickTimer =>
      { s with
          server := { s.server with m_heartbeatCounter := counter.tickTimer env.now }
          udp := .tickCounter }
  | .tickCounter =>
      match counter.m_counter.heap.nodes[0]? with
      | none => { s with udp := .recvfrom }
      | some top =>
          if top.heartbeatCount < counter.m_counter.LIMIT then { s with udp := .recvfrom }
          else { s with udp := .del top.id }
  | .del id => { s with server := setTimer s.server (counter.m_timer.del id), udp := .remove id }
  | .remove id =>
      { s with
          server := { s.server with m_sessionManager := s.server.m_sessionManager.remove id }
          udp := .removeEphemeral id }
  | .removeEphemeral id =>
      { s with
          server := { s.server with services := s.server.services.removeEphemeral id }
          udp := .pop id }
  | .pop _ => { s with server := setCounter s.server counter.m_counter.pop, udp := .tickCounter }
  | .recvfrom =>
      match received with
      | none => { s with udp := .tickTimer }
      | some id =>
          if s.server.m_sessionManager.exist id then { s with udp := .reset id }
          else { s with udp := .tickTimer }
  | .reset id =>
      { s with
          server := { s.server with m_heartbeatCounter := counter.reset env.now id }
          udp := .tickTimer }

/-- A thread that is busy takes no message. -/
def step (env : Environment) (s : ServerThreads) : Event → ServerThreads
  | .onMessage thread peerAddress data =>
      match s.io thread with
      | .idle => s.onMessage env thread peerAddress data
      | _ => s
  | .io thread => s.ioStep env thread
  | .udp received => s.udpStep env received

end ServerThreads

end RegistrationCenter
