import Mathlib.Data.Fintype.Basic
import Mathlib.Data.List.AList
import Mathlib.Logic.Function.Iterate
import RegistrationCenter.Spec.Tcp.TcpServer

/-!
# `RegistrationCenter.Spec.Tcp.Reactor`: the server with all its loops

`src/tcp/TcpServer.cpp`, `src/tcp/EventLoopThreadPool.cpp`, the dispatch of
`src/tcp/Channel.cpp` and of `src/tcp/EpollPoller.cpp`, and the body of `EventLoop::loop`. The
base loop accepts and keeps `m_connections`; each connection has one of the loops of the pool.
What is one step here is one callback of a channel or one functor: other loops come in between.

A connection is an object with an address that is used once. `shared_ptr` is modelled by who
holds one: `m_connections`, the functors of a loop up to the end of their batch, and the guard of
`handleEvent`. After each step the objects that nobody holds are destroyed, and the kernel takes
their closed fds out of the epoll sets. An access to an object that is gone sets `dangling`.

Left out: the channels of the acceptor and of the wake-ups, which are there for good; a read that
fails; and `~TcpServer`.
-/

set_option autoImplicit false

namespace RegistrationCenter

/-! ## The pool of loops -/

structure EventLoopThreadPool (L : Type) where
  m_baseLoop : L
  m_loops : List L
  m_next : Nat

namespace EventLoopThreadPool

variable {L : Type}

def new (baseLoop : L) : EventLoopThreadPool L :=
  { m_baseLoop := baseLoop, m_loops := [], m_next := 0 }

/-- `start`, with the loops of the threads that it makes. -/
def start (p : EventLoopThreadPool L) (loops : List L) : EventLoopThreadPool L :=
  { p with m_loops := p.m_loops ++ loops }

def getNextLoop (p : EventLoopThreadPool L) : L × EventLoopThreadPool L :=
  match p.m_loops with
  | [] => (p.m_baseLoop, p)
  | _ :: _ =>
      (p.m_loops.getD p.m_next p.m_baseLoop,
        { p with m_next := (p.m_next + 1) % p.m_loops.length })

end EventLoopThreadPool

/-! ## The dispatch of a channel -/

/-- The mask `m_revents`. -/
structure Revents where
  EPOLLIN : Bool
  EPOLLPRI : Bool
  EPOLLOUT : Bool
  EPOLLERR : Bool
  EPOLLHUP : Bool

/-- What the kernel reports of it to a channel with this interest: `EPOLLERR` and `EPOLLHUP`
need no interest. -/
def Revents.reported (revents : Revents) (events : Events) : Revents :=
  { revents with
      EPOLLIN := revents.EPOLLIN && events.reading
      EPOLLPRI := revents.EPOLLPRI && events.reading
      EPOLLOUT := revents.EPOLLOUT && events.writing }

inductive ChannelCallback
  | m_closeCallback
  | m_errorCallback
  | m_readCallback
  | m_writeCallback

/-- `handelEventWithGuard`: the callbacks that it runs, in their order. The connection has set
them all. -/
def Channel.handelEventWithGuard (revents : Revents) : List ChannelCallback :=
  (if revents.EPOLLHUP && !revents.EPOLLIN then [.m_closeCallback] else []) ++
    (if revents.EPOLLERR then [.m_errorCallback] else []) ++
    (if revents.EPOLLIN || revents.EPOLLPRI then [.m_readCallback] else []) ++
    (if revents.EPOLLOUT then [.m_writeCallback] else [])

/-- What a callback of the user does with its connection. -/
inductive UserAction
  | send (message : StringObject) (outcome : WriteOutcome) (before : UInt8)
  | shutdown

def UserAction.event : UserAction → HalfClose.Event
  | .send message outcome before => .send message outcome before
  | .shutdown => .shutdown

/-- A callback of the user, in the thread of the loop. -/
def ConnectionLife.act (l : ConnectionLife) (actions : List UserAction) : ConnectionLife :=
  actions.foldl (fun l action => l.setOutput (l.toHalfClose.step action.event)) l

def ConnectionLife.handleWrite (l : ConnectionLife) (outcome : WriteOutcome) : ConnectionLife :=
  l.setOutput (l.toHalfClose.step (.writable outcome))

/-! ## The server -/

/-- A functor in the queue of a loop, with the connection that it holds. -/
inductive Task
  | connectEstablished (connection : Nat)
  | removeConnectionInLoop (connection : Nat)
  | connectDestoryed (connection : Nat)
  /-- The write-complete or the high-water-mark callback. -/
  | userCallback (connection : Nat)
  deriving DecidableEq

def Task.connection : Task → Nat
  | .connectEstablished c => c
  | .removeConnectionInLoop c => c
  | .connectDestoryed c => c
  | .userCallback c => c

/-- Where the thread of a loop stands. -/
inductive Turn
  | polling
  /-- In the loop over `m_activeChannels`, with those still to come. -/
  | dispatching (active : List (Nat × Revents))
  /-- In `handleEvent` of a channel: whether `m_tie` is locked, and the callbacks to come. -/
  | handling (channel : Nat) (guard : Bool) (callbacks : List ChannelCallback)
      (active : List (Nat × Revents))
  /-- In `doPendingFunctors`: the functors that have run, and those to come. -/
  | running (done todo : List Task)

namespace Turn

/-- The channels that the thread has a pointer to. -/
def active : Turn → List Nat
  | .dispatching active => active.map Prod.fst
  | .handling channel _ _ active => channel :: active.map Prod.fst
  | _ => []

/-- `funcs` of `doPendingFunctors`. -/
def funcs : Turn → List Task
  | .running done todo => done ++ todo
  | _ => []

/-- The functors of the batch that have not run. -/
def todo : Turn → List Task
  | .running _ todo => todo
  | _ => []

/-- The connection that `handleEvent` keeps. -/
def guard : Turn → Option Nat
  | .handling channel true _ _ => some channel
  | _ => none

end Turn

/-- A connection in memory, with its loop and its name. -/
structure ConnectionObject (n : Nat) where
  m_loop : Fin (n + 1)
  m_name : String
  life : ConnectionLife

/-- A server with `n` loops in its pool. The loops are numbered, the base loop first. -/
structure Reactor (n : Nat) where
  m_ipPort : String
  /-- A write-complete callback is set. -/
  m_writeCompleteCallback : Bool
  m_threadPool : EventLoopThreadPool (Fin (n + 1))
  m_nextConnId : Nat
  m_connections : AList fun _ : String => Nat
  objects : Nat → Option (ConnectionObject n)
  /-- The address of the next object. -/
  next : Nat
  poller : Fin (n + 1) → EpollPoller
  m_pendingFunctors : Fin (n + 1) → List Task
  turn : Fin (n + 1) → Turn
  /-- A thread has used an object that is gone. -/
  dangling : Bool
  /-- A function that belongs to the thread of a connection's loop has run in another one. -/
  foreign : Bool

/-- What the environment and the user bring to a step of a loop. -/
structure Input where
  /-- The fds that `epoll_wait` reports. -/
  ready : List (Nat × Revents)
  /-- What a read brings. -/
  incoming : Bytes
  /-- How much the message callback takes out of the buffer. -/
  consumed : Nat
  /-- What `write` of `handleWrite` meets. -/
  outcome : WriteOutcome
  /-- What the callback of the user does. -/
  actions : List UserAction

namespace Reactor

variable {n : Nat}

def baseLoop : Fin (n + 1) := ⟨0, Nat.succ_pos n⟩

/-- A server that has been started. -/
def start (n : Nat) (ipPort : String) (writeComplete : Bool) : Reactor n :=
  { m_ipPort := ipPort
    m_writeCompleteCallback := writeComplete
    m_threadPool := (EventLoopThreadPool.new baseLoop).start ((List.finRange n).map Fin.succ)
    m_nextConnId := 1
    m_connections := ∅
    objects := fun _ => none
    next := 0
    poller := fun _ => .new
    m_pendingFunctors := fun _ => []
    turn := fun _ => .polling
    dangling := false
    foreign := false }

def queueInLoop (s : Reactor n) (i : Fin (n + 1)) (t : Task) : Reactor n :=
  { s with
      m_pendingFunctors := Function.update s.m_pendingFunctors i (s.m_pendingFunctors i ++ [t]) }

def setTurn (s : Reactor n) (i : Fin (n + 1)) (turn : Turn) : Reactor n :=
  { s with turn := Function.update s.turn i turn }

/-! ### Removing a connection -/

def removeConnectionInLoop (s : Reactor n) (c : Nat) : Reactor n :=
  match s.objects c with
  | none => { s with dangling := true }
  | some o =>
      { s with m_connections := s.m_connections.erase o.m_name }.queueInLoop o.m_loop
        (.connectDestoryed c)

/-- `removeConnection` in the thread of loop `i`: `runInLoop` of the base loop. -/
def removeConnection (s : Reactor n) (i : Fin (n + 1)) (c : Nat) : Reactor n :=
  if i = baseLoop then s.removeConnectionInLoop c
  else s.queueInLoop baseLoop (.removeConnectionInLoop c)

/-! ### The functions of a connection -/

/-- A function of a connection runs in the thread of loop `i`. It works on the poller of its
loop, and the functors and the calls of the close callback that it leaves are handed over. -/
def run (s : Reactor n) (i : Fin (n + 1)) (c : Nat) (f : ConnectionLife → ConnectionLife) :
    Reactor n :=
  match s.objects c with
  | none => { s with dangling := true }
  | some o =>
      let l := f
        { o.life with
            connection := { o.life.connection with queued := [] }
            poller := s.poller o.m_loop
            removing := 0 }
      let callbacks := l.connection.queued.map fun _ => Task.userCallback c
      let s₁ := { s with
        objects := Function.update s.objects c (some { o with life := l })
        poller := Function.update s.poller o.m_loop l.poller
        m_pendingFunctors := Function.update s.m_pendingFunctors o.m_loop
          (s.m_pendingFunctors o.m_loop ++ callbacks)
        foreign := s.foreign || decide (o.m_loop ≠ i) }
      (fun s => s.removeConnection i c)^[l.removing] s₁

/-- A callback of the channel of a connection. `handleError` only asks the socket and logs. -/
def handle (s : Reactor n) (i : Fin (n + 1)) (c : Nat) (input : Input) :
    ChannelCallback → Reactor n
  | .m_closeCallback => s.run i c fun l => l.handleClose.act input.actions
  | .m_errorCallback => s.run i c id
  | .m_readCallback =>
      s.run i c fun l => (l.handleRead input.incoming input.consumed).act input.actions
  | .m_writeCallback => s.run i c fun l => l.handleWrite input.outcome

def runTask (s : Reactor n) (i : Fin (n + 1)) (input : Input) : Task → Reactor n
  | .connectEstablished c => s.run i c fun l => l.connectEstablished.act input.actions
  | .removeConnectionInLoop c => s.removeConnectionInLoop c
  | .connectDestoryed c => s.run i c ConnectionLife.connectDestoryed
  | .userCallback c => s.run i c fun l => l.act input.actions

/-! ### Accepting -/

def connectionName (ipPort : String) (id : Nat) : String := ipPort ++ "#" ++ toString id

/-- The object that `newConnection` makes: `m_highWaterMark` is 64 MiB, and the server sets no
high-water-mark callback. -/
def newObject (s : Reactor n) (ioLoop : Fin (n + 1)) (fd : Nat) : ConnectionObject n :=
  let life := ConnectionLife.newConnection fd (s.poller ioLoop) 67108864
    s.m_writeCompleteCallback false
  { m_loop := ioLoop
    m_name := connectionName s.m_ipPort s.m_nextConnId
    life := { life with m_channel := .new s.next fd } }

def newConnection (s : Reactor n) (fd : Nat) (input : Input) : Reactor n :=
  let (ioLoop, pool) := s.m_threadPool.getNextLoop
  let o := s.newObject ioLoop fd
  let s₁ := { s with
    m_threadPool := pool
    m_nextConnId := s.m_nextConnId + 1
    m_connections := s.m_connections.insert o.m_name s.next
    objects := Function.update s.objects s.next (some o)
    next := s.next + 1 }
  -- `runInLoop` of the loop of the connection, in the thread of the base loop.
  if ioLoop = baseLoop then
    s₁.run baseLoop s.next fun l => l.connectEstablished.act input.actions
  else s₁.queueInLoop ioLoop (.connectEstablished s.next)

/-- The fd is open: an object has it. -/
def Open (s : Reactor n) (fd : Nat) : Prop :=
  ∃ c < s.next, ∃ o ∈ s.objects c, o.life.m_channel.m_fd = fd

instance (s : Reactor n) (fd : Nat) : Decidable (s.Open fd) :=
  inferInstanceAs (Decidable (∃ c < s.next, ∃ o ∈ s.objects c, o.life.m_channel.m_fd = fd))

/-! ### The steps of a loop -/

/-- The next step of the thread of loop `i`. -/
def advance (s : Reactor n) (i : Fin (n + 1)) (input : Input) : Reactor n :=
  match s.turn i with
  | .polling =>
      s.setTurn i (.dispatching (input.ready.filterMap fun (fd, revents) =>
        ((s.poller i).epollSet fd).map fun (events, c) => (c, revents.reported events)))
  | .dispatching [] =>
      { s.setTurn i (.running [] (s.m_pendingFunctors i)) with
          m_pendingFunctors := Function.update s.m_pendingFunctors i [] }
  | .dispatching ((c, revents) :: active) =>
      match s.objects c with
      | none => { s.setTurn i (.dispatching active) with dangling := true }
      | some o =>
          -- `connectEstablished` has tied the channel.
          let tied := decide (o.life.connection.m_state ≠ .kConnecting)
          s.setTurn i (.handling c tied (Channel.handelEventWithGuard revents) active)
  | .handling _ _ [] active => s.setTurn i (.dispatching active)
  | .handling c guard (callback :: callbacks) active =>
      (s.handle i c input callback).setTurn i (.handling c guard callbacks active)
  | .running done (t :: todo) => (s.runTask i input t).setTurn i (.running (done ++ [t]) todo)
  | .running _ [] => s.setTurn i .polling

/-- Somebody has a `shared_ptr` to the object. -/
def Held (s : Reactor n) (c : Nat) : Prop :=
  (∃ entry ∈ s.m_connections.entries, entry.2 = c) ∨
    ∃ i, (∃ t ∈ s.m_pendingFunctors i ++ (s.turn i).funcs, t.connection = c) ∨
      (s.turn i).guard = some c

instance (s : Reactor n) (c : Nat) : Decidable (s.Held c) :=
  inferInstanceAs (Decidable ((∃ entry ∈ s.m_connections.entries, entry.2 = c) ∨
    ∃ i, (∃ t ∈ s.m_pendingFunctors i ++ (s.turn i).funcs, t.connection = c) ∨
      (s.turn i).guard = some c))

/-- The objects that nobody holds are destroyed: their fds are closed, and get out of the epoll
sets. -/
def reap (s : Reactor n) : Reactor n :=
  { s with
      objects := fun c => if s.Held c then s.objects c else none
      poller := fun i =>
        { s.poller i with
            epollSet := fun fd => ((s.poller i).epollSet fd).filter fun e => s.Held e.2 } }

inductive Event (n : Nat)
  /-- The acceptor, one of the active channels of the base loop, brings a connection. -/
  | accept (fd : Nat) (input : Input)
  | next (i : Fin (n + 1)) (input : Input)

/-- The base loop is between two of its active channels. -/
def accepting (s : Reactor n) : Bool :=
  match s.turn baseLoop with
  | .dispatching _ => true
  | _ => false

def step (s : Reactor n) : Event n → Reactor n
  | .accept fd input =>
      -- The kernel gives an fd that is not open. Nothing is said about an `m_nextConnId` that
      -- comes to its greatest value.
      if s.accepting ∧ ¬ s.Open fd ∧ s.m_nextConnId < 2147483647 then
        (s.newConnection fd input).reap
      else s
  | .next i input => (s.advance i input).reap

end Reactor

end RegistrationCenter
