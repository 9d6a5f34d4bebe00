import RegistrationCenter.Spec.Tcp.EpollPoller
import RegistrationCenter.Spec.Tcp.HalfClose

/-!
# `RegistrationCenter.Spec.Tcp.TcpServer`: the life of a connection

`src/tcp/TcpServer.cpp` and the parts of `src/tcp/TcpConnection.cpp` that open and close a
connection. The server hands `connectEstablished` to the loop of a new connection. The
connection ends in one of two ways: `handleClose` runs, and `removeConnectionInLoop` hands
`connectDestoryed` to the loop; or the server is destroyed and hands it over itself.

The connection callback is the user's. What it sees of the connection, `connected()`, is
written down at each run. The functors wait in the queue of the loop, so `connectDestoryed`
comes after `connectEstablished`; everything else may come in any order.
-/

set_option autoImplicit false

namespace RegistrationCenter

/-- A connection with its channel, and what the server and the loops have still to do for it. -/
structure ConnectionLife extends HalfClose where
  m_inputBuffer : Buffer
  m_channel : Channel
  poller : EpollPoller
  /-- The connection is in `m_connections` of the server. -/
  inServer : Bool
  /-- `removeConnectionInLoop` waits this many times in the queue of the server's loop. -/
  removing : Nat
  /-- `connectDestoryed` waits this many times in the queue of the connection's loop. -/
  destroying : Nat
  /-- What `connected()` was at each run of the connection callback. -/
  callbacks : List Bool
  /-- The state, and whether the channel was registered, at each return of
  `connectDestoryed`. -/
  returned : List (StateE × Bool)

namespace ConnectionLife

/-- `newConnection`: a connection on the new socket `fd`. The kernel takes a closed fd out of an
epoll set, so a new one is in none. -/
def newConnection (fd : Nat) (poller : EpollPoller) (highWaterMark : UInt64)
    (writeComplete highWater : Bool) : ConnectionLife :=
  let connection := TcpConnection.established highWaterMark writeComplete highWater
  { connection := { connection with m_state := .kConnecting }
    functors := []
    sending := []
    shutdownTested := 0
    shutdownSet := 0
    shutdownWrites := []
    m_inputBuffer := .new
    m_channel := .new fd fd
    poller := { poller with epollSet := Function.update poller.epollSet fd none }
    inServer := true
    removing := 0
    destroying := 0
    callbacks := []
    returned := [] }

def setState (l : ConnectionLife) (s : StateE) : ConnectionLife :=
  { l with connection := { l.connection with m_state := s } }

/-- `connected()`. -/
def connected (l : ConnectionLife) : Bool := decide (l.connection.m_state = .kConnected)

def connectionCallback (l : ConnectionLife) : ConnectionLife :=
  { l with callbacks := l.callbacks ++ [l.connected] }

/-- `m_channel->disableAll()`. -/
def disableAll (l : ConnectionLife) : ConnectionLife :=
  let (poller, channel) := l.m_channel.disableAll l.poller
  { l with
      connection := { l.connection with isWriting := false }
      m_channel := channel
      poller := poller }

/-- The new connection of a step, and the call of `enableWriting` or `disableWriting` that has
changed its write interest. -/
def setOutput (l : ConnectionLife) (s : HalfClose) : ConnectionLife :=
  let (poller, channel) :=
    if s.connection.isWriting = l.connection.isWriting then (l.poller, l.m_channel)
    else if s.connection.isWriting then l.m_channel.enableWriting l.poller
    else l.m_channel.disableWriting l.poller
  { l with toHalfClose := s, m_channel := channel, poller := poller }

def connectEstablished (l : ConnectionLife) : ConnectionLife :=
  let l₁ := l.setState .kConnected
  let (poller, channel) := l₁.m_channel.enableReading l₁.poller
  { l₁ with m_channel := channel, poller := poller }.connectionCallback

/-- `handleClose`. The close callback is `removeConnection` of the server, which hands
`removeConnectionInLoop` to the server's loop. -/
def handleClose (l : ConnectionLife) : ConnectionLife :=
  let l₁ := (l.setState .kDisconnected).disableAll.connectionCallback
  { l₁ with removing := l₁.removing + 1 }

def connectDestoryed (l : ConnectionLife) : ConnectionLife :=
  let l₁ :=
    -- The test of the source: it asks for the state that it sets.
    if l.connection.m_state = .kDisconnected then
      (l.setState .kDisconnected).disableAll.connectionCallback
    else l
  let (poller, channel) := l₁.m_channel.remove l₁.poller
  { l₁ with
      m_channel := channel
      poller := poller
      returned := l₁.returned ++ [(l₁.connection.m_state, channel.registered poller)] }

/-- `handleRead` when these bytes have arrived, none at the end of the stream. The message
callback takes `consumed` bytes out of the buffer. -/
def handleRead (l : ConnectionLife) (incoming : Bytes) (consumed : Nat) : ConnectionLife :=
  match TcpConnection.handleRead (fun buffer l => (buffer.retrieve consumed, l)) handleClose id
      l.m_inputBuffer (.arrived incoming) l with
  | none => l
  | some (buffer, l') => { l' with m_inputBuffer := buffer }

/-- `removeConnectionInLoop`, when it is the turn of one that waits. -/
def removeConnectionInLoop (l : ConnectionLife) : ConnectionLife :=
  { l with inServer := false, destroying := l.destroying + 1 }

/-- `~TcpServer`, as far as this connection goes. -/
def destroyServer (l : ConnectionLife) : ConnectionLife :=
  if l.inServer then { l with inServer := false, destroying := l.destroying + 1 } else l

inductive Event
  | connectEstablished
  | read (incoming : Bytes) (consumed : Nat)
  /-- The poller reports that both halves are closed. -/
  | close
  /-- `send`, `shutdown`, `handleWrite`, and the functors and threads of these. -/
  | output (e : HalfClose.Event)
  | removeConnectionInLoop
  | destroyServer
  | connectDestoryed

def step (l : ConnectionLife) : Event → ConnectionLife
  | .connectEstablished =>
      if l.connection.m_state = .kConnecting then l.connectEstablished else l
  -- The channel is in no poller before `connectEstablished`.
  | .read incoming consumed =>
      if l.connection.m_state = .kConnecting then l else l.handleRead incoming consumed
  | .close => if l.connection.m_state = .kConnecting then l else l.handleClose
  | .output e => l.setOutput (l.toHalfClose.step e)
  | .removeConnectionInLoop =>
      match l.removing with
      | 0 => l
      | n + 1 => { l with removing := n }.removeConnectionInLoop
  | .destroyServer => l.destroyServer
  | .connectDestoryed =>
      if l.connection.m_state = .kConnecting then l
      else
        match l.destroying with
        | 0 => l
        | n + 1 => { l with destroying := n }.connectDestoryed

end ConnectionLife

end RegistrationCenter
