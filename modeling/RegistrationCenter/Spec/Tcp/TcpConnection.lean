import RegistrationCenter.Spec.Tcp.Buffer

/-!
# `RegistrationCenter.Spec.Tcp.TcpConnection`: reading and writing on a connection

`src/tcp/TcpConnection.h` and `src/tcp/TcpConnection.cpp`. The bytes of a connection go
out on two paths: `sendInLoop` writes directly when nothing waits, and puts the rest in the
output buffer; `handleWrite` writes from the buffer when the socket is writable. Each takes
the outcome of its `::write` and returns the bytes that the kernel takes. `handleRead` takes
what has arrived to the message callback.

`nwrote`, `remaining` and the result of `writeFd` are of type `size_t`, so they are
`UInt64` here, with its arithmetic.
-/

set_option autoImplicit false

namespace RegistrationCenter

inductive StateE
  | kDisconnected
  | kConnecting
  | kConnected
  | kDisconnecting
  deriving DecidableEq

/-- A functor that the connection hands to `queueInLoop`. -/
inductive Functor
  | writeCompleteCallback
  | highWaterMarkCallback (len : UInt64)

structure TcpConnection where
  m_state : StateE
  /-- `m_channel->isWriting()`. -/
  isWriting : Bool
  m_outputBuffer : Buffer
  m_highWaterMark : UInt64
  /-- The write-complete callback is set. -/
  m_writeCompleteCallback : Bool
  /-- The high-water-mark callback is set. -/
  m_highWaterMarkCallback : Bool
  /-- The functors handed to the loop so far. -/
  queued : List Functor
  /-- The writing half of the socket is shut down. -/
  isShutdown : Bool

/-- The text of a string object. No object is larger than `PTRDIFF_MAX`. -/
abbrev StringObject := { data : Bytes // data.length < 2 ^ 63 }

namespace TcpConnection

/-- A connection after `connectEstablished`, with nothing sent. -/
def established (highWaterMark : UInt64) (writeComplete highWater : Bool) : TcpConnection :=
  { m_state := .kConnected
    isWriting := false
    m_outputBuffer := .new
    m_highWaterMark := highWaterMark
    m_writeCompleteCallback := writeComplete
    m_highWaterMarkCallback := highWater
    queued := []
    isShutdown := false }

def queueInLoop (c : TcpConnection) (f : Functor) : TcpConnection :=
  { c with queued := c.queued ++ [f] }

/-- The `len` bytes at `message + offset`. The pointer wraps round, so the greatest offset
stands for the byte `before` the message. -/
def bytesAt (before : UInt8) (message : Bytes) (offset len : UInt64) : Bytes :=
  if offset = .ofNat (2 ^ 64 - 1) then (before :: message).take len.toNat
  else (message.drop offset.toNat).take len.toNat

/-- The direct write of `sendInLoop`: `nwrote`, `remaining` and `faultError` after it, and
the functors queued. -/
def writeDirect (c : TcpConnection) (message : Bytes) (outcome : WriteOutcome) :
    UInt64 × UInt64 × Bool × TcpConnection :=
  let len : UInt64 := .ofNat message.length
  let nwrote := outcome.result message
  -- The comparison of the source: it holds of every unsigned number.
  if 0 ≤ nwrote then
    let remaining := len - nwrote
    (nwrote, remaining, false,
      if remaining = 0 ∧ c.m_writeCompleteCallback then c.queueInLoop .writeCompleteCallback
      else c)
  else
    match outcome with
    | .failed .EPIPE => (0, len, true, c)
    | .failed .ECONNRESET => (0, len, true, c)
    | _ => (0, len, false, c)

/-- The buffered part of `sendInLoop`: the rest goes to the output buffer, and the channel
waits for the socket to be writable. -/
def appendRest (c : TcpConnection) (rest : Bytes) (remaining : UInt64) : TcpConnection :=
  let oldLen : UInt64 := .ofNat c.m_outputBuffer.readableBytes
  let c₁ :=
    if oldLen + remaining ≥ c.m_highWaterMark ∧ oldLen < c.m_highWaterMark ∧
        c.m_highWaterMarkCallback then
      c.queueInLoop (.highWaterMarkCallback (oldLen + remaining))
    else c
  { c₁ with m_outputBuffer := c₁.m_outputBuffer.append rest, isWriting := true }

/-- `sendInLoop`: the bytes that the kernel takes, and the connection after it. `before` is
the byte in memory before the message. -/
def sendInLoop (c : TcpConnection) (message : Bytes) (outcome : WriteOutcome) (before : UInt8) :
    Bytes × TcpConnection :=
  if c.m_state = .kDisconnected then ([], c)
  else
    -- The channel is idle and nothing waits in the buffer.
    let direct : Bool := !c.isWriting && c.m_outputBuffer.readableBytes == 0
    let (nwrote, remaining, faultError, c₁) :=
      if direct then c.writeDirect message outcome
      else (0, .ofNat message.length, false, c)
    let taken := if direct then outcome.taken message else []
    if !faultError && decide (remaining > 0) then
      (taken, c₁.appendRest (bytesAt before message nwrote remaining) remaining)
    else (taken, c₁)

/-- `send` in the thread of the loop. -/
def send (c : TcpConnection) (message : Bytes) (outcome : WriteOutcome) (before : UInt8) :
    Bytes × TcpConnection :=
  if c.m_state = .kConnected then c.sendInLoop message outcome before else ([], c)

def shutdownInLoop (c : TcpConnection) : TcpConnection :=
  if !c.isWriting then { c with isShutdown := true } else c

/-- `shutdown` in the thread of the loop. -/
def shutdown (c : TcpConnection) : TcpConnection :=
  if c.m_state = .kConnected then { c with m_state := .kDisconnecting }.shutdownInLoop else c

/-- `handleWrite`: the bytes that the kernel takes, and the connection after it. -/
def handleWrite (c : TcpConnection) (outcome : WriteOutcome) : Bytes × TcpConnection :=
  if c.isWriting then
    let (taken, n) := c.m_outputBuffer.writeFd outcome
    if n > 0 then
      let c₁ := { c with m_outputBuffer := c.m_outputBuffer.retrieve n.toNat }
      -- Nothing is left to write: stop waiting for the socket, and finish a shutdown.
      if c₁.m_outputBuffer.readableBytes = 0 then
        let c₂ := { c₁ with isWriting := false }
        let c₃ := if c₂.m_writeCompleteCallback then c₂.queueInLoop .writeCompleteCallback else c₂
        (taken, if c₃.m_state = .kDisconnecting then c₃.shutdownInLoop else c₃)
      else (taken, c₁)
    else (taken, c)
  else ([], c)

/-- `handleRead` on the input buffer, with the world `ω` of the callbacks: the message
callback runs when bytes have arrived, and the connection is closed at the end of the stream.
The result of `readFd` is unsigned, so the last branch is never taken. -/
def handleRead {ω : Type} (messageCallback : Buffer → ω → Buffer × ω)
    (handleClose handleError : ω → ω) (inputBuffer : Buffer) (outcome : ReadOutcome) (w : ω) :
    Option (Buffer × ω) :=
  match inputBuffer.readFd outcome with
  | none => none
  -- `errno = saveErrno` in the last branch is for nobody: `handleError` asks the socket.
  | some (inputBuffer', _, n) =>
      if n > 0 then some (messageCallback inputBuffer' w)
      else if n = 0 then some (inputBuffer', handleClose w)
      else some (inputBuffer', handleError w)

end TcpConnection

end RegistrationCenter
