import RegistrationCenter.Spec.Messages

/-!
# `RegistrationCenter.Spec.Tcp.Buffer`: the byte buffer of a connection

`src/tcp/Buffer.h` and `src/tcp/Buffer.cpp`. The readable bytes lie between the reader
and the writer index of a vector, with at least `kCheapPrepend` bytes before them when
they are moved. The indices are natural numbers: no buffer comes near 2^64 bytes. `SizeT`
has the operations once more in the arithmetic of `size_t`, which comes round at 2^64.

`readv` and `write` are the environment's. Their result is stored in a `size_t`, so the
result -1 of a failed call is the number 2^64 - 1.
-/

set_option autoImplicit false

namespace RegistrationCenter

structure Buffer where
  m_buffer : Bytes
  m_readerIdx : Nat
  m_writerIdx : Nat

/-- The error numbers that the code tells apart. -/
inductive Errno
  | EWOULDBLOCK
  | EPIPE
  | ECONNRESET
  | other
  deriving DecidableEq

/-- What `readv` meets: bytes that have arrived, none at the end of the stream, or an error. -/
inductive ReadOutcome
  | arrived (incoming : Bytes)
  | failed (errno : Errno)

/-- The `errno` that a failed `readv` sets. -/
def ReadOutcome.errno : ReadOutcome → Option Errno
  | .arrived _ => none
  | .failed errno => some errno

/-- What `write` meets: the kernel accepts up to `count` bytes, a number that `ssize_t`
holds, or an error. -/
inductive WriteOutcome
  | accepted (count : Fin (2 ^ 63))
  | failed (errno : Errno)

namespace WriteOutcome

/-- The bytes of the request that the kernel accepts. -/
def taken (data : Bytes) : WriteOutcome → Bytes
  | .accepted count => data.take count
  | .failed _ => []

/-- The result of `::write`, converted to `size_t`. -/
def result (data : Bytes) : WriteOutcome → UInt64
  | .accepted count => .ofNat (data.take count).length
  | .failed _ => .ofNat (2 ^ 64 - 1)

end WriteOutcome

namespace Buffer

def kCheapPrepend : Nat := 8

def kInitialSize : Nat := 1024

/-- The constructor. It does not use its argument `initialSize`. -/
def new : Buffer :=
  { m_buffer := List.replicate (kCheapPrepend + kInitialSize) 0
    m_readerIdx := kCheapPrepend
    m_writerIdx := kCheapPrepend }

def readableBytes (b : Buffer) : Nat := b.m_writerIdx - b.m_readerIdx

def writableBytes (b : Buffer) : Nat := b.m_buffer.length - b.m_writerIdx

def prependableBytes (b : Buffer) : Nat := b.m_readerIdx

/-- The bytes at `peek()`. -/
def peek (b : Buffer) (len : Nat) : Bytes := (b.m_buffer.drop b.m_readerIdx).take len

def retrieveAll (b : Buffer) : Buffer :=
  { b with m_readerIdx := kCheapPrepend, m_writerIdx := kCheapPrepend }

def retrieve (b : Buffer) (len : Nat) : Buffer :=
  if len < b.readableBytes then { b with m_readerIdx := b.m_readerIdx + len }
  else b.retrieveAll

def retrieveAsString (b : Buffer) (len : Nat) : Bytes × Buffer := (b.peek len, b.retrieve len)

def retrieveAllAsString (b : Buffer) : Bytes × Buffer := b.retrieveAsString b.readableBytes

/-- `std::copy` to the vector at `i`, which has room for the bytes. -/
def copyTo (v : Bytes) (i : Nat) (data : Bytes) : Bytes :=
  v.take i ++ data ++ v.drop (i + data.length)

/-- `vector::resize`. -/
def resize (v : Bytes) (n : Nat) : Bytes := v.take n ++ List.replicate (n - v.length) 0

def makeSpace (b : Buffer) (len : Nat) : Buffer :=
  if b.writableBytes + b.prependableBytes < len + kCheapPrepend then
    -- The room before and after the readable bytes does not do: make the vector longer.
    { b with m_buffer := resize b.m_buffer (b.m_writerIdx + len) }
  else
    -- It does: move the readable bytes to the front.
    let readable := b.readableBytes
    { m_buffer := copyTo b.m_buffer kCheapPrepend (b.peek readable)
      m_readerIdx := kCheapPrepend
      m_writerIdx := kCheapPrepend + readable }

def ensureWritableBytes (b : Buffer) (len : Nat) : Buffer :=
  if b.writableBytes < len then b.makeSpace len else b

def hasWritten (b : Buffer) (len : Nat) : Buffer :=
  { b with m_writerIdx := b.m_writerIdx + len }

def append (b : Buffer) (data : Bytes) : Buffer :=
  let b' := b.ensureWritableBytes data.length
  { b' with m_buffer := copyTo b'.m_buffer b'.m_writerIdx data }.hasWritten data.length

/-- The size of `extrabuf`. -/
def extraSize : Nat := 65536

/-- How many bytes one `readFd` takes at most. -/
def readCapacity (b : Buffer) : Nat :=
  if b.writableBytes < extraSize then b.writableBytes + extraSize else b.writableBytes

/-- `::readv` into the writable bytes and `extrabuf`: the bytes that it brings, no more than
`ssize_t` can count, and its result, converted to `size_t`. -/
def readv (b : Buffer) : ReadOutcome → Bytes × UInt64
  | .arrived incoming =>
      let data := incoming.take (min b.readCapacity (2 ^ 63 - 1))
      (data, .ofNat data.length)
  | .failed _ => ([], .ofNat (2 ^ 64 - 1))

/-- `readFd`: the buffer after it, the `errno` that it has stored in `saveErrno`, and its
result. `readv` fills the writable bytes first and `extrabuf` then. -/
def readFd (b : Buffer) (outcome : ReadOutcome) : Option (Buffer × Option Errno × UInt64) :=
  let writable := b.writableBytes
  let (data, n) := b.readv outcome
  let b₁ := { b with m_buffer := copyTo b.m_buffer b.m_writerIdx (data.take writable) }
  let extrabuf := data.drop writable ++ List.replicate (extraSize - (data.length - writable)) 0
  -- The comparison of the source: it holds of no unsigned number.
  if n < 0 then some (b₁, outcome.errno, n)
  else if n.toNat < writable then some (b₁.hasWritten n.toNat, none, n)
  else if n.toNat - writable ≤ extraSize then
    some ({ b₁ with m_writerIdx := b₁.m_buffer.length }.append
      (extrabuf.take (n.toNat - writable)), none, n)
  -- `append` copies more than `extrabuf` has, and nothing is said about what follows.
  else none

/-- `writeFd`: the bytes that the kernel takes, and the result. -/
def writeFd (b : Buffer) (outcome : WriteOutcome) : Bytes × UInt64 :=
  let data := b.peek b.readableBytes
  (outcome.taken data, outcome.result data)

/-! ### The arithmetic of `size_t` -/

namespace SizeT

/-- A sum of two sizes. -/
def add (m n : Nat) : Nat := (m + n) % 2 ^ 64

/-- A difference of two sizes. -/
def sub (m n : Nat) : Nat := (2 ^ 64 + m - n) % 2 ^ 64

def readableBytes (b : Buffer) : Nat := sub b.m_writerIdx b.m_readerIdx

def writableBytes (b : Buffer) : Nat := sub b.m_buffer.length b.m_writerIdx

def retrieve (b : Buffer) (len : Nat) : Buffer :=
  if len < readableBytes b then { b with m_readerIdx := add b.m_readerIdx len }
  else b.retrieveAll

def retrieveAllAsString (b : Buffer) : Bytes × Buffer :=
  (b.peek (readableBytes b), retrieve b (readableBytes b))

def makeSpace (b : Buffer) (len : Nat) : Buffer :=
  if add (writableBytes b) b.prependableBytes < add len kCheapPrepend then
    { b with m_buffer := resize b.m_buffer (add b.m_writerIdx len) }
  else
    let readable := readableBytes b
    { m_buffer := copyTo b.m_buffer kCheapPrepend (b.peek readable)
      m_readerIdx := kCheapPrepend
      m_writerIdx := add kCheapPrepend readable }

def ensureWritableBytes (b : Buffer) (len : Nat) : Buffer :=
  if writableBytes b < len then makeSpace b len else b

def hasWritten (b : Buffer) (len : Nat) : Buffer :=
  { b with m_writerIdx := add b.m_writerIdx len }

def append (b : Buffer) (data : Bytes) : Buffer :=
  let b' := ensureWritableBytes b data.length
  hasWritten { b' with m_buffer := copyTo b'.m_buffer b'.m_writerIdx data } data.length

end SizeT

/-- A call on a buffer. Between the calls somebody may store bytes at `beginWrite()`. -/
inductive Call
  | append (data : Bytes)
  | retrieve (len : UInt64)
  | retrieveAll
  | retrieveAllAsString
  | ensureWritableBytes (len : UInt64)
  | store (data : Bytes)
  | hasWritten (len : UInt64)

/-- The buffer after a call. -/
def SizeT.call (b : Buffer) : Call → Buffer
  | .append data => append b data
  | .retrieve len => retrieve b len.toNat
  | .retrieveAll => b.retrieveAll
  | .retrieveAllAsString => (retrieveAllAsString b).2
  | .ensureWritableBytes len => ensureWritableBytes b len.toNat
  | .store data => { b with m_buffer := copyTo b.m_buffer b.m_writerIdx data }
  | .hasWritten len => hasWritten b len.toNat

end Buffer

end RegistrationCenter
