import RegistrationCenter.Spec.Messages

/-!
# `RegistrationCenter.Spec.UUID4`: the session ids

`src/uuid4.h` and `src/uuid4.cpp`. Each call of `generateSessionId` fills the seed from the random
source, steps it twice and writes the two words as the text of a version 4 UUID. The session id
is the hash of the text, which is a function of the standard library (`hash`).

`m_seed` is a static, so it starts as zero. What `fread` reads goes over the bytes of the seed,
from the first on. Whether it has read them all is returned, but `generateSessionId` does not look
at it. The union of the bytes and the words is little-endian.
-/

set_option autoImplicit false

namespace RegistrationCenter

namespace UUID4

/-- `m_seed`. -/
abbrev Seed := UInt64 × UInt64

def xorshift128plus (s : Seed) : UInt64 × Seed :=
  let s1 := s.1
  let s0 := s.2
  let s1 := s1 ^^^ (s1 <<< 23)
  let s1 := s1 ^^^ s0 ^^^ (s1 >>> 18) ^^^ (s0 >>> 5)
  (s1 + s0, (s0, s1))

/-- The bytes of a word in memory. -/
def toMemory (w : UInt64) : Bytes :=
  [w.toUInt8, (w >>> 8).toUInt8, (w >>> 16).toUInt8, (w >>> 24).toUInt8,
    (w >>> 32).toUInt8, (w >>> 40).toUInt8, (w >>> 48).toUInt8, (w >>> 56).toUInt8]

/-- The word that has these bytes in memory. -/
def ofMemory (b : Bytes) : UInt64 := b.foldr (fun c w => w <<< 8 ||| c.toUInt64) 0

/-- `uuid4_init`, with the bytes that `fread` reads, which are none when the source cannot be
opened. -/
def uuid4_init (read : Bytes) (m_seed : Seed) : Seed :=
  let memory := read.take 16 ++ (toMemory m_seed.1 ++ toMemory m_seed.2).drop read.length
  (ofMemory (memory.take 8), ofMemory (memory.drop 8))

def template_str : Bytes := bytes "xxxxxxxx-xxxx-4xxx-yxxx-xxxxxxxxxxxx"

def chars : Bytes := bytes "0123456789abcdef"

/-- The nibble number `i` of the bytes `b`, the low one of each byte first. -/
def nibble (b : Bytes) (i : Nat) : UInt8 :=
  let n := b.getD (i >>> 1) 0
  if i &&& 1 ≠ 0 then n >>> 4 else n &&& 0xf

/-- The loop of `uuid4_generate` over what is left of the template. -/
def buildString (b : Bytes) : Bytes → Nat → Bytes
  | [], _ => []
  | p :: ps, i =>
      let n := nibble b i
      if p = 120 then chars.getD n.toNat 0 :: buildString b ps (i + 1)
      else if p = 121 then chars.getD ((n &&& 0x3) + 8).toNat 0 :: buildString b ps (i + 1)
      else p :: buildString b ps i

/-- `uuid4_generate`, with the `\0` at the end. -/
def uuid4_generate (m_seed : Seed) : Bytes × Seed :=
  let (word0, m_seed₁) := xorshift128plus m_seed
  let (word1, m_seed₂) := xorshift128plus m_seed₁
  (buildString (toMemory word0 ++ toMemory word1) template_str 0 ++ [0], m_seed₂)

/-- `generateSessionId`. A string that is made of the buffer ends before its first `\0`. -/
def generateSessionId (hash : Bytes → UInt64) (read : Bytes) (m_seed : Seed) : UInt64 × Seed :=
  let (buf, m_seed') := uuid4_generate (uuid4_init read m_seed)
  (hash (buf.takeWhile fun c => c ≠ 0), m_seed')

end UUID4

end RegistrationCenter
