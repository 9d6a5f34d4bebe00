import Mathlib.Logic.Function.Basic
import RegistrationCenter.Spec.Messages

/-!
# `RegistrationCenter.Spec.SessionManager`: the live sessions

`src/SessionManager.h`, `src/Session.h` and the part of `src/tcp/InetAddress.cpp` that
names a peer. The manager keeps the sessions by their ids, and an index from the address
of the peer. Every function holds the mutex of the manager for its whole run.
-/

set_option autoImplicit false

namespace RegistrationCenter

/-- An IPv4 address, by its four octets, and a port. -/
structure InetAddress where
  octets : UInt8 × UInt8 × UInt8 × UInt8
  port : UInt16
  deriving DecidableEq

/-- `%d` of a number that is not negative. -/
def decimal (n : Nat) : Bytes := (Nat.toDigits 10 n).map fun c => UInt8.ofNat c.toNat

namespace InetAddress

def toIp (a : InetAddress) : Bytes :=
  decimal a.octets.1.toNat ++ bytes "." ++ decimal a.octets.2.1.toNat ++ bytes "." ++
    decimal a.octets.2.2.1.toNat ++ bytes "." ++ decimal a.octets.2.2.2.toNat

def toIpPort (a : InetAddress) : Bytes := a.toIp ++ bytes ":" ++ decimal a.port.toNat

end InetAddress

structure Session where
  m_sessionId : UInt64
  m_TCP : InetAddress

structure SessionManager where
  m_TCP_Id : Bytes → Option Bytes
  m_sessions : UInt64 → Option Session

namespace SessionManager

def init : SessionManager := { m_TCP_Id := fun _ => none, m_sessions := fun _ => none }

/-- `add`. The index maps to a string: a number that is assigned to a string is converted
to a `char`, the only character of the string. -/
def add (m : SessionManager) (sessionId : UInt64) (TCP : InetAddress) : SessionManager :=
  { m_TCP_Id := Function.update m.m_TCP_Id TCP.toIpPort (some [sessionId.toUInt8])
    m_sessions :=
      Function.update m.m_sessions sessionId (some { m_sessionId := sessionId, m_TCP := TCP }) }

/-- `exist`. -/
def exist (m : SessionManager) (sessionId : UInt64) : Bool := (m.m_sessions sessionId).isSome

/-- `remove`. -/
def remove (m : SessionManager) (sessionId : UInt64) : SessionManager :=
  match m.m_sessions sessionId with
  | none => m
  | some session =>
      { m_TCP_Id := Function.update m.m_TCP_Id session.m_TCP.toIpPort none
        m_sessions := Function.update m.m_sessions sessionId none }

@[simp] theorem exist_add (m : SessionManager) (sessionId : UInt64) (TCP : InetAddress)
    (id : UInt64) : (m.add sessionId TCP).exist id = (decide (id = sessionId) || m.exist id) := by
  by_cases hid : id = sessionId
  · subst hid
    simp [exist, add]
  · simp [exist, add, hid]

@[simp] theorem exist_remove (m : SessionManager) (sessionId id : UInt64) :
    (m.remove sessionId).exist id = (!decide (id = sessionId) && m.exist id) := by
  rw [remove]
  cases hsession : m.m_sessions sessionId with
  | none =>
      by_cases hid : id = sessionId
      · subst hid
        simp [exist, hsession]
      · simp [hid]
  | some session =>
      by_cases hid : id = sessionId
      · subst hid
        simp [exist]
      · simp [exist, hid]

end SessionManager

end RegistrationCenter
