import RegistrationCenter.Proofs.Tcp.Buffer
import RegistrationCenter.Spec.Tcp.TcpConnection

/-!
# `RegistrationCenter.Proofs.Tcp.Reading`: what a read does to the input buffer

A read that succeeds appends exactly the bytes that `readv` brings, wherever they were put:
this is `Buffer.Valid.readFd`. A read that fails is not noticed. The result -1 is a large
number in a `size_t`, so `n < 0` does not hold, `saveErrno` stays as it is, and the number is
taken for a length.
-/

set_option autoImplicit false

namespace RegistrationCenter

namespace Buffer

variable {b : Buffer}

/-- What a read should do to a buffer and to the connection that reads. -/
structure ReadsExactly (b : Buffer) (outcome : ReadOutcome) : Prop where
  /-- The bytes that arrive are appended, in their order, and counted. -/
  appends : ∀ incoming, outcome = .arrived incoming → ∃ b' n,
    b.readFd outcome = some (b', none, n) ∧ n.toNat = (b.readv outcome).1.length ∧
      b'.readable = b.readable ++ (b.readv outcome).1
  /-- A failed read stores its `errno` and leaves the bytes and the indices. -/
  keeps : ∀ errno, outcome = .failed errno → ∃ b' n,
    b.readFd outcome = some (b', some errno, n) ∧ b'.readable = b.readable ∧
      b'.m_readerIdx = b.m_readerIdx ∧ b'.m_writerIdx = b.m_writerIdx
  /-- `handleRead` takes the failure to `handleError` and runs no other callback. -/
  reports : ∀ errno, outcome = .failed errno →
    ∀ {ω : Type} (messageCallback : Buffer → ω → Buffer × ω) (handleClose handleError : ω → ω)
      (w : ω), ∃ b', TcpConnection.handleRead messageCallback handleClose handleError b outcome w
        = some (b', handleError w)

/-- `readFd` never writes to `saveErrno`. -/
theorem saveErrno_readFd {outcome : ReadOutcome} {b' : Buffer} {saveErrno : Option Errno}
    {n : UInt64} (hread : b.readFd outcome = some (b', saveErrno, n)) : saveErrno = none := by
  rw [readFd] at hread
  -- `n < 0` is a comparison of `size_t`, so the branch that saves `errno` is dead.
  simp only [if_neg UInt64.not_lt_zero] at hread
  split at hread
  · cases hread
    rfl
  · split at hread
    · cases hread
      rfl
    · cases hread

/-- A failed read of a buffer that memory can hold is taken for more bytes than there are. -/
theorem readFd_failed (hroom : b.writableBytes + extraSize < 2 ^ 64 - 1) (errno : Errno) :
    b.readFd (.failed errno) = none := by
  -- The result -1, as a `size_t`.
  have hn : (UInt64.ofNat (2 ^ 64 - 1)).toNat = 2 ^ 64 - 1 := by decide
  rw [readFd]
  simp only [readv, if_neg UInt64.not_lt_zero, hn]
  rw [if_neg (by omega), if_neg (by omega)]

/-- A read does what it should exactly when `readv` does not fail. -/
theorem readsExactly_iff (hb : b.Valid) (outcome : ReadOutcome) :
    b.ReadsExactly outcome ↔ ∃ incoming, outcome = .arrived incoming := by
  constructor
  · intro h
    cases outcome with
    | arrived incoming => exact ⟨incoming, rfl⟩
    -- The `errno` should have been stored, and is not.
    | failed errno =>
        obtain ⟨b', n, hread, -⟩ := h.keeps errno rfl
        cases saveErrno_readFd hread
  · rintro ⟨incoming, rfl⟩
    obtain ⟨b', hread, -, hbytes⟩ := hb.readFd incoming
    exact
      { appends := fun _ _ => ⟨b', _, hread, (b.readv_arrived incoming).1, hbytes⟩
        keeps := fun errno h => nomatch h
        reports := fun errno h => nomatch h }

theorem readsExactly_iff_new : Buffer.new.ReadsExactly (.arrived [1, 2, 3]) :=
  (readsExactly_iff valid_new (.arrived [1, 2, 3])).mpr ⟨_, rfl⟩

/-- The peer resets the connection. -/
theorem not_readsExactly_reset : ¬ Buffer.new.ReadsExactly (.failed .ECONNRESET) := by
  intro h
  obtain ⟨b', n, hread, -⟩ := h.keeps .ECONNRESET rfl
  cases saveErrno_readFd hread

end Buffer

end RegistrationCenter
