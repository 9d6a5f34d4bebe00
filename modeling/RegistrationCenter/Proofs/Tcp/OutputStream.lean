import RegistrationCenter.Lib.Runs
import RegistrationCenter.Proofs.Tcp.Buffer
import RegistrationCenter.Spec.Tcp.TcpConnection

/-!
# `RegistrationCenter.Proofs.Tcp.OutputStream`: what the peer gets is what was sent

An established connection takes calls of `send` and of `handleWrite`, each with the
outcome that its `::write` meets. What the kernel has accepted, followed by what waits
in the output buffer, should be the messages sent, in order.

Every partial count keeps this. A failed `::write` breaks it at once, whatever its error
number: its result -1 is held in a `size_t`, where it passes for a length. In `sendInLoop`
the connection then queues the byte before the message and the whole message. In
`handleWrite` it drops all that waits. `integrity_iff` says that nothing else breaks the
stream.
-/

set_option autoImplicit false

namespace RegistrationCenter

open Lib

namespace WriteOutcome

/-- The kernel accepts a count of bytes: `::write` does not return -1. -/
def Succeeds : WriteOutcome → Prop
  | .accepted _ => True
  | .failed _ => False

/-- The result of a write that succeeds is the number of bytes taken. -/
theorem toNat_result_accepted (data : Bytes) (count : Fin (2 ^ 63)) :
    (result data (.accepted count)).toNat = (data.take count).length := by
  have hcount := count.isLt
  have hle : (data.take count).length ≤ count := List.length_take_le _ _
  rw [result, UInt64.toNat_ofNat']
  omega

/-- What a write takes and what it leaves are the two parts of the bytes. -/
theorem taken_append_drop (data : Bytes) (count : Fin (2 ^ 63)) :
    taken data (.accepted count) ++ data.drop (result data (.accepted count)).toNat = data := by
  rw [toNat_result_accepted]
  exact List.prefix_iff_eq_append.mp (List.take_prefix count data)

/-- The result -1 is the greatest `size_t`. -/
theorem result_failed (data : Bytes) (errno : Errno) :
    result data (.failed errno) = .ofNat (2 ^ 64 - 1) := rfl

end WriteOutcome

namespace TcpConnection

variable {c : TcpConnection}

/-! ## The parts of `sendInLoop` -/

/-- `c'` is `c` but for the functors that it has queued. -/
def SameButQueued (c c' : TcpConnection) : Prop :=
  c'.m_state = c.m_state ∧ c'.isWriting = c.isWriting ∧ c'.m_outputBuffer = c.m_outputBuffer

theorem SameButQueued.trans {c' c'' : TcpConnection} (h : SameButQueued c' c'')
    (h' : SameButQueued c c') : SameButQueued c c'' :=
  ⟨h.1.trans h'.1, h.2.1.trans h'.2.1, h.2.2.trans h'.2.2⟩

theorem sameButQueued_ite (p : Prop) {_ : Decidable p} (c : TcpConnection) (f : Functor) :
    SameButQueued c (if p then c.queueInLoop f else c) := by
  split
  · exact ⟨rfl, rfl, rfl⟩
  · exact ⟨rfl, rfl, rfl⟩

/-- The direct write never takes the branch of an error. -/
theorem writeDirect_eq (c : TcpConnection) (message : Bytes) (outcome : WriteOutcome) :
    ∃ c₁, SameButQueued c c₁ ∧ c.writeDirect message outcome =
      (outcome.result message, .ofNat message.length - outcome.result message, false, c₁) := by
  -- An unsigned number is not negative, not even the result of a failed write.
  have hnonneg : (0 : UInt64) ≤ outcome.result message := UInt64.le_iff_toNat_le.mpr (Nat.zero_le _)
  rw [writeDirect, if_pos hnonneg]
  refine ⟨_, ?_, rfl⟩
  exact sameButQueued_ite _ c _

theorem appendRest_spec (c : TcpConnection) (rest : Bytes) (remaining : UInt64) :
    (c.appendRest rest remaining).m_state = c.m_state ∧
      (c.appendRest rest remaining).isWriting = true ∧
      (c.appendRest rest remaining).m_outputBuffer = c.m_outputBuffer.append rest := by
  rw [appendRest]
  refine ⟨?_, rfl, ?_⟩
  · exact (sameButQueued_ite _ c _).1
  · exact congrArg (fun b => b.append rest) (sameButQueued_ite _ c _).2.2

/-- The last part of `sendInLoop`, when there is no fault: the bytes from `nwrote` on wait. -/
def queueRest (c : TcpConnection) (before : UInt8) (message : Bytes) (nwrote remaining : UInt64) :
    TcpConnection :=
  if remaining > 0 then c.appendRest (bytesAt before message nwrote remaining) remaining else c

/-- With nothing waiting, `sendInLoop` writes and queues the rest. -/
theorem sendInLoop_direct (hstate : c.m_state ≠ .kDisconnected) (hwriting : c.isWriting = false)
    (hempty : c.m_outputBuffer.readableBytes = 0) (message : Bytes) (outcome : WriteOutcome)
    (before : UInt8) :
    ∃ c₁, SameButQueued c c₁ ∧ c.sendInLoop message outcome before =
      (outcome.taken message, c₁.queueRest before message (outcome.result message)
        (.ofNat message.length - outcome.result message)) := by
  obtain ⟨c₁, hsame, hdirect⟩ := c.writeDirect_eq message outcome
  refine ⟨c₁, hsame, ?_⟩
  rw [sendInLoop, if_neg hstate, queueRest]
  simp only [hwriting, hempty, hdirect, Bool.not_false, beq_self_eq_true, Bool.and_self,
    if_true, Bool.true_and, decide_eq_true_eq]
  split <;> rfl

/-- With bytes waiting, `sendInLoop` queues the whole message. -/
theorem sendInLoop_buffered (hstate : c.m_state ≠ .kDisconnected) (hwriting : c.isWriting = true)
    (message : Bytes) (outcome : WriteOutcome) (before : UInt8) :
    c.sendInLoop message outcome before =
      ([], c.queueRest before message 0 (.ofNat message.length)) := by
  rw [sendInLoop, if_neg hstate, queueRest]
  simp only [hwriting, Bool.not_true, Bool.false_and, Bool.false_eq_true, if_false,
    Bool.not_false, Bool.true_and, decide_eq_true_eq]
  split <;> rfl

/-- The bytes after an offset inside the message. -/
theorem bytesAt_rest (before : UInt8) (message : StringObject) {offset : UInt64}
    (h : offset.toNat ≤ message.val.length) :
    bytesAt before message offset (.ofNat message.val.length - offset) =
        message.val.drop offset.toNat ∧
      (0 < UInt64.ofNat message.val.length - offset ↔ offset.toNat < message.val.length) := by
  have hlen := message.property
  -- An offset inside a message is far from the greatest number, so the pointer does not wrap.
  have hmax : offset ≠ .ofNat (2 ^ 64 - 1) := by
    intro heq
    rw [heq, UInt64.toNat_ofNat'] at h
    omega
  have hrest : (UInt64.ofNat message.val.length - offset).toNat =
      message.val.length - offset.toNat := by
    have hle : offset ≤ UInt64.ofNat message.val.length := by
      rw [UInt64.le_iff_toNat_le, UInt64.toNat_ofNat', Nat.mod_eq_of_lt (by omega)]
      exact h
    rw [UInt64.toNat_sub_of_le _ _ hle, UInt64.toNat_ofNat', Nat.mod_eq_of_lt (by omega)]
  constructor
  · rw [bytesAt, if_neg hmax, hrest, List.take_of_length_le]
    rw [List.length_drop]
  · rw [UInt64.lt_iff_toNat_lt, hrest, UInt64.toNat_zero]
    exact Nat.sub_pos_iff_lt

/-- After a failed write, the length that remains is one more than the message has, and
the bytes start before it. -/
theorem bytesAt_failed (before : UInt8) (message : StringObject) :
    let remaining := UInt64.ofNat message.val.length - .ofNat (2 ^ 64 - 1)
    bytesAt before message (.ofNat (2 ^ 64 - 1)) remaining = before :: message.val ∧
      remaining > 0 := by
  intro remaining
  have hlen := message.property
  have hremaining : remaining.toNat = message.val.length + 1 := by
    show (UInt64.ofNat message.val.length - .ofNat (2 ^ 64 - 1)).toNat = _
    rw [UInt64.toNat_sub, UInt64.toNat_ofNat', UInt64.toNat_ofNat']
    omega
  constructor
  · rw [bytesAt, if_pos rfl, hremaining, List.take_of_length_le]
    exact le_of_eq List.length_cons
  · show (0 : UInt64) < remaining
    rw [UInt64.lt_iff_toNat_lt, hremaining, UInt64.toNat_zero]
    exact Nat.succ_pos _

/-! ## The two paths -/

/-- The channel waits for the socket to be writable exactly while bytes wait. -/
structure Waits (c : TcpConnection) : Prop where
  valid : c.m_outputBuffer.Valid
  writing : c.isWriting = true ↔ c.m_outputBuffer.readable ≠ []

theorem Waits.congr {c' : TcpConnection} (h : c.Waits) (hwriting : c'.isWriting = c.isWriting)
    (hbuffer : c'.m_outputBuffer = c.m_outputBuffer) : c'.Waits :=
  ⟨hbuffer ▸ h.valid, by rw [hwriting, hbuffer]; exact h.writing⟩

theorem Waits.of_same {c' : TcpConnection} (h : c.Waits) (hsame : SameButQueued c c') :
    c'.Waits := h.congr hsame.2.1 hsame.2.2

theorem Waits.appendRest (h : c.Waits) {rest : Bytes} (hrest : rest ≠ []) (remaining : UInt64) :
    (c.appendRest rest remaining).Waits ∧
      (c.appendRest rest remaining).m_outputBuffer.readable =
        c.m_outputBuffer.readable ++ rest := by
  obtain ⟨-, hwriting, hbuffer⟩ := c.appendRest_spec rest remaining
  obtain ⟨hvalid, hread⟩ := h.valid.append rest
  refine ⟨⟨hbuffer ▸ hvalid, ?_⟩, by rw [hbuffer, hread]⟩
  rw [hwriting, hbuffer, hread]
  exact ⟨fun _ => List.append_ne_nil_of_right_ne_nil _ hrest, fun _ => rfl⟩

theorem Waits.direct_iff (h : c.Waits) :
    c.isWriting = false ↔ c.m_outputBuffer.readable = [] := by
  rw [← Bool.not_eq_true, h.writing, not_not]

/-- What `sendInLoop` does not write at once waits at the end of the buffer. -/
theorem Waits.queueRest (h : c.Waits) (before : UInt8) (message : StringObject)
    {nwrote : UInt64} (hle : nwrote.toNat ≤ message.val.length) :
    let c' := c.queueRest before message nwrote (.ofNat message.val.length - nwrote)
    c'.Waits ∧ c'.m_state = c.m_state ∧
      c'.m_outputBuffer.readable = c.m_outputBuffer.readable ++ message.val.drop nwrote.toNat := by
  intro c'
  obtain ⟨hbytes, hpos⟩ := bytesAt_rest before message hle
  -- Something is left to queue, or the message is written whole.
  by_cases hlt : nwrote.toNat < message.val.length
  · have hc' : c' = c.appendRest (message.val.drop nwrote.toNat)
        (.ofNat message.val.length - nwrote) := by
      rw [← hbytes]
      exact if_pos (hpos.mpr hlt)
    have hrest : message.val.drop nwrote.toNat ≠ [] := by
      rw [ne_eq, List.drop_eq_nil_iff]
      exact Nat.not_le_of_lt hlt
    obtain ⟨hwaits, hread⟩ := h.appendRest hrest (.ofNat message.val.length - nwrote)
    have hstate := (c.appendRest_spec (message.val.drop nwrote.toNat)
      (.ofNat message.val.length - nwrote)).1
    rw [hc']
    exact ⟨hwaits, hstate, hread⟩
  · have hc' : c' = c := if_neg fun hremaining => hlt (hpos.mp hremaining)
    rw [hc', List.drop_eq_nil_of_le (Nat.le_of_not_lt hlt), List.append_nil]
    exact ⟨h, rfl, rfl⟩

/-- A message goes in at the end: what is accepted and what waits after `sendInLoop` is
what has waited, and the message. -/
theorem Waits.sendInLoop (h : c.Waits) (hstate : c.m_state ≠ .kDisconnected)
    (message : StringObject) (outcome : WriteOutcome) (before : UInt8)
    (hwrite : c.isWriting = false → outcome.Succeeds) :
    let r := c.sendInLoop message outcome before
    r.2.Waits ∧ r.2.m_state = c.m_state ∧
      r.1 ++ r.2.m_outputBuffer.readable = c.m_outputBuffer.readable ++ message := by
  intro r
  cases hwriting : c.isWriting with
  -- Bytes wait: the message goes behind them whole, and nothing is written.
  | true =>
      have hr : r = _ := sendInLoop_buffered hstate hwriting message outcome before
      have hle : (0 : UInt64).toNat ≤ message.val.length := Nat.zero_le _
      have hrest := h.queueRest before message hle
      rw [UInt64.sub_zero] at hrest
      rw [hr]
      exact hrest
  -- Nothing waits: the message is written, and its rest is queued.
  | false =>
      have hempty := h.direct_iff.mp hwriting
      obtain ⟨c₁, hsame, hr⟩ := sendInLoop_direct hstate hwriting
        (h.valid.readable_eq_nil.mp hempty) message outcome before
      have hr : r = _ := hr
      match outcome, hwrite hwriting with
      | .accepted count, _ =>
          have hcount := WriteOutcome.toNat_result_accepted message.val count
          have hle : (WriteOutcome.result message.val (.accepted count)).toNat ≤
              message.val.length := by
            rw [hcount]
            exact (List.take_sublist _ _).length_le
          obtain ⟨hwaits, hstate', hread⟩ := (h.of_same hsame).queueRest before message hle
          rw [hr]
          refine ⟨hwaits, hstate'.trans hsame.1, ?_⟩
          -- The bytes taken and the rest that waits are the two parts of the message.
          rw [hread, hsame.2.2, hempty, List.nil_append, List.nil_append]
          exact WriteOutcome.taken_append_drop message.val count

/-- After a failed direct write, the byte before the message waits, and the message. -/
theorem Waits.sendInLoop_failed (h : c.Waits) (hstate : c.m_state ≠ .kDisconnected)
    (hwriting : c.isWriting = false) (message : StringObject) (errno : Errno) (before : UInt8) :
    let r := c.sendInLoop message (.failed errno) before
    r.1 = [] ∧ r.2.m_outputBuffer.readable = before :: message.val := by
  intro r
  have hempty := h.direct_iff.mp hwriting
  obtain ⟨c₁, hsame, hr⟩ := sendInLoop_direct hstate hwriting
    (h.valid.readable_eq_nil.mp hempty) message (.failed errno) before
  have hr : r = _ := hr
  obtain ⟨hbytes, hpos⟩ := bytesAt_failed before message
  rw [hr, WriteOutcome.result_failed, TcpConnection.queueRest, if_pos hpos, hbytes]
  refine ⟨rfl, ?_⟩
  rw [((h.of_same hsame).appendRest (List.cons_ne_nil _ _) _).2, hsame.2.2, hempty]
  rfl

/-! ## The socket is writable -/

/-- A shutdown shuts the writing half, or waits for the bytes in the buffer. -/
theorem shutdownInLoop_same (c : TcpConnection) : SameButQueued c c.shutdownInLoop := by
  rw [shutdownInLoop]
  split
  · exact ⟨rfl, rfl, rfl⟩
  · exact ⟨rfl, rfl, rfl⟩

/-- A shutdown touches neither the channel nor the bytes, and does not close. -/
theorem shutdown_spec (c : TcpConnection) :
    c.shutdown.isWriting = c.isWriting ∧ c.shutdown.m_outputBuffer = c.m_outputBuffer ∧
      (c.m_state ≠ .kDisconnected → c.shutdown.m_state ≠ .kDisconnected) := by
  rw [shutdown]
  split
  · obtain ⟨hstate, hwriting, hbuffer⟩ :=
      shutdownInLoop_same { c with m_state := .kDisconnecting }
    exact ⟨hwriting, hbuffer, fun _ => by rw [hstate]; exact fun h => StateE.noConfusion h⟩
  · exact ⟨rfl, rfl, id⟩

/-- With the last byte written, the connection calls back and does a pending shutdown. -/
theorem drained_same (c : TcpConnection) :
    let c₃ := if c.m_writeCompleteCallback then c.queueInLoop .writeCompleteCallback else c
    SameButQueued c (if c₃.m_state = .kDisconnecting then c₃.shutdownInLoop else c₃) := by
  intro c₃
  have hsame : SameButQueued c c₃ := sameButQueued_ite _ c _
  split
  · exact (shutdownInLoop_same c₃).trans hsame
  · exact hsame

/-- `handleWrite` drops from the buffer as many bytes as the result of `::write` says. -/
theorem Waits.handleWrite (h : c.Waits) (hwriting : c.isWriting = true) (outcome : WriteOutcome) :
    let r := c.handleWrite outcome
    let data := c.m_outputBuffer.readable
    r.1 = outcome.taken data ∧ r.2.Waits ∧ r.2.m_state = c.m_state ∧
      r.2.m_outputBuffer.readable = data.drop (outcome.result data).toNat := by
  intro r data
  have hread := h.valid.readable_retrieve (outcome.result data).toNat
  have hvalid := h.valid.retrieve (outcome.result data).toNat
  have hr : r = c.handleWrite outcome := rfl
  rw [TcpConnection.handleWrite, if_pos hwriting] at hr
  have hfd : c.m_outputBuffer.writeFd outcome = (outcome.taken data, outcome.result data) := rfl
  simp only [hfd] at hr
  by_cases hpos : outcome.result data > 0
  · rw [if_pos hpos] at hr
    by_cases hempty : (c.m_outputBuffer.retrieve (outcome.result data).toNat).readableBytes = 0
    · -- All is written: the channel stops writing, and a pending shutdown is done.
      rw [if_pos hempty] at hr
      have hnil := hvalid.readable_eq_nil.mpr hempty
      let c₂ := { c with
        m_outputBuffer := c.m_outputBuffer.retrieve (outcome.result data).toNat
        isWriting := false }
      have hwaits₂ : c₂.Waits :=
        ⟨hvalid, ⟨fun hw => Bool.noConfusion hw, fun hne => absurd hnil hne⟩⟩
      have hsame : SameButQueued c₂ r.2 := by
        rw [hr]
        exact drained_same c₂
      refine ⟨by rw [hr], hwaits₂.of_same hsame, hsame.1, ?_⟩
      rw [hsame.2.2]
      exact hread
    · -- Some bytes are left: the channel goes on writing.
      rw [if_neg hempty] at hr
      rw [hr]
      refine ⟨rfl, ⟨hvalid, ?_⟩, rfl, hread⟩
      exact ⟨fun _ hnil => hempty (hvalid.readable_eq_nil.mp hnil), fun _ => hwriting⟩
  · rw [if_neg hpos] at hr
    -- A write of no byte changes nothing.
    have hzero : (outcome.result data).toNat = 0 := by
      rw [gt_iff_lt, UInt64.lt_iff_toNat_lt, UInt64.toNat_zero] at hpos
      exact Nat.eq_zero_of_not_pos hpos
    rw [hr, hzero, List.drop_zero]
    exact ⟨rfl, h, rfl, rfl⟩

end TcpConnection

/-! ## The stream -/

/-- A connection with the bytes that the kernel has accepted from it and the messages sent
on it. -/
structure OutputStream where
  connection : TcpConnection
  accepted : Bytes
  sent : Bytes

namespace OutputStream

variable {s : OutputStream}

/-- What happens to a connection in the thread of its loop: a call of `send`, the socket
gets writable, a call of `shutdown`. -/
inductive Event
  | send (message : StringObject) (outcome : WriteOutcome) (before : UInt8)
  | writable (outcome : WriteOutcome)
  | shutdown

/-- `send` takes a message while the connection is not shut down. -/
def step (s : OutputStream) : Event → OutputStream
  | .send message outcome before =>
      let (taken, c) := s.connection.send message outcome before
      { connection := c
        accepted := s.accepted ++ taken
        sent := if s.connection.m_state = .kConnected then s.sent ++ message else s.sent }
  | .writable outcome =>
      let (taken, c) := s.connection.handleWrite outcome
      { s with connection := c, accepted := s.accepted ++ taken }
  | .shutdown => { s with connection := s.connection.shutdown }

/-- A connection just established. -/
def established (highWaterMark : UInt64) (writeComplete highWater : Bool) : OutputStream :=
  { connection := .established highWaterMark writeComplete highWater, accepted := [], sent := [] }

/-- Nothing is lost, duplicated, reordered or invented. -/
def Integrity (s : OutputStream) : Prop :=
  s.accepted ++ s.connection.m_outputBuffer.readable = s.sent

/-- If the event calls `::write`, the call succeeds. -/
def WriteSucceeds (s : OutputStream) : Event → Prop
  | .send _ outcome _ =>
      s.connection.m_state = .kConnected → s.connection.isWriting = false → outcome.Succeeds
  | .writable outcome => s.connection.isWriting = true → outcome.Succeeds
  | .shutdown => True

/-- The invariant of a stream. -/
structure Sound (s : OutputStream) : Prop where
  integrity : s.Integrity
  waits : s.connection.Waits
  connected : s.connection.m_state ≠ .kDisconnected

theorem sound_established (highWaterMark : UInt64) (writeComplete highWater : Bool) :
    (established highWaterMark writeComplete highWater).Sound := by
  refine ⟨rfl, ⟨Buffer.valid_new, ?_⟩, fun h => StateE.noConfusion h⟩
  exact ⟨fun h => Bool.noConfusion h, fun h => absurd Buffer.readable_new h⟩

/-- Every step whose write succeeds keeps the stream. -/
theorem Sound.step (h : s.Sound) (e : Event) (he : s.WriteSucceeds e) : (s.step e).Sound := by
  obtain ⟨hintegrity, hwaits, hconnected⟩ := h
  cases e with
  | send message outcome before =>
      by_cases hstate : s.connection.m_state = .kConnected
      -- A send on a connection that is not connected does nothing, and its message does not
      -- count.
      · have hsend : s.connection.send message outcome before = _ := if_pos hstate
        obtain ⟨hwaits', hstate', hread⟩ :=
          hwaits.sendInLoop hconnected message outcome before (he hstate)
        simp only [OutputStream.step, hsend, if_pos hstate]
        refine ⟨?_, hwaits', by rw [hstate']; exact hconnected⟩
        show (s.accepted ++ _) ++ _ = s.sent ++ message.val
        rw [List.append_assoc, hread, ← List.append_assoc, hintegrity]
      · have hsend : s.connection.send message outcome before = _ := if_neg hstate
        simp only [OutputStream.step, hsend, if_neg hstate, List.append_nil]
        exact ⟨hintegrity, hwaits, hconnected⟩
  | writable outcome =>
      cases hwriting : s.connection.isWriting with
      | true =>
          obtain ⟨htaken, hwaits', hstate', hread⟩ := hwaits.handleWrite hwriting outcome
          match outcome, he hwriting with
          | .accepted count, _ =>
              refine ⟨?_, hwaits', by rw [OutputStream.step, hstate']; exact hconnected⟩
              show (s.accepted ++ (s.connection.handleWrite (.accepted count)).1) ++
                (s.connection.handleWrite (.accepted count)).2.m_outputBuffer.readable = s.sent
              rw [htaken, hread, List.append_assoc, WriteOutcome.taken_append_drop]
              exact hintegrity
      -- An idle channel does not write.
      | false =>
          have hidle : s.connection.handleWrite outcome = ([], s.connection) := by
            rw [TcpConnection.handleWrite, hwriting]
            rfl
          simp only [OutputStream.step, hidle, List.append_nil]
          exact ⟨hintegrity, hwaits, hconnected⟩
  | shutdown =>
      obtain ⟨hwriting, hbuffer, hstate⟩ := s.connection.shutdown_spec
      refine ⟨?_, hwaits.congr hwriting hbuffer, hstate hconnected⟩
      show s.accepted ++ s.connection.shutdown.m_outputBuffer.readable = s.sent
      rw [hbuffer]
      exact hintegrity

/-- A write that fails breaks the stream. -/
theorem Sound.not_integrity_step (h : s.Sound) (e : Event) (he : ¬ s.WriteSucceeds e) :
    ¬ (s.step e).Integrity := by
  obtain ⟨hintegrity, hwaits, hconnected⟩ := h
  intro hbroken
  cases e with
  | send message outcome before =>
      simp only [WriteSucceeds, Classical.not_imp] at he
      obtain ⟨hstate, hwriting, hfailed⟩ := he
      match outcome, hfailed with
      | .failed errno, _ =>
          obtain ⟨htaken, hread⟩ :=
            hwaits.sendInLoop_failed hconnected hwriting message errno before
          have hsend : s.connection.send message (.failed errno) before = _ := if_pos hstate
          simp only [Integrity, OutputStream.step, hsend, if_pos hstate, htaken, hread] at hbroken
          rw [← hintegrity, hwaits.direct_iff.mp hwriting, List.append_nil,
            List.append_right_inj] at hbroken
          -- One byte more than the message waits.
          exact List.cons_ne_self _ _ hbroken
      | .accepted count, hfailed => exact hfailed trivial
  | writable outcome =>
      simp only [WriteSucceeds, Classical.not_imp] at he
      obtain ⟨hwriting, hfailed⟩ := he
      match outcome, hfailed with
      | .failed errno, _ =>
          obtain ⟨htaken, -, -, hread⟩ := hwaits.handleWrite hwriting (.failed errno)
          have hstep : (s.accepted ++ (s.connection.handleWrite (.failed errno)).1) ++
            (s.connection.handleWrite (.failed errno)).2.m_outputBuffer.readable = s.sent := hbroken
          rw [htaken, hread, ← hintegrity, WriteOutcome.taken, List.append_nil,
            List.append_right_inj] at hstep
          -- Bytes wait, and some of them are dropped.
          have hlen := congrArg List.length hstep
          have hpos := List.length_pos_iff.mpr (hwaits.writing.mp hwriting)
          rw [List.length_drop, WriteOutcome.result_failed, UInt64.toNat_ofNat'] at hlen
          omega
      | .accepted count, hfailed => exact hfailed trivial
  | shutdown => exact he trivial

/-- In all states of a run of an established connection, the bytes accepted and the bytes
waiting are the messages sent, exactly when no `::write` of the run fails. -/
theorem integrity_iff (highWaterMark : UInt64) (writeComplete highWater : Bool)
    (events : List Event) :
    let start := established highWaterMark writeComplete highWater
    AllStates step Integrity start events ↔ StepsMeet step WriteSucceeds start events :=
  allStates_iff_stepsMeet (fun _ hs => hs.integrity) (fun _ e hs he => hs.step e he)
    (fun _ e hs he => hs.not_integrity_step e he)
    (sound_established highWaterMark writeComplete highWater)

/-- A send that meets a full socket puts a byte on the stream that nobody sent. -/
theorem not_integrity_wouldBlock : ¬ AllStates step Integrity (established 67108864 false false)
    [.send ⟨bytes "x", by decide⟩ (.failed .EWOULDBLOCK) 0] := by
  intro h
  have hsound := sound_established 67108864 false false
  exact hsound.not_integrity_step (.send ⟨bytes "x", by decide⟩ (.failed .EWOULDBLOCK) 0)
    (fun hwrite => hwrite rfl rfl) h.2

end OutputStream

end RegistrationCenter
