import RegistrationCenter.Lib.Runs
import RegistrationCenter.Proofs.Tcp.Buffer

/-!
# `RegistrationCenter.Proofs.Tcp.BufferRuns`: the buffer over whole runs

A run is any sequence of calls on a new buffer. As long as the buffer it asks for is shorter
than 2^64 bytes no sum of sizes comes round (`Valid.call_eq`), so the operations of `Buffer` are
those of the code. `queue_run` says what a reader of the buffer sees: what went in and has not
been taken out, in order.
-/

set_option autoImplicit false

namespace RegistrationCenter

open Lib

namespace Buffer

variable {b : Buffer}

/-- The buffer after a call, with the indices as numbers. -/
def call (b : Buffer) : Call → Buffer
  | .append data => b.append data
  | .retrieve len => b.retrieve len.toNat
  | .retrieveAll => b.retrieveAll
  | .retrieveAllAsString => b.retrieveAllAsString.2
  | .ensureWritableBytes len => b.ensureWritableBytes len.toNat
  | .store data => { b with m_buffer := copyTo b.m_buffer b.m_writerIdx data }
  | .hasWritten len => b.hasWritten len.toNat

/-- Bytes are stored, and declared written, in the writable bytes only. -/
def Allowed (b : Buffer) : Call → Prop
  | .store data => data.length ≤ b.writableBytes
  | .hasWritten len => len.toNat ≤ b.writableBytes
  | _ => True

/-- The bytes that a call adds: those of `append`, and those that stand at `beginWrite()` when
they are declared written. -/
def added (b : Buffer) : Call → Bytes
  | .append data => data
  | .hasWritten len => (b.m_buffer.drop b.m_writerIdx).take len.toNat
  | _ => []

/-- The bytes that a call takes out. -/
def takenOut (b : Buffer) : Call → Bytes
  | .retrieve len => b.readable.take len.toNat
  | .retrieveAll => b.readable
  | .retrieveAllAsString => b.readable
  | _ => []

/-- The room that a call asks for. -/
def Call.size : Call → Nat
  | .append data => data.length
  | .ensureWritableBytes len => len.toNat
  | _ => 0

/-- The longest that the vector of a new buffer gets in these calls. -/
def totalSize (calls : List Call) : Nat := kCheapPrepend + kInitialSize + (calls.map Call.size).sum

/-! ## What each call keeps -/

/-- Bytes stored beyond the writer index do not show. -/
theorem Valid.store (hb : b.Valid) {data : Bytes} (hroom : data.length ≤ b.writableBytes) :
    let b' := { b with m_buffer := copyTo b.m_buffer b.m_writerIdx data }
    b'.Valid ∧ b'.readable = b.readable := by
  have hfits := hb.fits
  unfold writableBytes at hroom
  have hcopy : b.m_writerIdx + data.length ≤ b.m_buffer.length := by omega
  refine ⟨⟨hb.prepend, hb.ordered, ?_⟩, ?_⟩
  · show b.m_writerIdx ≤ (copyTo b.m_buffer b.m_writerIdx data).length
    rw [length_copyTo hcopy]
    exact hfits
  -- What lies in front of the writer index is as it was.
  · have htake : (copyTo b.m_buffer b.m_writerIdx data).take b.m_writerIdx =
        b.m_buffer.take b.m_writerIdx := by
      have hlen : (b.m_buffer.take b.m_writerIdx).length = b.m_writerIdx := by
        rw [List.length_take, Nat.min_eq_left hfits]
      rw [copyTo, List.append_assoc, List.take_left' hlen]
    rw [readable_eq, readable_eq]
    show ((copyTo b.m_buffer b.m_writerIdx data).take b.m_writerIdx).drop b.m_readerIdx = _
    rw [htake]

/-- Bytes declared written become readable. -/
theorem Valid.written (hb : b.Valid) {len : Nat} (hroom : len ≤ b.writableBytes) :
    (b.hasWritten len).Valid ∧
      (b.hasWritten len).readable = b.readable ++ (b.m_buffer.drop b.m_writerIdx).take len := by
  obtain ⟨hprepend, hordered, hfits⟩ := hb
  unfold writableBytes at hroom
  refine ⟨⟨hprepend, le_trans hordered (Nat.le_add_right _ _), ?_⟩, ?_⟩
  · show b.m_writerIdx + len ≤ b.m_buffer.length
    omega
  · rw [readable_eq, readable_eq]
    show (b.m_buffer.take (b.m_writerIdx + len)).drop b.m_readerIdx = _
    have hle : b.m_readerIdx ≤ (b.m_buffer.take b.m_writerIdx).length := by
      rw [List.length_take]
      omega
    rw [List.take_add, List.drop_append_of_le_length hle]

/-- A call on a valid buffer: what was there and what it adds is what it takes out and what is
there then. -/
theorem Valid.call (hb : b.Valid) (c : Call) (hc : b.Allowed c) :
    (b.call c).Valid ∧ b.readable ++ b.added c = b.takenOut c ++ (b.call c).readable := by
  cases c with
  | append data =>
      obtain ⟨hvalid, hread⟩ := hb.append data
      exact ⟨hvalid, hread.symm⟩
  | retrieve len =>
      refine ⟨hb.retrieve len.toNat, ?_⟩
      show b.readable ++ [] = b.readable.take len.toNat ++ (b.retrieve len.toNat).readable
      rw [hb.readable_retrieve, List.append_nil, List.take_append_drop]
  | retrieveAll =>
      refine ⟨hb.retrieveAll, ?_⟩
      show b.readable ++ [] = b.readable ++ b.retrieveAll.readable
      rw [readable_retrieveAll]
  | retrieveAllAsString =>
      obtain ⟨-, hvalid, hread⟩ := hb.retrieveAllAsString
      refine ⟨hvalid, ?_⟩
      show b.readable ++ [] = b.readable ++ b.retrieveAllAsString.2.readable
      rw [hread]
  | ensureWritableBytes len =>
      obtain ⟨hvalid, hread, -⟩ := hb.ensureWritableBytes len.toNat
      refine ⟨hvalid, ?_⟩
      show b.readable ++ [] = [] ++ (b.ensureWritableBytes len.toNat).readable
      rw [hread, List.append_nil, List.nil_append]
  | store data =>
      obtain ⟨hvalid, hread⟩ := hb.store hc
      refine ⟨hvalid, ?_⟩
      show b.readable ++ [] = [] ++ Buffer.readable _
      rw [List.append_nil, List.nil_append]
      exact hread.symm
  | hasWritten len =>
      obtain ⟨hvalid, hread⟩ := hb.written hc
      exact ⟨hvalid, hread.symm⟩

/-! ## No size comes round -/

theorem SizeT.add_eq {m n : Nat} (h : m + n < 2 ^ 64) : SizeT.add m n = m + n :=
  Nat.mod_eq_of_lt h

theorem SizeT.sub_eq {m n : Nat} (hle : n ≤ m) (hlt : m < 2 ^ 64) : SizeT.sub m n = m - n := by
  unfold SizeT.sub
  omega

theorem Valid.writableBytes_eq (hb : b.Valid) (hlt : b.m_buffer.length < 2 ^ 64) :
    SizeT.writableBytes b = b.writableBytes := SizeT.sub_eq hb.fits hlt

theorem Valid.readableBytes_eq (hb : b.Valid) (hlt : b.m_buffer.length < 2 ^ 64) :
    SizeT.readableBytes b = b.readableBytes :=
  SizeT.sub_eq hb.ordered (lt_of_le_of_lt hb.fits hlt)

theorem Valid.retrieve_eq (hb : b.Valid) (hlt : b.m_buffer.length < 2 ^ 64) (len : Nat) :
    SizeT.retrieve b len = b.retrieve len := by
  have hordered := hb.ordered
  have hfits := hb.fits
  rw [SizeT.retrieve, Buffer.retrieve, hb.readableBytes_eq hlt]
  split
  -- The index moves no further than the writer index.
  · rename_i hless
    unfold readableBytes at hless
    rw [SizeT.add_eq (by omega)]
  · rfl

theorem Valid.makeSpace_eq (hb : b.Valid) {len : Nat} (hlt : b.m_buffer.length + len < 2 ^ 64) :
    SizeT.makeSpace b len = b.makeSpace len := by
  obtain ⟨hprepend, hordered, hfits⟩ := hb
  have hb : b.Valid := ⟨hprepend, hordered, hfits⟩
  have hsize : b.m_buffer.length < 2 ^ 64 := by omega
  -- The sums that the code makes: none is longer than the vector and what is asked for.
  have hroom : b.writableBytes + b.prependableBytes < 2 ^ 64 := by
    unfold writableBytes prependableBytes
    omega
  have hreadable : kCheapPrepend + b.readableBytes < 2 ^ 64 := by
    unfold readableBytes
    omega
  rw [SizeT.makeSpace, Buffer.makeSpace, hb.writableBytes_eq hsize, hb.readableBytes_eq hsize,
    SizeT.add_eq hroom, SizeT.add_eq (show len + kCheapPrepend < 2 ^ 64 by omega),
    SizeT.add_eq (show b.m_writerIdx + len < 2 ^ 64 by omega)]
  split
  · rfl
  · exact congrArg (Buffer.mk _ _) (SizeT.add_eq hreadable)

theorem Valid.ensureWritableBytes_eq (hb : b.Valid) {len : Nat}
    (hlt : b.m_buffer.length + len < 2 ^ 64) :
    SizeT.ensureWritableBytes b len = b.ensureWritableBytes len := by
  rw [SizeT.ensureWritableBytes, Buffer.ensureWritableBytes,
    hb.writableBytes_eq (Nat.lt_of_add_right_lt hlt), hb.makeSpace_eq hlt]

/-- The vector grows by what is asked for, at most. -/
theorem Valid.length_ensureWritableBytes (hb : b.Valid) (len : Nat) :
    (b.ensureWritableBytes len).m_buffer.length ≤ b.m_buffer.length + len := by
  obtain ⟨hprepend, hordered, hfits⟩ := hb
  rw [Buffer.ensureWritableBytes]
  split
  · rw [Buffer.makeSpace]
    split
    · show (resize b.m_buffer (b.m_writerIdx + len)).length ≤ _
      rw [length_resize]
      omega
    -- The content moves down, in the vector that is there.
    · have hcopy : kCheapPrepend + b.readable.length ≤ b.m_buffer.length := by
        rw [Valid.length_readable ⟨hprepend, hordered, hfits⟩, readableBytes]
        omega
      show (copyTo b.m_buffer kCheapPrepend b.readable).length ≤ _
      rw [length_copyTo hcopy]
      exact Nat.le_add_right _ _
  · exact Nat.le_add_right _ _

theorem Valid.append_eq (hb : b.Valid) {data : Bytes}
    (hlt : b.m_buffer.length + data.length < 2 ^ 64) :
    SizeT.append b data = b.append data ∧
      (b.append data).m_buffer.length ≤ b.m_buffer.length + data.length := by
  obtain ⟨hvalid, -, hroom⟩ := hb.ensureWritableBytes data.length
  have hgrows := hb.length_ensureWritableBytes data.length
  have hfits := hvalid.fits
  unfold writableBytes at hroom
  have hcopy : (b.ensureWritableBytes data.length).m_writerIdx + data.length ≤
      (b.ensureWritableBytes data.length).m_buffer.length := by omega
  have hwritten : (b.ensureWritableBytes data.length).m_writerIdx + data.length < 2 ^ 64 := by
    omega
  constructor
  · rw [SizeT.append, hb.ensureWritableBytes_eq hlt]
    exact congrArg (Buffer.mk _ _) (SizeT.add_eq hwritten)
  · show (copyTo (b.ensureWritableBytes data.length).m_buffer
      (b.ensureWritableBytes data.length).m_writerIdx data).length ≤ _
    rw [length_copyTo hcopy]
    exact hgrows

/-- A call whose sizes do not come round does what it does with numbers, and the vector grows
by what it asks for, at most. -/
theorem Valid.call_eq (hb : b.Valid) {c : Call} (hc : b.Allowed c)
    (hlt : b.m_buffer.length + c.size < 2 ^ 64) :
    SizeT.call b c = b.call c ∧ (b.call c).m_buffer.length ≤ b.m_buffer.length + c.size := by
  have hsize : b.m_buffer.length < 2 ^ 64 := Nat.lt_of_add_right_lt hlt
  cases c with
  | append data => exact hb.append_eq hlt
  | retrieve len =>
      refine ⟨hb.retrieve_eq hsize len.toNat, ?_⟩
      show (b.retrieve len.toNat).m_buffer.length ≤ _
      rw [Buffer.retrieve]
      split
      · exact Nat.le_add_right _ _
      · exact Nat.le_add_right _ _
  | retrieveAll => exact ⟨rfl, Nat.le_add_right _ _⟩
  -- It retrieves as much as is readable, so its size does not come round either.
  | retrieveAllAsString =>
      constructor
      · show SizeT.retrieve b (SizeT.readableBytes b) = b.retrieve b.readableBytes
        rw [hb.readableBytes_eq hsize, hb.retrieve_eq hsize]
      · show (b.retrieve b.readableBytes).m_buffer.length ≤ _
        rw [Buffer.retrieve, if_neg (Nat.lt_irrefl _)]
        exact Nat.le_add_right _ _
  | ensureWritableBytes len =>
      exact ⟨hb.ensureWritableBytes_eq hlt, hb.length_ensureWritableBytes len.toNat⟩
  | store data =>
      have hroom : data.length ≤ b.writableBytes := hc
      have hfits := hb.fits
      unfold writableBytes at hroom
      refine ⟨rfl, ?_⟩
      show (copyTo b.m_buffer b.m_writerIdx data).length ≤ _
      rw [length_copyTo (by omega)]
      exact Nat.le_add_right _ _
  | hasWritten len =>
      have hroom : len.toNat ≤ b.writableBytes := hc
      have hfits := hb.fits
      unfold writableBytes at hroom
      exact ⟨congrArg (Buffer.mk _ _) (SizeT.add_eq (by omega)), Nat.le_add_right _ _⟩

/-! ## Runs -/

/-- What the run rules ask of a call. -/
def Fits (b : Buffer) (c : Call) : Prop := b.Allowed c ∧ b.m_buffer.length + c.size < 2 ^ 64

/-- In a run whose total size is small enough each call finds room for its sizes, and the vector
is no longer than the total. -/
theorem Valid.fits_run {calls : List Call} : ∀ {b : Buffer}, b.Valid →
    StepsMeet SizeT.call Allowed b calls →
    b.m_buffer.length + (calls.map Call.size).sum < 2 ^ 64 →
      StepsMeet Buffer.call Fits b calls ∧ (calls.foldl Buffer.call b).m_buffer.length ≤
        b.m_buffer.length + (calls.map Call.size).sum := by
  -- The induction is on the calls: what the first one adds to the vector, the others have less.
  induction calls with
  | nil => intro b _ _ _; exact ⟨trivial, le_refl _⟩
  | cons c calls ih =>
      intro b hb hcalls hlt
      rw [List.map_cons, List.sum_cons] at hlt ⊢
      have hfits : b.m_buffer.length + c.size < 2 ^ 64 := by omega
      obtain ⟨heq, hgrows⟩ := hb.call_eq hcalls.1 hfits
      obtain ⟨htail, hlen⟩ := ih (hb.call c hcalls.1).1 (heq ▸ hcalls.2) (by omega)
      refine ⟨⟨⟨hcalls.1, hfits⟩, htail⟩, ?_⟩
      rw [List.foldl_cons]
      omega

/-- In every reachable state the indices are in order, what was added is what was taken out and
what is readable, `retrieve` drops bytes at the front only, a string is all that is readable, and
`ensureWritableBytes` makes room and leaves what is readable. The sizes are those of the code. -/
theorem queue_run (calls : List Call) (hcalls : StepsMeet SizeT.call Allowed new calls)
    (hsize : totalSize calls < 2 ^ 64) :
    let b := calls.foldl SizeT.call new
    (kCheapPrepend ≤ b.m_readerIdx ∧ b.m_readerIdx ≤ b.m_writerIdx ∧
      b.m_writerIdx ≤ b.m_buffer.length) ∧
    along SizeT.call added new calls = along SizeT.call takenOut new calls ++ b.readable ∧
    (∀ len : UInt64, (SizeT.call b (.retrieve len)).readable =
      b.readable.drop (min len.toNat b.readable.length)) ∧
    (SizeT.retrieveAllAsString b).1 = b.readable ∧
    ∀ len : UInt64, totalSize calls + len.toNat < 2 ^ 64 →
      let b' := SizeT.call b (.ensureWritableBytes len)
      b'.readable = b.readable ∧ len.toNat ≤ SizeT.writableBytes b' := by
  intro b
  have hkeep : ∀ (b : Buffer) (c : Call), b.Valid → b.Fits c → (b.call c).Valid :=
    fun b c hb hc => (hb.call c hc.1).1
  have heq : ∀ (b : Buffer) (c : Call), b.Valid → b.Fits c → SizeT.call b c = b.call c :=
    fun b c hb hc => (hb.call_eq hc.1 hc.2).1
  have hnew : new.m_buffer.length = kCheapPrepend + kInitialSize := List.length_replicate
  obtain ⟨hfits, hlen⟩ := valid_new.fits_run hcalls (hnew ▸ hsize)
  -- The run of the code is the run with numbers, and nothing is lost in that.
  obtain ⟨hrun, hadded⟩ := run_congr added hkeep heq valid_new hfits
  obtain ⟨-, htaken⟩ := run_congr takenOut hkeep heq valid_new hfits
  have hqueue := conserved hkeep (fun b c hb hc => (hb.call c hc.1).2) valid_new hfits
  have hb : b.Valid := by
    show (calls.foldl SizeT.call new).Valid
    rw [hrun]
    exact (allStates_of_stepsMeet hkeep valid_new hfits).last
  have hlen : b.m_buffer.length ≤ totalSize calls := by
    show (calls.foldl SizeT.call new).m_buffer.length ≤ _
    rw [hrun, totalSize, ← hnew]
    exact hlen
  have hlt : b.m_buffer.length < 2 ^ 64 := lt_of_le_of_lt hlen hsize
  refine ⟨⟨hb.prepend, hb.ordered, hb.fits⟩, ?_, fun len => ?_, ?_, fun len hroom => ?_⟩
  · rw [hadded, htaken]
    show _ = _ ++ (calls.foldl SizeT.call new).readable
    rw [hrun]
    exact hqueue
  · show (SizeT.retrieve b len.toNat).readable = _
    rw [hb.retrieve_eq hlt, hb.readable_retrieve]
    -- Dropping more than there is drops everything.
    rcases Nat.le_total len.toNat b.readable.length with hle | hge
    · rw [Nat.min_eq_left hle]
    · rw [Nat.min_eq_right hge, List.drop_eq_nil_of_le hge, List.drop_length]
  · show b.peek (SizeT.readableBytes b) = b.peek b.readableBytes
    rw [hb.readableBytes_eq hlt]
  · have hroom' : b.m_buffer.length + len.toNat < 2 ^ 64 := by omega
    obtain ⟨hvalid, hread, hwritable⟩ := hb.ensureWritableBytes len.toNat
    have hgrows := hb.length_ensureWritableBytes len.toNat
    show (SizeT.ensureWritableBytes b len.toNat).readable = b.readable ∧
      len.toNat ≤ SizeT.writableBytes (SizeT.ensureWritableBytes b len.toNat)
    rw [hb.ensureWritableBytes_eq hroom', hvalid.writableBytes_eq (by omega)]
    exact ⟨hread, hwritable⟩

/-- Of two bytes that are added one is taken out, and the room that is made then keeps both. -/
theorem queue_run_makesSpace :
    let calls : List Call := [.append (bytes "ab"), .retrieve 1, .ensureWritableBytes 2000]
    totalSize calls < 2 ^ 64 ∧ bytes "ab" =
      along SizeT.call takenOut new calls ++ (calls.foldl SizeT.call new).readable := by
  intro calls
  have hsize : totalSize calls < 2 ^ 64 := by decide
  exact ⟨hsize, (queue_run calls ⟨trivial, trivial, trivial, trivial⟩ hsize).2.1⟩

end Buffer

end RegistrationCenter
