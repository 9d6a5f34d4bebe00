import RegistrationCenter.Spec.Tcp.Buffer

/-!
# `RegistrationCenter.Proofs.Tcp.Buffer`: the buffer is a queue of bytes

The buffer moves and grows its vector, but what a reader sees is a queue: `append` adds
bytes at the end, `retrieve` takes bytes from the front, and `readFd` appends what has
arrived. `Valid` says where the two indices lie. Every operation keeps it.
-/

set_option autoImplicit false

namespace RegistrationCenter

namespace Buffer

variable {b : Buffer}

/-- The indices lie in the vector, in order, and the prepend space is kept. -/
structure Valid (b : Buffer) : Prop where
  prepend : kCheapPrepend ≤ b.m_readerIdx
  ordered : b.m_readerIdx ≤ b.m_writerIdx
  fits : b.m_writerIdx ≤ b.m_buffer.length

/-- The bytes that wait in the buffer. -/
def readable (b : Buffer) : Bytes := b.peek b.readableBytes

theorem readable_eq (b : Buffer) :
    b.readable = (b.m_buffer.take b.m_writerIdx).drop b.m_readerIdx := by
  rw [List.drop_take]
  rfl

theorem Valid.length_readable (hb : b.Valid) : b.readable.length = b.readableBytes := by
  have hfits := hb.fits
  rw [readable_eq, List.length_drop, List.length_take, Nat.min_eq_left hfits]
  rfl

theorem Valid.readable_eq_nil (hb : b.Valid) : b.readable = [] ↔ b.readableBytes = 0 := by
  rw [← hb.length_readable, List.length_eq_zero_iff]

/-! ## The two ways to write to the vector -/

theorem length_copyTo {v data : Bytes} {i : Nat} (h : i + data.length ≤ v.length) :
    (copyTo v i data).length = v.length := by
  simp only [copyTo, List.length_append, List.length_take, List.length_drop]
  omega

/-- A copy leaves what is before it and puts the bytes there. -/
theorem take_copyTo {v data : Bytes} {i : Nat} (h : i + data.length ≤ v.length) :
    (copyTo v i data).take (i + data.length) = v.take i ++ data := by
  have hlen : (v.take i ++ data).length = i + data.length := by
    rw [List.length_append, List.length_take]
    omega
  rw [copyTo, ← hlen, List.take_left]

theorem length_resize (v : Bytes) (n : Nat) : (resize v n).length = n := by
  simp only [resize, List.length_append, List.length_take, List.length_replicate]
  omega

theorem take_resize {v : Bytes} {n w : Nat} (hn : w ≤ n) (hw : w ≤ v.length) :
    (resize v n).take w = v.take w := by
  have hlen : w ≤ (v.take n).length := by
    rw [List.length_take]
    omega
  rw [resize, List.take_append_of_le_length hlen, List.take_take, Nat.min_eq_left hn]

/-! ## The operations -/

theorem valid_new : new.Valid :=
  ⟨le_refl _, le_refl _, by rw [new, List.length_replicate]; exact Nat.le_add_right _ _⟩

theorem readable_new : new.readable = [] := rfl

theorem Valid.retrieveAll (hb : b.Valid) : b.retrieveAll.Valid :=
  ⟨le_refl _, le_refl _, le_trans hb.prepend (le_trans hb.ordered hb.fits)⟩

theorem readable_retrieveAll (b : Buffer) : b.retrieveAll.readable = [] := by
  rw [readable, peek, readableBytes, retrieveAll, Nat.sub_self, List.take_zero]

theorem Valid.retrieve (hb : b.Valid) (len : Nat) : (b.retrieve len).Valid := by
  obtain ⟨hprepend, hordered, hfits⟩ := hb
  rw [Buffer.retrieve]
  split
  · rename_i hlt
    rw [readableBytes] at hlt
    refine ⟨le_trans hprepend (Nat.le_add_right _ _), ?_, hfits⟩
    show b.m_readerIdx + len ≤ b.m_writerIdx
    omega
  · exact Valid.retrieveAll ⟨hprepend, hordered, hfits⟩

/-- `retrieve` takes bytes from the front. -/
theorem Valid.readable_retrieve (hb : b.Valid) (len : Nat) :
    (b.retrieve len).readable = b.readable.drop len := by
  rw [Buffer.retrieve]
  split
  · rw [readable_eq, readable_eq, List.drop_drop]
  · rename_i hle
    rw [readable_retrieveAll, List.drop_eq_nil_of_le]
    rw [hb.length_readable]
    exact Nat.le_of_not_lt hle

/-- Making space changes neither the readable bytes nor the indices' order. -/
theorem Valid.makeSpace (hb : b.Valid) (len : Nat) :
    (b.makeSpace len).Valid ∧ (b.makeSpace len).readable = b.readable ∧
      len ≤ (b.makeSpace len).writableBytes := by
  have hlen := hb.length_readable
  obtain ⟨hprepend, hordered, hfits⟩ := hb
  unfold readableBytes at hlen
  rw [Buffer.makeSpace]
  split
  -- The vector is made longer; nothing moves.
  · refine ⟨⟨hprepend, hordered, ?_⟩, ?_, ?_⟩
    · show b.m_writerIdx ≤ (resize b.m_buffer (b.m_writerIdx + len)).length
      rw [length_resize]
      exact Nat.le_add_right _ _
    · rw [readable_eq, readable_eq, take_resize (Nat.le_add_right _ _) hfits]
    · show len ≤ (resize b.m_buffer (b.m_writerIdx + len)).length - b.m_writerIdx
      rw [length_resize]
      omega
  · rename_i hroom
    unfold writableBytes prependableBytes at hroom
    -- The readable bytes move to the front; the room is there by `hroom`.
    have hcopy : kCheapPrepend + b.readable.length ≤ b.m_buffer.length := by omega
    have hcopied := take_copyTo hcopy
    have hsize := length_copyTo hcopy
    rw [hlen] at hcopied
    refine ⟨⟨le_refl _, Nat.le_add_right _ _, ?_⟩, ?_, ?_⟩
    · show kCheapPrepend + (b.m_writerIdx - b.m_readerIdx)
        ≤ (copyTo b.m_buffer kCheapPrepend b.readable).length
      omega
    · rw [readable_eq]
      show ((copyTo b.m_buffer kCheapPrepend b.readable).take
        (kCheapPrepend + (b.m_writerIdx - b.m_readerIdx))).drop kCheapPrepend = b.readable
      have hpre : (b.m_buffer.take kCheapPrepend).length = kCheapPrepend := by
        rw [List.length_take]
        omega
      rw [hcopied, List.drop_left' hpre]
    · show len ≤ (copyTo b.m_buffer kCheapPrepend b.readable).length
        - (kCheapPrepend + (b.m_writerIdx - b.m_readerIdx))
      omega

theorem Valid.ensureWritableBytes (hb : b.Valid) (len : Nat) :
    (b.ensureWritableBytes len).Valid ∧ (b.ensureWritableBytes len).readable = b.readable ∧
      len ≤ (b.ensureWritableBytes len).writableBytes := by
  rw [Buffer.ensureWritableBytes]
  split
  · exact hb.makeSpace len
  · rename_i hroom
    exact ⟨hb, rfl, Nat.le_of_not_lt hroom⟩

/-- Bytes copied to the writer index become readable when the index moves over them. -/
theorem Valid.hasWritten (hb : b.Valid) {data : Bytes} (hroom : data.length ≤ b.writableBytes) :
    let b' := { b with m_buffer := copyTo b.m_buffer b.m_writerIdx data }.hasWritten data.length
    b'.Valid ∧ b'.readable = b.readable ++ data := by
  obtain ⟨hprepend, hordered, hfits⟩ := hb
  unfold writableBytes at hroom
  have hcopy : b.m_writerIdx + data.length ≤ b.m_buffer.length := by omega
  refine ⟨⟨hprepend, le_trans hordered (Nat.le_add_right _ _), ?_⟩, ?_⟩
  · show b.m_writerIdx + data.length ≤ (copyTo b.m_buffer b.m_writerIdx data).length
    rw [length_copyTo hcopy]
    exact hcopy
  · rw [readable_eq, readable_eq]
    show ((copyTo b.m_buffer b.m_writerIdx data).take (b.m_writerIdx + data.length)).drop
      b.m_readerIdx = (b.m_buffer.take b.m_writerIdx).drop b.m_readerIdx ++ data
    have hle : b.m_readerIdx ≤ (b.m_buffer.take b.m_writerIdx).length := by
      rw [List.length_take]
      omega
    rw [take_copyTo hcopy, List.drop_append_of_le_length hle]

/-- `append` adds bytes at the end. -/
theorem Valid.append (hb : b.Valid) (data : Bytes) :
    (b.append data).Valid ∧ (b.append data).readable = b.readable ++ data := by
  obtain ⟨hvalid, hread, hroom⟩ := hb.ensureWritableBytes data.length
  rw [← hread]
  exact hvalid.hasWritten hroom

/-- A read has room for at least the side buffer. -/
theorem extraSize_le_readCapacity (b : Buffer) : extraSize ≤ b.readCapacity := by
  rw [readCapacity]
  split
  · exact Nat.le_add_left _ _
  · rename_i hge
    exact Nat.le_of_not_lt hge

/-- A successful `readv` counts what it brings, which is no more than there is room for. -/
theorem readv_arrived (b : Buffer) (incoming : Bytes) :
    (b.readv (.arrived incoming)).2.toNat = (b.readv (.arrived incoming)).1.length ∧
      (b.readv (.arrived incoming)).1.length ≤ b.readCapacity := by
  have hlen : (incoming.take (min b.readCapacity (2 ^ 63 - 1))).length
      ≤ min b.readCapacity (2 ^ 63 - 1) := List.length_take_le _ _
  constructor
  · show (UInt64.ofNat (incoming.take (min b.readCapacity (2 ^ 63 - 1))).length).toNat = _
    rw [UInt64.toNat_ofNat', Nat.mod_eq_of_lt (by omega)]
    rfl
  · exact le_trans hlen (Nat.min_le_left ..)

theorem readv_of_length_le {b : Buffer} {incoming : Bytes}
    (hcapacity : incoming.length ≤ b.readCapacity) (hlen : incoming.length < 2 ^ 63) :
    (b.readv (.arrived incoming)).1 = incoming :=
  List.take_of_length_le (by omega)

/-- `readFd` appends what `readv` brings, and returns how much. -/
theorem Valid.readFd (hb : b.Valid) (incoming : Bytes) :
    ∃ b', b.readFd (.arrived incoming) =
        some (b', none, (b.readv (.arrived incoming)).2) ∧
      b'.Valid ∧ b'.readable = b.readable ++ (b.readv (.arrived incoming)).1 := by
  obtain ⟨hcount, hcapacity⟩ := b.readv_arrived incoming
  rw [Buffer.readFd]
  generalize b.readv (.arrived incoming) = r at hcount hcapacity ⊢
  obtain ⟨data, n⟩ := r
  simp only at hcount hcapacity ⊢
  rw [if_neg UInt64.not_lt_zero, hcount]
  have hfits := hb.fits
  by_cases hlt : data.length < b.writableBytes
  -- All bytes fit in the writable space.
  · have hfirst : data.take b.writableBytes = data := List.take_of_length_le (Nat.le_of_lt hlt)
    rw [if_pos hlt, hfirst]
    exact ⟨_, rfl, hb.hasWritten (Nat.le_of_lt hlt)⟩
  · have hextra : data.length - b.writableBytes ≤ extraSize := by
      rw [readCapacity] at hcapacity
      split at hcapacity <;> omega
    rw [if_neg hlt, if_pos hextra]
    refine ⟨_, rfl, ?_⟩
    have hfirst : (data.take b.writableBytes).length = b.writableBytes := by
      rw [List.length_take]
      omega
    obtain ⟨hvalid, hread⟩ := hb.hasWritten (le_of_eq hfirst)
    -- The writable space is full: the writer index is at the end of the vector, and the
    -- rest of the bytes goes through `append`.
    have hend : b.m_writerIdx + b.writableBytes = b.m_buffer.length := by
      unfold writableBytes
      omega
    have hcopy : b.m_writerIdx + (data.take b.writableBytes).length ≤ b.m_buffer.length := by
      omega
    rw [Buffer.hasWritten, hfirst] at hvalid hread
    have hwriter : (copyTo b.m_buffer b.m_writerIdx (data.take b.writableBytes)).length =
        b.m_writerIdx + b.writableBytes := by
      rw [length_copyTo hcopy, hend]
    have hrest : (data.drop b.writableBytes ++
        List.replicate (extraSize - (data.length - b.writableBytes)) 0).take
          (data.length - b.writableBytes) = data.drop b.writableBytes := by
      rw [← List.length_drop, List.take_left]
    rw [hwriter, hrest]
    obtain ⟨hvalid', hread'⟩ := hvalid.append (data.drop b.writableBytes)
    refine ⟨hvalid', ?_⟩
    rw [hread', hread, List.append_assoc, List.take_append_drop]

/-- Taking everything out leaves an empty buffer. -/
theorem Valid.retrieveAllAsString (hb : b.Valid) :
    b.retrieveAllAsString.1 = b.readable ∧ b.retrieveAllAsString.2.Valid ∧
      b.retrieveAllAsString.2.readable = [] := by
  refine ⟨rfl, hb.retrieve _, ?_⟩
  show (b.retrieve b.readableBytes).readable = []
  rw [hb.readable_retrieve, ← hb.length_readable, List.drop_length]

end Buffer

end RegistrationCenter
