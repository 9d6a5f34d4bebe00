import RegistrationCenter.Spec.Messages

/-!
# `RegistrationCenter.Proofs.Messages`: a message is read back as it was written

The fields that a message writes are read back one by one (`Lib.Wire`). A message with
defaults for the fields it leaves out is then the message that was written. `LawfulMessage`
says this of a message type, and all types of `messages.proto` that the code uses are lawful.
-/

set_option autoImplicit false

namespace RegistrationCenter

open Lib.Wire

/-- A message type whose fields, put into the default, give the message back. -/
class LawfulMessage (M : Type) [Message M] : Prop where
  numbered (m : M) : Numbered (Message.toFields m)
  readsBack (m : M) : (Message.toFields m).foldlM Message.setField Message.default = some m

/-- The bytes of a message of any length. -/
def encoded {M : Type} [Message M] (m : M) : Bytes := encodeFields (Message.toFields m)

section
variable {M : Type} [Message M]

theorem serialize_eq_encoded {m : M} (hsize : (encoded m).length ≤ 2 ^ 31 - 1) :
    SerializeAsString m = encoded m :=
  if_pos hsize

/-- A message is read back when its fields are encodable and it is not too long. -/
theorem parse_serialize [LawfulMessage M] {m : M}
    (hfields : ∀ f ∈ Message.toFields m, Encodable f)
    (hsize : (encoded m).length ≤ 2 ^ 31 - 1) :
    ParseFromString M (SerializeAsString m) = some m := by
  rw [serialize_eq_encoded hsize, encoded, ParseFromString, parseFields_encodeFields hfields]
  exact LawfulMessage.readsBack m

/-- A message that fits in a field of another is read back. -/
theorem parse_encoded [LawfulMessage M] {m : M} (hsize : (encoded m).length ≤ maxSize) :
    ParseFromString M (encoded m) = some m := by
  have hmax : maxSize ≤ 2 ^ 31 - 1 := by norm_num [maxSize]
  rw [← serialize_eq_encoded (hsize.trans hmax)]
  exact parse_serialize ((LawfulMessage.numbered m).encodable hsize) (hsize.trans hmax)

theorem numbered_varintField {number : Nat} (h : 0 < number ∧ number < 2 ^ 29) (n : UInt64) :
    Numbered (varintField number n) := by
  intro f hf
  rw [varintField] at hf
  split at hf
  · exact absurd hf List.not_mem_nil
  · rw [List.mem_singleton.mp hf]
    exact ⟨h, nofun⟩

theorem numbered_bytes {number : Nat} (h : 0 < number ∧ number < 2 ^ 29) (b : Bytes) :
    Numbered [(number, .bytes b)] := by
  intro f hf
  rw [List.mem_singleton.mp hf]
  exact ⟨h, nofun⟩

theorem numbered_bytesField {number : Nat} (h : 0 < number ∧ number < 2 ^ 29) (b : Bytes) :
    Numbered (bytesField number b) := by
  rw [bytesField]
  split
  · exact fun f hf => absurd hf List.not_mem_nil
  · exact numbered_bytes h b

/-- A number is read back into the message that has its default there: what is not written is
the default. -/
theorem varintField_readsBack {α : Type} (number : Nat) (read : UInt64 → α)
    {write : α → UInt64} (hinv : ∀ x, read (write x) = x) (set : α → M)
    (hset : ∀ n, Message.setField (set (read 0)) (number, .varint n) = some (set (read n)))
    (x : α) :
    (varintField number (write x)).foldlM Message.setField (set (read 0)) = some (set x) := by
  rw [varintField]
  split
  -- Not written: the value is the one that zero is read as.
  · rename_i hzero
    rw [← hinv x, hzero]
    rfl
  · rw [List.foldlM_cons, hset, hinv]
    rfl

theorem bytesField_readsBack (number : Nat) (set : Bytes → M)
    (hset : ∀ b, Message.setField (set []) (number, .bytes b) = some (set b)) (b : Bytes) :
    (bytesField number b).foldlM Message.setField (set []) = some (set b) := by
  rw [bytesField]
  split
  -- Not written: the bytes are empty.
  · rename_i hnil
    rw [hnil]
    rfl
  · rw [List.foldlM_cons, hset]
    rfl

theorem length_varintField_le (number : Nat) (n : UInt64) :
    (encodeFields (varintField number n)).length ≤ 15 := by
  rw [varintField]
  split
  · exact Nat.zero_le _
  · have htag := length_writeDigits_le 5 (8 * number)
    have hvalue := length_writeDigits_le 10 n.toNat
    show (writeDigits 5 (8 * number) ++ writeDigits 10 n.toNat ++ []).length ≤ 15
    rw [List.append_nil, List.length_append]
    omega

/-- A bytes field takes its tag and its length besides the bytes. -/
theorem length_bytesField (number : Nat) (b : Bytes) :
    b.length ≤ (encodeFields (bytesField number b)).length ∧
      (encodeFields (bytesField number b)).length ≤ b.length + 10 := by
  rw [bytesField]
  split
  · rename_i hnil
    rw [hnil]
    exact ⟨le_refl 0, Nat.zero_le _⟩
  · have htag := length_writeDigits_le 5 (8 * number + 2)
    have hlength := length_writeDigits_le 5 b.length
    have henc : (encodeFields [(number, Value.bytes b)]).length = (writeDigits 5 (8 * number + 2) ++
        (writeDigits 5 b.length ++ b) ++ []).length := rfl
    rw [henc, List.append_nil, List.length_append, List.length_append]
    omega

theorem length_encodeFields_append (fields₁ fields₂ : List Field) :
    (encodeFields (fields₁ ++ fields₂)).length =
      (encodeFields fields₁).length + (encodeFields fields₂).length := by
  rw [encodeFields, List.flatMap_append, List.length_append, encodeFields, encodeFields]

/-- A string or bytes field takes as many bytes as its value at least. -/
theorem length_le_bytesField (fields : List Field) (number : Nat) (b : Bytes) :
    b.length ≤ (encodeFields (fields ++ bytesField number b)).length := by
  rw [length_encodeFields_append]
  exact (length_bytesField number b).1.trans (Nat.le_add_left _ _)

theorem readsBack_append {fields₁ fields₂ : List Field} {m m₁ m₂ : M}
    (h₁ : fields₁.foldlM Message.setField m = some m₁)
    (h₂ : fields₂.foldlM Message.setField m₁ = some m₂) :
    (fields₁ ++ fields₂).foldlM Message.setField m = some m₂ := by
  rw [List.foldlM_append, h₁]
  exact h₂

end

theorem messageType_inv (t : MessageType) :
    MessageType.ofInt32 (varintToInt32 (int32ToVarint t.toInt32)) = t := by
  rw [varintToInt32_int32ToVarint, MessageType.ofInt32_toInt32]

theorem serviceType_inv (t : ServiceType) :
    ServiceType.ofInt32 (varintToInt32 (int32ToVarint t.toInt32)) = t := by
  rw [varintToInt32_int32ToVarint, ServiceType.ofInt32_toInt32]

theorem nodeType_inv (t : NodeType) :
    NodeType.ofInt32 (varintToInt32 (int32ToVarint t.toInt32)) = t := by
  rw [varintToInt32_int32ToVarint, NodeType.ofInt32_toInt32]

/-! ### The messages around all others -/

instance : LawfulMessage WrappedRequest where
  numbered m := (numbered_varintField (by decide) _).append (numbered_bytesField (by decide) _)
  readsBack m := by
    have htype := varintField_readsBack 1 (fun n => .ofInt32 (varintToInt32 n)) messageType_inv
      (fun t => ({ requestType := t } : WrappedRequest)) (fun _ => rfl) m.requestType
    have hparameters := bytesField_readsBack 2
      (fun b => { m with requestParameters := b }) (fun _ => rfl) m.requestParameters
    exact readsBack_append htype hparameters

instance : LawfulMessage WrappedResponse where
  numbered m := (numbered_varintField (by decide) _).append (numbered_bytesField (by decide) _)
  readsBack m := by
    have htype := varintField_readsBack 1 (fun n => .ofInt32 (varintToInt32 n)) messageType_inv
      (fun t => ({ responseType := t } : WrappedResponse)) (fun _ => rfl) m.responseType
    have hdata := bytesField_readsBack 2 (fun b => { m with data := b }) (fun _ => rfl) m.data
    exact readsBack_append htype hdata

instance : LawfulMessage ConnectionResponse where
  numbered m := numbered_varintField (by decide) m.sessionId
  readsBack m := varintField_readsBack 1 id (fun _ => rfl)
    (fun n => ({ sessionId := n } : ConnectionResponse)) (fun _ => rfl) m.sessionId

instance : LawfulMessage HeartbeatMessage where
  numbered m := numbered_varintField (by decide) m.sessionId
  readsBack m := varintField_readsBack 1 id (fun _ => rfl)
    (fun n => ({ sessionId := n } : HeartbeatMessage)) (fun _ => rfl) m.sessionId

instance : LawfulMessage ServiceRequest where
  numbered m := ((numbered_varintField (by decide) _).append
    (numbered_bytesField (by decide) _)).append (numbered_varintField (by decide) _)
  readsBack m := by
    have htype := varintField_readsBack 1 (fun n => .ofInt32 (varintToInt32 n)) serviceType_inv
      (fun t => ({ serviceType := t } : ServiceRequest)) (fun _ => rfl) m.serviceType
    have hparameters := bytesField_readsBack 2
      (fun b => ({ serviceType := m.serviceType, serviceParameters := b } : ServiceRequest))
      (fun _ => rfl) m.serviceParameters
    have hsession := varintField_readsBack 3 id (fun _ => rfl)
      (fun n => { m with sessionId := n }) (fun _ => rfl) m.sessionId
    exact readsBack_append (readsBack_append htype hparameters) hsession

instance : LawfulMessage ServiceResponse where
  numbered m := (numbered_varintField (by decide) _).append (numbered_bytesField (by decide) _)
  readsBack m := by
    have htype := varintField_readsBack 1 (fun n => .ofInt32 (varintToInt32 n)) serviceType_inv
      (fun t => ({ serviceType := t } : ServiceResponse)) (fun _ => rfl) m.serviceType
    have hdata := bytesField_readsBack 2 (fun b => { m with data := b }) (fun _ => rfl) m.data
    exact readsBack_append htype hdata

/-! ### The requests of the services -/

instance : LawfulMessage CreateNodeRequest where
  numbered m := ((numbered_bytesField (by decide) _).append
    (numbered_bytesField (by decide) _)).append (numbered_varintField (by decide) _)
  readsBack m := by
    have hpath := bytesField_readsBack 1 (fun b => ({ path := b } : CreateNodeRequest))
      (fun _ => rfl) m.path
    have hdata := bytesField_readsBack 3
      (fun b => ({ path := m.path, nodeData := b } : CreateNodeRequest)) (fun _ => rfl) m.nodeData
    have htype := varintField_readsBack 4 (fun n => .ofInt32 (varintToInt32 n)) nodeType_inv
      (fun t => { m with nodeType := t }) (fun _ => rfl) m.nodeType
    exact readsBack_append (readsBack_append hpath hdata) htype

instance : LawfulMessage SetNodeRequest where
  numbered m := (numbered_bytesField (by decide) _).append (numbered_bytesField (by decide) _)
  readsBack m := by
    have hpath := bytesField_readsBack 1 (fun b => ({ path := b } : SetNodeRequest))
      (fun _ => rfl) m.path
    have hdata := bytesField_readsBack 3 (fun b => { m with nodeData := b }) (fun _ => rfl)
      m.nodeData
    exact readsBack_append hpath hdata

instance : LawfulMessage GetNodeRequest where
  numbered m := numbered_bytesField (by decide) m.path
  readsBack m :=
    bytesField_readsBack 1 (fun b => ({ path := b } : GetNodeRequest)) (fun _ => rfl) m.path

instance : LawfulMessage DeleteNodeRequest where
  numbered m := numbered_bytesField (by decide) m.path
  readsBack m :=
    bytesField_readsBack 1 (fun b => ({ path := b } : DeleteNodeRequest)) (fun _ => rfl) m.path

instance : LawfulMessage LsNodeRequest where
  numbered m := numbered_bytesField (by decide) m.path
  readsBack m :=
    bytesField_readsBack 1 (fun b => ({ path := b } : LsNodeRequest)) (fun _ => rfl) m.path

instance : LawfulMessage StatNodeRequest where
  numbered m := numbered_bytesField (by decide) m.path
  readsBack m :=
    bytesField_readsBack 1 (fun b => ({ path := b } : StatNodeRequest)) (fun _ => rfl) m.path

instance : LawfulMessage ExistsNodeRequest where
  numbered m := numbered_bytesField (by decide) m.path
  readsBack m :=
    bytesField_readsBack 1 (fun b => ({ path := b } : ExistsNodeRequest)) (fun _ => rfl) m.path

/-! ### The responses of the services -/

instance : LawfulMessage CreateNodeResponse where
  numbered m := (numbered_varintField (by decide) _).append (numbered_bytesField (by decide) _)
  readsBack m := by
    have hsuccess := varintField_readsBack 1 varintToBool varintToBool_boolToVarint
      (fun b => ({ success := b } : CreateNodeResponse)) (fun _ => rfl) m.success
    have herrmsg := bytesField_readsBack 2 (fun b => { m with errmsg := b }) (fun _ => rfl) m.errmsg
    exact readsBack_append hsuccess herrmsg

instance : LawfulMessage SetNodeResponse where
  numbered m := (numbered_varintField (by decide) _).append (numbered_bytesField (by decide) _)
  readsBack m := by
    have hsuccess := varintField_readsBack 1 varintToBool varintToBool_boolToVarint
      (fun b => ({ success := b } : SetNodeResponse)) (fun _ => rfl) m.success
    have herrmsg := bytesField_readsBack 2 (fun b => { m with errmsg := b }) (fun _ => rfl) m.errmsg
    exact readsBack_append hsuccess herrmsg

instance : LawfulMessage DeleteNodeResponse where
  numbered m := (numbered_varintField (by decide) _).append (numbered_bytesField (by decide) _)
  readsBack m := by
    have hsuccess := varintField_readsBack 1 varintToBool varintToBool_boolToVarint
      (fun b => ({ success := b } : DeleteNodeResponse)) (fun _ => rfl) m.success
    have herrmsg := bytesField_readsBack 2 (fun b => { m with errmsg := b }) (fun _ => rfl) m.errmsg
    exact readsBack_append hsuccess herrmsg

instance : LawfulMessage GetNodeResponse where
  numbered m := ((numbered_varintField (by decide) _).append
    (numbered_bytesField (by decide) _)).append (numbered_bytesField (by decide) _)
  readsBack m := by
    have hsuccess := varintField_readsBack 1 varintToBool varintToBool_boolToVarint
      (fun b => ({ success := b } : GetNodeResponse)) (fun _ => rfl) m.success
    have hdata := bytesField_readsBack 2
      (fun b => ({ success := m.success, nodeData := b } : GetNodeResponse)) (fun _ => rfl)
      m.nodeData
    have herrmsg := bytesField_readsBack 3 (fun b => { m with errmsg := b }) (fun _ => rfl) m.errmsg
    exact readsBack_append (readsBack_append hsuccess hdata) herrmsg

instance : LawfulMessage ExistsNodeResponse where
  numbered m := ((numbered_varintField (by decide) _).append
    (numbered_varintField (by decide) _)).append (numbered_bytesField (by decide) _)
  readsBack m := by
    have hsuccess := varintField_readsBack 1 varintToBool varintToBool_boolToVarint
      (fun b => ({ success := b } : ExistsNodeResponse)) (fun _ => rfl) m.success
    have hexist := varintField_readsBack 2 varintToBool varintToBool_boolToVarint
      (fun b => ({ success := m.success, exist := b } : ExistsNodeResponse)) (fun _ => rfl) m.exist
    have herrmsg := bytesField_readsBack 3 (fun b => { m with errmsg := b }) (fun _ => rfl) m.errmsg
    exact readsBack_append (readsBack_append hsuccess hexist) herrmsg

/-- Children are written one field each, also empty ones, and read in their order. -/
theorem children_readsBack (m : LsNodeResponse) : ∀ children : List Bytes,
    (children.map fun b => ((2, .bytes b) : Field)).foldlM Message.setField m =
      some { m with children := m.children ++ children } := by
  intro children
  -- The induction is on the children; each is added at the end.
  induction children generalizing m with
  | nil => simp
  | cons b children ih =>
      have hset : Message.setField m (2, .bytes b) =
        some { m with children := m.children ++ [b] } := rfl
      rw [List.map_cons, List.foldlM_cons, hset]
      show List.foldlM _ _ _ = _
      rw [ih]
      simp

instance : LawfulMessage LsNodeResponse where
  numbered m := by
    have hchildren : Numbered (m.children.map fun b => (2, .bytes b)) := by
      intro f hf
      obtain ⟨b, -, rfl⟩ := List.mem_map.mp hf
      exact numbered_bytes (by decide) b _ (List.mem_singleton.mpr rfl)
    exact ((numbered_varintField (by decide) _).append hchildren).append
      (numbered_bytesField (by decide) _)
  readsBack m := by
    have hsuccess := varintField_readsBack 1 varintToBool varintToBool_boolToVarint
      (fun b => ({ success := b } : LsNodeResponse)) (fun _ => rfl) m.success
    have hchildren := children_readsBack { success := m.success } m.children
    have herrmsg := bytesField_readsBack 3 (fun b => { m with errmsg := b }) (fun _ => rfl) m.errmsg
    exact readsBack_append (readsBack_append hsuccess hchildren) herrmsg

instance : LawfulMessage NodeState where
  numbered m := (((numbered_varintField (by decide) _).append
    (numbered_varintField (by decide) _)).append (numbered_varintField (by decide) _)).append
    (numbered_varintField (by decide) _)
  readsBack m := by
    have howner := varintField_readsBack 1 id (fun _ => rfl)
      (fun n => ({ ephemeralOwner := n } : NodeState)) (fun _ => rfl) m.ephemeralOwner
    have hchildren := varintField_readsBack 2 varintToInt32 varintToInt32_int32ToVarint
      (fun n => ({ ephemeralOwner := m.ephemeralOwner, numChildren := n } : NodeState))
      (fun _ => rfl) m.numChildren
    have hlength := varintField_readsBack 3 varintToInt32 varintToInt32_int32ToVarint
      (fun n => ({
        ephemeralOwner := m.ephemeralOwner
        numChildren := m.numChildren
        dataLength := n } : NodeState))
      (fun _ => rfl) m.dataLength
    have htype := varintField_readsBack 4 (fun n => .ofInt32 (varintToInt32 n)) nodeType_inv
      (fun t => { m with NodeType := t }) (fun _ => rfl) m.NodeType
    exact readsBack_append (readsBack_append (readsBack_append howner hchildren) hlength) htype

/-- A state has four numbers. -/
theorem NodeState.length_encoded_le (m : NodeState) : (encoded m).length ≤ maxSize := by
  have howner := length_varintField_le 1 m.ephemeralOwner
  have hchildren := length_varintField_le 2 (int32ToVarint m.numChildren)
  have hlength := length_varintField_le 3 (int32ToVarint m.dataLength)
  have htype := length_varintField_le 4 (int32ToVarint m.NodeType.toInt32)
  show (encodeFields (varintField 1 _ ++ varintField 2 _ ++ varintField 3 _ ++
    varintField 4 _)).length ≤ _
  rw [length_encodeFields_append, length_encodeFields_append, length_encodeFields_append]
  norm_num [maxSize]
  omega

/-- A state that is read into a response without one is the state that was written. -/
theorem setField_state (m : StatNodeResponse) (hnone : m.state = none) (state : NodeState) :
    Message.setField m (2, .bytes (encoded state)) = some { m with state := some state } := by
  have hfields := parseFields_encodeFields
    ((LawfulMessage.numbered state).encodable state.length_encoded_le)
  have hread : (Message.toFields state).foldlM Message.setField ({} : NodeState) = some state :=
    LawfulMessage.readsBack state
  rw [encoded]
  simp only [Message.setField, hfields, hnone, Option.getD_none] at hread ⊢
  rw [hread]
  rfl

instance : LawfulMessage StatNodeResponse where
  numbered m := by
    refine Numbered.append (Numbered.append (numbered_varintField (by decide) _) ?_)
      (numbered_bytesField (by decide) _)
    cases m.state with
    | none => exact fun f hf => absurd hf List.not_mem_nil
    | some state => exact numbered_bytes (by decide) _
  readsBack m := by
    have hsuccess := varintField_readsBack 1 varintToBool varintToBool_boolToVarint
      (fun b => ({ success := b } : StatNodeResponse)) (fun _ => rfl) m.success
    have herrmsg := bytesField_readsBack 3 (fun b => { m with errmsg := b }) (fun _ => rfl) m.errmsg
    refine readsBack_append (readsBack_append hsuccess ?_) herrmsg
    obtain ⟨success, state, errmsg⟩ := m
    cases state with
    | none => rfl
    | some state =>
        have hset := setField_state { success := success } rfl state
        show List.foldlM _ _ [(2, Value.bytes (encoded state))] = _
        rw [List.foldlM_cons, hset]
        rfl

/-! ### Messages that are read back -/

/-- The fields of a request whose parameters fit in a field. -/
theorem WrappedRequest.encodable {m : WrappedRequest}
    (hlen : m.requestParameters.length ≤ maxSize) : ∀ f ∈ Message.toFields m, Encodable f := by
  intro f hf
  rcases List.mem_append.mp hf with hf | hf
  · have hnumbered : Numbered (varintField 1 (int32ToVarint m.requestType.toInt32)) :=
      numbered_varintField (by decide) _
    exact hnumbered.encodable ((length_varintField_le _ _).trans (by norm_num [maxSize])) f hf
  -- The parameters may take up all of the room that a field has.
  · rw [bytesField] at hf
    split at hf
    · exact absurd hf List.not_mem_nil
    · rw [List.mem_singleton.mp hf]
      exact ⟨by norm_num, by norm_num, hlen⟩

/-- A request whose parameters fit in a field is read back. -/
theorem WrappedRequest.parse_of_size {m : WrappedRequest}
    (hlen : m.requestParameters.length ≤ maxSize) (hsize : (encoded m).length ≤ 2 ^ 31 - 1) :
    ParseFromString WrappedRequest (SerializeAsString m) = some m :=
  parse_serialize (WrappedRequest.encodable hlen) hsize

/-- A request that protobuf can carry is read back. -/
theorem WrappedRequest.parse_serialize_self {m : WrappedRequest}
    (hlen : m.requestParameters.length ≤ maxSize) (hne : SerializeAsString m ≠ []) :
    ParseFromString WrappedRequest (SerializeAsString m) = some m := by
  refine WrappedRequest.parse_of_size hlen ?_
  by_contra hsize
  exact hne (if_neg hsize)

/-- A heartbeat is read back. -/
theorem HeartbeatMessage.parse_serialize_self (m : HeartbeatMessage) :
    ParseFromString HeartbeatMessage (SerializeAsString m) = some m := by
  have hlength := length_varintField_le 1 m.sessionId
  have hsize : (encoded m).length ≤ maxSize := hlength.trans (by norm_num [maxSize])
  rw [serialize_eq_encoded (hsize.trans (by norm_num [maxSize]))]
  exact parse_encoded hsize

end RegistrationCenter
