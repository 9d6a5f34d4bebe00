import RegistrationCenter.Lib.Wire

/-!
# `RegistrationCenter.Spec.Messages`: the messages on the wire

`src/proto/messages.proto` and the code that `protoc` generates from it. An
enumeration is open: a message can carry any 32-bit number in an enumeration field,
and `unrecognized` keeps the numbers without a name. A field that is absent on the
wire has its default, and a field with its default is not written. Unknown fields
and fields of another wire type are ignored, and of a repeated scalar the last one
counts.

`Message` says how a message type is written as fields and read back from them.
`ParseFromString` and `SerializeAsString` are then the same for all of them.
-/

set_option autoImplicit false

namespace RegistrationCenter

open Lib.Wire

export Lib.Wire (Bytes)

/-- The bytes of an ASCII text. -/
def bytes (s : String) : Bytes := s.toList.map fun c => UInt8.ofNat c.toNat

/-! ### Enumerations -/

inductive MessageType
  | Nothing_MessageType
  | Connection
  | Service
  | Error
  | unrecognized (v : Int32) (hv : v ≠ 0 ∧ v ≠ 1 ∧ v ≠ 2 ∧ v ≠ 3)
  deriving DecidableEq

inductive ServiceType
  | Nothing_ServiceType
  | Create
  | Get
  | Set
  | Delete
  | Ls
  | Stat
  | Exists
  | unrecognized (v : Int32)
      (hv : v ≠ 0 ∧ v ≠ 1 ∧ v ≠ 2 ∧ v ≠ 3 ∧ v ≠ 4 ∧ v ≠ 5 ∧ v ≠ 6 ∧ v ≠ 7)
  deriving DecidableEq

/-- The node types of `DNode.h` and of the messages, which have the same numbers: the code
casts between them. -/
inductive NodeType
  | NONE
  | PERSISTENT
  | EPHEMERAL
  | unrecognized (v : Int32) (hv : v ≠ 0 ∧ v ≠ 1 ∧ v ≠ 2)
  deriving DecidableEq

def MessageType.ofInt32 (v : Int32) : MessageType :=
  if h₀ : v = 0 then .Nothing_MessageType
  else if h₁ : v = 1 then .Connection
  else if h₂ : v = 2 then .Service
  else if h₃ : v = 3 then .Error
  else .unrecognized v ⟨h₀, h₁, h₂, h₃⟩

def MessageType.toInt32 : MessageType → Int32
  | .Nothing_MessageType => 0
  | .Connection => 1
  | .Service => 2
  | .Error => 3
  | .unrecognized v _ => v

def ServiceType.ofInt32 (v : Int32) : ServiceType :=
  if h₀ : v = 0 then .Nothing_ServiceType
  else if h₁ : v = 1 then .Create
  else if h₂ : v = 2 then .Get
  else if h₃ : v = 3 then .Set
  else if h₄ : v = 4 then .Delete
  else if h₅ : v = 5 then .Ls
  else if h₆ : v = 6 then .Stat
  else if h₇ : v = 7 then .Exists
  else .unrecognized v ⟨h₀, h₁, h₂, h₃, h₄, h₅, h₆, h₇⟩

def ServiceType.toInt32 : ServiceType → Int32
  | .Nothing_ServiceType => 0
  | .Create => 1
  | .Get => 2
  | .Set => 3
  | .Delete => 4
  | .Ls => 5
  | .Stat => 6
  | .Exists => 7
  | .unrecognized v _ => v

def NodeType.ofInt32 (v : Int32) : NodeType :=
  if h₀ : v = 0 then .NONE
  else if h₁ : v = 1 then .PERSISTENT
  else if h₂ : v = 2 then .EPHEMERAL
  else .unrecognized v ⟨h₀, h₁, h₂⟩

def NodeType.toInt32 : NodeType → Int32
  | .NONE => 0
  | .PERSISTENT => 1
  | .EPHEMERAL => 2
  | .unrecognized v _ => v

@[simp] theorem MessageType.ofInt32_toInt32 (t : MessageType) : ofInt32 t.toInt32 = t := by
  cases t with
  | unrecognized v hv => simp [toInt32, ofInt32, hv.1, hv.2.1, hv.2.2.1, hv.2.2.2]
  | _ => rfl

@[simp] theorem ServiceType.ofInt32_toInt32 (t : ServiceType) : ofInt32 t.toInt32 = t := by
  cases t with
  | unrecognized v hv =>
      obtain ⟨h₀, h₁, h₂, h₃, h₄, h₅, h₆, h₇⟩ := hv
      simp [toInt32, ofInt32, h₀, h₁, h₂, h₃, h₄, h₅, h₆, h₇]
  | _ => rfl

@[simp] theorem NodeType.ofInt32_toInt32 (t : NodeType) : ofInt32 t.toInt32 = t := by
  cases t with
  | unrecognized v hv => simp [toInt32, ofInt32, hv.1, hv.2.1, hv.2.2]
  | _ => rfl

/-! ### Writing and reading a message -/

/-- A message type: its default, its fields, and how a field that is read changes it, which
fails when the field holds a malformed message. -/
class Message (M : Type) where
  default : M
  toFields : M → List Field
  setField : M → Field → Option M

/-- `SerializeAsString`. A message beyond `INT_MAX` bytes is not written. -/
def SerializeAsString {M : Type} [Message M] (m : M) : Bytes :=
  let out := encodeFields (Message.toFields m)
  if out.length ≤ 2 ^ 31 - 1 then out else []

/-- `ParseFromString`. -/
def ParseFromString (M : Type) [Message M] (data : Bytes) : Option M :=
  match parseFields data with
  | none => none
  | some fields => fields.foldlM Message.setField Message.default

/-- A varint field, left out when zero. -/
def varintField (number : Nat) (n : UInt64) : List Field :=
  if n = 0 then [] else [(number, .varint n)]

/-- A bytes field, left out when empty. -/
def bytesField (number : Nat) (b : Bytes) : List Field :=
  if b = [] then [] else [(number, .bytes b)]

/-- A 32-bit number is written with its sign extended to 64 bits. -/
def int32ToVarint (v : Int32) : UInt64 := v.toInt64.toUInt64

/-- Of a 32-bit number the low half of the varint counts. -/
def varintToInt32 (n : UInt64) : Int32 := n.toInt64.toInt32

def boolToVarint (b : Bool) : UInt64 := if b then 1 else 0

def varintToBool (n : UInt64) : Bool := n != 0

@[simp] theorem varintToInt32_int32ToVarint (v : Int32) :
    varintToInt32 (int32ToVarint v) = v := by
  simp [varintToInt32, int32ToVarint]

@[simp] theorem varintToBool_boolToVarint (b : Bool) : varintToBool (boolToVarint b) = b := by
  cases b <;> rfl

/-! ### The request and the response around all others -/

structure WrappedRequest where
  requestType : MessageType := .Nothing_MessageType
  requestParameters : Bytes := []
  deriving DecidableEq

instance : Message WrappedRequest where
  default := {}
  toFields m :=
    varintField 1 (int32ToVarint m.requestType.toInt32) ++ bytesField 2 m.requestParameters
  setField m
    | (1, .varint n) => some { m with requestType := .ofInt32 (varintToInt32 n) }
    | (2, .bytes b) => some { m with requestParameters := b }
    | _ => some m

structure WrappedResponse where
  responseType : MessageType := .Nothing_MessageType
  data : Bytes := []
  deriving DecidableEq

instance : Message WrappedResponse where
  default := {}
  toFields m := varintField 1 (int32ToVarint m.responseType.toInt32) ++ bytesField 2 m.data
  setField m
    | (1, .varint n) => some { m with responseType := .ofInt32 (varintToInt32 n) }
    | (2, .bytes b) => some { m with data := b }
    | _ => some m

structure ConnectionResponse where
  sessionId : UInt64 := 0
  deriving DecidableEq

instance : Message ConnectionResponse where
  default := {}
  toFields m := varintField 1 m.sessionId
  setField m
    | (1, .varint n) => some { m with sessionId := n }
    | _ => some m

structure HeartbeatMessage where
  sessionId : UInt64 := 0
  deriving DecidableEq

instance : Message HeartbeatMessage where
  default := {}
  toFields m := varintField 1 m.sessionId
  setField m
    | (1, .varint n) => some { m with sessionId := n }
    | _ => some m

structure ServiceRequest where
  serviceType : ServiceType := .Nothing_ServiceType
  serviceParameters : Bytes := []
  sessionId : UInt64 := 0
  deriving DecidableEq

instance : Message ServiceRequest where
  default := {}
  toFields m :=
    varintField 1 (int32ToVarint m.serviceType.toInt32) ++ bytesField 2 m.serviceParameters ++
      varintField 3 m.sessionId
  setField m
    | (1, .varint n) => some { m with serviceType := .ofInt32 (varintToInt32 n) }
    | (2, .bytes b) => some { m with serviceParameters := b }
    | (3, .varint n) => some { m with sessionId := n }
    | _ => some m

structure ServiceResponse where
  serviceType : ServiceType := .Nothing_ServiceType
  data : Bytes := []
  deriving DecidableEq

instance : Message ServiceResponse where
  default := {}
  toFields m := varintField 1 (int32ToVarint m.serviceType.toInt32) ++ bytesField 2 m.data
  setField m
    | (1, .varint n) => some { m with serviceType := .ofInt32 (varintToInt32 n) }
    | (2, .bytes b) => some { m with data := b }
    | _ => some m

/-! ### The requests and responses of the services -/

structure CreateNodeRequest where
  path : Bytes := []
  nodeData : Bytes := []
  nodeType : NodeType := .NONE
  deriving DecidableEq

instance : Message CreateNodeRequest where
  default := {}
  toFields m :=
    bytesField 1 m.path ++ bytesField 3 m.nodeData ++
      varintField 4 (int32ToVarint m.nodeType.toInt32)
  setField m
    | (1, .bytes b) => some { m with path := b }
    | (3, .bytes b) => some { m with nodeData := b }
    | (4, .varint n) => some { m with nodeType := .ofInt32 (varintToInt32 n) }
    | _ => some m

structure CreateNodeResponse where
  success : Bool := false
  errmsg : Bytes := []
  deriving DecidableEq

instance : Message CreateNodeResponse where
  default := {}
  toFields m := varintField 1 (boolToVarint m.success) ++ bytesField 2 m.errmsg
  setField m
    | (1, .varint n) => some { m with success := varintToBool n }
    | (2, .bytes b) => some { m with errmsg := b }
    | _ => some m

structure GetNodeRequest where
  path : Bytes := []
  deriving DecidableEq

instance : Message GetNodeRequest where
  default := {}
  toFields m := bytesField 1 m.path
  setField m
    | (1, .bytes b) => some { m with path := b }
    | _ => some m

structure GetNodeResponse where
  success : Bool := false
  nodeData : Bytes := []
  errmsg : Bytes := []
  deriving DecidableEq

instance : Message GetNodeResponse where
  default := {}
  toFields m :=
    varintField 1 (boolToVarint m.success) ++ bytesField 2 m.nodeData ++ bytesField 3 m.errmsg
  setField m
    | (1, .varint n) => some { m with success := varintToBool n }
    | (2, .bytes b) => some { m with nodeData := b }
    | (3, .bytes b) => some { m with errmsg := b }
    | _ => some m

structure SetNodeRequest where
  path : Bytes := []
  nodeData : Bytes := []
  deriving DecidableEq

instance : Message SetNodeRequest where
  default := {}
  toFields m := bytesField 1 m.path ++ bytesField 3 m.nodeData
  setField m
    | (1, .bytes b) => some { m with path := b }
    | (3, .bytes b) => some { m with nodeData := b }
    | _ => some m

structure SetNodeResponse where
  success : Bool := false
  errmsg : Bytes := []
  deriving DecidableEq

instance : Message SetNodeResponse where
  default := {}
  toFields m := varintField 1 (boolToVarint m.success) ++ bytesField 2 m.errmsg
  setField m
    | (1, .varint n) => some { m with success := varintToBool n }
    | (2, .bytes b) => some { m with errmsg := b }
    | _ => some m

structure DeleteNodeRequest where
  path : Bytes := []
  deriving DecidableEq

instance : Message DeleteNodeRequest where
  default := {}
  toFields m := bytesField 1 m.path
  setField m
    | (1, .bytes b) => some { m with path := b }
    | _ => some m

structure DeleteNodeResponse where
  success : Bool := false
  errmsg : Bytes := []
  deriving DecidableEq

instance : Message DeleteNodeResponse where
  default := {}
  toFields m := varintField 1 (boolToVarint m.success) ++ bytesField 2 m.errmsg
  setField m
    | (1, .varint n) => some { m with success := varintToBool n }
    | (2, .bytes b) => some { m with errmsg := b }
    | _ => some m

structure LsNodeRequest where
  path : Bytes := []
  deriving DecidableEq

instance : Message LsNodeRequest where
  default := {}
  toFields m := bytesField 1 m.path
  setField m
    | (1, .bytes b) => some { m with path := b }
    | _ => some m

structure LsNodeResponse where
  success : Bool := false
  children : List Bytes := []
  errmsg : Bytes := []
  deriving DecidableEq

instance : Message LsNodeResponse where
  default := {}
  toFields m :=
    varintField 1 (boolToVarint m.success) ++ m.children.map (fun b => (2, .bytes b)) ++
      bytesField 3 m.errmsg
  setField m
    | (1, .varint n) => some { m with success := varintToBool n }
    | (2, .bytes b) => some { m with children := m.children ++ [b] }
    | (3, .bytes b) => some { m with errmsg := b }
    | _ => some m

structure NodeState where
  ephemeralOwner : UInt64 := 0
  numChildren : Int32 := 0
  dataLength : Int32 := 0
  NodeType : NodeType := .NONE
  deriving DecidableEq

instance : Message NodeState where
  default := {}
  toFields m :=
    varintField 1 m.ephemeralOwner ++ varintField 2 (int32ToVarint m.numChildren) ++
      varintField 3 (int32ToVarint m.dataLength) ++
      varintField 4 (int32ToVarint m.NodeType.toInt32)
  setField m
    | (1, .varint n) => some { m with ephemeralOwner := n }
    | (2, .varint n) => some { m with numChildren := varintToInt32 n }
    | (3, .varint n) => some { m with dataLength := varintToInt32 n }
    | (4, .varint n) => some { m with NodeType := .ofInt32 (varintToInt32 n) }
    | _ => some m

structure StatNodeRequest where
  path : Bytes := []
  deriving DecidableEq

instance : Message StatNodeRequest where
  default := {}
  toFields m := bytesField 1 m.path
  setField m
    | (1, .bytes b) => some { m with path := b }
    | _ => some m

/-- `state` is a message field: it can be absent. -/
structure StatNodeResponse where
  success : Bool := false
  state : Option NodeState := none
  errmsg : Bytes := []
  deriving DecidableEq

instance : Message StatNodeResponse where
  default := {}
  toFields m :=
    varintField 1 (boolToVarint m.success) ++
      (match m.state with
        | none => []
        | some state => [(2, .bytes (encodeFields (Message.toFields state)))]) ++
      bytesField 3 m.errmsg
  setField m
    | (1, .varint n) => some { m with success := varintToBool n }
    | (2, .bytes b) =>
        match parseFields b with
        | none => none
        | some fields =>
            -- A state that is there already is merged with the one read.
            (fields.foldlM Message.setField (m.state.getD {})).map fun state =>
              { m with state := some state }
    | (3, .bytes b) => some { m with errmsg := b }
    | _ => some m

structure ExistsNodeRequest where
  path : Bytes := []
  deriving DecidableEq

instance : Message ExistsNodeRequest where
  default := {}
  toFields m := bytesField 1 m.path
  setField m
    | (1, .bytes b) => some { m with path := b }
    | _ => some m

structure ExistsNodeResponse where
  success : Bool := false
  exist : Bool := false
  errmsg : Bytes := []
  deriving DecidableEq

instance : Message ExistsNodeResponse where
  default := {}
  toFields m :=
    varintField 1 (boolToVarint m.success) ++ varintField 2 (boolToVarint m.exist) ++
      bytesField 3 m.errmsg
  setField m
    | (1, .varint n) => some { m with success := varintToBool n }
    | (2, .varint n) => some { m with exist := varintToBool n }
    | (3, .bytes b) => some { m with errmsg := b }
    | _ => some m

end RegistrationCenter
