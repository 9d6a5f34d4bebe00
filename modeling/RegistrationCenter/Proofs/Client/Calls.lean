import RegistrationCenter.Proofs.Messages
import RegistrationCenter.Spec.SRCCLient
import RegistrationCenter.Spec.SRCServer

/-!
# `RegistrationCenter.Proofs.Client.Calls`: an operation of the client, end to end

A call goes through three messages to the server and three back, the dispatch table and a
handler. `callService_answer` is the way there and back for any service. `answeredRight_iff`
compares each operation of the client with the service of the same name on the store of the
server: they agree, but for a result of `existsNode` that is not set.

The messages must fit. A request that is too long for a field is not one that protobuf can
carry, and one `read` of the client takes no more than `BUF_SIZE` bytes of the response.
-/

set_option autoImplicit false

namespace RegistrationCenter

open Lib Lib.Wire

/-- An operation of the client, with its arguments. -/
inductive ClientCall
  | createNode (path data : Bytes) (type : Int32)
  | getNode (path : Bytes)
  | setNode (path data : Bytes)
  | deleteNode (path : Bytes)
  | lsNode (path : Bytes)
  | statNode (path : Bytes)
  | existsNode (path : Bytes)

/-- What an operation of the client returns. -/
inductive ClientResult
  | flag (result : Bool)
  | data (result : Bytes)
  | children (result : List Bytes)
  | state (result : NodeState)

namespace SRCServer

/-- What the server sends for these bytes, and its state after that. -/
def answer (env : Environment) (peerAddress : InetAddress) (s : SRCServer) (data : Bytes) :
    Bytes × SRCServer :=
  let (resp, s') := s.onData env peerAddress data
  (SerializeAsString resp, s')

end SRCServer

namespace SRCCLient

section
variable {σ : Type} (c : SRCCLient) (exchange : Bytes → Bytes × σ) (leftover : WrappedResponse)
  (uninit : Bool)

/-- An operation is called: what it returns, and the text that it logs if it logs one. -/
def callLogged : ClientCall → Option (ClientResult × Option Bytes) × σ
  | .createNode path data type =>
      (c.createNode exchange leftover path data type).map (Option.map (Prod.map .flag id)) id
  | .getNode path => (c.getNode exchange leftover path).map (Option.map (Prod.map .data id)) id
  | .setNode path data =>
      (c.setNode exchange leftover path data).map (Option.map (Prod.map .flag id)) id
  | .deleteNode path =>
      (c.deleteNode exchange leftover path).map (Option.map (Prod.map .flag id)) id
  | .lsNode path => (c.lsNode exchange leftover path).map (Option.map (Prod.map .children id)) id
  | .statNode path => (c.statNode exchange leftover path).map (Option.map (Prod.map .state id)) id
  | .existsNode path =>
      (c.existsNode exchange leftover uninit path).map (Option.map (Prod.map .flag id)) id

/-- What an operation returns. -/
def call (call : ClientCall) : Option ClientResult × σ :=
  (c.callLogged exchange leftover uninit call).map (Option.map Prod.fst) id

end

section
variable {Req Resp : Type} [Message Req] [Message Resp]

/-- The service request that goes with a request. -/
def serviceRequest (c : SRCCLient) (type : ServiceType) (req : Req) : ServiceRequest :=
  { serviceType := type, sessionId := c.m_sessionId, serviceParameters := encoded req }

/-- The service response that goes with a response. -/
def serviceResponse (type : ServiceType) (resp : Resp) : ServiceResponse :=
  { serviceType := type, data := encoded resp }

/-- The wrapped response that goes with a response. -/
def wrappedResponse (type : ServiceType) (resp : Resp) : WrappedResponse :=
  { responseType := .Service, data := encoded (serviceResponse type resp) }

/-- The messages of a call fit: the service request in a field, and the whole response in one
`read`. -/
structure Carries (c : SRCCLient) (type : ServiceType) (req : Req) (resp : Resp) : Prop where
  request : (encoded (c.serviceRequest type req)).length ≤ maxSize
  response : (encoded (wrappedResponse type resp)).length ≤ BUF_SIZE

end

end SRCCLient

namespace ClientCall

/-- The outcome of the service of the same name, in the terms of the client. -/
def outcome (sessionId : UInt64) (s : Services) : ClientCall → ClientResult × Services
  | .createNode path data type =>
      let (resp, s') := s.createNode sessionId path data (.ofInt32 type)
      (.flag resp.success, s')
  | .getNode path =>
      let resp := s.getNode path
      (.data (if resp.success then resp.nodeData else []), s)
  | .setNode path data =>
      let (resp, s') := s.setNode path data
      (.flag resp.success, s')
  | .deleteNode path =>
      let (resp, s') := s.deleteNode path
      (.flag resp.success, s')
  | .lsNode path =>
      let resp := s.lsNode path
      (.children (if resp.success then resp.children else []), s)
  | .statNode path =>
      let resp := s.statNode path
      (.state (if resp.success then resp.state.getD {} else {}), s)
  | .existsNode path =>
      let resp := s.existsNode path
      (.flag (resp.success && resp.exist), s)

/-- What the operation says in the log before the reason. -/
def format : ClientCall → Bytes
  | .createNode _ _ _ => utf8 "创建节点失败: "
  | .getNode _ => utf8 "获取节点失败: "
  | .setNode _ _ => utf8 "设置节点失败: "
  | .deleteNode _ => utf8 "删除节点失败: "
  | .lsNode _ => utf8 "列举节点失败: "
  | .statNode _ => utf8 "获取节点状态失败: "
  | .existsNode _ => utf8 "获取节点存在失败: "

open SRCCLient (orWarn) in
/-- What the operation returns and logs, from what the service of the same name answers. -/
def returned (sessionId : UInt64) (uninit : Bool) (s : Services) (call : ClientCall) :
    (ClientResult × Option Bytes) × Services :=
  match call with
  | .createNode path data type =>
      let (resp, s') := s.createNode sessionId path data (.ofInt32 type)
      ((orWarn resp.success true false call.format resp.errmsg).map .flag id, s')
  | .getNode path =>
      let resp := s.getNode path
      ((orWarn resp.success resp.nodeData [] call.format resp.errmsg).map .data id, s)
  | .setNode path data =>
      let (resp, s') := s.setNode path data
      ((orWarn resp.success true false call.format resp.errmsg).map .flag id, s')
  | .deleteNode path =>
      let (resp, s') := s.deleteNode path
      ((orWarn resp.success true false call.format resp.errmsg).map .flag id, s')
  | .lsNode path =>
      let resp := s.lsNode path
      ((orWarn resp.success resp.children [] call.format resp.errmsg).map .children id, s)
  | .statNode path =>
      let resp := s.statNode path
      ((orWarn resp.success (resp.state.getD {}) {} call.format resp.errmsg).map .state id, s)
  | .existsNode path =>
      let resp := s.existsNode path
      ((orWarn resp.success resp.exist uninit call.format resp.errmsg).map .flag id, s)

/-- The messages of this call fit. -/
def Carried (c : SRCCLient) (s : Services) : ClientCall → Prop
  | .createNode path data type => c.Carries .Create
      ({ path := path, nodeData := data, nodeType := .ofInt32 type } : CreateNodeRequest)
      (s.createNode c.m_sessionId path data (.ofInt32 type)).1
  | .getNode path => c.Carries .Get ({ path := path } : GetNodeRequest) (s.getNode path)
  | .setNode path data => c.Carries .Set
      ({ path := path, nodeData := data } : SetNodeRequest) (s.setNode path data).1
  | .deleteNode path =>
      c.Carries .Delete ({ path := path } : DeleteNodeRequest) (s.deleteNode path).1
  | .lsNode path => c.Carries .Ls ({ path := path } : LsNodeRequest) (s.lsNode path)
  | .statNode path => c.Carries .Stat ({ path := path } : StatNodeRequest) (s.statNode path)
  | .existsNode path =>
      c.Carries .Exists ({ path := path } : ExistsNodeRequest) (s.existsNode path)

/-- The client returns the outcome of the service, whatever the memory holds, and the server
has done what the service does. -/
def AnsweredRight (env : Environment) (peerAddress : InetAddress) (c : SRCCLient)
    (s : SRCServer) (call : ClientCall) : Prop :=
  ∀ (uninit : Bool) (leftover : WrappedResponse),
    c.call (s.answer env peerAddress) leftover uninit call =
      (some (call.outcome c.m_sessionId s.services).1,
        { s with services := (call.outcome c.m_sessionId s.services).2 })

end ClientCall

/-! ## There and back -/

namespace SRCCLient

section
variable {α : Type} (success : Bool) (result failed : α) (format errmsg : Bytes)

theorem orWarn_fst :
    (orWarn success result failed format errmsg).1 = if success then result else failed :=
  apply_ite Prod.fst _ _ _

theorem orWarn_flag : (orWarn success true false format errmsg).1 = success := by
  cases success with
  | false => rfl
  | true => rfl

theorem orWarn_snd :
    (orWarn success result failed format errmsg).2 =
      (if success then none else some errmsg).map (Logger.snprintf format) := by
  cases success with
  | false => rfl
  | true => rfl

end

theorem le_intMax {n : Nat} (h : n ≤ maxSize) : n ≤ 2 ^ 31 - 1 :=
  h.trans (by norm_num [maxSize])

theorem le_maxSize {n : Nat} (h : n ≤ BUF_SIZE) : n ≤ maxSize :=
  h.trans (by norm_num [BUF_SIZE, maxSize])

section
variable {Req Resp : Type} [Message Req] [Message Resp] {c : SRCCLient} {type : ServiceType}
  {req : Req} {resp : Resp}

theorem Carries.length_req (h : c.Carries type req resp) : (encoded req).length ≤ maxSize := by
  refine le_trans ?_ h.request
  show _ ≤ (encodeFields (varintField 1 _ ++ bytesField 2 (encoded req) ++ _)).length
  -- The parameters are one field among others.
  rw [length_encodeFields_append]
  exact (length_le_bytesField _ 2 (encoded req)).trans (Nat.le_add_right _ _)

theorem Carries.length_serviceResponse (h : c.Carries type req resp) :
    (encoded (serviceResponse type resp)).length ≤ BUF_SIZE := by
  refine le_trans ?_ h.response
  show _ ≤ (encodeFields (varintField 1 _ ++ bytesField 2 (encoded _))).length
  exact length_le_bytesField _ 2 _

theorem Carries.length_resp (h : c.Carries type req resp) : (encoded resp).length ≤ BUF_SIZE := by
  refine le_trans ?_ h.length_serviceResponse
  show _ ≤ (encodeFields (varintField 1 _ ++ bytesField 2 (encoded resp))).length
  exact length_le_bytesField _ 2 _

/-- The wrapping takes no more than the bytes that a field leaves free. -/
theorem length_wrapped {parameters : Bytes} (h : parameters.length ≤ maxSize) :
    (encoded ({ requestType := .Service, requestParameters := parameters } :
      WrappedRequest)).length ≤ 2 ^ 31 - 1 := by
  have htype : (encodeFields (varintField 1 (int32ToVarint 2))).length = 2 := by rfl
  have hbytes := (length_bytesField 2 parameters).2
  show (encodeFields (varintField 1 (int32ToVarint 2) ++ bytesField 2 parameters)).length ≤ _
  rw [length_encodeFields_append, htype]
  rw [maxSize] at h
  omega

/-- The server reads the request that the client has sent. -/
theorem Carries.parse_request (h : c.Carries type req resp) :
    ParseFromString WrappedRequest (c.wrappedServiceString (SerializeAsString req) type) =
      some {
        requestType := .Service
        requestParameters := encoded (c.serviceRequest type req) } := by
  have hsreq : SerializeAsString (c.serviceRequest type req) =
      encoded (c.serviceRequest type req) := serialize_eq_encoded (le_intMax h.request)
  have hstring : c.wrappedServiceString (encoded req) type = SerializeAsString ({
      requestType := .Service
      requestParameters := encoded (c.serviceRequest type req) } : WrappedRequest) := by
    rw [← hsreq]
    rfl
  rw [serialize_eq_encoded (le_intMax h.length_req), hstring]
  exact WrappedRequest.parse_of_size h.request (length_wrapped h.request)

/-- What the server sends for a response. -/
theorem Carries.serialize_response (h : c.Carries type req resp) :
    SerializeAsString ({
      responseType := .Service
      data := SerializeAsString ({
        serviceType := type
        data := SerializeAsString resp } : ServiceResponse) } : WrappedResponse) =
      encoded (wrappedResponse type resp) := by
  have hsresp : SerializeAsString (serviceResponse type resp) =
      encoded (serviceResponse type resp) :=
    serialize_eq_encoded (le_intMax (le_maxSize h.length_serviceResponse))
  rw [serialize_eq_encoded (le_intMax (le_maxSize h.length_resp))]
  show SerializeAsString ({
    responseType := .Service
    data := SerializeAsString (serviceResponse type resp) } : WrappedResponse) = _
  rw [hsresp]
  exact serialize_eq_encoded (le_intMax (le_maxSize h.response))

/-- The client takes the response out of the bytes that the server has sent. -/
theorem Carries.receiveData (h : c.Carries type req resp) (leftover : WrappedResponse) :
    SRCCLient.receiveData leftover (encoded (wrappedResponse type resp)) =
      some (encoded resp) := by
  have hwrapped := parse_encoded (le_maxSize h.response)
  have hservice := parse_encoded (le_maxSize h.length_serviceResponse)
  rw [SRCCLient.receiveData, List.take_of_length_le h.response, hwrapped]
  show (ParseFromString ServiceResponse (encoded (serviceResponse type resp))).map _ = _
  rw [hservice]
  rfl

/-- The service request of the client comes to its handler, which runs the service, and the
response comes back. -/
theorem callService_answer [LawfulMessage Req] [LawfulMessage Resp] {Result : Type}
    (env : Environment) (peerAddress : InetAddress) {s : SRCServer} (parseError : Resp)
    (service : Services → Req → Resp × Services)
    (hhandle : s.services.handle type (SerializeAsString req) c.m_sessionId =
      Services.handler parseError service s.services (SerializeAsString req))
    (h : c.Carries type req (service s.services req).1) (leftover : WrappedResponse)
    (read : Resp → Result) :
    c.callService (s.answer env peerAddress) leftover type req read =
      (some (read (service s.services req).1),
        { s with services := (service s.services req).2 }) := by
  have hreq : SerializeAsString req = encoded req := serialize_eq_encoded (le_intMax h.length_req)
  -- The handler reads the request and runs the service.
  have hhandle : s.services.handle type (encoded req) c.m_sessionId =
      (SerializeAsString (service s.services req).1, (service s.services req).2) := by
    rw [← hreq, hhandle, hreq, Services.handler, parse_encoded h.length_req]
  -- The server reads the service request, and the table leads to the handler.
  have hservice : s.onServiceRequest (encoded (c.serviceRequest type req)) =
      ({ responseType := .Service
         data := SerializeAsString ({
           serviceType := type
           data := SerializeAsString (service s.services req).1 } : ServiceResponse) },
        { s with services := (service s.services req).2 }) := by
    rw [SRCServer.onServiceRequest, parse_encoded h.request]
    simp only [serviceRequest, hhandle]
  -- What the server sends is the wrapped response.
  have hanswer : s.answer env peerAddress
      (c.wrappedServiceString (SerializeAsString req) type) =
        (encoded (wrappedResponse type (service s.services req).1),
          { s with services := (service s.services req).2 }) := by
    rw [SRCServer.answer, SRCServer.onData, h.parse_request]
    show (let (resp, s') := s.onServiceRequest (encoded (c.serviceRequest type req))
      (SerializeAsString resp, s')) = _
    rw [hservice, ← h.serialize_response]
  rw [callService, hanswer]
  -- The client reads the response.
  show ((SRCCLient.receiveData leftover _).bind _, _) = _
  rw [h.receiveData leftover]
  show ((ParseFromString Resp (encoded (service s.services req).1)).map read, _) = _
  rw [parse_encoded (le_maxSize h.length_resp)]
  rfl

end

end SRCCLient

/-! ## The seven operations -/

namespace ClientCall

variable {c : SRCCLient} {s : SRCServer}

/-- A call returns and logs what it makes of the answer of the service. -/
theorem callLogged_answer (env : Environment) (peerAddress : InetAddress) (call : ClientCall)
    (hcarried : call.Carried c s.services) (uninit : Bool) (leftover : WrappedResponse) :
    c.callLogged (s.answer env peerAddress) leftover uninit call =
      (some (call.returned c.m_sessionId uninit s.services).1,
        { s with services := (call.returned c.m_sessionId uninit s.services).2 }) := by
  cases call with
  -- In each case the handler in the table is the one of the operation.
  | createNode path data type =>
      rw [SRCCLient.callLogged, SRCCLient.createNode, SRCCLient.callService_answer env peerAddress _
        (fun s (req : CreateNodeRequest) =>
          s.createNode c.m_sessionId req.path req.nodeData req.nodeType) rfl hcarried leftover]
      rfl
  | getNode path =>
      rw [SRCCLient.callLogged, SRCCLient.getNode, SRCCLient.callService_answer env peerAddress _
        (fun s (req : GetNodeRequest) => (s.getNode req.path, s)) rfl hcarried leftover]
      rfl
  | setNode path data =>
      rw [SRCCLient.callLogged, SRCCLient.setNode, SRCCLient.callService_answer env peerAddress _
        (fun s (req : SetNodeRequest) => s.setNode req.path req.nodeData) rfl hcarried leftover]
      rfl
  | deleteNode path =>
      rw [SRCCLient.callLogged, SRCCLient.deleteNode, SRCCLient.callService_answer env peerAddress _
        (fun s (req : DeleteNodeRequest) => s.deleteNode req.path) rfl hcarried leftover]
      rfl
  | lsNode path =>
      rw [SRCCLient.callLogged, SRCCLient.lsNode, SRCCLient.callService_answer env peerAddress _
        (fun s (req : LsNodeRequest) => (s.lsNode req.path, s)) rfl hcarried leftover]
      rfl
  | statNode path =>
      rw [SRCCLient.callLogged, SRCCLient.statNode, SRCCLient.callService_answer env peerAddress _
        (fun s (req : StatNodeRequest) => (s.statNode req.path, s)) rfl hcarried leftover]
      rfl
  | existsNode path =>
      rw [SRCCLient.callLogged, SRCCLient.existsNode, SRCCLient.callService_answer env peerAddress _
        (fun s (req : ExistsNodeRequest) => (s.existsNode req.path, s)) rfl hcarried leftover]
      rfl

/-- What a call returns. -/
theorem call_returned (env : Environment) (peerAddress : InetAddress) (call : ClientCall)
    (hcarried : call.Carried c s.services) (uninit : Bool) (leftover : WrappedResponse) :
    c.call (s.answer env peerAddress) leftover uninit call =
      (some (call.returned c.m_sessionId uninit s.services).1.1,
        { s with services := (call.returned c.m_sessionId uninit s.services).2 }) := by
  rw [SRCCLient.call, callLogged_answer env peerAddress call hcarried]
  rfl

/-- An operation other than `existsNode` sets its result on each path through it. -/
theorem call_answer (env : Environment) (peerAddress : InetAddress) {call : ClientCall}
    (hcall : ∀ path, call ≠ .existsNode path) (hcarried : call.Carried c s.services)
    (uninit : Bool) (leftover : WrappedResponse) :
    c.call (s.answer env peerAddress) leftover uninit call =
      (some (call.outcome c.m_sessionId s.services).1,
        { s with services := (call.outcome c.m_sessionId s.services).2 }) := by
  rw [call_returned env peerAddress call hcarried]
  cases call with
  | existsNode path => exact absurd rfl (hcall path)
  | _ => simp [returned, outcome, SRCCLient.orWarn_fst]

/-- `existsNode` returns what the memory holds when the server does not succeed. -/
theorem existsNode_answer (env : Environment) (peerAddress : InetAddress) {path : Bytes}
    (hcarried : (existsNode path).Carried c s.services) (uninit : Bool)
    (leftover : WrappedResponse) :
    c.call (s.answer env peerAddress) leftover uninit (.existsNode path) =
      (some (.flag (if (s.services.existsNode path).success then
        (s.services.existsNode path).exist else uninit)), s) := by
  rw [call_returned env peerAddress (existsNode path) hcarried, returned, Prod.map_fst,
    SRCCLient.orWarn_fst]

/-- The service succeeds on the paths that it does not reject. -/
theorem success_existsNode (services : Services) (path : Bytes) :
    (services.existsNode path).success = true ↔ Services.splitPath path ≠ [] := by
  rw [Services.existsNode]
  by_cases hnil : Services.splitPath path = []
  · simp [hnil]
  · simp [hnil]

/-- When the messages of a call fit, the client agrees with the service on the store of the
server exactly when the call is not an `existsNode` of a path that the server rejects. -/
theorem answeredRight_iff (env : Environment) (peerAddress : InetAddress) (call : ClientCall)
    (hcarried : call.Carried c s.services) :
    call.AnsweredRight env peerAddress c s ↔
      ∀ path, call = .existsNode path → Services.splitPath path ≠ [] := by
  constructor
  -- A rejected path: the server does not succeed, and the result is not set.
  · rintro hright path rfl hnil
    -- The memory may hold `true`.
    have hanswer := hright true {}
    rw [existsNode_answer env peerAddress hcarried] at hanswer
    have hfailed : (s.services.existsNode path).success = false := by
      rw [Services.existsNode, if_pos hnil]
    have hflag := congrArg Prod.fst hanswer
    rw [hfailed] at hflag
    simp [outcome, hfailed] at hflag
  -- Any other call sets its result.
  · intro hpaths uninit leftover
    by_cases hcall : ∃ path, call = .existsNode path
    · obtain ⟨path, rfl⟩ := hcall
      have hsuccess := (success_existsNode s.services path).mpr (hpaths path rfl)
      rw [existsNode_answer env peerAddress hcarried, if_pos hsuccess]
      simp [outcome, hsuccess]
    · exact call_answer env peerAddress (fun path heq => hcall ⟨path, heq⟩) hcarried uninit leftover

/-- A client asks a new server whether the root exists. -/
theorem answeredRight_iff_root :
    (existsNode (bytes "/")).AnsweredRight { now := fun _ => 0, generateSessionId := fun _ => 7 }
      { octets := (127, 0, 0, 1), port := 4000 } (.new 8888 7) (.init 12000 5) := by
  have hcarried : (existsNode (bytes "/")).Carried (.new 8888 7) Services.init :=
    ⟨by decide, by decide⟩
  refine (answeredRight_iff _ _ (existsNode (bytes "/")) hcarried).mpr fun path hpath => ?_
  cases hpath
  decide

/-- A path with an empty component inside. -/
theorem not_answeredRight_emptyComponent :
    ¬ (existsNode (bytes "/a//b")).AnsweredRight
      { now := fun _ => 0, generateSessionId := fun _ => 7 }
      { octets := (127, 0, 0, 1), port := 4000 } (.new 8888 7) (.init 12000 5) := by
  intro hright
  have hcarried : (existsNode (bytes "/a//b")).Carried (.new 8888 7) Services.init :=
    ⟨by decide, by decide⟩
  have hanswer := hright true {}
  rw [existsNode_answer _ _ hcarried] at hanswer
  have hflag := congrArg Prod.fst hanswer
  have hfailed : (Services.init.existsNode (bytes "/a//b")).success = false := by decide
  simp [outcome, SRCServer.init, hfailed] at hflag

end ClientCall

end RegistrationCenter
