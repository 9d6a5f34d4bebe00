import RegistrationCenter.Spec.Tcp.Logger

/-!
# `RegistrationCenter.Spec.SRCCLient`: the client

`src/client/src_client.h` and `src/client/src_client.cpp`: `connect`, `disconnect` and the
heartbeat threads, and the seven operations. `connect` starts a thread and detaches it. The
thread captures the client by its pointer: it reads `m_sessionId` when it starts, to make the
datagram, and again before each round. Its steps are the reads of the shared field and the
sends, with any steps of the others in between.
-/

set_option autoImplicit false

namespace RegistrationCenter

/-- Where a heartbeat thread stands. It makes the string to send once, when it starts. -/
inductive HeartbeatPhase
  | starting
  | testing (sendstr : Bytes)
  | sending (sendstr : Bytes)
  | sleeping (sendstr : Bytes)
  | finished
  deriving DecidableEq

/-- A heartbeat thread, with its copy of the address of the server. -/
structure HeartbeatThread where
  serverAddr : Bytes × UInt16
  phase : HeartbeatPhase
  deriving DecidableEq

/-- What `sendto` sends, and where. -/
structure Datagram where
  serverAddr : Bytes × UInt16
  sendstr : Bytes
  deriving DecidableEq

structure SRCCLient where
  m_isConnected : Bool
  m_serverIp : Bytes
  m_serverPort : UInt16
  m_sessionId : UInt64
  /-- The heartbeat threads ever started. -/
  threads : List HeartbeatThread
  deriving DecidableEq

namespace SRCCLient

/-- The constructor. It leaves the port and the session id as they are in memory. -/
def new (serverPort : UInt16) (sessionId : UInt64) : SRCCLient :=
  { m_isConnected := false
    m_serverIp := []
    m_serverPort := serverPort
    m_sessionId := sessionId
    threads := [] }

/-- `connect`, with the response that it reads from the server. A response that is an error,
or that has no session id where it should, ends the process. -/
def connect (c : SRCCLient) (ip : Bytes) (port : UInt16) (res : WrappedResponse) :
    Option (Bool × SRCCLient) :=
  if c.m_isConnected then some (false, c)
  else
    let started (sessionId : UInt64) : SRCCLient :=
      { m_isConnected := true
        m_serverIp := ip
        m_serverPort := port
        m_sessionId := sessionId
        threads := c.threads ++ [{ serverAddr := (ip, port), phase := .starting }] }
    match res.responseType with
    | .Connection =>
        match ParseFromString ConnectionResponse res.data with
        | some resp => some (true, started resp.sessionId)
        -- `LOG_FATAL` ends the process.
        | none => none
    | .Error => none
    -- Any other type keeps the session id, and the thread is started all the same.
    | _ => some (true, started c.m_sessionId)

/-- `disconnect`. -/
def disconnect (c : SRCCLient) : SRCCLient :=
  if !c.m_isConnected then c
  else { c with m_isConnected := false, m_serverIp := [], m_serverPort := 0, m_sessionId := 0 }

/-- The string that a heartbeat thread makes of a session id. -/
def heartbeatString (sessionId : UInt64) : Bytes :=
  SerializeAsString ({ sessionId := sessionId } : HeartbeatMessage)

/-- The next step of a thread that stands in this phase, while the session id is `sessionId`:
the string that it sends, if it sends one, and its next phase. -/
def nextPhase (sessionId : UInt64) : HeartbeatPhase → Option Bytes × HeartbeatPhase
  | .starting => (none, .testing (heartbeatString sessionId))
  | .testing sendstr => (none, if sessionId ≠ 0 then .sending sendstr else .finished)
  | .sending sendstr => (some sendstr, .sleeping sendstr)
  | .sleeping sendstr => (none, .testing sendstr)
  | .finished => (none, .finished)

/-- The next step of the heartbeat thread number `i`. -/
def heartbeatThread (c : SRCCLient) (i : Nat) : Option Datagram × SRCCLient :=
  match c.threads[i]? with
  | none => (none, c)
  | some t =>
      let (sent, phase) := nextPhase c.m_sessionId t.phase
      (sent.map fun sendstr => { serverAddr := t.serverAddr, sendstr := sendstr },
        { c with threads := c.threads.set i { t with phase := phase } })

/-! ### The seven operations

Each operation makes a socket, sends a request and reads the response. `exchange` stands for
the server and the network between: the bytes that the socket has for the client when these
bytes are sent, and the state of the server then. A result of `none` is a process that
`LOG_FATAL` has ended. -/

/-- `BUF_SIZE`. -/
def BUF_SIZE : Nat := 65536

/-- `wrappedServiceString`. -/
def wrappedServiceString (c : SRCCLient) (requestStr : Bytes) (type : ServiceType) : Bytes :=
  let sreq : ServiceRequest :=
    { serviceType := type, sessionId := c.m_sessionId, serviceParameters := requestStr }
  let wreq : WrappedRequest :=
    { requestType := .Service, requestParameters := SerializeAsString sreq }
  SerializeAsString wreq

/-- `receiveData`, with the bytes that the socket has. One `read` takes those that fit in the
buffer. Whether they parse is not looked at: `leftover` is what a failed parse leaves in the
response. -/
def receiveData (leftover : WrappedResponse) (stream : Bytes) : Option Bytes :=
  let buf := stream.take BUF_SIZE
  let wres := (ParseFromString WrappedResponse buf).getD leftover
  match wres.responseType with
  | .Error => none
  | .Service => (ParseFromString ServiceResponse wres.data).map fun sres => sres.data
  | _ => some []

/-- What the operations have in common: the request is wrapped and sent, and the response is
received, parsed and turned into a result. -/
def callService {Req Resp Result σ : Type} [Message Req] [Message Resp] (c : SRCCLient)
    (exchange : Bytes → Bytes × σ) (leftover : WrappedResponse) (type : ServiceType) (req : Req)
    (read : Resp → Result) : Option Result × σ :=
  let tobeSend := c.wrappedServiceString (SerializeAsString req) type
  let (stream, server) := exchange tobeSend
  ((receiveData leftover stream).bind fun receiveStr =>
    (ParseFromString Resp receiveStr).map read, server)

/-- What an operation returns, and the text that it logs with `LOG_WARN` when the response is not a
success. -/
def orWarn {α : Type} (success : Bool) (result failed : α) (format errmsg : Bytes) :
    α × Option Bytes :=
  if success then (result, none) else (failed, some (Logger.snprintf format errmsg))

section
variable {σ : Type} (c : SRCCLient) (exchange : Bytes → Bytes × σ) (leftover : WrappedResponse)

/-- `createNode`. The type is cast, whatever number it is. -/
def createNode (path data : Bytes) (type : Int32) : Option (Bool × Option Bytes) × σ :=
  c.callService exchange leftover .Create
    ({ path := path, nodeData := data, nodeType := .ofInt32 type } : CreateNodeRequest)
    fun resp : CreateNodeResponse =>
      orWarn resp.success true false (utf8 "创建节点失败: ") resp.errmsg

/-- `getNode`. -/
def getNode (path : Bytes) : Option (Bytes × Option Bytes) × σ :=
  c.callService exchange leftover .Get ({ path := path } : GetNodeRequest)
    fun resp : GetNodeResponse =>
      orWarn resp.success resp.nodeData [] (utf8 "获取节点失败: ") resp.errmsg

/-- `setNode`. -/
def setNode (path data : Bytes) : Option (Bool × Option Bytes) × σ :=
  c.callService exchange leftover .Set ({ path := path, nodeData := data } : SetNodeRequest)
    fun resp : SetNodeResponse =>
      orWarn resp.success true false (utf8 "设置节点失败: ") resp.errmsg

/-- `deleteNode`. -/
def deleteNode (path : Bytes) : Option (Bool × Option Bytes) × σ :=
  c.callService exchange leftover .Delete ({ path := path } : DeleteNodeRequest)
    fun resp : DeleteNodeResponse =>
      orWarn resp.success true false (utf8 "删除节点失败: ") resp.errmsg

/-- `lsNode`. -/
def lsNode (path : Bytes) : Option (List Bytes × Option Bytes) × σ :=
  c.callService exchange leftover .Ls ({ path := path } : LsNodeRequest)
    fun resp : LsNodeResponse =>
      orWarn resp.success resp.children [] (utf8 "列举节点失败: ") resp.errmsg

/-- `statNode`. A response without a state gives the default one. -/
def statNode (path : Bytes) : Option (NodeState × Option Bytes) × σ :=
  c.callService exchange leftover .Stat ({ path := path } : StatNodeRequest)
    fun resp : StatNodeResponse =>
      orWarn resp.success (resp.state.getD {}) {} (utf8 "获取节点状态失败: ") resp.errmsg

/-- `existsNode`. Its result has no initial value: `uninit` is what the memory holds. -/
def existsNode (uninit : Bool) (path : Bytes) : Option (Bool × Option Bytes) × σ :=
  c.callService exchange leftover .Exists ({ path := path } : ExistsNodeRequest)
    fun resp : ExistsNodeResponse =>
      orWarn resp.success resp.exist uninit (utf8 "获取节点存在失败: ") resp.errmsg

end

end SRCCLient

end RegistrationCenter
