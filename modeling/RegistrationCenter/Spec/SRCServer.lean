import RegistrationCenter.Spec.HeartbeatCounter
import RegistrationCenter.Spec.Services
import RegistrationCenter.Spec.SessionManager
import RegistrationCenter.Spec.Tcp.Buffer

/-!
# `RegistrationCenter.Spec.SRCServer`: the server

`src/SRCServer.h` and `src/SRCServer.cpp`: what the server does with a request, with a
heartbeat and with a session whose heartbeats stay away. The state has the sessions, the
heartbeat counter and the store, which is a singleton of the process.

`Environment` has what the server takes from outside: the readings of the clock and the
session ids of `UUID4::generateSessionId`, each in the order they are taken.
-/

set_option autoImplicit false

namespace RegistrationCenter

structure Environment where
  now : Nat → Int
  generateSessionId : Nat → UInt64

structure SRCServer where
  m_sessionManager : SessionManager
  m_heartbeatCounter : HeartbeatCounter
  services : Services
  /-- Session ids generated so far. -/
  generated : Nat

namespace SRCServer

/-- The constructor, less the sockets and the threads. -/
def init (timeout max_heartbeat : Int) : SRCServer :=
  { m_sessionManager := .init
    m_heartbeatCounter := .init timeout max_heartbeat
    services := .init
    generated := 0 }

/-- `m_sessionManager.add`. -/
def addSession (s : SRCServer) (sessionId : UInt64) (peerAddress : InetAddress) : SRCServer :=
  { s with m_sessionManager := s.m_sessionManager.add sessionId peerAddress }

/-- `m_heartbeatCounter.push`. -/
def pushSession (env : Environment) (s : SRCServer) (sessionId : UInt64) : SRCServer :=
  { s with m_heartbeatCounter := s.m_heartbeatCounter.push env.now sessionId }

/-- The branch of `onMessage` for a connection request. -/
def onConnectionRequest (env : Environment) (s : SRCServer) (peerAddress : InetAddress) :
    WrappedResponse × SRCServer :=
  let sessionId := env.generateSessionId s.generated
  let s₁ := { s with generated := s.generated + 1 }
  let connRes : ConnectionResponse := { sessionId := sessionId }
  ({ responseType := .Connection, data := SerializeAsString connRes },
    (s₁.addSession sessionId peerAddress).pushSession env sessionId)

/-- The branch of `onMessage` for a service request. -/
def onServiceRequest (s : SRCServer) (requestParameters : Bytes) : WrappedResponse × SRCServer :=
  match ParseFromString ServiceRequest requestParameters with
  | none => ({ responseType := .Error, data := bytes "service request parse error" }, s)
  | some serviceRequest =>
      -- The session id is the one that the request names; it is not looked up.
      let (serviceResp, services) := s.services.handle serviceRequest.serviceType
        serviceRequest.serviceParameters serviceRequest.sessionId
      let serviceResponse : ServiceResponse :=
        { serviceType := serviceRequest.serviceType, data := serviceResp }
      ({ responseType := .Service, data := SerializeAsString serviceResponse },
        { s with services := services })

/-- What `onMessage` does with a request that it has parsed. -/
def onRequest (env : Environment) (s : SRCServer) (peerAddress : InetAddress)
    (wrappedRequest : WrappedRequest) : WrappedResponse × SRCServer :=
  match wrappedRequest.requestType with
  | .Connection => s.onConnectionRequest env peerAddress
  | .Service => s.onServiceRequest wrappedRequest.requestParameters
  | _ => ({ responseType := .Error, data := bytes "illegal request parameters" }, s)

/-- What `onMessage` does with the bytes it has taken out of the buffer. -/
def onData (env : Environment) (s : SRCServer) (peerAddress : InetAddress) (data : Bytes) :
    WrappedResponse × SRCServer :=
  match ParseFromString WrappedRequest data with
  | none => ({ responseType := .Error, data := bytes "request parse error" }, s)
  | some wrappedRequest => s.onRequest env peerAddress wrappedRequest

/-- `onMessage`: the response that is sent, the buffer and the server after it. -/
def onMessage (env : Environment) (s : SRCServer) (peerAddress : InetAddress) (buffer : Buffer) :
    Bytes × Buffer × SRCServer :=
  let (data, buffer') := buffer.retrieveAllAsString
  let (resp, s') := s.onData env peerAddress data
  (SerializeAsString resp, buffer', s')

/-- `onUDPMessage`. -/
def onUDPMessage (env : Environment) (s : SRCServer) (sessionId : UInt64) : SRCServer :=
  if s.m_sessionManager.exist sessionId then
    { s with m_heartbeatCounter := s.m_heartbeatCounter.reset env.now sessionId }
  else s

/-- `onHeartbeatReachLimit`, which the heartbeat counter calls for each session that dies. -/
def onHeartbeatReachLimit (sessionId : UInt64) (w : SessionManager × Services) :
    SessionManager × Services :=
  (w.1.remove sessionId, w.2.removeEphemeral sessionId)

/-- `m_heartbeatCounter.tick()`, with the callback that the constructor sets. -/
def tick (env : Environment) (s : SRCServer) : SRCServer :=
  -- The callback works on the sessions and the store, not on the counter itself.
  let (counter, sessions, services) := s.m_heartbeatCounter.tick env.now onHeartbeatReachLimit
    (s.m_sessionManager, s.services)
  { s with m_sessionManager := sessions, m_heartbeatCounter := counter, services := services }

end SRCServer

end RegistrationCenter
