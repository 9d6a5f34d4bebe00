import RegistrationCenter.Proofs.Store.Runs
import RegistrationCenter.Proofs.Tcp.Buffer
import RegistrationCenter.Spec.SRCServer

/-!
# `RegistrationCenter.Proofs.Server.Requests`: what a request does to the server

A request can change the state of the server in two ways: a connection request opens a
session, and a service request can make one call on the store. `requestedCall` reads the
call off the bytes of the request. `onData_cases` says that nothing else happens.
-/

set_option autoImplicit false

namespace RegistrationCenter

open Lib

namespace Services

/-- The store call that a service request makes, when its parameters parse. -/
def requestedCall (operation : ServiceType) (str : Bytes) (sessionId : UInt64) :
    Option StoreCall :=
  match operation with
  | .Create => (ParseFromString CreateNodeRequest str).map fun req =>
      .create sessionId req.path req.nodeData req.nodeType
  | .Set => (ParseFromString SetNodeRequest str).map fun req => .set req.path req.nodeData
  | .Delete => (ParseFromString DeleteNodeRequest str).map fun req => .delete req.path
  | _ => none

/-- The store after a handler of a service. -/
theorem handler_snd {Req Resp : Type} [Message Req] [Message Resp] (parseError : Resp)
    (service : Services → Req → Resp × Services) (s : Services) (str : Bytes) :
    (handler parseError service s str).2 =
      ((ParseFromString Req str).map fun req => (service s req).2).getD s := by
  rw [handler]
  cases ParseFromString Req str with
  | none => rfl
  | some req => rfl

/-- A service that only reads leaves the store as it is. -/
theorem handler_read {Req Resp : Type} [Message Req] [Message Resp] (parseError : Resp)
    (service : Services → Req → Resp) (s : Services) (str : Bytes) :
    (handler parseError (fun s req => (service s req, s)) s str).2 = s := by
  rw [handler_snd]
  cases ParseFromString Req str with
  | none => rfl
  | some req => rfl

/-- The store after `handle` is the store after the call that the request makes. -/
theorem handle_snd (s : Services) (operation : ServiceType) (str : Bytes) (sessionId : UInt64) :
    (s.handle operation str sessionId).2 =
      ((requestedCall operation str sessionId).map (storeStep s)).getD s := by
  cases operation with
  -- Three operations change the store.
  | Create =>
      show (s.createNodeHandler str sessionId).2 = _
      rw [createNodeHandler, handler_snd, requestedCall, Option.map_map]
      rfl
  | Set =>
      show (s.setNodeHandler str).2 = _
      rw [setNodeHandler, handler_snd, requestedCall, Option.map_map]
      rfl
  | Delete =>
      show (s.deleteNodeHandler str).2 = _
      rw [deleteNodeHandler, handler_snd, requestedCall, Option.map_map]
      rfl
  -- Four only read.
  | Get => exact handler_read _ (fun s (req : GetNodeRequest) => s.getNode req.path) s str
  | Ls => exact handler_read _ (fun s (req : LsNodeRequest) => s.lsNode req.path) s str
  | Stat => exact handler_read _ (fun s (req : StatNodeRequest) => s.statNode req.path) s str
  | Exists => exact handler_read _ (fun s (req : ExistsNodeRequest) => s.existsNode req.path) s str
  -- An operation without a handler is answered and not served.
  | Nothing_ServiceType => rfl
  | unrecognized v hv => rfl

end Services

namespace SRCServer

variable {s : SRCServer}

/-- The store call that the parameters of a service request ask for. -/
def serviceCall (requestParameters : Bytes) : Option Services.StoreCall :=
  match ParseFromString ServiceRequest requestParameters with
  | none => none
  | some serviceRequest => Services.requestedCall serviceRequest.serviceType
      serviceRequest.serviceParameters serviceRequest.sessionId

/-- The store call that these bytes ask for. -/
def requestedCall (data : Bytes) : Option Services.StoreCall :=
  match ParseFromString WrappedRequest data with
  | none => none
  | some wrappedRequest =>
      if wrappedRequest.requestType = .Service then serviceCall wrappedRequest.requestParameters
      else none

/-- A service request makes its store call, when it asks for one. -/
theorem onServiceRequest_snd (s : SRCServer) (requestParameters : Bytes) :
    (s.onServiceRequest requestParameters).2 = match serviceCall requestParameters with
      | none => s
      | some call => { s with services := Services.storeStep s.services call } := by
  rw [onServiceRequest, serviceCall]
  cases ParseFromString ServiceRequest requestParameters with
  | none => rfl
  | some serviceRequest =>
      have hhandle := s.services.handle_snd serviceRequest.serviceType
        serviceRequest.serviceParameters serviceRequest.sessionId
      simp only [hhandle]
      cases Services.requestedCall serviceRequest.serviceType serviceRequest.serviceParameters
        serviceRequest.sessionId with
      | none => rfl
      | some call => rfl

/-- A request makes its store call, or opens a session, or changes nothing. -/
theorem onData_cases (env : Environment) (s : SRCServer) (peerAddress : InetAddress)
    (data : Bytes) :
    (∃ call, requestedCall data = some call ∧
      (s.onData env peerAddress data).2 =
        { s with services := Services.storeStep s.services call }) ∨
    (requestedCall data = none ∧
      ((s.onData env peerAddress data).2 = s ∨
        (s.onData env peerAddress data).2 = (s.onConnectionRequest env peerAddress).2)) := by
  rw [onData, requestedCall]
  cases ParseFromString WrappedRequest data with
  -- Bytes that do not parse are answered with an error.
  | none => exact Or.inr ⟨rfl, Or.inl rfl⟩
  | some wrappedRequest =>
      simp only [onRequest]
      cases wrappedRequest.requestType with
      | Connection => exact Or.inr ⟨rfl, Or.inr rfl⟩
      | Service =>
          simp only [onServiceRequest_snd, if_true]
          cases serviceCall wrappedRequest.requestParameters with
          -- No store call: a read, or parameters that do not parse.
          | none => exact Or.inr ⟨rfl, Or.inl rfl⟩
          | some call => exact Or.inl ⟨call, rfl, rfl⟩
      | Nothing_MessageType => exact Or.inr ⟨rfl, Or.inl rfl⟩
      | Error => exact Or.inr ⟨rfl, Or.inl rfl⟩
      | unrecognized v hv => exact Or.inr ⟨rfl, Or.inl rfl⟩

/-- `onMessage` serves the bytes that wait in the buffer, and takes them all. -/
theorem onMessage_eq (env : Environment) (s : SRCServer) (peerAddress : InetAddress)
    (buffer : Buffer) :
    s.onMessage env peerAddress buffer =
      (SerializeAsString (s.onData env peerAddress buffer.readable).1,
        buffer.retrieveAllAsString.2, (s.onData env peerAddress buffer.readable).2) := by
  have hread : buffer.retrieveAllAsString.1 = buffer.readable := rfl
  simp only [onMessage, hread]

end SRCServer

end RegistrationCenter
