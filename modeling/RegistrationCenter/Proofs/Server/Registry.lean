import RegistrationCenter.Lib.Refinement
import RegistrationCenter.Proofs.Heartbeat.Readings
import RegistrationCenter.Proofs.Server.SessionTable

/-!
# `RegistrationCenter.Proofs.Server.Registry`: the server is a registration center

`Registry` is what the server is for: a map from paths to entries, and the live sessions, each
with the number of periods that it has missed in a row and the end of the period that runs.
`Registry.Next` says what a demand, a heartbeat and a tick do to it, between two moments, and
what is answered. It knows of no trees, pointers or heaps. It leaves open the order in which the
children of a node are listed, and which of the sessions whose period ends within the tick
are counted.

Each state of the server stands for a registry (`SRCServer.registry`), and each step of the
server is a step of the registry (`next_registry`). So each run is one of the registry, with
the same responses: `server_refines_registry`.
-/

set_option autoImplicit false

namespace RegistrationCenter

open Lib

/-! ## The registry -/

/-- A live session: the periods it has missed in a row, and the end of the one that runs. -/
structure LiveSession where
  missed : Int
  expires : Int

/-- The period of the session has run out at the moment, to the millisecond. -/
def LiveSession.Over (now : Int) (l : LiveSession) : Prop := l.expires < now + MS 1

structure Registry where
  nodes : NodeMap
  sessions : UInt64 → Option LiveSession

/-- The operation of a request. -/
def Request.type : Request → ServiceType
  | .createNode _ _ _ _ => .Create
  | .getNode _ => .Get
  | .setNode _ _ => .Set
  | .deleteNode _ => .Delete
  | .lsNode _ => .Ls
  | .statNode _ => .Stat
  | .existsNode _ => .Exists

/-- The request that these parameters are, when there are such an operation and such parameters. -/
def Request.parse (operation : ServiceType) (str : Bytes) (sessionId : UInt64) : Option Request :=
  match operation with
  | .Create => (ParseFromString CreateNodeRequest str).map fun req =>
      .createNode sessionId req.path req.nodeData req.nodeType
  | .Get => (ParseFromString GetNodeRequest str).map fun req => .getNode req.path
  | .Set => (ParseFromString SetNodeRequest str).map fun req => .setNode req.path req.nodeData
  | .Delete => (ParseFromString DeleteNodeRequest str).map fun req => .deleteNode req.path
  | .Ls => (ParseFromString LsNodeRequest str).map fun req => .lsNode req.path
  | .Stat => (ParseFromString StatNodeRequest str).map fun req => .statNode req.path
  | .Exists => (ParseFromString ExistsNodeRequest str).map fun req => .existsNode req.path
  | .Nothing_ServiceType => none
  | .unrecognized _ _ => none

/-- The bytes of a response. -/
def Response.serialize : Response → Bytes
  | .createNode r => SerializeAsString r
  | .getNode r => SerializeAsString r
  | .setNode r => SerializeAsString r
  | .deleteNode r => SerializeAsString r
  | .lsNode r => SerializeAsString r
  | .statNode r => SerializeAsString r
  | .existsNode r => SerializeAsString r

/-- What the bytes of a message ask for. -/
inductive Demand
  /-- A new session. -/
  | connection
  | service (request : Request)
  /-- A service request of a known or an unknown operation, whose parameters do not parse. -/
  | unreadable (operation : ServiceType)
  /-- No request at all, for this reason. -/
  | refused (reason : Bytes)

def Demand.parse (data : Bytes) : Demand :=
  match ParseFromString WrappedRequest data with
  | none => .refused (bytes "request parse error")
  | some wrapped =>
      match wrapped.requestType with
      | .Connection => .connection
      | .Service =>
          match ParseFromString ServiceRequest wrapped.requestParameters with
          | none => .refused (bytes "service request parse error")
          | some serviceRequest =>
              match Request.parse serviceRequest.serviceType serviceRequest.serviceParameters
                serviceRequest.sessionId with
              | some request => .service request
              | none => .unreadable serviceRequest.serviceType
      | _ => .refused (bytes "illegal request parameters")

namespace Registry

/-- What happens to the registry. -/
inductive Event
  | message (demand : Demand)
  | heartbeat (sessionId : UInt64)
  | tick

/-- What is seen of a step: the event, the moments of its first clock reading (or the next one after
it, when it takes none) and of the first reading after it, the session id that is handed out when
one is asked for, and the response. -/
structure Label where
  event : Event
  start : Int
  stop : Int
  sessionId : UInt64
  response : Option Bytes

/-- The registry with the root and without sessions. -/
def init : Registry := { nodes := .init, sessions := fun _ => none }

/-- The response that hands out a session id. -/
def connectionResponse (sessionId : UInt64) : WrappedResponse :=
  let response : ConnectionResponse := { sessionId := sessionId }
  { responseType := .Connection, data := SerializeAsString response }

/-- The response to a service request. -/
def serviceResponse (operation : ServiceType) (data : Bytes) : WrappedResponse :=
  let response : ServiceResponse := { serviceType := operation, data := data }
  { responseType := .Service, data := SerializeAsString response }

def errorResponse (reason : Bytes) : WrappedResponse :=
  { responseType := .Error, data := reason }

/-- What is answered to parameters that do not parse. -/
def refusal : ServiceType → Bytes
  | .Create => Response.serialize (.createNode
      { success := false, errmsg := bytes "Create Node Request Parse Error" })
  | .Get => Response.serialize (.getNode
      { success := false, errmsg := bytes "Get Node Request Parse Error" })
  | .Set => Response.serialize (.setNode
      { success := false, errmsg := bytes "Set Node Request Parse Error" })
  | .Delete => Response.serialize (.deleteNode
      { success := false, errmsg := bytes "Delete Node Request Parse Error" })
  | .Ls => Response.serialize (.lsNode
      { success := false, errmsg := bytes "Ls Node Request Parse Error" })
  | .Stat => Response.serialize (.statNode
      { success := false, errmsg := bytes "Stat Node Request Parse Error" })
  | .Exists => Response.serialize (.existsNode
      { success := false, errmsg := bytes "Exists Node Request Parse Error" })
  | .Nothing_ServiceType => bytes "error"
  | .unrecognized _ _ => bytes "error"

/-- The first period of a session, or of a session that has shown itself, runs from `start`. -/
def firstPeriod (period start : Int) : LiveSession := { missed := 0, expires := start + MS period }

/-- The registry with a session under this id, and its first period. -/
def opened (period start : Int) (id : UInt64) (r : Registry) : Registry :=
  { r with sessions := Function.update r.sessions id (some (firstPeriod period start)) }

/-- The registry after a heartbeat: a live session starts again. -/
def beaten (period start : Int) (id : UInt64) (r : Registry) : Registry :=
  let life := (r.sessions id).map fun _ => firstPeriod period start
  { r with sessions := Function.update r.sessions id life }

section
variable (period limit : Int) (due : Set UInt64) [DecidablePred (· ∈ due)] (moment : UInt64 → Int)

/-- What a tick makes of a live session: one of those that are due has missed one period more,
and the next one runs from the given moment. -/
def counted (id : UInt64) (l : LiveSession) : LiveSession :=
  if id ∈ due then { missed := l.missed + 1, expires := moment id + MS period } else l

/-- A session that has missed as many periods as the limit says is dropped. -/
def afterPeriod (id : UInt64) (l : LiveSession) : Option LiveSession :=
  if limit ≤ (counted period due moment id l).missed then none
  else some (counted period due moment id l)

end

open Classical in
/-- The registry after a tick. The session nodes of the dropped sessions go, and what lies
below them. -/
noncomputable def afterTick (period limit : Int) (due : Set UInt64) (moment : UInt64 → Int)
    (r : Registry) : Registry :=
  let sessions := fun id => (r.sessions id).bind (afterPeriod period limit due moment id)
  { nodes := r.nodes.cutWhere fun e =>
      e.type = .EPHEMERAL ∧ (r.sessions e.owner).isSome ∧ sessions e.owner = none
    sessions := sessions }

/-- The sessions that a tick counts: all whose period has run out when it starts, and none whose
period has not run out at the moment from which its next period runs. -/
structure Due (start stop : Int) (r : Registry) (due : Set UInt64) (moment : UInt64 → Int) :
    Prop where
  all : ∀ id l, r.sessions id = some l → l.Over start → id ∈ due
  ranOut : ∀ id ∈ due, ∃ l, r.sessions id = some l ∧ l.Over (moment id)
  moments : ∀ id ∈ due, start ≤ moment id ∧ moment id ≤ stop

/-- What a demand makes of the registry, and the response to it. A session id that is handed
out can be that of a live session, which then starts again. -/
inductive Answered (period start : Int) (sessionId : UInt64) (r : Registry) :
    Demand → WrappedResponse → Registry → Prop
  | connection : Answered period start sessionId r .connection (connectionResponse sessionId)
      (r.opened period start sessionId)
  | service (request : Request) (response : Response)
      (hanswers : r.nodes.Answers request response) :
      Answered period start sessionId r (.service request)
        (serviceResponse request.type response.serialize) { r with nodes := r.nodes.next request }
  | unreadable (operation : ServiceType) :
      Answered period start sessionId r (.unreadable operation)
        (serviceResponse operation (refusal operation)) r
  | refused (reason : Bytes) :
      Answered period start sessionId r (.refused reason) (errorResponse reason) r

/-- A step of the registry, with what is seen of it. -/
inductive Next (period limit : Int) (r : Registry) : Label → Registry → Prop
  | message (start stop : Int) (sessionId : UInt64) (demand : Demand)
      (response : WrappedResponse) (r' : Registry)
      (hanswered : r.Answered period start sessionId demand response r') :
      Next period limit r
        ⟨.message demand, start, stop, sessionId, some (SerializeAsString response)⟩ r'
  | heartbeat (start stop : Int) (sessionId id : UInt64) :
      Next period limit r ⟨.heartbeat id, start, stop, sessionId, none⟩ (r.beaten period start id)
  | tick (start stop : Int) (sessionId : UInt64) (due : Set UInt64) (moment : UInt64 → Int)
      (hdue : r.Due start stop due moment) :
      Next period limit r ⟨.tick, start, stop, sessionId, none⟩
        (r.afterTick period limit due moment)

end Registry

/-! ## The server as a registry -/

namespace Services

/-- The operation of a request is the one it has been parsed for. -/
theorem type_of_parse {operation : ServiceType} {str : Bytes} {sessionId : UInt64}
    {request : Request} (h : Request.parse operation str sessionId = some request) :
    request.type = operation := by
  cases operation with
  | Nothing_ServiceType => cases h
  | unrecognized v hv => cases h
  | _ =>
      obtain ⟨req, -, rfl⟩ := Option.map_eq_some_iff.mp h
      rfl

/-- `handle` parses the request, performs it and serializes the response, or refuses it. -/
theorem handle_eq (s : Services) (operation : ServiceType) (str : Bytes) (sessionId : UInt64) :
    s.handle operation str sessionId =
      match Request.parse operation str sessionId with
      | some request => ((s.perform request).1.serialize, (s.perform request).2)
      | none => (Registry.refusal operation, s) := by
  cases operation with
  | Create =>
      show s.createNodeHandler str sessionId = _
      rw [createNodeHandler, handler, Request.parse]
      cases ParseFromString CreateNodeRequest str with
      | none => rfl
      | some req => rfl
  | Get =>
      show s.getNodeHandler str = _
      rw [getNodeHandler, handler, Request.parse]
      cases ParseFromString GetNodeRequest str with
      | none => rfl
      | some req => rfl
  | Set =>
      show s.setNodeHandler str = _
      rw [setNodeHandler, handler, Request.parse]
      cases ParseFromString SetNodeRequest str with
      | none => rfl
      | some req => rfl
  | Delete =>
      show s.deleteNodeHandler str = _
      rw [deleteNodeHandler, handler, Request.parse]
      cases ParseFromString DeleteNodeRequest str with
      | none => rfl
      | some req => rfl
  | Ls =>
      show s.lsNodeHandler str = _
      rw [lsNodeHandler, handler, Request.parse]
      cases ParseFromString LsNodeRequest str with
      | none => rfl
      | some req => rfl
  | Stat =>
      show s.statNodeHandler str = _
      rw [statNodeHandler, handler, Request.parse]
      cases ParseFromString StatNodeRequest str with
      | none => rfl
      | some req => rfl
  | Exists =>
      show s.existsNodeHandler str = _
      rw [existsNodeHandler, handler, Request.parse]
      cases ParseFromString ExistsNodeRequest str with
      | none => rfl
      | some req => rfl
  | Nothing_ServiceType => rfl
  | unrecognized v hv => rfl

/-- The deaths of some sessions cut their session nodes, in whatever order they come. -/
theorem tree_foldl_removeEphemeral (reached : List UInt64) : ∀ s : Services, s.WellFormed →
    (reached.foldl removeEphemeral s).WellFormed ∧
      (reached.foldl removeEphemeral s).tree =
        s.tree.cutWhere fun e => e.type = .EPHEMERAL ∧ e.owner ∈ reached := by
  induction reached with
  | nil =>
      intro s hs
      refine ⟨hs, ?_⟩
      funext π
      refine Option.ext fun e => ?_
      rw [PathMap.cutWhere_eq_some]
      exact ⟨fun he => ⟨he, fun _ _ _ _ h => List.not_mem_nil h.2⟩, fun h => h.1⟩
  | cons id reached ih =>
      intro s hs
      obtain ⟨hs₁, htree⟩ := removeEphemeral_spec hs id
      obtain ⟨hs', hrest⟩ := ih (s.removeEphemeral id) hs₁
      refine ⟨hs', ?_⟩
      have hfirst : (s.removeEphemeral id).tree =
          s.tree.cutWhere fun e => e.type = .EPHEMERAL ∧ e.owner = id := htree
      rw [List.foldl_cons, hrest, hfirst, PathMap.cutWhere_cutWhere]
      congr 1
      funext e
      rw [← and_or_left, List.mem_cons]

end Services

namespace SRCServer

/-- What this state of the server stands for. -/
def registry (s : SRCServer) : Registry where
  nodes := s.services.tree
  sessions id :=
    (s.m_heartbeatCounter.m_timer.find id).bind fun t =>
      (s.m_heartbeatCounter.m_counter.heap.find id).map fun n =>
        { missed := n.heartbeatCount, expires := t.expires }

/-- The tables of the server fit together, and its settings are these. -/
structure Consistent (timeout max_heartbeat : Int) (s : SRCServer) : Prop where
  store : s.services.WellFormed
  heaps : s.m_heartbeatCounter.Sound
  sessions : ∀ id, s.m_sessionManager.exist id = (s.m_heartbeatCounter.m_timer.find id).isSome
  period : s.m_heartbeatCounter.m_timeout = timeout
  limit : s.m_heartbeatCounter.m_counter.LIMIT = max_heartbeat

/-- The event, as the registry sees it. -/
def Event.demand : Event → Registry.Event
  | .message _ buffer => .message (Demand.parse buffer.readable)
  | .heartbeat sessionId => .heartbeat sessionId
  | .tick => .tick

/-- The bytes that the server sends. -/
def sent (env : Environment) (s : SRCServer) : Event → Option Bytes
  | .message peerAddress buffer => some (s.onMessage env peerAddress buffer).1
  | .heartbeat _ => none
  | .tick => none

/-- What is seen of a step of the server. Each of the two moments is the next clock reading that is
taken, before the step and after it. -/
def label (env : Environment) (s : SRCServer) (event : Event) : Registry.Label where
  event := event.demand
  start := env.now s.m_heartbeatCounter.reads
  stop := env.now (s.step env event).m_heartbeatCounter.reads
  sessionId := env.generateSessionId s.generated
  response := s.sent env event

variable {env : Environment} {s : SRCServer} {timeout max_heartbeat : Int}

theorem consistent_init (timeout max_heartbeat : Int) :
    (init timeout max_heartbeat).Consistent timeout max_heartbeat where
  store := Services.wellFormed_init
  heaps := HeartbeatCounter.sound_init timeout max_heartbeat
  sessions _ := rfl
  period := rfl
  limit := rfl

theorem registry_init (timeout max_heartbeat : Int) :
    (init timeout max_heartbeat).registry = .init := by
  have hnodes : (init timeout max_heartbeat).registry.nodes = NodeMap.init := Services.tree_init
  have hsessions : (init timeout max_heartbeat).registry.sessions = fun _ => none := rfl
  rw [Registry.init, ← hnodes, ← hsessions]

/-- A session is in both heaps or in none. -/
theorem sessions_cases (hs : s.m_heartbeatCounter.Sound) (id : UInt64) :
    (s.registry.sessions id = none ∧ s.m_heartbeatCounter.m_timer.find id = none ∧
      s.m_heartbeatCounter.m_counter.heap.find id = none) ∨
    ∃ t n, s.m_heartbeatCounter.m_timer.find id = some t ∧
      s.m_heartbeatCounter.m_counter.heap.find id = some n ∧
      s.registry.sessions id = some { missed := n.heartbeatCount, expires := t.expires } := by
  have hsame := hs.same id
  show ((s.m_heartbeatCounter.m_timer.find id).bind _ = none ∧ _) ∨
    ∃ t n, _ ∧ _ ∧ (s.m_heartbeatCounter.m_timer.find id).bind _ = _
  cases htimer : s.m_heartbeatCounter.m_timer.find id with
  | none =>
      rw [htimer] at hsame
      have hcount := Option.isNone_iff_eq_none.mp (Option.isSome_eq_false_iff.mp hsame.symm)
      exact .inl ⟨rfl, rfl, hcount⟩
  | some t =>
      rw [htimer] at hsame
      obtain ⟨n, hn⟩ := Option.isSome_iff_exists.mp hsame.symm
      refine .inr ⟨t, n, rfl, hn, ?_⟩
      rw [Option.bind_some, hn]
      rfl

/-- The sessions of the registry are the ids with a timer. -/
theorem isSome_sessions (hs : s.m_heartbeatCounter.Sound) (id : UInt64) :
    (s.registry.sessions id).isSome = (s.m_heartbeatCounter.m_timer.find id).isSome := by
  rcases sessions_cases hs id with ⟨hnone, ht, -⟩ | ⟨t, n, ht, -, hsome⟩
  · rw [hnone, ht]
    rfl
  · rw [hsome, ht]
    rfl

/-- The sessions of the registry are those of the session manager. -/
theorem Consistent.exist_eq (hs : s.Consistent timeout max_heartbeat) (id : UInt64) :
    s.m_sessionManager.exist id = (s.registry.sessions id).isSome := by
  rw [hs.sessions id, isSome_sessions hs.heaps]

/-- A session and its first period, in the heaps. -/
theorem sessions_push (env : Environment) (hs : s.m_heartbeatCounter.Sound) (id : UInt64)
    (sessions : SessionManager) (services : Services) (generated : Nat) :
    let s' : SRCServer :=
      { m_sessionManager := sessions
        m_heartbeatCounter := s.m_heartbeatCounter.push env.now id
        services := services
        generated := generated }
    s'.registry.sessions = Function.update s.registry.sessions id
      (some (Registry.firstPeriod s.m_heartbeatCounter.m_timeout
        (env.now s.m_heartbeatCounter.reads))) := by
  intro s'
  obtain ⟨-, htimer, hcount⟩ := HeartbeatCounter.sound_push env.now hs id
  funext d
  show ((s.m_heartbeatCounter.push env.now id).m_timer.find d).bind (fun t =>
    ((s.m_heartbeatCounter.push env.now id).m_counter.heap.find d).map _) = _
  rw [htimer, hcount]
  by_cases hd : d = id
  · subst hd
    rw [Function.update_self, Function.update_self, Function.update_self]
    rfl
  · rw [Function.update_of_ne hd, Function.update_of_ne hd, Function.update_of_ne hd]
    rfl

/-- A reset, in the heaps. -/
theorem sessions_reset (env : Environment) (hs : s.m_heartbeatCounter.Sound) (id : UInt64) :
    let s' : SRCServer := { s with m_heartbeatCounter := s.m_heartbeatCounter.reset env.now id }
    s'.registry = s.registry.beaten s.m_heartbeatCounter.m_timeout
      (env.now s.m_heartbeatCounter.reads) id := by
  intro s'
  obtain ⟨-, htimer, hcount⟩ := HeartbeatCounter.sound_reset env.now hs id
  have hsessions : s'.registry.sessions = Function.update s.registry.sessions id
      ((s.registry.sessions id).map fun _ => Registry.firstPeriod s.m_heartbeatCounter.m_timeout
        (env.now s.m_heartbeatCounter.reads)) := by
    funext d
    show ((s.m_heartbeatCounter.reset env.now id).m_timer.find d).bind (fun t =>
      ((s.m_heartbeatCounter.reset env.now id).m_counter.heap.find d).map _) = _
    rw [htimer, hcount]
    by_cases hd : d = id
    · subst hd
      rw [Function.update_self, Function.update_self, Function.update_self]
      show _ = ((s.m_heartbeatCounter.m_timer.find d).bind _).map _
      cases s.m_heartbeatCounter.m_timer.find d with
      | none => rfl
      | some t =>
          rw [Option.map_some, Option.bind_some, Option.bind_some]
          cases s.m_heartbeatCounter.m_counter.heap.find d with
          | none => rfl
          | some n => rfl
    · rw [Function.update_of_ne hd, Function.update_of_ne hd, Function.update_of_ne hd]
      rfl
  rw [Registry.beaten, ← hsessions]
  rfl

/-- A message that does not ask for a connection goes to the store at most, and it is answered as
any registry with its nodes answers it. -/
theorem answered_onData {data : Bytes} (hs : s.services.WellFormed)
    (hdata : (ParseFromString WrappedRequest data).map WrappedRequest.requestType ≠
      some .Connection)
    (env : Environment) (peerAddress : InetAddress) {r : Registry} (hr : r.nodes = s.services.tree)
    (period start : Int) (sessionId : UInt64) :
    let out := s.onData env peerAddress data
    out.2 = { s with services := out.2.services } ∧ out.2.services.WellFormed ∧
      r.Answered period start sessionId (Demand.parse data) out.1
        { r with nodes := out.2.services.tree } := by
  obtain ⟨nodes, sessions⟩ := r
  obtain rfl : nodes = s.services.tree := hr
  rw [SRCServer.onData, Demand.parse]
  cases hparse : ParseFromString WrappedRequest data with
  | none => exact ⟨rfl, hs, .refused _⟩
  | some wrapped =>
      simp only [onRequest]
      cases htype : wrapped.requestType with
      | Nothing_MessageType => exact ⟨rfl, hs, .refused _⟩
      | Error => exact ⟨rfl, hs, .refused _⟩
      | unrecognized v hv => exact ⟨rfl, hs, .refused _⟩
      | Connection =>
          rw [hparse, Option.map_some, htype] at hdata
          exact absurd rfl hdata
      | Service =>
          simp only [onServiceRequest]
          cases ParseFromString ServiceRequest wrapped.requestParameters with
          | none => exact ⟨rfl, hs, .refused _⟩
          | some req =>
              simp only [Services.handle_eq]
              cases hreq : Request.parse req.serviceType req.serviceParameters req.sessionId with
              | none => exact ⟨trivial, hs, .unreadable _⟩
              -- The store performs the request, and it shows the map after it.
              | some request =>
                  obtain ⟨hanswers, hsim, -⟩ := Services.simulates_perform ⟨hs, rfl⟩ request
                  refine ⟨trivial, hsim.wellFormed, ?_⟩
                  rw [← Services.type_of_parse hreq, hsim.tree]
                  exact .service request _ hanswers

/-- A request is answered as the registry answers it. -/
theorem Consistent.onData (hs : s.Consistent timeout max_heartbeat) (env : Environment)
    (peerAddress : InetAddress) (data : Bytes) :
    let r := s.onData env peerAddress data
    r.2.Consistent timeout max_heartbeat ∧ s.registry.Answered timeout
      (env.now s.m_heartbeatCounter.reads) (env.generateSessionId s.generated)
      (Demand.parse data) r.1 r.2.registry := by
  intro r
  by_cases hdata : (ParseFromString WrappedRequest data).map WrappedRequest.requestType =
      some .Connection
  · obtain ⟨wrapped, hparse, htype⟩ := Option.map_eq_some_iff.mp hdata
    have hr : r = s.onConnectionRequest env peerAddress := by
      show s.onData env peerAddress data = _
      rw [SRCServer.onData, hparse]
      simp only [onRequest, htype]
    have hdemand : Demand.parse data = .connection := by
      rw [Demand.parse, hparse]
      simp only [htype]
    rw [hr, hdemand]
    obtain ⟨hheaps, htimer, -⟩ := HeartbeatCounter.sound_push env.now hs.heaps
      (env.generateSessionId s.generated)
    refine ⟨⟨hs.store, hheaps, fun id => ?_, hs.period, hs.limit⟩, ?_⟩
    -- The new session has an entry in the session manager and in the heaps.
    · show (s.m_sessionManager.add _ peerAddress).exist id =
        ((s.m_heartbeatCounter.push env.now _).m_timer.find id).isSome
      rw [SessionManager.exist_add, htimer, hs.sessions]
      by_cases hid : id = env.generateSessionId s.generated
      · subst hid
        simp
      · simp [hid]
    · have hsessions := sessions_push env hs.heaps (env.generateSessionId s.generated)
        (s.m_sessionManager.add (env.generateSessionId s.generated) peerAddress) s.services
        (s.generated + 1)
      rw [hs.period] at hsessions
      have hopened : (s.onConnectionRequest env peerAddress).2.registry =
          s.registry.opened timeout (env.now s.m_heartbeatCounter.reads)
            (env.generateSessionId s.generated) := by
        rw [Registry.opened, ← hsessions]
        rfl
      rw [hopened]
      exact .connection
  · have hr : s.registry.nodes = s.services.tree := rfl
    obtain ⟨hserver, hstore, hanswered⟩ := answered_onData hs.store hdata env peerAddress hr timeout
      (env.now s.m_heartbeatCounter.reads) (env.generateSessionId s.generated)
    have hconsistent : ({ s with services := r.2.services } : SRCServer).Consistent timeout
      max_heartbeat := ⟨hstore, hs.heaps, hs.sessions, hs.period, hs.limit⟩
    have hregistry : s.registry.Answered timeout (env.now s.m_heartbeatCounter.reads)
      (env.generateSessionId s.generated) (Demand.parse data) r.1
      ({ s with services := r.2.services } : SRCServer).registry := hanswered
    rw [← hserver] at hconsistent hregistry
    exact ⟨hconsistent, hregistry⟩

open Classical in
/-- The timer half of a tick counts the sessions whose timers it takes out. -/
theorem tickTimer_counted (hclk : Monotone env.now) (hs : s.m_heartbeatCounter.Sound) :
    let h := s.m_heartbeatCounter
    let h₁ := h.tickTimer env.now
    ∃ (due : Set UInt64) (moment : UInt64 → Int),
      s.registry.Due (env.now h.reads) (env.now h₁.reads) due moment ∧
      ∀ id, (s.registry.sessions id = none ∧ h₁.m_timer.find id = none ∧
          h₁.m_counter.heap.find id = none) ∨
        ∃ l t n, s.registry.sessions id = some l ∧ h₁.m_timer.find id = some t ∧
          h₁.m_counter.heap.find id = some n ∧
          Registry.counted h.m_timeout due moment id l =
            { missed := n.heartbeatCount, expires := t.expires } := by
  intro h h₁
  obtain ⟨-, -, -, -, -, -, hkeep, hcount⟩ := HeartbeatCounter.tickTimer_spec env.now hs
  -- The moment of a timer is the reading that starts it again.
  have hmoment : ∀ id, ∃ m, id ∈ h.expiredIds env.now → env.now h.reads ≤ m ∧
      m ≤ env.now h₁.reads ∧ (∃ t, h.m_timer.find id = some t ∧ t.expires < m + MS 1) ∧
      h₁.m_timer.find id =
        some { id := id, expires := m + MS h.m_timeout, cb := .timeoutFunc } := by
    intro id
    by_cases hid : id ∈ h.expiredIds env.now
    · obtain ⟨t, j, ht, hj, hlt, hover, hfind⟩ := HeartbeatCounter.restarted_of_mem hclk hs hid
      exact ⟨env.now j, fun _ => ⟨hclk hj, hclk hlt.le, ⟨t, ht, hover⟩, hfind⟩⟩
    · exact ⟨0, fun hmem => absurd hmem hid⟩
  choose moment hmoment using hmoment
  refine ⟨{ id | id ∈ h.expiredIds env.now }, moment, ⟨?_, ?_, ?_⟩, fun id => ?_⟩
  · intro id l hl hover
    by_contra hid
    rcases sessions_cases hs id with ⟨hnone, -⟩ | ⟨t, n, ht, -, hsome⟩
    · rw [hnone] at hl
      cases hl
    · rw [hsome, Option.some.injEq] at hl
      subst hl
      have hle := HeartbeatCounter.le_expires_of_notMem hclk hs ht hid
      exact absurd hover (not_lt.mpr hle)
  · intro id hid
    obtain ⟨-, -, ⟨t, ht, hlt⟩, -⟩ := hmoment id hid
    rcases sessions_cases hs id with ⟨-, hnone, -⟩ | ⟨t', n, ht', -, hsome⟩
    · rw [ht] at hnone
      cases hnone
    · obtain rfl := Option.some.inj (ht'.symm.trans ht)
      exact ⟨_, hsome, hlt⟩
  · intro id hid
    obtain ⟨hstart, hstop, -⟩ := hmoment id hid
    exact ⟨hstart, hstop⟩
  · rcases sessions_cases hs id with ⟨hnone, ht, hn⟩ | ⟨t, n, ht, hn, hsome⟩
    -- No session: no timer to be taken out.
    · have hid : id ∉ h.expiredIds env.now := by
        intro hid
        obtain ⟨-, -, ⟨t, ht', -⟩, -⟩ := hmoment id hid
        rw [ht] at ht'
        cases ht'
      exact .inl ⟨hnone, (hkeep id hid).trans ht, by rw [hcount id, if_neg hid, hn]⟩
    · by_cases hid : id ∈ h.expiredIds env.now
      · obtain ⟨-, -, -, hfind⟩ := hmoment id hid
        refine .inr ⟨_, _, _, hsome, hfind, by rw [hcount id, if_pos hid, hn]; rfl, ?_⟩
        exact if_pos hid
      · refine .inr ⟨_, _, _, hsome, (hkeep id hid).trans ht, by rw [hcount id, if_neg hid, hn], ?_⟩
        exact if_neg hid

/-- A tick of the server: what the timer half leaves, without the sessions that have reached
the limit in it. -/
theorem tick_maps (env : Environment) (hs : s.m_heartbeatCounter.Sound) :
    let h := s.m_heartbeatCounter
    let h' := (s.tick env).m_heartbeatCounter
    h'.Sound ∧ h'.m_counter.LIMIT = h.m_counter.LIMIT ∧ h'.m_timeout = h.m_timeout ∧
      h'.reads = (h.tickTimer env.now).reads ∧ ∃ reached : List UInt64,
      (∀ id, id ∈ reached ↔ ∃ n, (h.tickTimer env.now).m_counter.heap.find id = some n ∧
        h.m_counter.LIMIT ≤ n.heartbeatCount) ∧
      (s.tick env).services = reached.foldl Services.removeEphemeral s.services ∧
      (s.tick env).m_sessionManager = reached.foldl SessionManager.remove s.m_sessionManager ∧
      (∀ id, h'.m_timer.find id =
        if id ∈ reached then none else (h.tickTimer env.now).m_timer.find id) ∧
      (∀ id, h'.m_counter.heap.find id =
        if id ∈ reached then none else (h.tickTimer env.now).m_counter.heap.find id) := by
  intro h h'
  obtain ⟨hs₁, hlim₁, htime₁, -⟩ := HeartbeatCounter.tickTimer_spec env.now hs
  obtain ⟨hs₂, hlim₂, htime₂, hreads₂, reached, -, hworld, hmem, hcounter, htimer⟩ :=
    HeartbeatCounter.tickCounter_spec onHeartbeatReachLimit hs₁ (s.m_sessionManager, s.services)
  rw [foldl_onHeartbeatReachLimit] at hworld
  rw [hlim₁] at hmem
  exact ⟨hs₂, hlim₂.trans hlim₁, htime₂.trans htime₁, hreads₂, reached, hmem,
    congrArg Prod.snd hworld, congrArg Prod.fst hworld, htimer, hcounter⟩

open Classical in
/-- A tick of the server is a tick of the registry. -/
theorem Consistent.tick (hclk : Monotone env.now) (hs : s.Consistent timeout max_heartbeat) :
    (s.tick env).Consistent timeout max_heartbeat ∧ ∃ due moment,
      s.registry.Due (env.now s.m_heartbeatCounter.reads)
        (env.now (s.tick env).m_heartbeatCounter.reads) due moment ∧
      (s.tick env).registry = s.registry.afterTick timeout max_heartbeat due moment := by
  obtain ⟨hheaps, hlimit, hperiod, hreads, reached, hmem, hservices, hmanager, htimer, hcounter⟩ :=
    tick_maps env hs.heaps
  obtain ⟨due, moment, hdue, hcounted⟩ := tickTimer_counted hclk hs.heaps
  rw [hs.period] at hcounted
  rw [hs.limit] at hmem
  obtain ⟨hstore, htree⟩ := Services.tree_foldl_removeEphemeral reached s.services hs.store
  -- A session that reaches the limit is one that the registry drops.
  have hsession : ∀ id, (s.tick env).registry.sessions id = (s.registry.sessions id).bind
        (Registry.afterPeriod timeout max_heartbeat due moment id) ∧
      (id ∈ reached ↔ (s.registry.sessions id).isSome ∧
        (s.registry.sessions id).bind
          (Registry.afterPeriod timeout max_heartbeat due moment id) = none) := by
    intro id
    have hafter : (s.tick env).registry.sessions id =
        ((s.tick env).m_heartbeatCounter.m_timer.find id).bind fun t =>
          ((s.tick env).m_heartbeatCounter.m_counter.heap.find id).map fun n =>
            { missed := n.heartbeatCount, expires := t.expires } := rfl
    rw [hafter, htimer id, hcounter id]
    rcases hcounted id with ⟨hnone, ht, hn⟩ | ⟨l, t, n, hl, ht, hn, heq⟩
    · have hnot : id ∉ reached := fun hid => by
        obtain ⟨n, hfind, -⟩ := (hmem id).mp hid
        rw [hn] at hfind
        cases hfind
      rw [if_neg hnot, ht, hnone]
      exact ⟨rfl, fun hid => absurd hid hnot, fun h => Bool.noConfusion h.1⟩
    · have hiff : id ∈ reached ↔ max_heartbeat ≤ n.heartbeatCount := by
        rw [hmem id, hn]
        exact ⟨fun ⟨m, hm, hle⟩ => Option.some.inj hm ▸ hle, fun hle => ⟨n, rfl, hle⟩⟩
      rw [hl, Option.bind_some, Registry.afterPeriod, heq]
      by_cases hid : id ∈ reached
      · rw [if_pos hid, if_pos (hiff.mp hid)]
        exact ⟨rfl, fun _ => ⟨rfl, rfl⟩, fun _ => hid⟩
      · rw [if_neg hid, if_neg hid, if_neg (mt hiff.mpr hid), ht, hn]
        exact ⟨rfl, fun h => absurd h hid, fun h => absurd h.2 (Option.some_ne_none _)⟩
  refine ⟨⟨hservices ▸ hstore, hheaps, fun id => ?_, hperiod.trans hs.period,
    hlimit.trans hs.limit⟩, due, moment, hreads ▸ hdue, ?_⟩
  · obtain ⟨hnext, hdropped⟩ := hsession id
    rw [hmanager, exist_foldl_remove, hs.exist_eq, ← isSome_sessions hheaps id, hnext]
    cases hl : s.registry.sessions id with
    | none => exact Bool.and_false _
    | some l =>
        rw [hl] at hdropped
        simp only [Option.isSome_some, true_and, Option.bind_some] at hdropped
        rw [Option.isSome_some, Bool.and_true, Option.bind_some]
        by_cases hid : id ∈ reached
        · simp [hid, hdropped.mp hid]
        · simp [hid, Option.isSome_iff_ne_none.mpr (mt hdropped.mpr hid)]
  · have hnodes : (s.tick env).registry.nodes =
        (s.registry.afterTick timeout max_heartbeat due moment).nodes := by
      show (s.tick env).services.tree = s.services.tree.cutWhere _
      rw [hservices, htree]
      congr 1
      funext e
      rw [(hsession e.owner).2]
    have hsessions : (s.tick env).registry.sessions =
        (s.registry.afterTick timeout max_heartbeat due moment).sessions :=
      funext fun id => (hsession id).1
    show Registry.mk (s.tick env).registry.nodes (s.tick env).registry.sessions = _
    rw [hnodes, hsessions]

/-- Each step of the server is a step of the registry. -/
theorem next_registry (hclk : Monotone env.now) (s : SRCServer) (event : Event)
    (hs : s.Consistent timeout max_heartbeat) :
    (s.step env event).Consistent timeout max_heartbeat ∧
      s.registry.Next timeout max_heartbeat (s.label env event) (s.step env event).registry := by
  cases event with
  | message peerAddress buffer =>
      obtain ⟨hs', hanswered⟩ := hs.onData env peerAddress buffer.readable
      have hstep : s.step env (.message peerAddress buffer) =
          (s.onData env peerAddress buffer.readable).2 := by rw [SRCServer.step, onMessage_eq]
      have hsent : s.sent env (.message peerAddress buffer) =
          some (SerializeAsString (s.onData env peerAddress buffer.readable).1) := by
        rw [sent, onMessage_eq]
      rw [label, hsent, hstep]
      exact ⟨hs', .message _ _ _ _ _ _ hanswered⟩
  | heartbeat id =>
      have hstep : s.step env (.heartbeat id) = s.onUDPMessage env id := rfl
      rw [label, hstep, onUDPMessage]
      cases hexist : s.m_sessionManager.exist id with
      | true =>
          obtain ⟨hheaps, htimer, -⟩ := HeartbeatCounter.sound_reset env.now hs.heaps id
          have hreset := sessions_reset env hs.heaps id
          rw [hs.period] at hreset
          rw [if_pos rfl, hreset]
          refine ⟨⟨hs.store, hheaps, fun d => ?_, hs.period, hs.limit⟩, .heartbeat _ _ _ id⟩
          show s.m_sessionManager.exist d =
            ((s.m_heartbeatCounter.reset env.now id).m_timer.find d).isSome
          rw [hs.sessions, htimer]
          by_cases hd : d = id
          · subst hd
            simp
          · simp [hd]
      -- A heartbeat without a session changes nothing, here and there.
      | false =>
          rw [if_neg Bool.false_ne_true]
          have hnone : s.registry.sessions id = none := by
            rw [← Option.isNone_iff_eq_none, ← Option.isSome_eq_false_iff, ← hs.exist_eq, hexist]
          have hsame : s.registry.beaten timeout (env.now s.m_heartbeatCounter.reads) id =
              s.registry := by
            rw [Registry.beaten, hnone, Option.map_none, ← hnone, Function.update_eq_self]
          refine ⟨hs, ?_⟩
          have hnext : s.registry.Next timeout max_heartbeat
              (s.label env (.heartbeat id)) (s.registry.beaten timeout
                (env.now s.m_heartbeatCounter.reads) id) := .heartbeat _ _ _ id
          rw [label, hstep, onUDPMessage, hexist, hsame] at hnext
          exact hnext
  | tick =>
      obtain ⟨hs', due, moment, hdue, hregistry⟩ := hs.tick hclk
      refine ⟨hs', ?_⟩
      show s.registry.Next _ _ _ (s.tick env).registry
      rw [hregistry]
      exact .tick _ _ _ due moment hdue

theorem consistent_step (hclk : Monotone env.now) (s : SRCServer) (event : Event)
    (hs : s.Consistent timeout max_heartbeat) :
    (s.step env event).Consistent timeout max_heartbeat := (next_registry hclk s event hs).1

/-- Each run from a state in which the tables fit together is a run of the registry. -/
theorem Consistent.run (hclk : Monotone env.now) (hs : s.Consistent timeout max_heartbeat)
    (events : List Event) :
    Run (Registry.Next timeout max_heartbeat) s.registry (trace (step env) (label env) s events)
      (events.foldl (step env) s).registry :=
  run_of_step (consistent_step hclk) (fun s event hs => (next_registry hclk s event hs).2) events hs

/-- Each run of a server is a run of the registry from the one with the root and without
sessions, with the same responses. At its end the server stands for the registry: the tree of
its store is the map, and its live sessions are those of the registry. -/
theorem server_refines_registry (env : Environment) (hclk : Monotone env.now)
    (timeout max_heartbeat : Int) (events : List Event) :
    let s := events.foldl (step env) (init timeout max_heartbeat)
    Run (Registry.Next timeout max_heartbeat) .init
      (trace (step env) (label env) (init timeout max_heartbeat) events) s.registry ∧
    s.registry.nodes = s.services.tree ∧
    ∀ id, s.m_sessionManager.exist id = (s.registry.sessions id).isSome := by
  intro s
  have hs := consistent_init timeout max_heartbeat
  have hrun := hs.run hclk events
  rw [registry_init] at hrun
  exact ⟨hrun, rfl, (inv_foldl (consistent_step hclk) events hs).exist_eq⟩

theorem monotone_secondClock : Monotone secondClock := by
  intro m n hmn
  show (1000000000 : Int) * m ≤ 1000000000 * n
  omega

/-- A client opens session 5 and creates its session node, and the session dies in a tick. -/
theorem server_refines_registry_oneSession :
    let env : Environment := { now := secondClock, generateSessionId := fun _ => 5 }
    let client : InetAddress := { octets := (127, 0, 0, 1), port := 4000 }
    let events : List Event := [.message client (Buffer.new.append connectionRequest),
      .message client (Buffer.new.append createForNobody), .tick]
    Run (Registry.Next 10 1) .init (trace (step env) (label env) (init 10 1) events)
      (events.foldl (step env) (init 10 1)).registry := by
  intro env client events
  exact (server_refines_registry env monotone_secondClock 10 1 events).1

end SRCServer

end RegistrationCenter
