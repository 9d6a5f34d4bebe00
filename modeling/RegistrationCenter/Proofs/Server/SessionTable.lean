import RegistrationCenter.Proofs.Server.NoOrphan

/-!
# `RegistrationCenter.Proofs.Server.SessionTable`: the table of session nodes and live sessions

The store keeps a table of the session nodes under the session ids. A session gets a key in it
with its first session node. When the session dies, the store looks it up once more, with a
look-up that makes a key where there is none, and takes no key away. So the table has the live
sessions only as long as no session dies: `tableLive_iff`.
-/

set_option autoImplicit false

namespace RegistrationCenter

open Lib

namespace Services

variable {s : Services}

/-- The end of a session leaves a key for it. -/
theorem isSome_sessionMap_removeEphemeral (s : Services) (sessionId id : UInt64) :
    ((s.removeEphemeral sessionId).m_sessionMap id).isSome ↔
      id = sessionId ∨ (s.m_sessionMap id).isSome := by
  show (Function.update s.m_sessionMap sessionId (some _) id).isSome ↔ _
  by_cases hid : id = sessionId
  · subst hid
    simp
  · simp [hid]

theorem isSome_sessionMap_foldl_removeEphemeral (reached : List UInt64) (id : UInt64) :
    ∀ s : Services, ((reached.foldl removeEphemeral s).m_sessionMap id).isSome ↔
      id ∈ reached ∨ (s.m_sessionMap id).isSome := by
  induction reached with
  | nil => intro s; simp
  | cons d reached ih =>
      intro s
      rw [List.foldl_cons, ih, isSome_sessionMap_removeEphemeral, List.mem_cons]
      tauto

/-- A call brings a key in for the session whose session node it creates, or whose end it is. -/
theorem isSome_sessionMap_storeStep (hs : s.WellFormed) (call : StoreCall) (id : UInt64)
    (hnew : ((storeStep s call).m_sessionMap id).isSome) :
    (s.m_sessionMap id).isSome ∨ call = .removeEphemeral id ∨
      ∃ path data, call = .create id path data .EPHEMERAL ∧
        NodeMap.CanCreate s.tree (splitPath path) := by
  cases call with
  | create sessionId path data type =>
      obtain ⟨-, hiff, -⟩ := createNode_spec hs sessionId path data type
      rcases (isSome_sessionMap_createNode s sessionId path data type id).mp hnew with
        hold | ⟨hsuccess, rfl, rfl⟩
      · exact .inl hold
      · exact .inr (.inr ⟨path, data, rfl, hiff.mp hsuccess⟩)
  | set path data =>
      have hsame : (storeStep s (.set path data)).m_sessionMap = s.m_sessionMap :=
        m_sessionMap_setNode s path data
      exact .inl (hsame ▸ hnew)
  | delete path =>
      have hsame : (storeStep s (.delete path)).m_sessionMap = s.m_sessionMap :=
        m_sessionMap_deleteNode s path
      exact .inl (hsame ▸ hnew)
  | removeEphemeral sessionId =>
      rcases (isSome_sessionMap_removeEphemeral s sessionId id).mp hnew with rfl | hold
      · exact .inr (.inl rfl)
      · exact .inl hold

end Services

namespace SRCServer

variable {s : SRCServer}

/-- Each key of the table is a live session. -/
def TableLive (s : SRCServer) : Prop :=
  ∀ id, (s.services.m_sessionMap id).isSome → s.m_sessionManager.exist id = true

/-- The count of the session is at the limit, with the one more that a timer which is due
adds to it. -/
def Dies (env : Environment) (s : SRCServer) (id : UInt64) : Prop :=
  ∃ n, s.m_heartbeatCounter.m_counter.heap.find id = some n ∧
    s.m_heartbeatCounter.m_counter.LIMIT ≤
      n.heartbeatCount + if id ∈ s.m_heartbeatCounter.expiredIds env.now then 1 else 0

/-- No session dies in this step. -/
def NobodyDies (env : Environment) (s : SRCServer) : Event → Prop
  | .message _ _ => True
  | .heartbeat _ => True
  | .tick => ∀ id, ¬ s.Dies env id

/-- The sessions that a tick takes from the session manager and reports to the store. -/
theorem tick_reached (env : Environment) (hs : s.m_heartbeatCounter.Sound) :
    ∃ reached : List UInt64, (∀ id, id ∈ reached ↔ s.Dies env id) ∧
      (s.tick env).services = reached.foldl Services.removeEphemeral s.services ∧
      (s.tick env).m_sessionManager = reached.foldl SessionManager.remove s.m_sessionManager := by
  obtain ⟨hs₁, hlim₁, -, -, -, -, -, hcount⟩ := HeartbeatCounter.tickTimer_spec env.now hs
  obtain ⟨-, -, -, -, reached, -, hworld, hmem, -⟩ :=
    HeartbeatCounter.tickCounter_spec onHeartbeatReachLimit hs₁ (s.m_sessionManager, s.services)
  rw [foldl_onHeartbeatReachLimit] at hworld
  refine ⟨reached, fun id => ?_, congrArg Prod.snd hworld, congrArg Prod.fst hworld⟩
  rw [hmem id, hlim₁, hcount id, Dies]
  by_cases hid : id ∈ s.m_heartbeatCounter.expiredIds env.now
  -- The timer half has added one to the count.
  · simp [hid]
  · simp [hid]

/-- Requests do not end sessions in the store. -/
theorem requestedCall_ne_removeEphemeral (data : Bytes) (id : UInt64) :
    requestedCall data ≠ some (.removeEphemeral id) := by
  have hservice : ∀ operation str sessionId,
      Services.requestedCall operation str sessionId ≠ some (.removeEphemeral id) := by
    intro operation str sessionId heq
    cases operation with
    | Create =>
        obtain ⟨req, -, hcall⟩ := Option.map_eq_some_iff.mp heq
        cases hcall
    | Set =>
        obtain ⟨req, -, hcall⟩ := Option.map_eq_some_iff.mp heq
        cases hcall
    | Delete =>
        obtain ⟨req, -, hcall⟩ := Option.map_eq_some_iff.mp heq
        cases hcall
    | Get => cases heq
    | Ls => cases heq
    | Stat => cases heq
    | Exists => cases heq
    | Nothing_ServiceType => cases heq
    | unrecognized v hv => cases heq
  intro heq
  rw [requestedCall] at heq
  split at heq
  · cases heq
  · split at heq
    · rw [serviceCall] at heq
      split at heq
      · cases heq
      · exact hservice _ _ _ heq
    · cases heq

/-- The invariant of a run in which nobody dies. -/
structure TableSound (s : SRCServer) : Prop extends Sound s where
  table : s.TableLive

theorem tableSound_init (timeout max_heartbeat : Int) :
    (init timeout max_heartbeat).TableSound where
  toSound := sound_init timeout max_heartbeat
  table _ h := Bool.noConfusion h

theorem TableSound.message (hs : s.TableSound) (env : Environment) (peerAddress : InetAddress)
    (buffer : Buffer) (hlive : s.LiveCreate (.message peerAddress buffer)) :
    (s.step env (.message peerAddress buffer)).TableLive := by
  intro id hid
  rw [SRCServer.step, onMessage_eq] at hid ⊢
  rcases s.onData_cases env peerAddress buffer.readable with
    ⟨call, hcall, hdata⟩ | ⟨-, hdata | hdata⟩
  -- A store call brings a key in for a session that lives.
  · rw [hdata] at hid ⊢
    rcases Services.isSome_sessionMap_storeStep hs.store call id hid with
      hold | rfl | ⟨path, data, rfl, hcan⟩
    · exact hs.table id hold
    · exact absurd hcall (requestedCall_ne_removeEphemeral _ id)
    · exact hlive id path data hcall hcan
  · rw [hdata] at hid ⊢
    exact hs.table id hid
  -- A connection request adds a session.
  · rw [hdata] at hid ⊢
    show (s.m_sessionManager.add _ peerAddress).exist id = true
    rw [SessionManager.exist_add, hs.table id hid, Bool.or_true]

theorem TableSound.step (env : Environment) (s : SRCServer) (event : Event) (hs : s.TableSound)
    (hlive : s.LiveCreate event) (hnobody : s.NobodyDies env event) :
    (s.step env event).TableSound := by
  refine ⟨Sound.step env s event hs.toSound hlive, ?_⟩
  cases event with
  | message peerAddress buffer => exact hs.message env peerAddress buffer hlive
  | heartbeat sessionId =>
      show (s.onUDPMessage env sessionId).TableLive
      rw [onUDPMessage]
      split
      · exact hs.table
      · exact hs.table
  | tick =>
      obtain ⟨reached, hmem, hservices, hsessions⟩ := tick_reached env hs.heaps
      have hnil : reached = [] := List.eq_nil_iff_forall_not_mem.mpr fun id hid =>
        hnobody id ((hmem id).mp hid)
      subst hnil
      intro id hid
      have hservices : (s.step env .tick).services = s.services := hservices
      have hsessions : (s.step env .tick).m_sessionManager = s.m_sessionManager := hsessions
      rw [hservices] at hid
      rw [hsessions]
      exact hs.table id hid

/-- A session that dies leaves its key behind. -/
theorem TableSound.not_tableLive (env : Environment) (s : SRCServer) (event : Event)
    (hs : s.TableSound) (hdies : ¬ s.NobodyDies env event) : ¬ (s.step env event).TableLive := by
  cases event with
  | message peerAddress buffer => exact absurd trivial hdies
  | heartbeat sessionId => exact absurd trivial hdies
  | tick =>
      unfold NobodyDies at hdies
      push Not at hdies
      obtain ⟨id, hid⟩ := hdies
      obtain ⟨reached, hmem, hservices, hsessions⟩ := tick_reached env hs.heaps
      have hreached : id ∈ reached := (hmem id).mpr hid
      intro htable
      have hkey : ((s.tick env).services.m_sessionMap id).isSome := by
        rw [hservices, Services.isSome_sessionMap_foldl_removeEphemeral]
        exact .inl hreached
      have hexist : (s.tick env).m_sessionManager.exist id = true := htable id hkey
      rw [hsessions, exist_foldl_remove] at hexist
      simp [hreached] at hexist

/-- In all states of a run of the server in which each session node is created for a session that
lives at that moment, the keys of the table are live sessions, exactly when no session dies in
the run. -/
theorem tableLive_iff (env : Environment) (timeout max_heartbeat : Int) (events : List Event)
    (hlive : StepsMeet (step env) LiveCreate (init timeout max_heartbeat) events) :
    AllStates (step env) TableLive (init timeout max_heartbeat) events ↔
      StepsMeet (step env) (NobodyDies env) (init timeout max_heartbeat) events :=
  allStates_iff_stepsMeet_of (fun _ hs => hs.table) (TableSound.step env)
    (fun s event hs _ => TableSound.not_tableLive env s event hs)
    (tableSound_init timeout max_heartbeat) hlive

/-- A client that asks for a session. -/
def connectionRequest : Bytes :=
  let wrapped : WrappedRequest := { requestType := .Connection }
  SerializeAsString wrapped

theorem readable_connectionRequest :
    (Buffer.new.append connectionRequest).readable = connectionRequest :=
  (Buffer.valid_new.append connectionRequest).2

/-- The message of this client opens a session. -/
theorem step_connectionRequest (env : Environment) (s : SRCServer) (peerAddress : InetAddress) :
    s.step env (.message peerAddress (Buffer.new.append connectionRequest)) =
      (s.onConnectionRequest env peerAddress).2 := by
  have hparse : ParseFromString WrappedRequest connectionRequest =
      some { requestType := .Connection } := by decide
  rw [SRCServer.step, onMessage_eq, readable_connectionRequest, onData, hparse]
  rfl

/-- The message creates no node. -/
theorem liveCreate_connectionRequest (s : SRCServer) (peerAddress : InetAddress) :
    s.LiveCreate (.message peerAddress (Buffer.new.append connectionRequest)) := by
  have hnone : requestedCall connectionRequest = none := by decide
  intro sessionId path data heq
  rw [readable_connectionRequest, hnone] at heq
  cases heq

/-- A clock that goes on by a second from one reading to the next. -/
def secondClock (n : Nat) : Int := 1000000000 * n

/-- A client opens session 5, the next one creates its session node, and a heartbeat comes. -/
theorem tableLive_iff_oneSession :
    let env : Environment := { now := secondClock, generateSessionId := fun _ => 5 }
    let client : InetAddress := { octets := (127, 0, 0, 1), port := 4000 }
    let events : List Event := [.message client (Buffer.new.append connectionRequest),
      .message client (Buffer.new.append createForNobody), .heartbeat 5]
    AllStates (step env) TableLive (init 12000 5) events ↔
      StepsMeet (step env) (NobodyDies env) (init 12000 5) events := by
  intro env client events
  have hread : (Buffer.new.append createForNobody).readable = createForNobody :=
    (Buffer.valid_new.append createForNobody).2
  have hcall : requestedCall createForNobody = some (.create 5 (bytes "/a") [] .EPHEMERAL) := by
    decide
  refine tableLive_iff env 12000 5 events
    ⟨liveCreate_connectionRequest _ client, ?_, trivial, trivial⟩
  -- The create names the session that has just been opened.
  intro sessionId path data heq _
  rw [hread, hcall] at heq
  cases heq
  rw [step_connectionRequest]
  rfl

/-- A session that has created no node dies, and its death makes a key for it. -/
theorem not_tableLive_oneDeath :
    let env : Environment := { now := secondClock, generateSessionId := fun _ => 5 }
    let client : InetAddress := { octets := (127, 0, 0, 1), port := 4000 }
    let events : List Event := [.message client (Buffer.new.append connectionRequest), .tick]
    StepsMeet (step env) LiveCreate (init 10 1) events ∧
      ¬ AllStates (step env) TableLive (init 10 1) events := by
  intro env client events
  refine ⟨⟨liveCreate_connectionRequest _ client, trivial, trivial⟩, fun h => ?_⟩
  have htable := h.2.2
  rw [step_connectionRequest] at htable
  -- The timer has run out, and one missed heartbeat is the limit.
  have hexist := htable 5 (by decide)
  exact absurd hexist (by decide)

end SRCServer

end RegistrationCenter
