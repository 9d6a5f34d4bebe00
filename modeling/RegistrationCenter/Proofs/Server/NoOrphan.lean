import RegistrationCenter.Proofs.Server.Requests
import RegistrationCenter.Proofs.Server.Sessions
import RegistrationCenter.Proofs.Store.Refinement

/-!
# `RegistrationCenter.Proofs.Server.NoOrphan`: session nodes and live sessions

A session node should belong to a live session. The death of a session takes its session
nodes away, so they are orphans only between the removal of the session and the removal of
the nodes, inside one callback. But `onMessage` hands a create to the store with whatever
session id the request carries, and neither it nor `createNode` asks whether that session
lives, as `onUDPMessage` does for a heartbeat. `noOrphan_iff` says that such a create is
the only way to an orphan.
-/

set_option autoImplicit false

namespace RegistrationCenter

open Lib

namespace Services

variable {s : Services}

/-- A node after a store call was there before, with the same type and owner, or the call
has created it. -/
theorem storeStep_entry (hs : s.WellFormed) (call : StoreCall) {π : List Bytes} {e : Entry}
    (he : (storeStep s call).tree π = some e) :
    (∃ e', s.tree π = some e' ∧ e'.type = e.type ∧ e'.owner = e.owner) ∨
      ∃ sessionId path data, call = .create sessionId path data e.type ∧ splitPath path = π ∧
        NodeMap.CanCreate s.tree π ∧ e.owner = if e.type = .EPHEMERAL then sessionId else 0 := by
  cases call with
  | create sessionId path data type =>
      obtain ⟨-, hiff, hfail, htree⟩ := createNode_spec hs sessionId path data type
      cases hsuccess : (s.createNode sessionId path data type).1.success with
      | false =>
          rw [storeStep, hfail hsuccess] at he
          exact Or.inl ⟨e, he, rfl, rfl⟩
      | true =>
          rw [storeStep, htree hsuccess] at he
          by_cases hπ : π = splitPath path
          · subst hπ
            rw [Function.update_self, Option.some.injEq] at he
            subst he
            -- The entry that the call has created.
            exact Or.inr ⟨sessionId, path, data, rfl, rfl, hiff.mp hsuccess, rfl⟩
          · rw [Function.update_of_ne hπ] at he
            exact Or.inl ⟨e, he, rfl, rfl⟩
  | set path data =>
      obtain ⟨-, -, hfail, htree⟩ := setNode_spec hs path data
      cases hsuccess : (s.setNode path data).1.success with
      | false =>
          rw [storeStep, hfail hsuccess] at he
          exact Or.inl ⟨e, he, rfl, rfl⟩
      | true =>
          rw [storeStep, htree hsuccess] at he
          by_cases hπ : π = splitPath path
          · subst hπ
            rw [Function.update_self] at he
            -- Only the data of the entry are new.
            obtain ⟨e', he', rfl⟩ := Option.map_eq_some_iff.mp he
            exact Or.inl ⟨e', he', rfl, rfl⟩
          · rw [Function.update_of_ne hπ] at he
            exact Or.inl ⟨e, he, rfl, rfl⟩
  | delete path =>
      obtain ⟨-, -, hfail, htree⟩ := deleteNode_spec hs path
      cases hsuccess : (s.deleteNode path).1.success with
      | false =>
          rw [storeStep, hfail hsuccess] at he
          exact Or.inl ⟨e, he, rfl, rfl⟩
      | true =>
          rw [storeStep, htree hsuccess] at he
          exact Or.inl ⟨e, (PathMap.cut_eq_some.mp he).1, rfl, rfl⟩
  | removeEphemeral sessionId =>
      rw [storeStep, (removeEphemeral_spec hs sessionId).2] at he
      exact Or.inl ⟨e, (PathMap.cut_eq_some.mp he).1, rfl, rfl⟩

/-- The deaths of some sessions leave no session node of them. -/
theorem foldl_removeEphemeral (reached : List UInt64) : ∀ s : Services, s.WellFormed →
    (reached.foldl removeEphemeral s).WellFormed ∧
      ∀ π e, (reached.foldl removeEphemeral s).tree π = some e →
        s.tree π = some e ∧ (e.type = .EPHEMERAL → e.owner ∉ reached) := by
  induction reached with
  | nil => intro s hs; exact ⟨hs, fun π e he => ⟨he, fun _ => List.not_mem_nil⟩⟩
  | cons id reached ih =>
      intro s hs
      obtain ⟨hs₁, htree⟩ := removeEphemeral_spec hs id
      obtain ⟨hs', hrest⟩ := ih (s.removeEphemeral id) hs₁
      refine ⟨hs', fun π e he => ?_⟩
      obtain ⟨he₁, hnot⟩ := hrest π e he
      rw [htree] at he₁
      obtain ⟨he₀, hcut⟩ := PathMap.cut_eq_some.mp he₁
      refine ⟨he₀, fun htype => ?_⟩
      -- A session node of `id` that is left would have been cut at its own path.
      have hne : e.owner ≠ id := fun howner =>
        hcut π ⟨e, he₀, htype, howner⟩ (List.prefix_refl π)
      rw [List.mem_cons]
      exact not_or.mpr ⟨hne, hnot htype⟩

end Services

namespace SRCServer

variable {s : SRCServer}

/-- What happens to the server: bytes arrive on a connection, a heartbeat arrives, the
heartbeat counter ticks. -/
inductive Event
  | message (peerAddress : InetAddress) (buffer : Buffer)
  | heartbeat (sessionId : UInt64)
  | tick

def step (env : Environment) (s : SRCServer) : Event → SRCServer
  | .message peerAddress buffer => (s.onMessage env peerAddress buffer).2.2
  | .heartbeat sessionId => s.onUDPMessage env sessionId
  | .tick => s.tick env

/-- Each session node belongs to a live session. -/
def NoOrphan (s : SRCServer) : Prop :=
  ∀ π e, s.services.tree π = some e → e.type = .EPHEMERAL → s.m_sessionManager.exist e.owner = true

/-- A request that asks for a session node, where the store would create it, names a live
session. -/
def LiveCreate (s : SRCServer) : Event → Prop
  | .message _ buffer => ∀ sessionId path data,
      requestedCall buffer.readable = some (.create sessionId path data .EPHEMERAL) →
        NodeMap.CanCreate s.services.tree (Services.splitPath path) →
          s.m_sessionManager.exist sessionId = true
  | .heartbeat _ => True
  | .tick => True

/-- The invariant of a run. -/
structure Sound (s : SRCServer) : Prop where
  store : s.services.WellFormed
  heaps : s.m_heartbeatCounter.Sound
  noOrphan : s.NoOrphan

theorem sound_init (timeout max_heartbeat : Int) : (init timeout max_heartbeat).Sound := by
  refine ⟨Services.wellFormed_init, HeartbeatCounter.sound_init timeout max_heartbeat, ?_⟩
  intro π e he htype
  have he : Services.init.tree π = some e := he
  rw [Services.tree_init] at he
  -- The root is the only node, and it is permanent.
  by_cases hπ : π = [[]]
  · subst hπ
    rw [Function.update_self, Option.some.injEq] at he
    subst he
    cases htype
  · rw [Function.update_of_ne hπ] at he
    cases he

/-- A store call keeps the owners alive, unless it creates a session node of a dead session. -/
theorem noOrphan_storeStep (hs : s.Sound) (call : Services.StoreCall)
    (hlive : ∀ sessionId path data, call = .create sessionId path data .EPHEMERAL →
      NodeMap.CanCreate s.services.tree (Services.splitPath path) →
        s.m_sessionManager.exist sessionId = true) :
    NoOrphan { s with services := Services.storeStep s.services call } := by
  intro π e he htype
  rcases Services.storeStep_entry hs.store call he with
    ⟨e', he', htype', howner⟩ | ⟨sessionId, path, data, hcall, hπ, hcan, howner⟩
  -- An old node keeps its owner.
  · rw [← howner]
    exact hs.noOrphan π e' he' (htype'.trans htype)
  -- A new session node belongs to the session that the call names.
  · rw [htype] at hcall
    rw [if_pos htype] at howner
    rw [howner]
    exact hlive sessionId path data hcall (hπ ▸ hcan)

theorem Sound.message (hs : s.Sound) (env : Environment) (peerAddress : InetAddress)
    (buffer : Buffer) (hlive : s.LiveCreate (.message peerAddress buffer)) :
    (s.step env (.message peerAddress buffer)).Sound := by
  rw [SRCServer.step, onMessage_eq]
  rcases s.onData_cases env peerAddress buffer.readable with
    ⟨call, hcall, hdata⟩ | ⟨-, hdata | hdata⟩
  -- A store call.
  · rw [hdata]
    refine ⟨Services.wellFormed_storeStep s.services call hs.store, hs.heaps, ?_⟩
    refine noOrphan_storeStep hs call fun sessionId path data heq hcan => ?_
    exact hlive sessionId path data (heq ▸ hcall) hcan
  -- A request that changes nothing.
  · rw [hdata]
    exact hs
  · -- A connection request adds a session, and the others stay.
    rw [hdata]
    refine ⟨hs.store, (HeartbeatCounter.sound_push env.now hs.heaps _).1, ?_⟩
    intro π e he htype
    show (s.m_sessionManager.add _ peerAddress).exist e.owner = true
    rw [SessionManager.exist_add, hs.noOrphan π e he htype, Bool.or_true]

theorem Sound.heartbeat (hs : s.Sound) (env : Environment) (sessionId : UInt64) :
    (s.step env (.heartbeat sessionId)).Sound := by
  show (s.onUDPMessage env sessionId).Sound
  rw [onUDPMessage]
  split
  · exact ⟨hs.store, (HeartbeatCounter.sound_reset env.now hs.heaps sessionId).1, hs.noOrphan⟩
  · exact hs

theorem Sound.tick (hs : s.Sound) (env : Environment) : (s.step env .tick).Sound := by
  obtain ⟨hheaps, -, reached, hservices, hexist, -⟩ := tick_spec env hs.heaps
  obtain ⟨hstore, htree⟩ := Services.foldl_removeEphemeral reached s.services hs.store
  show (s.tick env).Sound
  refine ⟨hservices ▸ hstore, hheaps, ?_⟩
  intro π e he htype
  rw [hservices] at he
  obtain ⟨he₀, hnot⟩ := htree π e he
  -- The owner has not died, and it was alive before.
  rw [hexist, hs.noOrphan π e he₀ htype]
  simp [hnot htype]

theorem Sound.step (env : Environment) (s : SRCServer) (event : Event) (hs : s.Sound)
    (hlive : s.LiveCreate event) : (s.step env event).Sound := by
  cases event with
  | message peerAddress buffer => exact hs.message env peerAddress buffer hlive
  | heartbeat sessionId => exact hs.heartbeat env sessionId
  | tick => exact hs.tick env

/-- A session node created for a dead session is an orphan. -/
theorem Sound.not_noOrphan (env : Environment) (s : SRCServer) (event : Event) (hs : s.Sound)
    (hdead : ¬ s.LiveCreate event) : ¬ (s.step env event).NoOrphan := by
  cases event with
  | message peerAddress buffer =>
      unfold LiveCreate at hdead
      push Not at hdead
      obtain ⟨sessionId, path, data, hcall, hcan, hexist⟩ := hdead
      rw [SRCServer.step, onMessage_eq]
      rcases s.onData_cases env peerAddress buffer.readable with
        ⟨call, hcall', hdata⟩ | ⟨hnone, -⟩
      -- The create succeeds, and its node belongs to a session that is not there.
      · obtain rfl := Option.some.inj (hcall'.symm.trans hcall)
        obtain ⟨-, hiff, -, htree⟩ :=
          Services.createNode_spec hs.store sessionId path data .EPHEMERAL
        rw [hdata]
        intro hno
        have hentry := congrFun (htree (hiff.mpr hcan)) (Services.splitPath path)
        rw [Function.update_self] at hentry
        exact hexist (hno _ _ hentry rfl)
      · rw [hnone] at hcall
        cases hcall
  | heartbeat sessionId => exact absurd trivial hdead
  | tick => exact absurd trivial hdead

/-- In all states of a run of the server each session node belongs to a live session,
exactly when each session node is created for a session that lives at that moment. -/
theorem noOrphan_iff (env : Environment) (timeout max_heartbeat : Int) (events : List Event) :
    AllStates (step env) NoOrphan (init timeout max_heartbeat) events ↔
      StepsMeet (step env) LiveCreate (init timeout max_heartbeat) events :=
  allStates_iff_stepsMeet (fun _ hs => hs.noOrphan) (Sound.step env) (Sound.not_noOrphan env)
    (sound_init timeout max_heartbeat)

/-- A client that asks for the session node `/a` of session 5, which nobody has opened. -/
def createForNobody : Bytes :=
  let create : CreateNodeRequest := { path := bytes "/a", nodeType := .EPHEMERAL }
  let service : ServiceRequest :=
    { serviceType := .Create, serviceParameters := SerializeAsString create, sessionId := 5 }
  let wrapped : WrappedRequest :=
    { requestType := .Service, requestParameters := SerializeAsString service }
  SerializeAsString wrapped

/-- The node that this client gets belongs to no session. -/
theorem not_noOrphan_createForNobody :
    ¬ AllStates (step { now := fun _ => 0, generateSessionId := fun _ => 1 }) NoOrphan
      (init 12000 5)
      [.message { octets := (127, 0, 0, 1), port := 4000 }
        (Buffer.new.append createForNobody)] := by
  intro h
  have hread : (Buffer.new.append createForNobody).readable = createForNobody :=
    (Buffer.valid_new.append createForNobody).2
  have hcall : requestedCall (Buffer.new.append createForNobody).readable =
      some (.create 5 (bytes "/a") [] .EPHEMERAL) := by
    rw [hread]
    decide
  have hcan : NodeMap.CanCreate (init 12000 5).services.tree (Services.splitPath (bytes "/a")) :=
    ⟨by decide, by decide, Or.inr (by decide)⟩
  have hdead : ¬ (init 12000 5).LiveCreate (.message { octets := (127, 0, 0, 1), port := 4000 }
      (Buffer.new.append createForNobody)) := fun hlive =>
    Bool.false_ne_true (hlive 5 (bytes "/a") [] hcall hcan)
  exact (sound_init 12000 5).not_noOrphan _ _ _ hdead h.2

end SRCServer

end RegistrationCenter
