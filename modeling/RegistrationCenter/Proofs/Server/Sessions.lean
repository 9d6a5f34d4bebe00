import RegistrationCenter.Lib.Runs
import RegistrationCenter.Proofs.Heartbeat.Tables
import RegistrationCenter.Spec.SRCServer

/-!
# `RegistrationCenter.Proofs.Server.Sessions`: the tables of the sessions agree

A session has an entry in the session manager, a timer and a count. An IO thread that
serves a connection request adds the session first and pushes the heartbeat nodes then,
and the UDP thread ticks and resets in between. `Agree` says what holds between any two of
these calls: the timers and the counts have the same ids, and the session manager has
these and the ids whose push is still to come. `agree_of_fresh` says that it holds in every
state of every interleaving in which each new id is fresh.
-/

set_option autoImplicit false

namespace RegistrationCenter

open Lib IndexedHeap

namespace SRCServer

/-- The sessions that die are removed one by one, and their session nodes with them. -/
theorem foldl_onHeartbeatReachLimit (reached : List UInt64) :
    ∀ w : SessionManager × Services,
      reached.foldl (fun w id => onHeartbeatReachLimit id w) w =
        (reached.foldl SessionManager.remove w.1, reached.foldl Services.removeEphemeral w.2) := by
  induction reached with
  | nil => intro w; rfl
  | cons id reached ih => intro w; exact ih (onHeartbeatReachLimit id w)

/-- The sessions left after some of them are removed. -/
theorem exist_foldl_remove (reached : List UInt64) (id : UInt64) : ∀ m : SessionManager,
    (reached.foldl SessionManager.remove m).exist id =
      (!decide (id ∈ reached) && m.exist id) := by
  induction reached with
  | nil => intro m; simp
  | cons d reached ih =>
      intro m
      rw [List.foldl_cons, ih, SessionManager.exist_remove]
      by_cases hid : id = d
      · simp [hid]
      · simp [hid]

/-- A tick of the server: some sessions reach the limit. They are the sessions that the
session manager and both heaps lose, and the store loses their session nodes. -/
theorem tick_spec (env : Environment) {s : SRCServer} (hs : s.m_heartbeatCounter.Sound) :
    let h := s.m_heartbeatCounter
    let h' := (s.tick env).m_heartbeatCounter
    h'.Sound ∧ h'.m_counter.LIMIT = h.m_counter.LIMIT ∧ ∃ reached : List UInt64,
      (s.tick env).services = reached.foldl Services.removeEphemeral s.services ∧
      (∀ id, (s.tick env).m_sessionManager.exist id =
        (!decide (id ∈ reached) && s.m_sessionManager.exist id)) ∧
      (∀ id ∈ reached, (h.m_timer.find id).isSome) ∧
      (∀ id, (h'.m_timer.find id).isSome =
        (!decide (id ∈ reached) && (h.m_timer.find id).isSome)) ∧
      (∀ id n, h'.m_counter.heap.find id = some n → n.heartbeatCount < h.m_counter.LIMIT ∧
        ∃ m, h.m_counter.heap.find id = some m ∧ m.heartbeatCount ≤ n.heartbeatCount) := by
  intro h h'
  obtain ⟨hsound, hlim, reached, hworld, hreached, htimer, hcount⟩ :=
    HeartbeatCounter.tick_spec env.now onHeartbeatReachLimit hs (s.m_sessionManager, s.services)
  rw [foldl_onHeartbeatReachLimit] at hworld
  refine ⟨hsound, hlim, reached, congrArg Prod.snd hworld, fun id => ?_, hreached, htimer, hcount⟩
  have hsessions : (s.tick env).m_sessionManager =
      reached.foldl SessionManager.remove s.m_sessionManager := congrArg Prod.fst hworld
  rw [hsessions, exist_foldl_remove]

end SRCServer

/-! ## The interleavings -/

/-- The server, and the ids of the IO threads that have added a session and not yet pushed
its heartbeat nodes. -/
structure SessionRun where
  server : SRCServer
  pending : List UInt64

namespace SessionRun

/-- A call of one of the threads. -/
inductive Call
  | add (id : UInt64) (peerAddress : InetAddress)
  | push (id : UInt64)
  | tick
  | onUDPMessage (id : UInt64)

/-- A push comes from a thread that has added the id. -/
def step (env : Environment) (s : SessionRun) : Call → SessionRun
  | .add id peerAddress =>
      { server := s.server.addSession id peerAddress, pending := id :: s.pending }
  | .push id =>
      if id ∈ s.pending then
        { server := s.server.pushSession env id, pending := s.pending.erase id }
      else s
  | .tick => { s with server := s.server.tick env }
  | .onUDPMessage id => { s with server := s.server.onUDPMessage env id }

def init (timeout max_heartbeat : Int) : SessionRun :=
  { server := .init timeout max_heartbeat, pending := [] }

/-- A new session has an id that no live session has. -/
def Fresh (s : SessionRun) : Call → Prop
  | .add id _ => s.server.m_sessionManager.exist id = false
  | .push _ => True
  | .tick => True
  | .onUDPMessage _ => True

/-- The ids with a timer. -/
def hasTimer (s : SessionRun) (id : UInt64) : Bool :=
  (s.server.m_heartbeatCounter.m_timer.find id).isSome

/-- The ids with a count. -/
def hasCount (s : SessionRun) (id : UInt64) : Bool :=
  (s.server.m_heartbeatCounter.m_counter.heap.find id).isSome

/-- The timers and the counts are of the same ids. The sessions are these ids and the ids
pending, and no id is both. Each count lies between zero and the limit. -/
structure Agree (max_heartbeat : Int) (s : SessionRun) : Prop where
  timers : ∀ id, s.hasTimer id = s.hasCount id
  sessions : ∀ id, s.server.m_sessionManager.exist id ↔ s.hasTimer id ∨ id ∈ s.pending
  disjoint : ∀ id ∈ s.pending, s.hasTimer id = false
  counts : ∀ id n, s.server.m_heartbeatCounter.m_counter.heap.find id = some n →
    0 ≤ n.heartbeatCount ∧ n.heartbeatCount < max_heartbeat

/-- The invariant of a run. -/
structure Sound (max_heartbeat : Int) (s : SessionRun) : Prop where
  agree : s.Agree max_heartbeat
  heaps : s.server.m_heartbeatCounter.Sound
  limit : s.server.m_heartbeatCounter.m_counter.LIMIT = max_heartbeat
  nodup : s.pending.Nodup

variable {max_heartbeat : Int} {s : SessionRun}

theorem sound_init (timeout max_heartbeat : Int) :
    (init timeout max_heartbeat).Sound max_heartbeat := by
  refine ⟨⟨fun _ => rfl, fun id => ?_, ?_, ?_⟩, HeartbeatCounter.sound_init timeout max_heartbeat,
    rfl, List.nodup_nil⟩
  · have htimer : (init timeout max_heartbeat).hasTimer id = false := rfl
    have hpending : (init timeout max_heartbeat).pending = [] := rfl
    have hexist : (init timeout max_heartbeat).server.m_sessionManager.exist id = false := rfl
    rw [htimer, hpending, hexist]
    simp
  · intro id hid
    exact absurd hid List.not_mem_nil
  · intro id n hn
    cases hn

theorem Sound.add (h : s.Sound max_heartbeat) (env : Environment) (id : UInt64)
    (peerAddress : InetAddress) (hfresh : s.server.m_sessionManager.exist id = false) :
    (s.step env (.add id peerAddress)).Sound max_heartbeat := by
  obtain ⟨⟨htimers, hsessions, hdisjoint, hcounts⟩, hheaps, hlimit, hnodup⟩ := h
  -- The id is neither in the heaps nor pending.
  have hnew : ¬ (s.hasTimer id = true ∨ id ∈ s.pending) := by
    rw [← hsessions, hfresh]
    exact Bool.false_ne_true
  obtain ⟨htimer, hpending⟩ := not_or.mp hnew
  refine ⟨⟨htimers, fun d => ?_, fun d hd => ?_, hcounts⟩, hheaps, hlimit,
    List.nodup_cons.mpr ⟨hpending, hnodup⟩⟩
  -- The new session is pending.
  · show (s.server.m_sessionManager.add id peerAddress).exist d = true ↔
      s.hasTimer d = true ∨ d ∈ id :: s.pending
    rw [SessionManager.exist_add, Bool.or_eq_true, decide_eq_true_eq, hsessions d, List.mem_cons]
    exact or_left_comm
  · show s.hasTimer d = false
    rcases List.mem_cons.mp hd with rfl | hd
    · exact Bool.eq_false_iff.mpr htimer
    · exact hdisjoint d hd

theorem Sound.push (h : s.Sound max_heartbeat) (hmax : 1 ≤ max_heartbeat) (env : Environment)
    (id : UInt64) : (s.step env (.push id)).Sound max_heartbeat := by
  by_cases hid : id ∈ s.pending
  · have hstep : s.step env (.push id) =
        { server := s.server.pushSession env id, pending := s.pending.erase id } := if_pos hid
    rw [hstep]
    obtain ⟨⟨htimers, hsessions, hdisjoint, hcounts⟩, hheaps, hlimit, hnodup⟩ := h
    obtain ⟨hheaps', htimer', hcount'⟩ := HeartbeatCounter.sound_push env.now hheaps id
    -- The push gives the id a timer and changes no other.
    have hhas : ∀ d, ((s.server.m_heartbeatCounter.push env.now id).m_timer.find d).isSome =
        (decide (d = id) || s.hasTimer d) := by
      intro d
      rw [htimer']
      by_cases hd : d = id
      · simp [hd]
      · simp [hd, hasTimer]
    refine ⟨⟨hheaps'.same, fun d => ?_, fun d hd => ?_, fun d n hn => ?_⟩, hheaps', hlimit,
      hnodup.erase id⟩
    · -- The id goes from the pending ones to the timers.
      show s.server.m_sessionManager.exist d = true ↔
        ((s.server.m_heartbeatCounter.push env.now id).m_timer.find d).isSome = true ∨
          d ∈ s.pending.erase id
      rw [hhas, hsessions, hnodup.mem_erase_iff, Bool.or_eq_true, decide_eq_true_eq]
      by_cases hd : d = id
      · simp [hd, hid]
      · simp [hd]
    -- An id that is still pending is another one, because no id is pending twice.
    · obtain ⟨hne, hd⟩ := hnodup.mem_erase_iff.mp hd
      show ((s.server.m_heartbeatCounter.push env.now id).m_timer.find d).isSome = false
      rw [hhas, hdisjoint d hd]
      simp [hne]
    · have hn : (s.server.m_heartbeatCounter.push env.now id).m_counter.heap.find d = some n := hn
      rw [hcount'] at hn
      by_cases hd : d = id
      · subst hd
        rw [Function.update_self] at hn
        cases hn
        exact ⟨le_refl 0, hmax⟩
      · rw [Function.update_of_ne hd] at hn
        exact hcounts d n hn
  · have hstep : s.step env (.push id) = s := if_neg hid
    rw [hstep]
    exact h

theorem Sound.tick (h : s.Sound max_heartbeat) (env : Environment) :
    (s.step env .tick).Sound max_heartbeat := by
  obtain ⟨⟨htimers, hsessions, hdisjoint, hcounts⟩, hheaps, hlimit, hnodup⟩ := h
  obtain ⟨hheaps', hlimit', reached, -, hexist, hreached, htimer', hcount'⟩ :=
    SRCServer.tick_spec env hheaps
  have hhas : ∀ d, (s.step env .tick).hasTimer d =
      (!decide (d ∈ reached) && s.hasTimer d) := htimer'
  refine ⟨⟨hheaps'.same, fun d => ?_, fun d hd => ?_, fun d n hn => ?_⟩, hheaps',
    hlimit'.trans hlimit, hnodup⟩
  · show (s.server.tick env).m_sessionManager.exist d = true ↔
      (s.step env .tick).hasTimer d = true ∨ d ∈ s.pending
    rw [hexist, hhas, Bool.and_eq_true, hsessions, Bool.and_eq_true, Bool.not_eq_true',
      decide_eq_false_iff_not]
    -- A pending id has no timer, so it cannot reach the limit.
    have hpending : d ∈ s.pending → d ∉ reached := by
      intro hd hmem
      have htimer : s.hasTimer d = true := hreached d hmem
      rw [hdisjoint d hd] at htimer
      exact Bool.noConfusion htimer
    constructor
    · rintro ⟨hd, htimer | hmem⟩
      · exact Or.inl ⟨hd, htimer⟩
      · exact Or.inr hmem
    · rintro (⟨hd, htimer⟩ | hmem)
      · exact ⟨hd, Or.inl htimer⟩
      · exact ⟨hpending hmem, Or.inr hmem⟩
  · rw [hhas, hdisjoint d hd, Bool.and_false]
  -- The counts left are below the limit, and none has gone down.
  · obtain ⟨hlt, m, hm, hle⟩ := hcount' d n hn
    rw [hlimit] at hlt
    exact ⟨le_trans (hcounts d m hm).1 hle, hlt⟩

theorem Sound.onUDPMessage (h : s.Sound max_heartbeat) (hmax : 1 ≤ max_heartbeat)
    (env : Environment) (id : UInt64) : (s.step env (.onUDPMessage id)).Sound max_heartbeat := by
  cases hexist : s.server.m_sessionManager.exist id with
  -- A heartbeat without a session is dropped.
  | false =>
      have hstep : s.step env (.onUDPMessage id) = s := by
        show { s with server := s.server.onUDPMessage env id } = s
        rw [SRCServer.onUDPMessage, hexist]
        rfl
      rw [hstep]
      exact h
  | true =>
      have hstep : s.step env (.onUDPMessage id) = { s with server := { s.server with
          m_heartbeatCounter := s.server.m_heartbeatCounter.reset env.now id } } := by
        show { s with server := s.server.onUDPMessage env id } = _
        rw [SRCServer.onUDPMessage, hexist]
        rfl
      rw [hstep]
      obtain ⟨⟨htimers, hsessions, hdisjoint, hcounts⟩, hheaps, hlimit, hnodup⟩ := h
      obtain ⟨hheaps', htimer', hcount'⟩ := HeartbeatCounter.sound_reset env.now hheaps id
      -- A reset changes the nodes of the id, and the ids not at all.
      have hhas : ∀ d, ((s.server.m_heartbeatCounter.reset env.now id).m_timer.find d).isSome =
          s.hasTimer d := by
        intro d
        rw [htimer']
        by_cases hd : d = id
        · simp [hd, hasTimer]
        · simp [hd, hasTimer]
      refine ⟨⟨hheaps'.same, fun d => ?_, fun d hd => ?_, fun d n hn => ?_⟩, hheaps', hlimit,
        hnodup⟩
      · show s.server.m_sessionManager.exist d = true ↔
          ((s.server.m_heartbeatCounter.reset env.now id).m_timer.find d).isSome = true ∨
            d ∈ s.pending
        rw [hhas]
        exact hsessions d
      · show ((s.server.m_heartbeatCounter.reset env.now id).m_timer.find d).isSome = false
        rw [hhas]
        exact hdisjoint d hd
      · have hn : (s.server.m_heartbeatCounter.reset env.now id).m_counter.heap.find d = some n :=
          hn
        rw [hcount'] at hn
        by_cases hd : d = id
        · subst hd
          rw [Function.update_self] at hn
          obtain ⟨m, -, rfl⟩ := Option.map_eq_some_iff.mp hn
          exact ⟨le_refl 0, hmax⟩
        · rw [Function.update_of_ne hd] at hn
          exact hcounts d n hn

theorem Sound.step (hmax : 1 ≤ max_heartbeat) (env : Environment) (s : SessionRun) (call : Call)
    (h : s.Sound max_heartbeat) (hfresh : s.Fresh call) :
    (s.step env call).Sound max_heartbeat := by
  cases call with
  | add id peerAddress => exact h.add env id peerAddress hfresh
  | push id => exact h.push hmax env id
  | tick => exact h.tick env
  | onUDPMessage id => exact h.onUDPMessage hmax env id

/-- In every state of every interleaving in which the new ids are fresh, the tables agree. -/
theorem agree_of_fresh (env : Environment) (timeout max_heartbeat : Int)
    (hmax : 1 ≤ max_heartbeat) (calls : List Call)
    (hfresh : StepsMeet (step env) Fresh (init timeout max_heartbeat) calls) :
    AllStates (step env) (Agree max_heartbeat) (init timeout max_heartbeat) calls :=
  (allStates_of_stepsMeet (Sound.step hmax env) (sound_init timeout max_heartbeat) hfresh).imp
    fun _ h => h.agree

/-- A session whose heartbeats stay away, next to one that is still to be pushed. -/
theorem agree_of_fresh_two : 1 ≤ (1 : Int) ∧
    AllStates (step { now := fun k => 1000000000 * k, generateSessionId := fun _ => 0 }) (Agree 1)
      (init 10 1)
      [.add 7 { octets := (127, 0, 0, 1), port := 4000 }, .push 7,
        .add 8 { octets := (127, 0, 0, 1), port := 4001 }, .tick] :=
  ⟨by decide, agree_of_fresh _ 10 1 (by decide) _ ⟨rfl, trivial, rfl, trivial, trivial⟩⟩

end SessionRun

end RegistrationCenter
