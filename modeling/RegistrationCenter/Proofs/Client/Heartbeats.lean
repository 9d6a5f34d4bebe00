import RegistrationCenter.Lib.Runs
import RegistrationCenter.Proofs.Messages
import RegistrationCenter.Spec.SRCCLient

/-!
# `RegistrationCenter.Proofs.Client.Heartbeats`: whose heartbeats a client sends

A run interleaves the calls of `connect` and `disconnect` with the steps of all heartbeat
threads ever started. A thread sends the string that it made when it started, as long as
the client has some session. A thread that sleeps through a `disconnect` and a new
`connect` goes on with the heartbeats of the old session.

The run numbers the sessions. `origin` is the number of the session in which a thread made
its string, with zero for none. `carriesCurrent_iff` says that the heartbeats are those of
the current session exactly when no thread sends in another session than its own.
-/

set_option autoImplicit false

namespace RegistrationCenter

open Lib SRCCLient

/-- A client with the history of its sessions: how many there were, the id of each, the
number of the session in which each thread has made its string, and the strings sent, each
with the session id of the client at that time. -/
structure ClientRun where
  client : SRCCLient
  connects : Nat
  idOf : Nat → UInt64
  origin : Nat → Nat
  sent : List (Bytes × UInt64)

namespace ClientRun

variable {s : ClientRun}

inductive Event
  | connect (ip : Bytes) (port : UInt16) (res : WrappedResponse)
  | disconnect
  | heartbeatThread (i : Nat)

/-- The number of the session under way. -/
def session (s : ClientRun) : Nat := if s.client.m_isConnected then s.connects else 0

/-- The thread is about to make its string. -/
def Starts (s : ClientRun) (i : Nat) : Prop :=
  (s.client.threads[i]?).map HeartbeatThread.phase = some .starting

instance (s : ClientRun) (i : Nat) : Decidable (s.Starts i) :=
  inferInstanceAs (Decidable (_ = _))

def step (s : ClientRun) : Event → ClientRun
  | .connect ip port res =>
      match s.client.connect ip port res with
      | some (true, c) =>
          { s with
              client := c
              connects := s.connects + 1
              idOf := Function.update s.idOf (s.connects + 1) c.m_sessionId }
      | _ => s
  | .disconnect => { s with client := s.client.disconnect }
  | .heartbeatThread i =>
      let (sent, c) := s.client.heartbeatThread i
      { s with
          client := c
          origin := if s.Starts i then Function.update s.origin i s.session else s.origin
          sent := s.sent ++ sent.toList.map fun d => (d.sendstr, s.client.m_sessionId) }

/-- A client that has not connected yet. -/
def init (serverPort : UInt16) (sessionId : UInt64) : ClientRun :=
  { client := .new serverPort sessionId
    connects := 0
    idOf := fun _ => 0
    origin := fun _ => 0
    sent := [] }

/-- A `connect` that asks the server gets a session id that is not zero and that no session
before had. -/
def FreshId (s : ClientRun) : Event → Prop
  | .connect _ _ res => s.client.m_isConnected = false → ∃ id, res.responseType = .Connection ∧
      ParseFromString ConnectionResponse res.data = some { sessionId := id } ∧ id ≠ 0 ∧
        ∀ k, 0 < k → k ≤ s.connects → s.idOf k ≠ id
  | .disconnect => True
  | .heartbeatThread _ => True

/-- Each heartbeat sent carries the session id that the client had at that time. -/
def CarriesCurrent (s : ClientRun) : Prop :=
  ∀ d ∈ s.sent, ParseFromString HeartbeatMessage d.1 = some { sessionId := d.2 }

/-- A thread that sends has made its string in the session that is under way. -/
def InOwnSession (s : ClientRun) : Event → Prop
  | .connect _ _ _ => True
  | .disconnect => True
  | .heartbeatThread i => ∀ t sendstr, s.client.threads[i]? = some t →
      t.phase = .sending sendstr → s.origin i = s.session

end ClientRun

/-! ## The steps of a thread -/

namespace HeartbeatPhase

/-- The string that a thread has made. -/
def sendstr? : HeartbeatPhase → Option Bytes
  | .starting => none
  | .testing sendstr => some sendstr
  | .sending sendstr => some sendstr
  | .sleeping sendstr => some sendstr
  | .finished => none

/-- A thread keeps its string, and makes it when it starts. -/
theorem sendstr?_nextPhase {sessionId : UInt64} {p : HeartbeatPhase} {sendstr : Bytes}
    (h : (nextPhase sessionId p).2.sendstr? = some sendstr) :
    p.sendstr? = some sendstr ∨ (p = .starting ∧ sendstr = heartbeatString sessionId) := by
  cases p with
  | starting => exact Or.inr ⟨rfl, (Option.some.inj h).symm⟩
  | testing made =>
      -- The test fails in no session: the thread ends and has no string any more.
      by_cases hsession : sessionId ≠ 0
      · rw [nextPhase, if_pos hsession] at h
        exact Or.inl h
      · rw [nextPhase, if_neg hsession] at h
        cases h
  | sending made => exact Or.inl h
  | sleeping made => exact Or.inl h
  | finished => cases h

/-- A thread sends its string when it stands before the send. -/
theorem nextPhase_fst_eq_some {sessionId : UInt64} {p : HeartbeatPhase} {sendstr : Bytes} :
    (nextPhase sessionId p).1 = some sendstr ↔ p = .sending sendstr := by
  cases p with
  | sending made => simp [nextPhase]
  | starting => simp [nextPhase]
  | testing made => simp [nextPhase]
  | sleeping made => simp [nextPhase]
  | finished => simp [nextPhase]

end HeartbeatPhase

namespace ClientRun

variable {s : ClientRun}

/-- The invariant of a run. Session number zero stands for no session and has the id zero. -/
structure Sound (s : ClientRun) : Prop where
  zero : s.idOf 0 = 0
  distinct : ∀ j k, j ≤ s.connects → k ≤ s.connects → s.idOf j = s.idOf k → j = k
  current : s.client.threads = [] ∨ s.client.m_sessionId = s.idOf s.session
  made : ∀ i t sendstr, s.client.threads[i]? = some t → t.phase.sendstr? = some sendstr →
    s.origin i ≤ s.connects ∧ sendstr = heartbeatString (s.idOf (s.origin i))
  carries : s.CarriesCurrent

theorem sound_init (serverPort : UInt16) (sessionId : UInt64) :
    (init serverPort sessionId).Sound := by
  refine ⟨rfl, fun j k hj hk _ => ?_, Or.inl rfl, fun i t sendstr ht => ?_, fun d hd => ?_⟩
  · rw [Nat.le_zero.mp hj, Nat.le_zero.mp hk]
  · cases ht
  · exact absurd hd List.not_mem_nil

/-- Once a thread is started, the field holds the id of the session under way. -/
theorem Sound.session_id (h : s.Sound) {i : Nat} {t : HeartbeatThread}
    (ht : s.client.threads[i]? = some t) : s.client.m_sessionId = s.idOf s.session := by
  refine h.current.resolve_left fun hnil => ?_
  rw [hnil] at ht
  cases ht

theorem session_le (s : ClientRun) : s.session ≤ s.connects := by
  rw [session]
  split
  · exact le_refl _
  · exact Nat.zero_le _

/-- A new id keeps the ids distinct. -/
theorem distinct_update {idOf : Nat → UInt64} {n : Nat} {id : UInt64}
    (hdistinct : ∀ j k, j ≤ n → k ≤ n → idOf j = idOf k → j = k)
    (hnew : ∀ k, k ≤ n → idOf k ≠ id) (j k : Nat) (hj : j ≤ n + 1) (hk : k ≤ n + 1)
    (heq : Function.update idOf (n + 1) id j = Function.update idOf (n + 1) id k) : j = k := by
  -- Two numbers up to the old bound are old ones; the new number has the new id alone.
  by_cases hjn : j = n + 1
  · by_cases hkn : k = n + 1
    · rw [hjn, hkn]
    · rw [hjn, Function.update_self, Function.update_of_ne hkn] at heq
      exact absurd heq.symm (hnew k (by omega))
  · by_cases hkn : k = n + 1
    · rw [hkn, Function.update_self, Function.update_of_ne hjn] at heq
      exact absurd heq (hnew j (by omega))
    · rw [Function.update_of_ne hjn, Function.update_of_ne hkn] at heq
      exact hdistinct j k (by omega) (by omega) heq

/-- A `connect` that asks the server starts a thread and a new session. -/
theorem step_connect {ip : Bytes} {port : UInt16} {res : WrappedResponse} {id : UInt64}
    (hconnected : s.client.m_isConnected = false) (htype : res.responseType = .Connection)
    (hdata : ParseFromString ConnectionResponse res.data = some { sessionId := id }) :
    s.step (.connect ip port res) =
      { s with
          client :=
            { m_isConnected := true
              m_serverIp := ip
              m_serverPort := port
              m_sessionId := id
              threads := s.client.threads ++ [{ serverAddr := (ip, port), phase := .starting }] }
          connects := s.connects + 1
          idOf := Function.update s.idOf (s.connects + 1) id } := by
  simp only [step, SRCCLient.connect, hconnected, htype, hdata, Bool.false_eq_true, if_false]

theorem Sound.connect (h : s.Sound) (ip : Bytes) (port : UInt16) (res : WrappedResponse)
    (hfresh : s.FreshId (.connect ip port res)) : (s.step (.connect ip port res)).Sound := by
  cases hconnected : s.client.m_isConnected with
  -- A second `connect` is refused.
  | true =>
      have hstep : s.step (.connect ip port res) = s := by
        rw [step, SRCCLient.connect, hconnected]
        rfl
      rw [hstep]
      exact h
  | false =>
      obtain ⟨id, htype, hdata, hne, hnew⟩ := hfresh hconnected
      obtain ⟨hzero, hdistinct, -, hmade, hcarries⟩ := h
      rw [step_connect hconnected htype hdata]
      -- The new id is none of the old ones, nor that of no session.
      have hnew : ∀ k, k ≤ s.connects → s.idOf k ≠ id := by
        intro k hk
        rcases Nat.eq_zero_or_pos k with rfl | hpos
        · rw [hzero]
          exact hne.symm
        · exact hnew k hpos hk
      have hold : ∀ k, k ≤ s.connects →
          Function.update s.idOf (s.connects + 1) id k = s.idOf k := fun k hk =>
        Function.update_of_ne (by omega) _ _
      refine ⟨(hold 0 (Nat.zero_le _)).trans hzero, distinct_update hdistinct hnew, Or.inr ?_,
        fun i t sendstr ht hsend => ?_, hcarries⟩
      · exact (Function.update_self (s.connects + 1) id s.idOf).symm
      · have ht : (s.client.threads ++ [{ serverAddr := (ip, port), phase := .starting }])[i]? =
          some t := ht
        rw [List.getElem?_append] at ht
        split at ht
        · obtain ⟨hle, hstring⟩ := hmade i t sendstr ht hsend
          exact ⟨Nat.le_succ_of_le hle, hstring.trans (congrArg heartbeatString (hold _ hle).symm)⟩
        · -- The new thread has made no string yet.
          rw [List.mem_singleton.mp (List.mem_of_getElem? ht)] at hsend
          cases hsend

theorem Sound.disconnect (h : s.Sound) : (s.step .disconnect).Sound := by
  cases hconnected : s.client.m_isConnected with
  | false =>
      have hstep : s.step .disconnect = s := by
        rw [step, SRCCLient.disconnect, hconnected]
        rfl
      rw [hstep]
      exact h
  | true =>
      have hstep : s.step .disconnect = { s with client := { s.client with
          m_isConnected := false, m_serverIp := [], m_serverPort := 0, m_sessionId := 0 } } := by
        rw [step, SRCCLient.disconnect, hconnected]
        rfl
      rw [hstep]
      exact ⟨h.zero, h.distinct, Or.inr h.zero.symm, h.made, h.carries⟩

/-- The step of a thread that is there. -/
theorem step_heartbeatThread {i : Nat} {t : HeartbeatThread}
    (ht : s.client.threads[i]? = some t) :
    let r := nextPhase s.client.m_sessionId t.phase
    s.step (.heartbeatThread i) =
      { s with
          client := { s.client with threads := s.client.threads.set i { t with phase := r.2 } }
          origin := if t.phase = .starting then Function.update s.origin i s.session else s.origin
          sent := s.sent ++ r.1.toList.map fun sendstr => (sendstr, s.client.m_sessionId) } := by
  intro r
  have hstarts : s.Starts i ↔ t.phase = .starting := by
    rw [Starts, ht, Option.map_some, Option.some.injEq]
  simp only [step, SRCCLient.heartbeatThread, ht, hstarts]
  cases r.1 with
  | none => rfl
  | some sendstr => rfl

/-- A thread that is not there takes no step. -/
theorem step_heartbeatThread_none {i : Nat} (ht : s.client.threads[i]? = none) :
    s.step (.heartbeatThread i) = s := by
  have hstarts : ¬ s.Starts i := by
    rw [Starts, ht]
    exact nofun
  simp only [step, SRCCLient.heartbeatThread, ht, hstarts]
  simp

theorem Sound.heartbeatThread (h : s.Sound) (i : Nat)
    (hown : s.InOwnSession (.heartbeatThread i)) : (s.step (.heartbeatThread i)).Sound := by
  cases ht : s.client.threads[i]? with
  | none =>
      rw [step_heartbeatThread_none ht]
      exact h
  | some t =>
      have hid := h.session_id ht
      rw [step_heartbeatThread ht]
      refine ⟨h.zero, h.distinct, Or.inr hid, fun j t' sendstr ht' hsend => ?_, fun d hd => ?_⟩
      -- The string of this thread is the old one, or it is made in this step.
      · by_cases hj : j = i
        · subst hj
          have hlt : j < s.client.threads.length := (List.getElem?_eq_some_iff.mp ht).1
          have ht' : (s.client.threads.set j _)[j]? = some t' := ht'
          rw [List.getElem?_set_self hlt, Option.some.injEq] at ht'
          subst ht'
          rcases HeartbeatPhase.sendstr?_nextPhase hsend with hold | ⟨hphase, hnew⟩
          · have hphase : t.phase ≠ .starting := by
              intro hphase
              rw [hphase] at hold
              cases hold
            simp only [if_neg hphase]
            exact h.made j t sendstr ht hold
          · -- The string is made now, of the session under way.
            simp only [if_pos hphase, Function.update_self]
            exact ⟨s.session_le, hid ▸ hnew⟩
        -- The other threads keep their strings.
        · have ht' : (s.client.threads.set i _)[j]? = some t' := ht'
          rw [List.getElem?_set_ne (Ne.symm hj)] at ht'
          have horigin : (if t.phase = .starting then Function.update s.origin i s.session
              else s.origin) j = s.origin j := by
            split
            · exact Function.update_of_ne hj _ _
            · rfl
          simp only [horigin]
          exact h.made j t' sendstr ht' hsend
      · rcases List.mem_append.mp hd with hd | hd
        · exact h.carries d hd
        · -- The string sent is the thread's own, made in the session under way.
          obtain ⟨sendstr, hsent, rfl⟩ := List.mem_map.mp hd
          have hphase := HeartbeatPhase.nextPhase_fst_eq_some.mp (Option.mem_toList.mp hsent)
          obtain ⟨-, hmade⟩ := h.made i t sendstr ht (by rw [hphase]; rfl)
          rw [hmade, hown t sendstr ht hphase, ← hid]
          exact HeartbeatMessage.parse_serialize_self _

theorem Sound.step (s : ClientRun) (event : Event) (h : s.Sound) (hfresh : s.FreshId event)
    (hown : s.InOwnSession event) : (s.step event).Sound := by
  cases event with
  | connect ip port res => exact h.connect ip port res hfresh
  | disconnect => exact h.disconnect
  | heartbeatThread i => exact h.heartbeatThread i hown

/-- A thread that sends in another session than its own sends the wrong session id. -/
theorem Sound.not_carriesCurrent (s : ClientRun) (event : Event) (h : s.Sound)
    (_ : s.FreshId event) (hother : ¬ s.InOwnSession event) :
    ¬ (s.step event).CarriesCurrent := by
  cases event with
  | connect ip port res => exact absurd trivial hother
  | disconnect => exact absurd trivial hother
  | heartbeatThread i =>
      unfold InOwnSession at hother
      push Not at hother
      obtain ⟨t, sendstr, ht, hphase, hother⟩ := hother
      have hid := h.session_id ht
      obtain ⟨hle, hmade⟩ := h.made i t sendstr ht (by rw [hphase]; rfl)
      rw [step_heartbeatThread ht, hphase]
      intro hcarries
      -- The string names the session of its origin, the field the session under way.
      have hsent := hcarries (sendstr, s.client.m_sessionId)
        (List.mem_append.mpr (Or.inr (List.mem_singleton.mpr rfl)))
      rw [hmade, heartbeatString, HeartbeatMessage.parse_serialize_self, Option.some.injEq,
        HeartbeatMessage.mk.injEq, hid] at hsent
      exact hother (h.distinct _ _ hle s.session_le hsent)

/-- In all states of a run in which each session gets a fresh id, the heartbeats sent were
those of the session at that time, exactly when no thread sends in another session than that
in which it made its string. -/
theorem carriesCurrent_iff (serverPort : UInt16) (sessionId : UInt64) (events : List Event)
    (hfresh : StepsMeet step FreshId (init serverPort sessionId) events) :
    AllStates step CarriesCurrent (init serverPort sessionId) events ↔
      StepsMeet step InOwnSession (init serverPort sessionId) events :=
  allStates_iff_stepsMeet_of (fun _ h => h.carries) Sound.step Sound.not_carriesCurrent
    (sound_init serverPort sessionId) hfresh

/-- The server's answer to a `connect`. -/
def answer (sessionId : UInt64) : WrappedResponse :=
  { responseType := .Connection
    data := SerializeAsString ({ sessionId := sessionId } : ConnectionResponse) }

/-- One session with one heartbeat. -/
def oneSession : List Event :=
  [.connect (bytes "127.0.0.1") 4000 (answer 5), .heartbeatThread 0, .heartbeatThread 0,
    .heartbeatThread 0, .disconnect]

theorem freshId_oneSession : StepsMeet step FreshId (init 0 0) oneSession :=
  ⟨fun _ => ⟨5, rfl, by decide, by decide, fun _ hpos hle => absurd hpos (Nat.not_lt.mpr hle)⟩,
    trivial, trivial, trivial, trivial, trivial⟩

theorem carriesCurrent_iff_oneSession :
    AllStates step CarriesCurrent (init 0 0) oneSession ↔
      StepsMeet step InOwnSession (init 0 0) oneSession :=
  carriesCurrent_iff 0 0 oneSession freshId_oneSession

/-- The thread of session 5 sleeps while the client leaves the session and opens session 6.
It goes on with the heartbeats of session 5. -/
theorem not_carriesCurrent_reconnect :
    let events := oneSession ++ [.connect (bytes "127.0.0.1") 4000 (answer 6),
      .heartbeatThread 0, .heartbeatThread 0, .heartbeatThread 0]
    StepsMeet step FreshId (init 0 0) events ∧
      ¬ AllStates step CarriesCurrent (init 0 0) events := by
  intro events
  refine ⟨?_, fun h => ?_⟩
  · have hfirst : ∀ k, 0 < k → k ≤ 0 → (init 0 0).idOf k ≠ 5 := fun k hpos hle =>
      absurd hpos (Nat.not_lt.mpr hle)
    have hsecond : ∀ k, 0 < k → k ≤ 1 → (oneSession.foldl step (init 0 0)).idOf k ≠ 6 := by
      intro k hpos hle
      obtain rfl : k = 1 := by omega
      decide
    exact ⟨fun _ => ⟨5, rfl, by decide, by decide, hfirst⟩, trivial, trivial, trivial, trivial,
      fun _ => ⟨6, rfl, by decide, by decide, hsecond⟩, trivial, trivial, trivial, trivial⟩
  · exact absurd (h.last (heartbeatString 5, 6) (by decide)) (by decide)

end ClientRun

end RegistrationCenter
