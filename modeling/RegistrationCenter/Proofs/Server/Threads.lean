import RegistrationCenter.Proofs.Server.Registry
import RegistrationCenter.Spec.ServerThreads

/-!
# `RegistrationCenter.Proofs.Server.Threads`: the threads of the server between their calls

`Registrar` is what the threads make of the registry. A tick still takes all dead sessions out
at once, but their session nodes go one session after another, and requests come in between.
`Registrar.Next` says so: the removals of one tick are done before the next tick, and before the
next heartbeat. A session node that is created later in the name of a dead session is none of
them, and stays.

The calls are those of `Spec.ServerThreads`, where a call of the heartbeat counter is atomic by
assumption. Each call of a thread is one step of the registrar, or it is not seen
(`next_registrar`). The invariant is `Sound`. It says how far the callback of the UDP thread has
come with the tables, which ids the IO threads are about to register, and that the root of the
counter stays the one that the callback was run for, so that it is the one popped. New session
ids must be in nobody's use.
-/

set_option autoImplicit false

namespace RegistrationCenter

open Lib

/-! ## The registrar -/

/-- A registry, and the sessions that the last tick has taken out and whose session nodes are still
to be removed. They are not all dead sessions that have session nodes. -/
@[ext] structure Registrar where
  registry : Registry
  leaving : Set UInt64

namespace Registrar

/-- The registrar with the root and without sessions. -/
def init : Registrar := { registry := .init, leaving := ∅ }

/-- The registrar after a tick: the dropped sessions are dead, and their removals are to be done. -/
noncomputable def afterTick (period limit : Int) (due : Set UInt64) (moment : UInt64 → Int)
    (r : Registrar) : Registrar :=
  let sessions := (r.registry.afterTick period limit due moment).sessions
  { registry := { r.registry with sessions := sessions }
    leaving := { id | (r.registry.sessions id).isSome ∧ sessions id = none } }

/-- The registrar when the session nodes of a dead session have gone, and what lies below them. -/
noncomputable def afterDrop (id : UInt64) (r : Registrar) : Registrar :=
  { registry := { r.registry with
      nodes := r.registry.nodes.cutWhere fun e => e.type = .EPHEMERAL ∧ e.owner = id }
    leaving := r.leaving \ {id} }

/-- A step of the registrar. One without a label is not seen from outside. -/
inductive Next (period limit : Int) (r : Registrar) : Option Registry.Label → Registrar → Prop
  | silent : Next period limit r none r
  | message (start stop : Int) (sessionId : UInt64) (demand : Demand)
      (response : WrappedResponse) (registry : Registry)
      (hanswered : r.registry.Answered period start sessionId demand response registry) :
      Next period limit r
        (some ⟨.message demand, start, stop, sessionId, some (SerializeAsString response)⟩)
        { r with registry := registry }
  | heartbeat (start stop : Int) (sessionId id : UInt64) (hleaving : r.leaving = ∅) :
      Next period limit r (some ⟨.heartbeat id, start, stop, sessionId, none⟩)
        { r with registry := r.registry.beaten period start id }
  | tick (start stop : Int) (sessionId : UInt64) (due : Set UInt64) (moment : UInt64 → Int)
      (hleaving : r.leaving = ∅) (hdue : r.registry.Due start stop due moment) :
      Next period limit r (some ⟨.tick, start, stop, sessionId, none⟩)
        (r.afterTick period limit due moment)
  | drop (id : UInt64) (hid : id ∈ r.leaving) : Next period limit r none (r.afterDrop id)

end Registrar

/-! ## The threads -/

/-- The id that an IO thread is about to register. -/
def IoThread.Opens (id : UInt64) : IoThread → Prop
  | .idle => False
  | .add sessionId _ => sessionId = id
  | .push sessionId => sessionId = id
  | .send _ => False

namespace UdpThread

/-- The id that the callback runs for, and how many of its calls are done. -/
def callback : UdpThread → Option (UInt64 × Nat)
  | .tickTimer => none
  | .tickCounter => none
  | .del id => some (id, 0)
  | .remove id => some (id, 1)
  | .removeEphemeral id => some (id, 2)
  | .pop id => some (id, 3)
  | .recvfrom => none
  | .reset _ => none

/-- So many calls of the callback for this id are done. -/
def Done (n : Nat) (id : UInt64) (u : UdpThread) : Prop := ∃ k, u.callback = some (id, k) ∧ n ≤ k

/-- The tick of the counter is over. -/
def Settled (u : UdpThread) : Prop := u.callback = none ∧ u ≠ .tickCounter

theorem not_done {u : UdpThread} (h : u.callback = none) (n : Nat) (id : UInt64) :
    ¬ u.Done n id := by
  rintro ⟨k, hk, -⟩
  rw [h] at hk
  cases hk

theorem done_iff {u : UdpThread} {d : UInt64} {k : Nat} (h : u.callback = some (d, k)) (n : Nat)
    (id : UInt64) : u.Done n id ↔ id = d ∧ n ≤ k := by
  constructor
  · rintro ⟨j, hj, hle⟩
    rw [h] at hj
    cases hj
    exact ⟨rfl, hle⟩
  · rintro ⟨rfl, hle⟩
    exact ⟨k, h, hle⟩

end UdpThread

namespace ServerThreads

/-- The session ids with a count. -/
def Counted (s : ServerThreads) (id : UInt64) : Prop :=
  (s.server.m_heartbeatCounter.m_counter.heap.find id).isSome

/-- A session id that a table or an IO thread has. -/
def InUse (s : ServerThreads) (id : UInt64) : Prop :=
  s.server.m_sessionManager.exist id = true ∨ s.Counted id ∨ ∃ i, (s.io i).Opens id

/-- The message asks for a connection. -/
def IsConnection (data : Bytes) : Prop :=
  (ParseFromString WrappedRequest data).map WrappedRequest.requestType = some .Connection

/-- The session id that a message is given is in nobody's use. -/
def Fresh (env : Environment) (s : ServerThreads) : Event → Prop
  | .onMessage thread _ data => s.io thread = .idle → IsConnection data →
      ¬ s.InUse (env.generateSessionId s.server.generated)
  | .io _ => True
  | .udp _ => True

/-- What holds between any two calls. -/
structure Sound (timeout max_heartbeat : Int) (s : ServerThreads) : Prop where
  store : s.server.services.WellFormed
  timer : s.server.m_heartbeatCounter.m_timer.Valid
  counter : s.server.m_heartbeatCounter.m_counter.heap.Valid
  period : s.server.m_heartbeatCounter.m_timeout = timeout
  limit : s.server.m_heartbeatCounter.m_counter.LIMIT = max_heartbeat
  /-- The callback deletes the timer first. -/
  timers : ∀ id, (s.server.m_heartbeatCounter.m_timer.find id).isSome ↔
    s.Counted id ∧ ¬ s.udp.Done 1 id
  /-- The callback removes the session next. An IO thread adds it before it pushes it. -/
  sessions : ∀ id, s.server.m_sessionManager.exist id = true ↔
    (s.Counted id ∧ ¬ s.udp.Done 2 id) ∨ ∃ i, s.io i = .push id
  opens : ∀ i id, (s.io i).Opens id → ¬ s.Counted id
  distinct : ∀ i j id, (s.io i).Opens id → (s.io j).Opens id → i = j
  /-- The root is the node that the callback runs for. -/
  root : ∀ id, s.udp.Done 0 id → ∃ top,
    s.server.m_heartbeatCounter.m_counter.heap.nodes[0]? = some top ∧ top.id = id ∧
      max_heartbeat ≤ top.heartbeatCount
  settled : s.udp.Settled → ∀ id n,
    s.server.m_heartbeatCounter.m_counter.heap.find id = some n → n.heartbeatCount < max_heartbeat

/-- What the state of the threads stands for. A session that has reached the limit is dead. -/
def registrar (max_heartbeat : Int) (s : ServerThreads) : Registrar where
  registry :=
    { s.server.registry with
      sessions := fun id =>
        (s.server.registry.sessions id).filter fun l => decide (l.missed < max_heartbeat) }
  leaving := { id | (∃ n, s.server.m_heartbeatCounter.m_counter.heap.find id = some n ∧
    max_heartbeat ≤ n.heartbeatCount) ∧ ¬ s.udp.Done 3 id }

/-- What is seen of a step. -/
def label (env : Environment) (s : ServerThreads) (event : Event) : Option Registry.Label :=
  let start := env.now s.server.m_heartbeatCounter.reads
  let stop := env.now (s.step env event).server.m_heartbeatCounter.reads
  match event with
  | .onMessage thread peerAddress data =>
      match s.io thread with
      | .idle =>
          match (ParseFromString WrappedRequest data).map WrappedRequest.requestType with
          | some .Connection => none
          | _ => some ⟨.message (Demand.parse data), start, stop, 0,
              some (SerializeAsString (s.server.onData env peerAddress data).1)⟩
      | _ => none
  | .io thread =>
      match s.io thread with
      | .push id => some ⟨.message .connection, start, stop, id,
          some (SerializeAsString (Registry.connectionResponse id))⟩
      | _ => none
  | .udp _ =>
      match s.udp with
      | .tickTimer => some ⟨.tick, start, stop, 0, none⟩
      | .reset id => some ⟨.heartbeat id, start, stop, 0, none⟩
      | _ => none

variable {env : Environment} {timeout max_heartbeat : Int} {s : ServerThreads}

theorem sound_init (timeout max_heartbeat : Int) :
    (init timeout max_heartbeat).Sound timeout max_heartbeat := by
  have hcounted : ∀ id, ¬ (init timeout max_heartbeat).Counted id := fun id h => Bool.noConfusion h
  exact {
    store := Services.wellFormed_init
    timer := IndexedHeap.valid_empty
    counter := IndexedHeap.valid_empty
    period := rfl
    limit := rfl
    timers := fun id => ⟨fun h => Bool.noConfusion h, fun h => absurd h.1 (hcounted id)⟩
    sessions := fun id => ⟨fun h => Bool.noConfusion h, fun h => by
      rcases h with ⟨h, -⟩ | ⟨i, hi⟩
      · exact absurd h (hcounted id)
      · cases hi⟩
    opens := fun i id _ => hcounted id
    distinct := fun i j id h _ => h.elim
    root := fun id h => by
      obtain ⟨k, hk, -⟩ := h
      cases hk
    settled := fun _ id n h => by cases h }

/-! ### The IO threads -/

/-- Another thread, or this one now, opens the id. -/
theorem opens_update {io : Nat → IoThread} {i j : Nat} {next : IoThread} {id : UInt64} :
    (Function.update io i next j).Opens id ↔
      (j = i ∧ next.Opens id) ∨ (j ≠ i ∧ (io j).Opens id) := by
  by_cases hj : j = i
  · subst hj
    rw [Function.update_self]
    simp
  · rw [Function.update_of_ne hj]
    simp [hj]

theorem push_update {io : Nat → IoThread} {i : Nat} {next : IoThread} {id : UInt64} :
    (∃ j, Function.update io i next j = .push id) ↔
      next = .push id ∨ ∃ j, j ≠ i ∧ io j = .push id := by
  constructor
  · rintro ⟨j, hj⟩
    by_cases hji : j = i
    · subst hji
      rw [Function.update_self] at hj
      exact .inl hj
    · rw [Function.update_of_ne hji] at hj
      exact .inr ⟨j, hji, hj⟩
  · rintro (rfl | ⟨j, hji, hj⟩)
    · exact ⟨i, Function.update_self _ _ _⟩
    · exact ⟨j, (Function.update_of_ne hji _ _).trans hj⟩

/-- The id that the callback runs for has a count. -/
theorem Sound.counted_of_done (hs : s.Sound timeout max_heartbeat) {n : Nat} {id : UInt64}
    (h : s.udp.Done n id) : s.Counted id := by
  obtain ⟨k, hk, -⟩ := h
  obtain ⟨top, htop, rfl, -⟩ := hs.root id ⟨k, hk, Nat.zero_le k⟩
  exact Option.isSome_iff_exists.mpr ⟨top, (hs.counter.find_root htop).1⟩

/-- An IO thread goes on, and neither has it been about to push nor is it now. -/
theorem Sound.goto (hs : s.Sound timeout max_heartbeat) {i : Nat} {next : IoThread}
    (hold : ∀ id, s.io i ≠ .push id) (hnew : ∀ id, next ≠ .push id)
    (hopens : ∀ id, next.Opens id → ¬ s.Counted id ∧ ∀ j, ¬ (s.io j).Opens id) :
    (s.goto i next).Sound timeout max_heartbeat := by
  refine ⟨hs.store, hs.timer, hs.counter, hs.period, hs.limit, hs.timers, fun id => ?_, ?_, ?_,
    hs.root, hs.settled⟩
  · rw [show (s.goto i next).server.m_sessionManager.exist id = true ↔ _ from hs.sessions id]
    refine or_congr_right ?_
    rw [show (s.goto i next).io = Function.update s.io i next from rfl, push_update]
    constructor
    · rintro ⟨j, hj⟩
      refine .inr ⟨j, ?_, hj⟩
      rintro rfl
      exact hold id hj
    · rintro (h | ⟨j, -, hj⟩)
      · exact absurd h (hnew id)
      · exact ⟨j, hj⟩
  · intro j id hj
    rcases opens_update.mp hj with ⟨-, hnext⟩ | ⟨-, hj⟩
    · exact (hopens id hnext).1
    · exact hs.opens j id hj
  · intro j k id hj hk
    rcases opens_update.mp hj with ⟨hji, hnext⟩ | ⟨-, hold⟩
    · rcases opens_update.mp hk with ⟨hki, -⟩ | ⟨-, hother⟩
      · rw [hji, hki]
      · exact absurd hother ((hopens id hnext).2 k)
    · rcases opens_update.mp hk with ⟨-, hnext⟩ | ⟨-, hother⟩
      · exact absurd hold ((hopens id hnext).2 j)
      · exact hs.distinct j k id hold hother

/-- The store has performed something, or a session id has been generated. -/
theorem Sound.setServices (hs : s.Sound timeout max_heartbeat) {services : Services}
    (hstore : services.WellFormed) (generated : Nat) :
    Sound timeout max_heartbeat { s with
      server := { s.server with services := services, generated := generated } } :=
  ⟨hstore, hs.timer, hs.counter, hs.period, hs.limit, hs.timers, hs.sessions, hs.opens, hs.distinct,
    hs.root, hs.settled⟩

/-- A message that asks for a connection takes a session id. -/
theorem step_connection {i : Nat} (hidle : s.io i = .idle) (peerAddress : InetAddress)
    {data : Bytes} (hdata : IsConnection data) :
    s.step env (.onMessage i peerAddress data) =
      { s with server := { s.server with generated := s.server.generated + 1 } }.goto i
        (.add (env.generateSessionId s.server.generated) peerAddress) := by
  simp only [step, hidle]
  rw [onMessage, hdata]

/-- All other messages are served in one call. -/
theorem step_onData {i : Nat} (hidle : s.io i = .idle) (peerAddress : InetAddress)
    {data : Bytes} (hdata : ¬ IsConnection data) :
    s.step env (.onMessage i peerAddress data) =
      { s with server := (s.server.onData env peerAddress data).2 }.goto i
        (.send (s.server.onData env peerAddress data).1) := by
  simp only [step, hidle]
  rw [onMessage]
  split
  case h_1 heq => exact absurd heq hdata
  case h_2 => rfl

/-- A message is read. -/
theorem next_onMessage (hs : s.Sound timeout max_heartbeat) {i : Nat} (hidle : s.io i = .idle)
    (peerAddress : InetAddress) (data : Bytes)
    (hfresh : s.Fresh env (.onMessage i peerAddress data)) :
    let event := Event.onMessage i peerAddress data
    (s.step env event).Sound timeout max_heartbeat ∧
      (s.registrar max_heartbeat).Next timeout max_heartbeat (s.label env event)
        ((s.step env event).registrar max_heartbeat) := by
  intro event
  have hold : ∀ id, s.io i ≠ .push id := fun id h => by
    rw [hidle] at h
    cases h
  by_cases hdata : IsConnection data
  · have hlabel : s.label env event = none := by
      rw [label]
      simp only [hidle]
      rw [hdata]
    rw [hlabel, show s.step env event = _ from step_connection hidle peerAddress hdata]
    refine ⟨(hs.setServices hs.store (s.server.generated + 1)).goto hold
      (fun id h => by cases h) ?_, .silent⟩
    rintro id rfl
    have hfresh := hfresh hidle hdata
    exact ⟨fun h => hfresh (.inr (.inl h)), fun j hj => hfresh (.inr (.inr ⟨j, hj⟩))⟩
  · have hlabel : s.label env event = some ⟨.message (Demand.parse data),
        env.now s.server.m_heartbeatCounter.reads,
        env.now (s.step env event).server.m_heartbeatCounter.reads, 0,
        some (SerializeAsString (s.server.onData env peerAddress data).1)⟩ := by
      rw [label]
      simp only [event, hidle]
      split
      case h_1 heq => exact absurd heq hdata
      case h_2 => rfl
    have hnodes : (s.registrar max_heartbeat).registry.nodes = s.server.services.tree := rfl
    obtain ⟨hserver, hstore, hanswered⟩ := SRCServer.answered_onData hs.store hdata env peerAddress
      hnodes timeout (env.now s.server.m_heartbeatCounter.reads) 0
    rw [hlabel, show s.step env event = _ from step_onData hidle peerAddress hdata, hserver]
    exact ⟨(hs.setServices hstore s.server.generated).goto hold (fun id h => by cases h)
      (fun id h => h.elim), .message _ _ _ _ _ _ hanswered⟩

/-- A session is added. -/
theorem Sound.add (hs : s.Sound timeout max_heartbeat) {i : Nat} {id : UInt64}
    {peerAddress : InetAddress} (hi : s.io i = .add id peerAddress) :
    ({ s with server := s.server.addSession id peerAddress }.goto i (.push id)).Sound timeout
      max_heartbeat := by
  have hopens : ∀ {j d}, (Function.update s.io i (.push id) j).Opens d → (s.io j).Opens d := by
    intro j d hj
    rcases opens_update.mp hj with ⟨rfl, rfl⟩ | ⟨-, hj⟩
    · rw [hi]
      rfl
    · exact hj
  refine ⟨hs.store, hs.timer, hs.counter, hs.period, hs.limit, hs.timers, fun d => ?_,
    fun j d hj => hs.opens j d (hopens hj),
    fun j k d hj hk => hs.distinct j k d (hopens hj) (hopens hk), hs.root, hs.settled⟩
  show (s.server.m_sessionManager.add id peerAddress).exist d = true ↔
    _ ∨ ∃ j, Function.update s.io i (.push id) j = .push d
  rw [SessionManager.exist_add, Bool.or_eq_true, decide_eq_true_eq, hs.sessions d, push_update,
    or_left_comm]
  refine or_congr_right (or_congr ?_ ?_)
  · exact ⟨fun h => by rw [h], fun h => by cases h; rfl⟩
  · constructor
    · rintro ⟨j, hj⟩
      refine ⟨j, ?_, hj⟩
      rintro rfl
      rw [hi] at hj
      cases hj
    · rintro ⟨j, -, hj⟩
      exact ⟨j, hj⟩

/-- The tables after a session is pushed. -/
theorem find_pushSession (hs : s.Sound timeout max_heartbeat) (env : Environment) (id : UInt64) :
    let counter := s.server.m_heartbeatCounter
    let counter' := (s.server.pushSession env id).m_heartbeatCounter
    counter'.m_timer.Valid ∧ counter'.m_counter.heap.Valid ∧
      counter'.m_timer.find = Function.update counter.m_timer.find id (some
        { id := id, expires := env.now counter.reads + MS timeout, cb := .timeoutFunc }) ∧
      counter'.m_counter.heap.find = Function.update counter.m_counter.heap.find id (some
        { id := id, heartbeatCount := 0, cb := .heartbeatReach }) := by
  intro counter counter'
  obtain ⟨htimer, hfind⟩ := HeapTimer.find_push env.now hs.timer counter.reads id
    counter.m_timeout .timeoutFunc
  obtain ⟨hcounter, hcount⟩ := HeapHeartBeatCounter.find_push hs.counter id .heartbeatReach
  rw [← hs.period]
  exact ⟨htimer, hcounter, hfind, hcount⟩

/-- A session is pushed. -/
theorem Sound.push (hmax : 1 ≤ max_heartbeat) (hs : s.Sound timeout max_heartbeat) {i : Nat}
    {id : UInt64} (hi : s.io i = .push id) (resp : WrappedResponse) :
    ({ s with server := s.server.pushSession env id }.goto i (.send resp)).Sound timeout
      max_heartbeat := by
  obtain ⟨htimer, hcounter, hfind, hcount⟩ := find_pushSession hs env id
  have hnew : ¬ s.Counted id := hs.opens i id (hi ▸ rfl)
  have hdone : ∀ n, ¬ s.udp.Done n id := fun n h => hnew (hs.counted_of_done h)
  -- The id is counted now, and the others are as they were.
  have hcounted : ∀ d, ServerThreads.Counted
      ({ s with server := s.server.pushSession env id }.goto i (.send resp)) d ↔
        d = id ∨ s.Counted d := by
    intro d
    show ((s.server.pushSession env id).m_heartbeatCounter.m_counter.heap.find d).isSome ↔ _
    rw [hcount]
    by_cases hd : d = id
    · subst hd
      simp
    · rw [Function.update_of_ne hd]
      exact (or_iff_right hd).symm
  have hopens : ∀ {j d}, (Function.update s.io i (.send resp) j).Opens d →
      j ≠ i ∧ (s.io j).Opens d := by
    intro j d hj
    rcases opens_update.mp hj with ⟨-, hnext⟩ | hold
    · exact hnext.elim
    · exact hold
  refine ⟨hs.store, htimer, hcounter, hs.period, hs.limit, fun d => ?_, fun d => ?_,
    fun j d hj => ?_, fun j k d hj hk => hs.distinct j k d (hopens hj).2 (hopens hk).2,
    fun d hd => ?_, fun hsettled d n hn => ?_⟩
  · rw [hcounted d]
    show ((s.server.pushSession env id).m_heartbeatCounter.m_timer.find d).isSome ↔
      _ ∧ ¬ s.udp.Done 1 d
    rw [hfind]
    by_cases hd : d = id
    · subst hd
      simp [hdone]
    · rw [Function.update_of_ne hd, hs.timers d, or_iff_right hd]
  · rw [hcounted d]
    show s.server.m_sessionManager.exist d = true ↔
      (_ ∧ ¬ s.udp.Done 2 d) ∨ ∃ j, Function.update s.io i (.send resp) j = .push d
    rw [hs.sessions d, push_update]
    by_cases hd : d = id
    · subst hd
      exact ⟨fun _ => .inl ⟨.inl rfl, hdone 2⟩, fun _ => .inr ⟨i, hi⟩⟩
    · rw [or_iff_right hd]
      refine or_congr_right ⟨fun ⟨j, hj⟩ => .inr ⟨j, ?_, hj⟩, fun h => ?_⟩
      · rintro rfl
        rw [hi] at hj
        exact hd (IoThread.push.inj hj).symm
      · rcases h with h | ⟨j, -, hj⟩
        · cases h
        · exact ⟨j, hj⟩
  · rw [hcounted d]
    obtain ⟨hji, hold⟩ := hopens hj
    rintro (rfl | hd)
    · exact hji (hs.distinct j i d hold (hi ▸ rfl))
    · exact hs.opens j d hold hd
  -- The new node has the count 0, so it does not beat the root.
  · obtain ⟨top, htop, hid, hle⟩ := hs.root d hd
    have hindex : s.server.m_heartbeatCounter.m_counter.heap.index id = none := by
      rw [← Option.not_isSome_iff_eq_none, hs.counter.indexed.index_isSome]
      exact hnew
    refine ⟨top, IndexedHeap.pushNode_below_root hindex htop ?_, hid, hle⟩
    show -top.heartbeatCount ≤ -0
    omega
  · have hn : (s.server.pushSession env id).m_heartbeatCounter.m_counter.heap.find d = some n := hn
    rw [hcount] at hn
    by_cases hd : d = id
    · subst hd
      rw [Function.update_self] at hn
      cases hn
      exact Int.lt_of_lt_of_le Int.one_pos hmax
    · rw [Function.update_of_ne hd] at hn
      exact hs.settled hsettled d n hn

/-- A pushed session is an opened one. -/
theorem registrar_push (hmax : 1 ≤ max_heartbeat) (hs : s.Sound timeout max_heartbeat) {i : Nat}
    {id : UInt64} (hi : s.io i = .push id) (resp : WrappedResponse) :
    let s' := { s with server := s.server.pushSession env id }.goto i (.send resp)
    let r := s.registrar max_heartbeat
    let start := env.now s.server.m_heartbeatCounter.reads
    s'.registrar max_heartbeat = { r with registry := r.registry.opened timeout start id } := by
  intro s' r start
  obtain ⟨-, -, hfind, hcount⟩ := find_pushSession hs env id
  refine Registrar.ext (congrArg (Registry.mk s.server.services.tree) (funext fun d => ?_))
    (Set.ext fun d => and_congr_left fun _ => ?_)
  · show (((s.server.pushSession env id).m_heartbeatCounter.m_timer.find d).bind fun t =>
      ((s.server.pushSession env id).m_heartbeatCounter.m_counter.heap.find d).map _).filter _ = _
    rw [hfind, hcount]
    by_cases hd : d = id
    · subst hd
      rw [Function.update_self, Function.update_self, Function.update_self]
      exact Option.filter_some_pos (decide_eq_true (Int.lt_of_lt_of_le Int.one_pos hmax))
    · rw [Function.update_of_ne hd, Function.update_of_ne hd, Function.update_of_ne hd]
      rfl
  · show (∃ n, (s.server.pushSession env id).m_heartbeatCounter.m_counter.heap.find d = some n ∧
      _) ↔ ∃ n, s.server.m_heartbeatCounter.m_counter.heap.find d = some n ∧ _
    rw [hcount]
    by_cases hd : d = id
    · subst hd
      have hnone : s.server.m_heartbeatCounter.m_counter.heap.find d = none :=
        Option.not_isSome_iff_eq_none.mp (hs.opens i d (hi ▸ rfl))
      rw [Function.update_self, hnone]
      constructor
      · rintro ⟨n, hn, hle⟩
        cases hn
        exact absurd hmax (not_le.mpr (Int.lt_add_one_iff.mpr hle))
      · rintro ⟨n, hn, -⟩
        cases hn
    · rw [Function.update_of_ne hd]

/-- An IO thread makes its next call. -/
theorem next_io (hmax : 1 ≤ max_heartbeat) (hs : s.Sound timeout max_heartbeat) (i : Nat) :
    (s.step env (.io i)).Sound timeout max_heartbeat ∧
      (s.registrar max_heartbeat).Next timeout max_heartbeat (s.label env (.io i))
        ((s.step env (.io i)).registrar max_heartbeat) := by
  rw [label]
  cases hi : s.io i with
  | idle =>
      simp only [step, ioStep, hi]
      exact ⟨hs, .silent⟩
  | add id peerAddress =>
      simp only [step, ioStep, hi]
      exact ⟨hs.add hi, .silent⟩
  | push id =>
      simp only [step, ioStep, hi]
      refine ⟨hs.push hmax hi _, ?_⟩
      rw [registrar_push hmax hs hi]
      exact .message _ _ _ _ _ _ .connection
  | send resp =>
      simp only [step, ioStep, hi]
      refine ⟨hs.goto (fun id h => ?_) (fun id h => by cases h) (fun id h => h.elim), .silent⟩
      rw [hi] at h
      cases h

/-! ### The UDP thread -/

/-- The UDP thread goes on, and it has done no call of a callback. -/
theorem Sound.setUdp (hs : s.Sound timeout max_heartbeat) {u : UdpThread}
    (hdone : ∀ n id, 1 ≤ n → (u.Done n id ↔ s.udp.Done n id))
    (hroot : ∀ id, u.Done 0 id → ∃ top,
      s.server.m_heartbeatCounter.m_counter.heap.nodes[0]? = some top ∧ top.id = id ∧
        max_heartbeat ≤ top.heartbeatCount)
    (hsettled : u.Settled → ∀ id n,
      s.server.m_heartbeatCounter.m_counter.heap.find id = some n →
        n.heartbeatCount < max_heartbeat) :
    ({ s with udp := u } : ServerThreads).Sound timeout max_heartbeat := by
  refine ⟨hs.store, hs.timer, hs.counter, hs.period, hs.limit, fun id => ?_, fun id => ?_, hs.opens,
    hs.distinct, hroot, hsettled⟩
  · show _ ↔ s.Counted id ∧ ¬ u.Done 1 id
    rw [hdone 1 id (Nat.le_refl 1)]
    exact hs.timers id
  · show _ ↔ (s.Counted id ∧ ¬ u.Done 2 id) ∨ _
    rw [hdone 2 id (by decide)]
    exact hs.sessions id

/-- What the UDP thread comes to next is not seen before the session nodes go. -/
theorem registrar_setUdp (s : ServerThreads) {u : UdpThread}
    (hdone : ∀ id, u.Done 3 id ↔ s.udp.Done 3 id) :
    ({ s with udp := u } : ServerThreads).registrar max_heartbeat = s.registrar max_heartbeat := by
  refine Registrar.ext rfl (Set.ext fun id => ?_)
  exact and_congr_right fun _ => not_congr (hdone id)

/-- Between two ticks, the threads stand for what the server stands for. -/
theorem Sound.registrar_of_settled (hs : s.Sound timeout max_heartbeat) (h : s.udp.Settled) :
    s.registrar max_heartbeat = { registry := s.server.registry, leaving := ∅ } := by
  have hlt := hs.settled h
  have hsessions : (s.registrar max_heartbeat).registry.sessions = s.server.registry.sessions := by
    funext id
    show (s.server.registry.sessions id).filter _ = _
    cases hl : s.server.registry.sessions id with
    | none => rfl
    | some l =>
        obtain ⟨t, -, hl⟩ := Option.bind_eq_some_iff.mp hl
        obtain ⟨n, hn, rfl⟩ := Option.map_eq_some_iff.mp hl
        exact Option.filter_some_pos (decide_eq_true (hlt id n hn))
  have hleaving : (s.registrar max_heartbeat).leaving = ∅ := by
    refine Set.eq_empty_of_forall_notMem fun id => ?_
    rintro ⟨⟨n, hn, hle⟩, -⟩
    exact absurd (hlt id n hn) (not_lt.mpr hle)
  exact Registrar.ext (congrArg (Registry.mk s.server.services.tree) hsessions) hleaving

/-- Between two ticks, each id with a timer has a count. -/
theorem Sound.heaps (hs : s.Sound timeout max_heartbeat) (h : s.udp.callback = none) :
    s.server.m_heartbeatCounter.Sound where
  timer := hs.timer
  counter := hs.counter
  same id := by
    rw [Bool.eq_iff_iff, hs.timers id, and_iff_left (UdpThread.not_done h 1 id)]
    rfl

open Classical in
/-- The timer half of a tick is a tick of the registrar: it leaves no call for later but those
of the callbacks. -/
theorem next_tickTimer (hclk : Monotone env.now) (hs : s.Sound timeout max_heartbeat)
    (hudp : s.udp = .tickTimer) :
    let counter := s.server.m_heartbeatCounter.tickTimer env.now
    let s' : ServerThreads :=
      { s with server := { s.server with m_heartbeatCounter := counter }, udp := .tickCounter }
    s'.Sound timeout max_heartbeat ∧ (s.registrar max_heartbeat).Next timeout max_heartbeat
      (some ⟨.tick, env.now s.server.m_heartbeatCounter.reads, env.now counter.reads, 0, none⟩)
      (s'.registrar max_heartbeat) := by
  intro counter s'
  have hbefore : s.udp.callback = none := by
    rw [hudp]
    rfl
  have hsettled : s.udp.Settled := ⟨hbefore, fun h => by rw [hudp] at h; cases h⟩
  have hdone := UdpThread.not_done (u := .tickCounter) rfl
  have hheaps := hs.heaps hbefore
  obtain ⟨hheaps', hlimit, hperiod, -, -, -, -, hcount⟩ :=
    HeartbeatCounter.tickTimer_spec env.now hheaps
  obtain ⟨due, moment, hdue, hcounted⟩ := SRCServer.tickTimer_counted hclk hheaps
  rw [hs.period] at hcounted
  have hids : ∀ id, s'.Counted id ↔ s.Counted id := by
    intro id
    show (counter.m_counter.heap.find id).isSome ↔ _
    rw [hcount id]
    by_cases hid : id ∈ s.server.m_heartbeatCounter.expiredIds env.now
    · rw [if_pos hid, Option.isSome_map]
      rfl
    · rw [if_neg hid]
      rfl
  refine ⟨⟨hs.store, hheaps'.timer, hheaps'.counter, hperiod.trans hs.period,
    hlimit.trans hs.limit, fun id => ?_, fun id => ?_, fun i id hi => ?_, hs.distinct,
    fun id h => absurd h (hdone 0 id), fun h => absurd rfl h.2⟩, ?_⟩
  · rw [and_iff_left (hdone 1 id)]
    exact Bool.eq_iff_iff.mp (hheaps'.same id)
  · rw [hids id, and_iff_left (hdone 2 id)]
    have hold := hs.sessions id
    rw [and_iff_left (UdpThread.not_done hbefore 2 id)] at hold
    exact hold
  · rw [hids id]
    exact hs.opens i id hi
  · rw [hs.registrar_of_settled hsettled]
    -- A session with a count at the limit now is one that the tick drops.
    have hafter : s'.registrar max_heartbeat =
        Registrar.afterTick timeout max_heartbeat due moment ⟨s.server.registry, ∅⟩ := by
      have hsession : ∀ id, (s'.registrar max_heartbeat).registry.sessions id =
            (s.server.registry.sessions id).bind
              (Registry.afterPeriod timeout max_heartbeat due moment id) ∧
          ((∃ n, counter.m_counter.heap.find id = some n ∧ max_heartbeat ≤ n.heartbeatCount) ↔
            (s.server.registry.sessions id).isSome ∧ (s.server.registry.sessions id).bind
              (Registry.afterPeriod timeout max_heartbeat due moment id) = none) := by
        intro id
        show ((counter.m_timer.find id).bind fun t =>
          (counter.m_counter.heap.find id).map _).filter _ = _ ∧ _
        rcases hcounted id with ⟨hnone, ht, hn⟩ | ⟨l, t, n, hl, ht, hn, heq⟩
        · rw [ht, hn, hnone]
          refine ⟨rfl, fun h => ?_, fun h => Bool.noConfusion h.1⟩
          obtain ⟨n, hn, -⟩ := h
          cases hn
        · rw [ht, hn, hl, Option.bind_some, Option.map_some, Option.bind_some, Registry.afterPeriod,
            heq]
          by_cases hle : max_heartbeat ≤ n.heartbeatCount
          · rw [if_pos hle]
            exact ⟨Option.filter_some_neg (decide_eq_false (not_lt.mpr hle)),
              fun _ => ⟨rfl, rfl⟩, fun _ => ⟨n, rfl, hle⟩⟩
          · rw [if_neg hle]
            refine ⟨Option.filter_some_pos (decide_eq_true (not_le.mp hle)), fun h => ?_,
              fun h => absurd h.2 (Option.some_ne_none _)⟩
            obtain ⟨m, hm, hmle⟩ := h
            cases hm
            exact absurd hmle hle
      refine Registrar.ext (congrArg (Registry.mk s.server.services.tree) ?_) (Set.ext fun id => ?_)
      · exact funext fun id => (hsession id).1
      · exact (and_iff_left (hdone 3 id)).trans (hsession id).2
    rw [hafter]
    exact .tick _ _ _ due moment rfl hdue

/-- The loop of the counter's `tick` ends, or the callback of the root begins. -/
theorem next_tickCounter (hs : s.Sound timeout max_heartbeat) (hudp : s.udp = .tickCounter)
    (received : Option UInt64) :
    (s.udpStep env received).Sound timeout max_heartbeat ∧
      (s.registrar max_heartbeat).Next timeout max_heartbeat none
        ((s.udpStep env received).registrar max_heartbeat) := by
  have hbefore := UdpThread.not_done (u := .tickCounter) rfl
  rw [← hudp] at hbefore
  have hafter := UdpThread.not_done (u := .recvfrom) rfl
  -- The loop ends when all counts are below the limit.
  have hend : (∀ id n, s.server.m_heartbeatCounter.m_counter.heap.find id = some n →
      n.heartbeatCount < max_heartbeat) →
      ({ s with udp := .recvfrom } : ServerThreads).Sound timeout max_heartbeat ∧
        (s.registrar max_heartbeat).Next timeout max_heartbeat none
          (({ s with udp := .recvfrom } : ServerThreads).registrar max_heartbeat) := by
    intro hlt
    refine ⟨hs.setUdp (fun n id _ => iff_of_false (hafter n id) (hbefore n id))
      (fun id h => absurd h (hafter 0 id)) fun _ => hlt, ?_⟩
    rw [registrar_setUdp s fun id => iff_of_false (hafter 3 id) (hbefore 3 id)]
    exact .silent
  simp only [udpStep, hudp]
  cases htop : s.server.m_heartbeatCounter.m_counter.heap.nodes[0]? with
  | none =>
      simp only
      refine hend fun id n hn => ?_
      rw [hs.counter.find_none_of_root_none htop id] at hn
      cases hn
  | some top =>
      simp only
      obtain ⟨-, hroot⟩ := hs.counter.find_root htop
      rw [hs.limit]
      by_cases hlt : top.heartbeatCount < max_heartbeat
      · rw [if_pos hlt]
        refine hend fun id n hn => ?_
        have hle : -top.heartbeatCount ≤ -n.heartbeatCount := hroot id n hn
        omega
      · rw [if_neg hlt]
        have hdone := UdpThread.done_iff (u := .del top.id) rfl
        refine ⟨hs.setUdp (fun n id hn => ?_) (fun id h => ?_) (fun h => ?_), ?_⟩
        · refine iff_of_false (fun h => ?_) (hbefore n id)
          have hzero := ((hdone n id).mp h).2
          omega
        · obtain ⟨rfl, -⟩ := (hdone 0 id).mp h
          exact ⟨top, htop, rfl, not_lt.mp hlt⟩
        · cases h.1
        · have hthree : ∀ id, UdpThread.Done 3 id (.del top.id) ↔ s.udp.Done 3 id := fun id =>
            iff_of_false (fun h => absurd ((hdone 3 id).mp h).2 (by decide)) (hbefore 3 id)
          rw [registrar_setUdp s hthree]
          exact .silent

/-- The session that the callback runs for is not seen: it has reached the limit. -/
theorem Sound.unseen (hs : s.Sound timeout max_heartbeat) {id : UInt64} (h : s.udp.Done 0 id) :
    (s.registrar max_heartbeat).registry.sessions id = none := by
  obtain ⟨top, htop, rfl, hle⟩ := hs.root id h
  obtain ⟨hfind, -⟩ := hs.counter.find_root htop
  have hfind : s.server.m_heartbeatCounter.m_counter.heap.find top.id = some top := hfind
  show ((s.server.m_heartbeatCounter.m_timer.find top.id).bind fun t =>
    (s.server.m_heartbeatCounter.m_counter.heap.find top.id).map _).filter _ = none
  rw [hfind]
  cases s.server.m_heartbeatCounter.m_timer.find top.id with
  | none => rfl
  | some t => exact Option.filter_some_neg (decide_eq_false (not_lt.mpr hle))

/-- The callback deletes the timer of its session. -/
theorem next_del (hs : s.Sound timeout max_heartbeat) {id : UInt64} (hudp : s.udp = .del id) :
    let timer := s.server.m_heartbeatCounter.m_timer.del id
    let s' : ServerThreads := { s with server := setTimer s.server timer, udp := .remove id }
    s'.Sound timeout max_heartbeat ∧
      (s.registrar max_heartbeat).Next timeout max_heartbeat none (s'.registrar max_heartbeat) := by
  intro timer s'
  obtain ⟨htimer, hfind⟩ : timer.Valid ∧
      timer.find = Function.update s.server.m_heartbeatCounter.m_timer.find id none :=
    hs.timer.erase id
  have hbefore := UdpThread.done_iff (u := .del id) rfl
  rw [← hudp] at hbefore
  have hafter := UdpThread.done_iff (u := .remove id) rfl
  have hcalled := (hbefore 0 id).mpr ⟨rfl, Nat.le_refl 0⟩
  refine ⟨⟨hs.store, htimer, hs.counter, hs.period, hs.limit, fun d => ?_, fun d => ?_, hs.opens,
    hs.distinct, fun d h => ?_, fun h => ?_⟩, ?_⟩
  · show (timer.find d).isSome ↔ s.Counted d ∧ ¬ UdpThread.Done 1 d (.remove id)
    have htimers := hs.timers d
    rw [hbefore 1 d] at htimers
    rw [hfind, hafter 1 d]
    by_cases hd : d = id
    · subst hd
      simp
    · rw [Function.update_of_ne hd, htimers]
      simp [hd]
  · show s.server.m_sessionManager.exist d = true ↔
      (s.Counted d ∧ ¬ UdpThread.Done 2 d (.remove id)) ∨ ∃ i, s.io i = .push d
    have hsessions := hs.sessions d
    rw [hbefore 2 d] at hsessions
    rw [hafter 2 d]
    simpa using hsessions
  · obtain ⟨rfl, -⟩ := (hafter 0 d).mp h
    exact hs.root d hcalled
  · cases h.1
  · have hregistrar : s'.registrar max_heartbeat = s.registrar max_heartbeat := by
      refine Registrar.ext (congrArg (Registry.mk s.server.services.tree) (funext fun d => ?_))
        (Set.ext fun d => and_congr_right fun _ => not_congr (iff_of_false
          (fun h => absurd ((hafter 3 d).mp h).2 (by decide))
          (fun h => absurd ((hbefore 3 d).mp h).2 (by decide))))
      by_cases hd : d = id
      · subst hd
        refine Eq.trans ?_ (hs.unseen hcalled).symm
        show ((timer.find d).bind _).filter _ = none
        rw [hfind, Function.update_self]
        rfl
      · show ((timer.find d).bind _).filter _ = _
        rw [hfind, Function.update_of_ne hd]
        rfl
    rw [hregistrar]
    exact .silent

/-- The callback removes its session. -/
theorem next_remove (hs : s.Sound timeout max_heartbeat) {id : UInt64} (hudp : s.udp = .remove id) :
    let sessions := s.server.m_sessionManager.remove id
    let s' : ServerThreads :=
      { s with
          server := { s.server with m_sessionManager := sessions }
          udp := .removeEphemeral id }
    s'.Sound timeout max_heartbeat ∧
      (s.registrar max_heartbeat).Next timeout max_heartbeat none (s'.registrar max_heartbeat) := by
  intro sessions s'
  have hbefore := UdpThread.done_iff (u := .remove id) rfl
  rw [← hudp] at hbefore
  have hafter := UdpThread.done_iff (u := .removeEphemeral id) rfl
  have hcalled := (hbefore 0 id).mpr ⟨rfl, Nat.zero_le 1⟩
  -- No IO thread is about to push the session: it is counted already.
  have hpush : ∀ i, s.io i ≠ .push id := fun i hi =>
    hs.opens i id (hi ▸ rfl) (hs.counted_of_done hcalled)
  refine ⟨⟨hs.store, hs.timer, hs.counter, hs.period, hs.limit, fun d => ?_, fun d => ?_, hs.opens,
    hs.distinct, fun d h => ?_, fun h => ?_⟩, ?_⟩
  · show _ ↔ s.Counted d ∧ ¬ UdpThread.Done 1 d (.removeEphemeral id)
    have htimers := hs.timers d
    rw [hbefore 1 d] at htimers
    rw [hafter 1 d]
    simpa using htimers
  · show sessions.exist d = true ↔
      (s.Counted d ∧ ¬ UdpThread.Done 2 d (.removeEphemeral id)) ∨ ∃ i, s.io i = .push d
    have hsessions := hs.sessions d
    rw [hbefore 2 d] at hsessions
    rw [SessionManager.exist_remove, hafter 2 d]
    by_cases hd : d = id
    · subst hd
      simpa using hpush
    · simpa [hd] using hsessions
  · obtain ⟨rfl, -⟩ := (hafter 0 d).mp h
    exact hs.root d hcalled
  · cases h.1
  · have hregistrar : s'.registrar max_heartbeat = s.registrar max_heartbeat :=
      Registrar.ext rfl (Set.ext fun d => and_congr_right fun _ => not_congr (iff_of_false
        (fun h => absurd ((hafter 3 d).mp h).2 (by decide))
        (fun h => absurd ((hbefore 3 d).mp h).2 (by decide))))
    rw [hregistrar]
    exact .silent

/-- The callback removes the session nodes of its session. This is seen. -/
theorem next_removeEphemeral (hs : s.Sound timeout max_heartbeat) {id : UInt64}
    (hudp : s.udp = .removeEphemeral id) :
    let services := s.server.services.removeEphemeral id
    let s' : ServerThreads :=
      { s with server := { s.server with services := services }, udp := .pop id }
    s'.Sound timeout max_heartbeat ∧
      (s.registrar max_heartbeat).Next timeout max_heartbeat none (s'.registrar max_heartbeat) := by
  intro services s'
  obtain ⟨hstore, htree⟩ := Services.removeEphemeral_spec hs.store id
  have hbefore := UdpThread.done_iff (u := .removeEphemeral id) rfl
  rw [← hudp] at hbefore
  have hafter := UdpThread.done_iff (u := .pop id) rfl
  have hcalled := (hbefore 0 id).mpr ⟨rfl, Nat.zero_le 2⟩
  obtain ⟨top, htop, hid, hle⟩ := hs.root id hcalled
  refine ⟨⟨hstore, hs.timer, hs.counter, hs.period, hs.limit, fun d => ?_, fun d => ?_, hs.opens,
    hs.distinct, fun d h => ?_, fun h => ?_⟩, ?_⟩
  · show _ ↔ s.Counted d ∧ ¬ UdpThread.Done 1 d (.pop id)
    have htimers := hs.timers d
    rw [hbefore 1 d] at htimers
    rw [hafter 1 d]
    simpa using htimers
  · show _ ↔ (s.Counted d ∧ ¬ UdpThread.Done 2 d (.pop id)) ∨ _
    have hsessions := hs.sessions d
    rw [hbefore 2 d] at hsessions
    rw [hafter 2 d]
    simpa using hsessions
  · obtain ⟨rfl, -⟩ := (hafter 0 d).mp h
    exact hs.root d hcalled
  · cases h.1
  · have hleaving : id ∈ (s.registrar max_heartbeat).leaving := by
      refine ⟨⟨top, ?_, hle⟩, fun h => absurd ((hbefore 3 id).mp h).2 (by decide)⟩
      rw [← hid]
      exact (hs.counter.find_root htop).1
    have hregistrar : s'.registrar max_heartbeat =
        (s.registrar max_heartbeat).afterDrop id := by
      refine Registrar.ext (congrArg (fun A => Registry.mk A
        (s.registrar max_heartbeat).registry.sessions) htree) (Set.ext fun d => ?_)
      refine Iff.trans (and_congr_right fun _ => ?_) and_assoc.symm
      show ¬ UdpThread.Done 3 d (.pop id) ↔ ¬ s.udp.Done 3 d ∧ d ∉ ({id} : Set UInt64)
      rw [hafter 3 d, hbefore 3 d]
      simp
    rw [hregistrar]
    exact .drop id hleaving

/-- The node of the callback is popped. -/
theorem next_pop (hs : s.Sound timeout max_heartbeat) {id : UInt64} (hudp : s.udp = .pop id) :
    let counter := s.server.m_heartbeatCounter.m_counter.pop
    let s' : ServerThreads := { s with server := setCounter s.server counter, udp := .tickCounter }
    s'.Sound timeout max_heartbeat ∧
      (s.registrar max_heartbeat).Next timeout max_heartbeat none (s'.registrar max_heartbeat) := by
  intro counter s'
  have hbefore := UdpThread.done_iff (u := .pop id) rfl
  rw [← hudp] at hbefore
  have hafter := UdpThread.not_done (u := .tickCounter) rfl
  have hcalled := (hbefore 0 id).mpr ⟨rfl, Nat.zero_le 3⟩
  obtain ⟨top, htop, rfl, -⟩ := hs.root id hcalled
  obtain ⟨hcounter, hfind⟩ : counter.heap.Valid ∧ counter.heap.find =
      Function.update s.server.m_heartbeatCounter.m_counter.heap.find top.id none :=
    hs.counter.pop htop
  have hcounted : ∀ d, s'.Counted d ↔ d ≠ top.id ∧ s.Counted d := by
    intro d
    show (counter.heap.find d).isSome ↔
      _ ∧ (s.server.m_heartbeatCounter.m_counter.heap.find d).isSome
    rw [hfind]
    by_cases hd : d = top.id
    · subst hd
      simp
    · rw [Function.update_of_ne hd, and_iff_right hd]
  refine ⟨⟨hs.store, hs.timer, hcounter, hs.period, hs.limit, fun d => ?_, fun d => ?_,
    fun i d hi h => hs.opens i d hi ((hcounted d).mp h).2, hs.distinct,
    fun d h => absurd h (hafter 0 d), fun h => absurd rfl h.2⟩, ?_⟩
  · have htimers := hs.timers d
    rw [hbefore 1 d] at htimers
    rw [hcounted d, and_iff_left (hafter 1 d)]
    show (s.server.m_heartbeatCounter.m_timer.find d).isSome ↔ _
    simpa [and_comm] using htimers
  · have hsessions := hs.sessions d
    rw [hbefore 2 d] at hsessions
    rw [hcounted d, and_iff_left (hafter 2 d)]
    show s.server.m_sessionManager.exist d = true ↔ _ ∨ ∃ i, s.io i = .push d
    simpa [and_comm] using hsessions
  · have hregistrar : s'.registrar max_heartbeat = s.registrar max_heartbeat := by
      refine Registrar.ext (congrArg (Registry.mk s.server.services.tree) (funext fun d => ?_))
        (Set.ext fun d => ?_)
      · by_cases hd : d = top.id
        · subst hd
          refine Eq.trans ?_ (hs.unseen hcalled).symm
          show ((s.server.m_heartbeatCounter.m_timer.find top.id).bind fun t =>
            (counter.heap.find top.id).map _).filter _ = none
          rw [hfind, Function.update_self]
          cases s.server.m_heartbeatCounter.m_timer.find top.id with
          | none => rfl
          | some t => rfl
        · show ((s.server.m_heartbeatCounter.m_timer.find d).bind fun t =>
            (counter.heap.find d).map _).filter _ = _
          rw [hfind, Function.update_of_ne hd]
          rfl
      · show (∃ n, counter.heap.find d = some n ∧ _) ∧ ¬ UdpThread.Done 3 d .tickCounter ↔
          (∃ n, _ ∧ _) ∧ ¬ s.udp.Done 3 d
        rw [and_iff_left (hafter 3 d), hbefore 3 d, hfind]
        by_cases hd : d = top.id
        · subst hd
          simp
        · rw [Function.update_of_ne hd, and_iff_left (fun h => hd h.1)]
    rw [hregistrar]
    exact .silent

/-- A heartbeat of a session that the session manager has just known. -/
theorem next_reset (hs : s.Sound timeout max_heartbeat) (hmax : 1 ≤ max_heartbeat) {id : UInt64}
    (hudp : s.udp = .reset id) :
    let counter := s.server.m_heartbeatCounter.reset env.now id
    let s' : ServerThreads :=
      { s with server := { s.server with m_heartbeatCounter := counter }, udp := .tickTimer }
    s'.Sound timeout max_heartbeat ∧ (s.registrar max_heartbeat).Next timeout max_heartbeat
      (some ⟨.heartbeat id, env.now s.server.m_heartbeatCounter.reads, env.now counter.reads, 0,
        none⟩) (s'.registrar max_heartbeat) := by
  intro counter s'
  have hbefore : s.udp.callback = none := by
    rw [hudp]
    rfl
  have hsettled : s.udp.Settled := ⟨hbefore, fun h => by rw [hudp] at h; cases h⟩
  have hafter := UdpThread.not_done (u := .tickTimer) rfl
  have hheaps := hs.heaps hbefore
  obtain ⟨hheaps', -, hcount⟩ := HeartbeatCounter.sound_reset env.now hheaps id
  have hids : ∀ d, s'.Counted d ↔ s.Counted d := by
    intro d
    show (counter.m_counter.heap.find d).isSome ↔ _
    rw [hcount]
    by_cases hd : d = id
    · subst hd
      rw [Function.update_self, Option.isSome_map]
      rfl
    · rw [Function.update_of_ne hd]
      rfl
  have hs' : s'.Sound timeout max_heartbeat := by
    refine ⟨hs.store, hheaps'.timer, hheaps'.counter, hs.period, hs.limit, fun d => ?_, fun d => ?_,
      fun i d hi h => hs.opens i d hi ((hids d).mp h), hs.distinct,
      fun d h => absurd h (hafter 0 d), fun _ d n hn => ?_⟩
    · rw [and_iff_left (hafter 1 d)]
      exact Bool.eq_iff_iff.mp (hheaps'.same d)
    · rw [hids d, and_iff_left (hafter 2 d)]
      have hold := hs.sessions d
      rw [and_iff_left (UdpThread.not_done hbefore 2 d)] at hold
      exact hold
    · have hn : counter.m_counter.heap.find d = some n := hn
      rw [hcount] at hn
      by_cases hd : d = id
      · subst hd
        rw [Function.update_self] at hn
        obtain ⟨m, -, rfl⟩ := Option.map_eq_some_iff.mp hn
        exact Int.lt_of_lt_of_le Int.one_pos hmax
      · rw [Function.update_of_ne hd] at hn
        exact hs.settled hsettled d n hn
  refine ⟨hs', ?_⟩
  have hreset := SRCServer.sessions_reset env hheaps id
  rw [hs.period] at hreset
  rw [hs.registrar_of_settled hsettled, hs'.registrar_of_settled ⟨rfl, fun h => by cases h⟩,
    show s'.server.registry = _ from hreset]
  exact .heartbeat _ _ _ id rfl

/-- A datagram is received or none, and a heartbeat is looked up in the session manager. -/
theorem next_recvfrom (hs : s.Sound timeout max_heartbeat) (hudp : s.udp = .recvfrom)
    (received : Option UInt64) :
    (s.udpStep env received).Sound timeout max_heartbeat ∧
      (s.registrar max_heartbeat).Next timeout max_heartbeat none
        ((s.udpStep env received).registrar max_heartbeat) := by
  have hbefore : s.udp.callback = none := by
    rw [hudp]
    rfl
  have hlt := hs.settled ⟨hbefore, fun h => by rw [hudp] at h; cases h⟩
  have hnext : ∀ u : UdpThread, u.callback = none →
      ({ s with udp := u } : ServerThreads).Sound timeout max_heartbeat ∧
        (s.registrar max_heartbeat).Next timeout max_heartbeat none
          (({ s with udp := u } : ServerThreads).registrar max_heartbeat) := by
    intro u hu
    have hdone : ∀ n id, u.Done n id ↔ s.udp.Done n id := fun n id =>
      iff_of_false (UdpThread.not_done hu n id) (UdpThread.not_done hbefore n id)
    refine ⟨hs.setUdp (fun n id _ => hdone n id)
      (fun id h => absurd h (UdpThread.not_done hu 0 id)) fun _ => hlt, ?_⟩
    rw [registrar_setUdp s (hdone 3)]
    exact .silent
  simp only [udpStep, hudp]
  cases received with
  | none => exact hnext .tickTimer rfl
  | some id =>
      simp only
      cases s.server.m_sessionManager.exist id with
      | true => exact hnext (.reset id) rfl
      | false => exact hnext .tickTimer rfl

/-- The UDP thread makes its next call. -/
theorem next_udp (hclk : Monotone env.now) (hmax : 1 ≤ max_heartbeat)
    (hs : s.Sound timeout max_heartbeat) (received : Option UInt64) :
    (s.step env (.udp received)).Sound timeout max_heartbeat ∧
      (s.registrar max_heartbeat).Next timeout max_heartbeat (s.label env (.udp received))
        ((s.step env (.udp received)).registrar max_heartbeat) := by
  rw [label]
  cases hudp : s.udp with
  | tickTimer =>
      simp only [step, udpStep, hudp]
      exact next_tickTimer hclk hs hudp
  | tickCounter => exact next_tickCounter hs hudp received
  | del id =>
      simp only [step, udpStep, hudp]
      exact next_del hs hudp
  | remove id =>
      simp only [step, udpStep, hudp]
      exact next_remove hs hudp
  | removeEphemeral id =>
      simp only [step, udpStep, hudp]
      exact next_removeEphemeral hs hudp
  | pop id =>
      simp only [step, udpStep, hudp]
      exact next_pop hs hudp
  | recvfrom => exact next_recvfrom hs hudp received
  | reset id =>
      simp only [step, udpStep, hudp]
      exact next_reset hs hmax hudp

/-- Each call of a thread is a step of the registrar. -/
theorem next_registrar (hclk : Monotone env.now) (hmax : 1 ≤ max_heartbeat) (s : ServerThreads)
    (event : Event) (hs : s.Sound timeout max_heartbeat) (hfresh : s.Fresh env event) :
    (s.step env event).Sound timeout max_heartbeat ∧
      (s.registrar max_heartbeat).Next timeout max_heartbeat (s.label env event)
        ((s.step env event).registrar max_heartbeat) := by
  cases event with
  | onMessage i peerAddress data =>
      cases hi : s.io i with
      | idle => exact next_onMessage hs hi peerAddress data hfresh
      | _ =>
          rw [label]
          simp only [step, hi]
          exact ⟨hs, .silent⟩
  | io i => exact next_io hmax hs i
  | udp received => exact next_udp hclk hmax hs received

/-- Between two ticks, and when no session is about to be pushed, the tables fit together. -/
theorem Sound.consistent (hs : s.Sound timeout max_heartbeat) (hsettled : s.udp.Settled)
    (hpush : ∀ i id, s.io i ≠ .push id) : s.server.Consistent timeout max_heartbeat where
  store := hs.store
  heaps := hs.heaps hsettled.1
  period := hs.period
  limit := hs.limit
  sessions id := by
    have hnone : ¬ ∃ i, s.io i = .push id := fun h => hpush _ id h.choose_spec
    rw [Bool.eq_iff_iff, hs.sessions id, hs.timers id, or_iff_left hnone,
      and_iff_left (UdpThread.not_done hsettled.1 2 id),
      and_iff_left (UdpThread.not_done hsettled.1 1 id)]

/-- Each run of the threads is a run of the registrar, whatever call comes between two others. At
its end, the root of the counter is still the node that a callback runs for, so that the pop
after the callback takes that node. Between two ticks no removals are left to be done, and when
no session is about to be pushed either, the tables of the server fit together. -/
theorem threads_refine_registrar (env : Environment) (hclk : Monotone env.now) (timeout : Int)
    {max_heartbeat : Int} (hmax : 1 ≤ max_heartbeat) (events : List Event)
    (hfresh : StepsMeet (step env) (Fresh env) (init timeout max_heartbeat) events) :
    let s := events.foldl (step env) (init timeout max_heartbeat)
    Run (Registrar.Next timeout max_heartbeat) .init
      (trace (step env) (label env) (init timeout max_heartbeat) events)
      (s.registrar max_heartbeat) ∧
    (∀ id, s.udp.Done 0 id →
      (s.server.m_heartbeatCounter.m_counter.heap.nodes[0]?).map (·.id) = some id) ∧
    (s.udp.Settled → s.registrar max_heartbeat = { registry := s.server.registry, leaving := ∅ } ∧
      ((∀ i id, s.io i ≠ .push id) → s.server.Consistent timeout max_heartbeat)) := by
  intro s
  have hstep := @next_registrar env timeout max_heartbeat hclk hmax
  have hinit := sound_init timeout max_heartbeat
  have hs : s.Sound timeout max_heartbeat := AllStates.last
    (allStates_of_stepsMeet (fun s e hs he => (hstep s e hs he).1) hinit hfresh)
  have hrun := run_of_stepsMeet (fun s e hs he => (hstep s e hs he).1)
    (fun s e hs he => (hstep s e hs he).2) events hinit hfresh
  have hempty : (init timeout max_heartbeat).registrar max_heartbeat = .init := by
    rw [hinit.registrar_of_settled ⟨rfl, fun h => by cases h⟩]
    exact Registrar.ext (SRCServer.registry_init timeout max_heartbeat) rfl
  rw [hempty] at hrun
  refine ⟨hrun, fun id h => ?_, fun h => ⟨hs.registrar_of_settled h, hs.consistent h⟩⟩
  obtain ⟨top, htop, rfl, -⟩ := hs.root id h
  rw [htop]
  rfl

/-- A client opens session 5, which dies in the next tick. Before the callback has removed its
session nodes, another client still creates one for it. -/
theorem threads_refine_registrar_oneSession :
    let env : Environment := { now := SRCServer.secondClock, generateSessionId := fun _ => 5 }
    let client : InetAddress := { octets := (127, 0, 0, 1), port := 4000 }
    let events : List Event := [.onMessage 0 client SRCServer.connectionRequest, .io 0, .io 0,
      .udp none, .udp none, .udp none, .onMessage 1 client SRCServer.createForNobody, .udp none,
      .udp none, .udp none]
    Run (Registrar.Next 10 1) .init (trace (step env) (label env) (init 10 1) events)
      ((events.foldl (step env) (init 10 1)).registrar 1) := by
  intro env client events
  have hother : ¬ IsConnection SRCServer.createForNobody := by
    rw [IsConnection]
    decide
  have hfresh : StepsMeet (step env) (Fresh env) (init 10 1) events := by
    refine ⟨fun _ _ => ?_, trivial, trivial, trivial, trivial, trivial,
      fun _ h => absurd h hother, trivial, trivial, trivial, trivial⟩
    rintro (h | h | ⟨i, h⟩)
    · cases h
    · cases h
    · exact h
  exact (threads_refine_registrar env SRCServer.monotone_secondClock 10 (Int.le_refl 1) events
    hfresh).1

/-! ### Threads that nobody interrupts -/

/-- The events of the server that some calls in a row make up. -/
inductive Turn
  /-- An IO thread serves a message. -/
  | message (thread : Nat) (peerAddress : InetAddress) (buffer : Buffer)
  /-- The UDP thread ticks, and receives this session id or nothing. -/
  | round (received : Option UInt64)

def Turn.events : Turn → List SRCServer.Event
  | .message _ peerAddress buffer => [.message peerAddress buffer]
  | .round none => [.tick]
  | .round (some id) => [.tick, .heartbeat id]

/-- The calls of an IO thread for a message. -/
theorem foldl_message (env : Environment) {i : Nat} (hi : s.io i = .idle)
    (peerAddress : InetAddress) (buffer : Buffer) :
    [Event.onMessage i peerAddress buffer.readable, .io i, .io i, .io i].foldl (step env) s =
      { s with server := s.server.step env (.message peerAddress buffer) } := by
  rw [SRCServer.step, SRCServer.onMessage_eq]
  show (((s.step env (.onMessage i peerAddress buffer.readable)).ioStep env i).ioStep env i).ioStep
    env i = { s with server := (s.server.onData env peerAddress buffer.readable).2 }
  generalize buffer.readable = data
  have hback : Function.update s.io i .idle = s.io := by
    rw [← hi]
    exact Function.update_eq_self ..
  by_cases hdata : IsConnection data
  · obtain ⟨wrapped, hparse, htype⟩ := Option.map_eq_some_iff.mp hdata
    rw [SRCServer.onData, hparse]
    simp only [step, hi, onMessage, hparse, Option.map_some, htype, SRCServer.onRequest, ioStep,
      goto, Function.update_self, Function.update_idem, hback]
    rfl
  · rw [step_onData hi peerAddress hdata]
    simp only [ioStep, goto, Function.update_self, Function.update_idem, hback, hi]

/-- The calls of the loop of the counter's `tick`. -/
theorem exists_calls_tickLoop (env : Environment)
    {call : CountCallback → UInt64 → HeapTimer TimeoutCallback × SessionManager × Services →
      HeapTimer TimeoutCallback × SessionManager × Services}
    (hcall : call .heartbeatReach =
      HeartbeatCounter.heartbeatReach SRCServer.onHeartbeatReachLimit) :
    ∀ (fuel : Nat) (s : ServerThreads) (counter : HeapHeartBeatCounter CountCallback)
      (timer : HeapTimer TimeoutCallback) (sessions : SessionManager) (services : Services),
      s.udp = .tickCounter →
      HeapHeartBeatCounter.tickLoop (fun cb id p => (p.1, call cb id p.2)) fuel
        (s.server.m_heartbeatCounter.m_counter, s.server.m_heartbeatCounter.m_timer,
          s.server.m_sessionManager, s.server.services) =
        some (counter, timer, sessions, services) →
      ∃ n, (List.replicate n (Event.udp none)).foldl (step env) s =
        { s with
            server := { setCounter (setTimer s.server timer) counter with
              m_sessionManager := sessions
              services := services }
            udp := .recvfrom } := by
  intro fuel
  -- The induction is on the fuel, which is enough.
  induction fuel with
  | zero => intro s counter timer sessions services _ hrun; cases hrun
  | succ fuel ih =>
      intro s counter timer sessions services hudp hrun
      rw [HeapHeartBeatCounter.tickLoop] at hrun
      cases htop : s.server.m_heartbeatCounter.m_counter.heap.nodes[0]? with
      | none =>
          rw [htop] at hrun
          cases hrun
          refine ⟨1, ?_⟩
          show s.step env (.udp none) = _
          simp only [step, udpStep, hudp, htop]
          rfl
      | some top =>
          rw [htop] at hrun
          by_cases hlt : top.heartbeatCount < s.server.m_heartbeatCounter.m_counter.LIMIT
          · simp only [if_pos hlt] at hrun
            cases hrun
            refine ⟨1, ?_⟩
            show s.step env (.udp none) = _
            simp only [step, udpStep, hudp, htop, if_pos hlt]
            rfl
          · have hcb : top.cb = .heartbeatReach := by
              cases top.cb
              rfl
            simp only [if_neg hlt] at hrun
            rw [hcb, hcall] at hrun
            -- Five calls take the root out.
            let s₁ : ServerThreads :=
              { s with server :=
                { setCounter (setTimer s.server (s.server.m_heartbeatCounter.m_timer.del top.id))
                    s.server.m_heartbeatCounter.m_counter.pop with
                  m_sessionManager := s.server.m_sessionManager.remove top.id
                  services := s.server.services.removeEphemeral top.id } }
            have hfive : (List.replicate 5 (Event.udp none)).foldl (step env) s = s₁ := by
              have hdel : s.step env (.udp none) = { s with udp := .del top.id } := by
                simp only [step, udpStep, hudp, htop, if_neg hlt]
              show ((((s.step env (.udp none)).step env (.udp none)).step env (.udp none)).step env
                (.udp none)).step env (.udp none) = s₁
              rw [hdel]
              show { s₁ with udp := .tickCounter } = s₁
              rw [← hudp]
            obtain ⟨n, hn⟩ := ih s₁ counter timer sessions services hudp hrun
            refine ⟨5 + n, ?_⟩
            rw [List.replicate_add, List.foldl_append, hfive, hn]
            rfl

/-- The calls of the UDP thread for a tick. -/
theorem exists_calls_tick (env : Environment) (hudp : s.udp = .tickTimer) :
    ∃ n, (List.replicate n (Event.udp none)).foldl (step env) s =
      { s with server := s.server.tick env, udp := .recvfrom } := by
  let counter := s.server.m_heartbeatCounter.tickTimer env.now
  let s₁ : ServerThreads :=
    { s with server := { s.server with m_heartbeatCounter := counter }, udp := .tickCounter }
  have hfirst : s.step env (.udp none) = s₁ := by
    simp only [step, udpStep, hudp]
    rfl
  have hrun := Option.some_get (HeapHeartBeatCounter.tickLoop_isSome
    (fun _ => HeartbeatCounter.heartbeatReach SRCServer.onHeartbeatReachLimit)
    _ counter.m_counter (counter.m_timer, s.server.m_sessionManager, s.server.services)
    (Nat.lt_succ_self _))
  obtain ⟨n, hn⟩ := exists_calls_tickLoop env rfl _ s₁ _ _ _ _ rfl hrun.symm
  refine ⟨1 + n, ?_⟩
  rw [List.replicate_add, List.foldl_append]
  show (List.replicate n _).foldl (step env) (s.step env (.udp none)) = _
  rw [hfirst, hn]
  rfl

/-- The calls for some events of the server. -/
theorem exists_calls_turn (env : Environment) (hio : ∀ i, s.io i = .idle)
    (hudp : s.udp = .tickTimer) (turn : Turn) :
    ∃ calls : List Event, calls.foldl (step env) s =
      { s with server := turn.events.foldl (SRCServer.step env) s.server } := by
  cases turn with
  | message i peerAddress buffer => exact ⟨_, foldl_message env (hio i) peerAddress buffer⟩
  | round received =>
      obtain ⟨n, hn⟩ := exists_calls_tick env hudp
      have hback : ∀ server, ({ s with server := server, udp := .tickTimer } : ServerThreads) =
          { s with server := server } := by
        intro server
        rw [← hudp]
      cases received with
      | none =>
          refine ⟨List.replicate n (.udp none) ++ [.udp none], ?_⟩
          rw [List.foldl_append, hn]
          exact hback _
      | some id =>
          have hserver : (Turn.round (some id)).events.foldl (SRCServer.step env) s.server =
              (s.server.tick env).onUDPMessage env id := rfl
          rw [hserver, SRCServer.onUDPMessage]
          cases hexist : (s.server.tick env).m_sessionManager.exist id with
          | true =>
              refine ⟨List.replicate n (.udp none) ++ [.udp (some id), .udp none], ?_⟩
              rw [List.foldl_append, hn, if_pos rfl, ← hback]
              simp only [List.foldl_cons, List.foldl_nil, step, udpStep, hexist, if_true]
          | false =>
              refine ⟨List.replicate n (.udp none) ++ [.udp (some id)], ?_⟩
              rw [List.foldl_append, hn, if_neg Bool.false_ne_true, ← hback]
              simp only [List.foldl_cons, List.foldl_nil, step, udpStep, hexist,
                Bool.false_eq_true, if_false]

/-- Each run of the server in which one thread at a time does its work is one of the threads. -/
theorem exists_calls_run (env : Environment) (timeout max_heartbeat : Int) (turns : List Turn) :
    ∃ calls : List Event, calls.foldl (step env) (init timeout max_heartbeat) =
      { init timeout max_heartbeat with
          server := (turns.flatMap Turn.events).foldl (SRCServer.step env)
            (.init timeout max_heartbeat) } := by
  have hrun : ∀ (turns : List Turn) (s : ServerThreads), (∀ i, s.io i = .idle) →
      s.udp = .tickTimer → ∃ calls : List Event, calls.foldl (step env) s =
        { s with server := (turns.flatMap Turn.events).foldl (SRCServer.step env) s.server } := by
    intro turns
    induction turns with
    | nil => intro s _ _; exact ⟨[], rfl⟩
    | cons turn turns ih =>
        intro s hio hudp
        obtain ⟨calls, hcalls⟩ := exists_calls_turn env hio hudp turn
        obtain ⟨rest, hrest⟩ := ih
          { s with server := turn.events.foldl (SRCServer.step env) s.server } hio hudp
        refine ⟨calls ++ rest, ?_⟩
        rw [List.foldl_append, hcalls, hrest, List.flatMap_cons, List.foldl_append]
  exact hrun turns _ (fun _ => rfl) rfl

end ServerThreads

end RegistrationCenter
