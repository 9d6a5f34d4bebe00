import Mathlib.Data.Int.CardIntervalMod
import RegistrationCenter.Proofs.Tcp.ReactorSteps

/-!
# `RegistrationCenter.Proofs.Tcp.ReactorRuns`: what holds in every run of the server

The last step is a new connection, whose name and fd nobody else has. Then the runs: no thread
uses a connection that is gone (`noDangling_run`), no operation of `epoll_ctl` fails and the epoll
sets are exact (`epollExact_run`), a server with nothing left to do has forgotten all closed
connections (`noLeak_run`), and the connections go round the loops (`roundRobin_run`).
-/

set_option autoImplicit false

namespace RegistrationCenter

open Lib

namespace Reactor

variable {n : Nat} {s : Reactor n} {c : Nat} {o : ConnectionObject n}

/-! ## A new connection -/

theorem connectionName_injective (ipPort : String) :
    Function.Injective (connectionName ipPort) := by
  intro id id' heq
  have hdigits : toString id = toString id' := (String.append_right_inj _).mp heq
  have hchars : Nat.toDigits 10 id = Nat.toDigits 10 id' := String.ofList_injective hdigits
  rw [← Nat.ofDigitChars_ten_toDigits (n := id), hchars, Nat.ofDigitChars_ten_toDigits]

theorem Ordered.ne_next (h : s.Ordered) (hc : s.objects c = some o) : c ≠ s.next :=
  Nat.ne_of_lt (h.object c o hc).fresh

theorem Ordered.open_fd (h : s.Ordered) (hc : s.objects c = some o) :
    s.Open o.life.m_channel.m_fd :=
  ⟨c, (h.object c o hc).fresh, o, hc, rfl⟩

theorem Ordered.name_ne (h : s.Ordered) (hc : s.objects c = some o) :
    o.m_name ≠ connectionName s.m_ipPort s.m_nextConnId := by
  obtain ⟨id, hid, hname⟩ := (h.object c o hc).named
  rw [hname]
  exact fun heq => Nat.ne_of_lt hid (connectionName_injective _ heq)

/-- No functor waits for a connection that is to come. -/
theorem Ordered.count_next (h : s.Ordered) (i : Fin (n + 1)) {t : Task}
    (ht : t.connection = s.next) : (s.waiting i).count t = 0 := by
  refine List.count_eq_zero_of_not_mem fun hmem => ?_
  obtain ⟨o, hc, -⟩ := h.tasks i t (mem_tasks_of_waiting hmem)
  exact h.ne_next hc ht

/-- The server with a connection that is still to be handed to its loop. -/
def accepted (s : Reactor n) (ioLoop : Fin (n + 1))
    (pool : EventLoopThreadPool (Fin (n + 1))) (fd : Nat) : Reactor n :=
  { s with
      m_threadPool := pool
      m_nextConnId := s.m_nextConnId + 1
      m_connections := s.m_connections.insert (s.newObject ioLoop fd).m_name s.next
      objects := Function.update s.objects s.next (some (s.newObject ioLoop fd))
      next := s.next + 1 }

variable {ioLoop : Fin (n + 1)} {pool : EventLoopThreadPool (Fin (n + 1))} {fd : Nat}

theorem objects_accepted_next : (s.accepted ioLoop pool fd).objects s.next =
    some (s.newObject ioLoop fd) :=
  Function.update_self ..

theorem objects_accepted_of_ne (hc : c ≠ s.next) :
    (s.accepted ioLoop pool fd).objects c = s.objects c :=
  Function.update_of_ne hc ..

theorem objects_accepted_eq_some (hc : (s.accepted ioLoop pool fd).objects c = some o) :
    c = s.next ∧ o = s.newObject ioLoop fd ∨ c ≠ s.next ∧ s.objects c = some o := by
  by_cases hnew : c = s.next
  · subst hnew
    exact .inl ⟨rfl, (Option.some.inj (objects_accepted_next.symm.trans hc)).symm⟩
  · rw [objects_accepted_of_ne hnew] at hc
    exact .inr ⟨hnew, hc⟩

theorem Ordered.objects_accepted (h : s.Ordered) (hc : s.objects c = some o) :
    (s.accepted ioLoop pool fd).objects c = some o := by
  rw [objects_accepted_of_ne (h.ne_next hc)]
  exact hc

theorem Ordered.accepted (h : s.Ordered) (hfd : ¬ s.Open fd) :
    (s.accepted ioLoop pool fd).Ordered where
  object a oa ha := by
    rcases objects_accepted_eq_some ha with ⟨rfl, rfl⟩ | ⟨-, ha⟩
    · refine ⟨Nat.lt_succ_self _, rfl, ⟨?_, ?_⟩, ⟨s.m_nextConnId, Nat.lt_succ_self _, rfl⟩⟩
      -- The fd is closed so far, so the poller has nothing for it.
      · show (s.poller ioLoop).epollSet fd = none
        cases he : (s.poller ioLoop).epollSet fd with
        | none => rfl
        | some e =>
            obtain ⟨oe, hc, -, rfl⟩ := h.entries ioLoop fd e he
            exact absurd (h.open_fd hc) hfd
      · show (s.poller ioLoop).m_channels fd = none
        cases he : (s.poller ioLoop).m_channels fd with
        | none => rfl
        | some a =>
            obtain ⟨oe, hc, -, rfl⟩ := h.mapped ioLoop fd a he
            exact absurd (h.open_fd hc) hfd
    · obtain ⟨id, hid, hname⟩ := (h.object a oa ha).named
      exact ⟨Nat.lt_succ_of_lt (h.object a oa ha).fresh, (h.object a oa ha).self,
        (h.object a oa ha).placed, ⟨id, Nat.lt_succ_of_lt hid, hname⟩⟩
  fds a b oa ob ha hb heq := by
    rcases objects_accepted_eq_some ha with ⟨rfl, rfl⟩ | ⟨-, ha⟩
    · rcases objects_accepted_eq_some hb with ⟨rfl, -⟩ | ⟨-, hb⟩
      · rfl
      · have heq : fd = ob.life.m_channel.m_fd := heq
        exact absurd (heq ▸ h.open_fd hb) hfd
    · rcases objects_accepted_eq_some hb with ⟨rfl, rfl⟩ | ⟨-, hb⟩
      · have heq : oa.life.m_channel.m_fd = fd := heq
        exact absurd (heq ▸ h.open_fd ha) hfd
      · exact h.fds a b oa ob ha hb heq
  names a b oa ob ha hb heq := by
    rcases objects_accepted_eq_some ha with ⟨rfl, rfl⟩ | ⟨-, ha⟩
    · rcases objects_accepted_eq_some hb with ⟨rfl, -⟩ | ⟨-, hb⟩
      · rfl
      · exact absurd heq.symm (h.name_ne hb)
    · rcases objects_accepted_eq_some hb with ⟨rfl, rfl⟩ | ⟨-, hb⟩
      · exact absurd heq (h.name_ne ha)
      · exact h.names a b oa ob ha hb heq
  entries i fd' e he := by
    obtain ⟨oe, hc, hrest⟩ := h.entries i fd' e he
    exact ⟨oe, h.objects_accepted hc, hrest⟩
  mapped i fd' a ha := by
    obtain ⟨oe, hc, hrest⟩ := h.mapped i fd' a ha
    exact ⟨oe, h.objects_accepted hc, hrest⟩
  tasks i t ht := by
    obtain ⟨oe, hc, hrest⟩ := h.tasks i t ht
    exact ⟨oe, h.objects_accepted hc, hrest⟩
  active i a ha := by
    obtain ⟨oe, hc, hrest⟩ := h.active i a ha
    exact ⟨oe, h.objects_accepted hc, hrest⟩
  table name a hlookup := by
    have hinsert : (s.m_connections.insert (s.newObject ioLoop fd).m_name s.next).lookup name =
      some a := hlookup
    by_cases hname : name = (s.newObject ioLoop fd).m_name
    · rw [hname, AList.lookup_insert] at hinsert
      obtain rfl := Option.some.inj hinsert
      exact ⟨_, objects_accepted_next, hname.symm⟩
    · rw [AList.lookup_insert_ne hname] at hinsert
      obtain ⟨oe, hc, hrest⟩ := h.table name a hinsert
      exact ⟨oe, h.objects_accepted hc, hrest⟩
  running := h.running
  dangling := h.dangling
  foreign := h.foreign

theorem Sound.stands_accepted (h : s.Sound) {a : Nat} {oa : ConnectionObject n}
    (ha : (s.accepted ioLoop pool fd).objects a = some oa) (hne : a ≠ s.next) :
    (s.accepted ioLoop pool fd).Stands a oa := by
  rw [objects_accepted_of_ne hne] at ha
  have hlookup : (s.accepted ioLoop pool fd).m_connections.lookup oa.m_name =
      s.m_connections.lookup oa.m_name := AList.lookup_insert_ne (h.name_ne ha)
  rw [Stands, hlookup]
  exact h.stands a oa ha

/-- A new connection is handed to its loop, or established at once in the base loop. -/
theorem Sound.newConnection (h : s.Sound) (hfd : ¬ s.Open fd) (input : Input) :
    (s.newConnection fd input).Sound := by
  rw [Reactor.newConnection]
  generalize s.m_threadPool.getNextLoop = next
  obtain ⟨ioLoop, pool⟩ := next
  show (if ioLoop = baseLoop then (s.accepted ioLoop pool fd).run baseLoop s.next _
    else (s.accepted ioLoop pool fd).queueInLoop ioLoop (.connectEstablished s.next)).Sound
  let s₁ := s.accepted ioLoop pool fd
  let o₁ := s.newObject ioLoop fd
  have h₁ : s₁.Ordered := h.toOrdered.accepted hfd
  have hc₁ : s₁.objects s.next = some o₁ := objects_accepted_next
  have hcount : ∀ (j : Fin (n + 1)) (t : Task), t.connection = s.next →
      (s₁.waiting j).count t = 0 := fun j t ht => h.toOrdered.count_next j ht
  have hlisted : s₁.m_connections.lookup o₁.m_name = some s.next := AList.lookup_insert ..
  have hinactive : ∀ j, s.next ∉ (s₁.turn j).active := fun j hmem => by
    obtain ⟨oa, ha, -⟩ := h.active j s.next hmem
    exact h.ne_next ha rfl
  split
  case isTrue hbase =>
    let f := fun l : ConnectionLife => l.connectEstablished.act input.actions
    have hplaced : (s₁.found o₁).m_channel.Placed (s₁.found o₁).poller :=
      (h₁.object s.next o₁ hc₁).placed
    have hopened : ConnectionLife.Opened (s₁.found o₁) (f (s₁.found o₁)) :=
      (ConnectionLife.opened_connectEstablished hplaced).act input.actions
    have hrun : s₁.run baseLoop s.next f = s₁.ran o₁.m_loop s.next o₁ (f (s₁.found o₁)) := by
      have hloop : o₁.m_loop = baseLoop := hbase
      rw [run_eq hc₁, hopened.removing, hloop]
      rfl
    show (s₁.run baseLoop s.next f).Sound
    rw [hrun]
    have ht := touches_ran hc₁ hopened.toMoved
    refine h₁.sound ht (fun a oa ha hne => h.stands_accepted ha hne)
      (fun j hj => absurd (ht.active j _ hj) (hinactive j)) ?_
    refine .of_open hopened.isOpen hopened.reads ?_ hlisted ?_
    · exact (count_ran _ _ (by simp) _).trans (hcount _ _ rfl)
    · exact ⟨(count_ran _ _ (by simp) _).trans (hcount _ _ rfl),
        (count_ran _ _ (by simp) _).trans (hcount _ _ rfl)⟩
  case isFalse hother =>
    have ht : Touches s₁ (s₁.queueInLoop ioLoop (.connectEstablished s.next)) s.next o₁ o₁ :=
      touches_queue hc₁ fun t ht => by
        rw [List.mem_singleton.mp ht]
        exact ⟨rfl, rfl⟩
    refine h₁.sound ht (fun a oa ha hne => h.stands_accepted ha hne)
      (fun j hj => absurd (ht.active j _ hj) (hinactive j)) ?_
    have hnew : o₁.life.m_channel.m_index = .kNew := rfl
    have hconnecting : o₁.life.connection.m_state = .kConnecting := rfl
    have hnot : o₁.life.connection.m_state ≠ .kDisconnected := fun hs => StateE.noConfusion hs
    refine ⟨fun _ => hnew, ?_, fun hopen => ?_, fun _ => hlisted, fun _ => ?_,
      fun hs => absurd hs hnot, fun hindex => absurd hnew hindex⟩
    · rw [if_pos hconnecting, count_queueInLoop, hcount _ _ rfl, if_pos ⟨rfl, rfl⟩]
    · rcases hopen with hs | hs
      · exact StateE.noConfusion hs
      · exact StateE.noConfusion hs
    · rw [count_queueInLoop, count_queueInLoop, hcount _ _ rfl, hcount _ _ rfl]
      simp

/-! ## Runs -/

theorem sound_start (n : Nat) (ipPort : String) (writeComplete : Bool) :
    (start n ipPort writeComplete).Sound where
  object _ _ hc := absurd hc (Option.some_ne_none _).symm
  fds _ _ _ _ hc := absurd hc (Option.some_ne_none _).symm
  names _ _ _ _ hc := absurd hc (Option.some_ne_none _).symm
  entries _ _ _ he := absurd he (Option.some_ne_none _).symm
  mapped _ _ _ ha := absurd ha (Option.some_ne_none _).symm
  tasks _ _ ht := absurd ht List.not_mem_nil
  active _ _ ha := absurd ha List.not_mem_nil
  table _ _ hlookup := absurd hlookup (Option.some_ne_none _).symm
  running _ := rfl
  dangling := rfl
  foreign := rfl
  stands _ _ hc := absurd hc (Option.some_ne_none _).symm

theorem Sound.step (h : s.Sound) (e : Event n) : (s.step e).Sound := by
  cases e with
  | accept fd input =>
      rw [Reactor.step]
      split
      case isTrue hguard => exact (h.newConnection hguard.2.1 input).reap
      case isFalse => exact h
  | next i input => exact (h.advance i input).reap

theorem sound_run (n : Nat) (ipPort : String) (writeComplete : Bool) (events : List (Event n)) :
    AllStates step Sound (start n ipPort writeComplete) events := by
  have hall : StepsMeet (step (n := n)) (fun _ _ => True) (start n ipPort writeComplete) events :=
    stepsMeet_true
  exact allStates_of_stepsMeet (fun _ e h _ => h.step e) (sound_start n ipPort writeComplete) hall

/-! ### No pointer dangles -/

/-- No operation of `epoll_ctl` has ended the process. The epoll set of each loop has exactly
the channels of its connections whose index says so, each with its interest, and no two
connections have one fd. -/
structure EpollExact (s : Reactor n) : Prop where
  running : ∀ i, (s.poller i).fatal = false
  entry_iff : ∀ i fd e, (s.poller i).epollSet fd = some e ↔
    ∃ o, s.objects e.2 = some o ∧ o.m_loop = i ∧ o.life.m_channel.m_fd = fd ∧
      o.life.m_channel.m_index = .kAdded ∧ o.life.m_channel.m_events = e.1
  fds : ∀ c c' o o', s.objects c = some o → s.objects c' = some o' →
    o.life.m_channel.m_fd = o'.life.m_channel.m_fd → c = c'

theorem Sound.epollExact (h : s.Sound) : s.EpollExact where
  running := h.running
  fds := h.fds
  entry_iff i fd e := by
    constructor
    · intro he
      obtain ⟨o, hc, rfl, rfl⟩ := h.entries i fd e he
      have hentry := (h.object e.2 o hc).placed.entry
      rw [he] at hentry
      split at hentry
      case isTrue hadded => exact ⟨o, hc, rfl, rfl, hadded, (congrArg Prod.fst
          (Option.some.inj hentry)).symm⟩
      case isFalse => cases hentry
    · rintro ⟨o, hc, rfl, rfl, hadded, hevents⟩
      have hp := h.object e.2 o hc
      rw [hp.placed.entry, if_pos hadded, hevents, hp.self]

/-- In every run the epoll sets are exact, also when the kernel gives an fd once more. -/
theorem epollExact_run (n : Nat) (ipPort : String) (writeComplete : Bool)
    (events : List (Event n)) :
    AllStates step EpollExact (start n ipPort writeComplete) events :=
  (sound_run n ipPort writeComplete events).imp fun _ h => h.epollExact

/-! ### Nothing is left of a closed connection -/

/-- No loop has anything to do: no functor, and no active channel. -/
def Idle (s : Reactor n) : Prop := ∀ i, s.tasks i = [] ∧ (s.turn i).active = []

/-- The connections in memory are those of `m_connections`, each under its name. They are open,
and their loops wait for something to read. -/
structure NoLeak (s : Reactor n) : Prop where
  object : ∀ c o, s.objects c = some o →
    s.m_connections.lookup o.m_name = some c ∧ o.life.IsOpen ∧
      ∃ events, (s.poller o.m_loop).epollSet o.life.m_channel.m_fd = some (events, c) ∧
        events.reading = true
  table : ∀ name c, s.m_connections.lookup name = some c →
    ∃ o, s.objects c = some o ∧ o.m_name = name

/-- An object that nobody holds is not there. -/
def Reaped (s : Reactor n) : Prop := ∀ c o, s.objects c = some o → s.Held c

theorem reaped_step (h : s.Reaped) (e : Event n) : (s.step e).Reaped := by
  have hreap : ∀ s : Reactor n, s.reap.Reaped := fun s c o hc => (objects_reap_eq_some hc).1
  cases e with
  | accept fd input =>
      rw [Reactor.step]
      split
      · exact hreap _
      · exact h
  | next i input => exact hreap _

/-- A guard is one of an active channel. -/
theorem Turn.active_of_guard {turn : Turn} (hguard : turn.guard = some c) : c ∈ turn.active := by
  cases turn with
  | handling channel guard callbacks active =>
      cases guard with
      | true =>
          obtain rfl := Option.some.inj hguard
          exact List.mem_cons_self ..
      | false => cases hguard
  | polling => cases hguard
  | dispatching active => cases hguard
  | running done todo => cases hguard

/-- What is held in an idle server is in `m_connections`. -/
theorem Sound.listed_of_idle (h : s.Sound) (hidle : s.Idle) (hc : s.objects c = some o)
    (hheld : s.Held c) : s.m_connections.lookup o.m_name = some c := by
  rcases hheld with ⟨⟨name, a⟩, hmem, rfl⟩ | ⟨i, ⟨t, ht, -⟩ | hguard⟩
  · have hlookup : s.m_connections.lookup name = some a := AList.mem_lookup_iff.mpr hmem
    obtain ⟨o', hc', hname⟩ := h.table name a hlookup
    obtain rfl := Option.some.inj (hc'.symm.trans hc)
    rw [hname]
    exact hlookup
  · have hnil : s.tasks i = [] := (hidle i).1
    rw [← tasks, hnil] at ht
    exact absurd ht List.not_mem_nil
  · have hmem : c ∈ (s.turn i).active := Turn.active_of_guard hguard
    rw [(hidle i).2] at hmem
    exact absurd hmem List.not_mem_nil

theorem Sound.noLeak (h : s.Sound) (hreaped : s.Reaped) (hidle : s.Idle) : s.NoLeak where
  table := h.table
  object c o hc := by
    have hlisted := h.listed_of_idle hidle hc (hreaped c o hc)
    have hs := h.stands c o hc
    have hcount : ∀ (i : Fin (n + 1)) (t : Task), (s.waiting i).count t = 0 := fun i t =>
      List.count_eq_zero_of_not_mem fun hmem => by
        have htasks := mem_tasks_of_waiting hmem
        rw [(hidle i).1] at htasks
        exact List.not_mem_nil htasks
    -- The functors that lead out of the other states do not wait.
    have hopen : o.life.IsOpen := by
      cases hstate : o.life.connection.m_state with
      | kConnected => exact .inl hstate
      | kDisconnecting => exact .inr hstate
      | kDisconnected =>
          have hremoving := hs.leaving hstate hlisted
          rw [hcount] at hremoving
          exact absurd hremoving (Nat.lt_irrefl 0)
      | kConnecting =>
          have hwaits := hs.waits
          rw [hcount, if_pos hstate] at hwaits
          exact absurd hwaits (by decide)
    obtain ⟨hadded, hreading⟩ := hs.reads hopen
    have hp := h.object c o hc
    refine ⟨hlisted, hopen, o.life.m_channel.m_events, ?_, hreading⟩
    rw [hp.placed.entry, if_pos hadded, hp.self]

/-- In every run, when no loop has anything left to do the server has forgotten all connections
but the open ones, and serves these. -/
theorem noLeak_run (n : Nat) (ipPort : String) (writeComplete : Bool) (events : List (Event n)) :
    AllStates step (fun s => s.Idle → s.NoLeak) (start n ipPort writeComplete) events := by
  have hall : StepsMeet (step (n := n)) (fun _ _ => True) (start n ipPort writeComplete) events :=
    stepsMeet_true
  have hboth : AllStates step (fun s : Reactor n => s.Sound ∧ s.Reaped)
      (start n ipPort writeComplete) events := by
    refine allStates_of_stepsMeet (fun s e h _ => ⟨h.1.step e, reaped_step h.2 e⟩)
      ⟨sound_start n ipPort writeComplete, fun c o hc => ?_⟩ hall
    exact absurd hc (Option.some_ne_none _).symm
  exact hboth.imp fun s h hidle => h.1.noLeak h.2 hidle

/-! ### The connections go round the loops -/

/-- A step that brings no connection: it leaves the pool, and every connection that is still there
has its loop and its name. `m_connections` gets no entry. -/
structure SamePlaces (s s' : Reactor n) : Prop where
  m_ipPort : s'.m_ipPort = s.m_ipPort
  m_threadPool : s'.m_threadPool = s.m_threadPool
  m_nextConnId : s'.m_nextConnId = s.m_nextConnId
  next : s'.next = s.next
  object : ∀ c o', s'.objects c = some o' →
    ∃ o, s.objects c = some o ∧ o'.m_loop = o.m_loop ∧ o'.m_name = o.m_name
  listed : ∀ name c, s'.m_connections.lookup name = some c →
    s.m_connections.lookup name = some c

namespace SamePlaces

variable {s' s'' : Reactor n}

theorem refl (s : Reactor n) : SamePlaces s s :=
  ⟨rfl, rfl, rfl, rfl, fun _ o hc => ⟨o, hc, rfl, rfl⟩, fun _ _ h => h⟩

theorem trans (h : SamePlaces s s') (h' : SamePlaces s' s'') : SamePlaces s s'' where
  m_ipPort := h'.m_ipPort.trans h.m_ipPort
  m_threadPool := h'.m_threadPool.trans h.m_threadPool
  m_nextConnId := h'.m_nextConnId.trans h.m_nextConnId
  next := h'.next.trans h.next
  object c o' hc := by
    obtain ⟨o₁, hc₁, hloop₁, hname₁⟩ := h'.object c o' hc
    obtain ⟨o, hc, hloop, hname⟩ := h.object c o₁ hc₁
    exact ⟨o, hc, hloop₁.trans hloop, hname₁.trans hname⟩
  listed name c hc := h.listed name c (h'.listed name c hc)

end SamePlaces

theorem samePlaces_removeConnection (s : Reactor n) (i : Fin (n + 1)) (c : Nat) :
    SamePlaces s (s.removeConnection i c) := by
  rw [removeConnection]
  split
  · rw [removeConnectionInLoop]
    split
    · exact { SamePlaces.refl s with }
    · rename_i o _
      refine { SamePlaces.refl s with listed := fun name a ha => ?_ }
      have herase : (s.m_connections.erase o.m_name).lookup name = some a := ha
      by_cases hname : name = o.m_name
      · rw [hname, AList.lookup_erase] at herase
        cases herase
      · rw [AList.lookup_erase_ne hname] at herase
        exact herase
  · exact { SamePlaces.refl s with }

theorem samePlaces_run (s : Reactor n) (i : Fin (n + 1)) (c : Nat)
    (f : ConnectionLife → ConnectionLife) : SamePlaces s (s.run i c f) := by
  cases hc : s.objects c with
  | none =>
      rw [run, hc]
      exact { SamePlaces.refl s with }
  | some o =>
      have hran : SamePlaces s (s.ran i c o (f (s.found o))) :=
        { SamePlaces.refl s with
          object := fun a o' ha => by
            have hupdate : Function.update s.objects c _ a = some o' := ha
            by_cases hac : a = c
            · subst hac
              rw [Function.update_self] at hupdate
              obtain rfl := Option.some.inj hupdate
              exact ⟨o, hc, rfl, rfl⟩
            · rw [Function.update_of_ne hac] at hupdate
              exact ⟨o', hupdate, rfl, rfl⟩ }
      rw [run_eq hc]
      -- The close callback runs as often as the function asks for.
      generalize (f (s.found o)).removing = times
      induction times with
      | zero => exact hran
      | succ times ih =>
          rw [Function.iterate_succ_apply']
          exact ih.trans (samePlaces_removeConnection _ i c)

theorem samePlaces_runTask (s : Reactor n) (i : Fin (n + 1)) (input : Input) (t : Task) :
    SamePlaces s (s.runTask i input t) := by
  cases t with
  | removeConnectionInLoop c =>
      have hbase := samePlaces_removeConnection s baseLoop c
      rw [removeConnection, if_pos rfl] at hbase
      exact hbase
  | _ =>
      rw [runTask]
      exact samePlaces_run ..

theorem samePlaces_handle (s : Reactor n) (i : Fin (n + 1)) (c : Nat) (input : Input)
    (callback : ChannelCallback) : SamePlaces s (s.handle i c input callback) := by
  cases callback
  all_goals
    rw [handle]
    exact samePlaces_run ..

theorem samePlaces_advance (s : Reactor n) (i : Fin (n + 1)) (input : Input) :
    SamePlaces s (s.advance i input) := by
  rw [Reactor.advance]
  split
  · exact { SamePlaces.refl s with }
  · exact { SamePlaces.refl s with }
  · split
    · exact { SamePlaces.refl s with }
    · exact { SamePlaces.refl s with }
  · exact { SamePlaces.refl s with }
  · exact (samePlaces_handle ..).trans { SamePlaces.refl _ with }
  · exact (samePlaces_runTask ..).trans { SamePlaces.refl _ with }
  · exact { SamePlaces.refl s with }

theorem samePlaces_reap (s : Reactor n) : SamePlaces s s.reap :=
  { SamePlaces.refl s with
    object := fun _ o hc => ⟨o, (objects_reap_eq_some hc).2, rfl, rfl⟩ }

/-- But for the new connection itself, nothing happens to the others. -/
theorem samePlaces_newConnection (s : Reactor n) (fd : Nat) (input : Input) :
    ∃ ioLoop pool, SamePlaces (s.accepted ioLoop pool fd) (s.newConnection fd input) ∧
      s.m_threadPool.getNextLoop = (ioLoop, pool) := by
  refine ⟨s.m_threadPool.getNextLoop.1, s.m_threadPool.getNextLoop.2, ?_, rfl⟩
  rw [Reactor.newConnection]
  show SamePlaces _ (if s.m_threadPool.getNextLoop.1 = baseLoop then
      (s.accepted _ _ fd).run baseLoop s.next _
    else (s.accepted _ _ fd).queueInLoop _ (.connectEstablished s.next))
  split
  · exact samePlaces_run ..
  · exact { SamePlaces.refl _ with }

/-- The loop of the connection that was accepted after `c` others. -/
def loopOf (n c : Nat) : Fin (n + 1) :=
  if h : 0 < n then ⟨c % n + 1, Nat.succ_lt_succ (Nat.mod_lt c h)⟩ else baseLoop

/-- How the pool stands after all connections so far. -/
structure RoundRobin (ipPort : String) (s : Reactor n) : Prop where
  m_ipPort : s.m_ipPort = ipPort
  m_baseLoop : s.m_threadPool.m_baseLoop = baseLoop
  m_loops : s.m_threadPool.m_loops = (List.finRange n).map Fin.succ
  m_next : s.m_threadPool.m_next = if 0 < n then s.next % n else 0
  m_nextConnId : s.m_nextConnId = s.next + 1
  object : ∀ c o, s.objects c = some o →
    o.m_loop = loopOf n c ∧ o.m_name = connectionName ipPort (c + 1)

variable {ipPort : String}

theorem RoundRobin.samePlaces {s' : Reactor n} (h : s.RoundRobin ipPort) (hs : SamePlaces s s') :
    s'.RoundRobin ipPort where
  m_ipPort := hs.m_ipPort.trans h.m_ipPort
  m_baseLoop := (congrArg _ hs.m_threadPool).trans h.m_baseLoop
  m_loops := (congrArg _ hs.m_threadPool).trans h.m_loops
  m_next := by rw [hs.m_threadPool, hs.next, h.m_next]
  m_nextConnId := by rw [hs.m_nextConnId, hs.next, h.m_nextConnId]
  object c o' hc := by
    obtain ⟨o, hc, hloop, hname⟩ := hs.object c o' hc
    rw [hloop, hname]
    exact h.object c o hc

/-- `getNextLoop` gives the loop whose turn it is. -/
theorem RoundRobin.getNextLoop (h : s.RoundRobin ipPort) :
    s.m_threadPool.getNextLoop.1 = loopOf n s.next ∧
      s.m_threadPool.getNextLoop.2 =
        { s.m_threadPool with m_next := if 0 < n then (s.next + 1) % n else 0 } := by
  have hm_loops := h.m_loops
  have hm_next := h.m_next
  rw [EventLoopThreadPool.getNextLoop, loopOf]
  by_cases hn : 0 < n
  · have hlength : s.m_threadPool.m_loops.length = n := by
      rw [hm_loops, List.length_map, List.length_finRange]
    have hlt : s.next % n < n := Nat.mod_lt _ hn
    rw [if_pos hn] at hm_next
    rw [dif_pos hn, if_pos hn]
    split
    case h_1 hnil =>
      rw [hnil] at hlength
      exact absurd hlength.symm (Nat.ne_of_gt hn)
    case h_2 =>
      constructor
      · show s.m_threadPool.m_loops.getD s.m_threadPool.m_next s.m_threadPool.m_baseLoop = _
        rw [hm_next, List.getD_eq_getElem?_getD, List.getElem?_eq_getElem (hlength.symm ▸ hlt),
          Option.getD_some]
        simp only [hm_loops, List.getElem_map, List.getElem_finRange]
        rfl
      · show { s.m_threadPool with
          m_next := (s.m_threadPool.m_next + 1) % s.m_threadPool.m_loops.length } = _
        rw [hm_next, hlength, Nat.mod_add_mod]
  · obtain rfl : n = 0 := Nat.eq_zero_of_not_pos hn
    have hnil : s.m_threadPool.m_loops = [] := hm_loops
    rw [if_neg hn] at hm_next
    rw [dif_neg hn, if_neg hn, hnil]
    exact ⟨h.m_baseLoop,
      congrArg (fun m_next => { s.m_threadPool with m_next := m_next }) hm_next⟩

theorem RoundRobin.newConnection (h : s.RoundRobin ipPort) (fd : Nat) (input : Input) :
    (s.newConnection fd input).RoundRobin ipPort := by
  obtain ⟨hloop, hpool⟩ := h.getNextLoop
  obtain ⟨ioLoop, pool, hsame, hnext⟩ := samePlaces_newConnection s fd input
  rw [hnext] at hloop hpool
  subst hloop hpool
  have haccepted : (s.accepted (loopOf n s.next)
      { s.m_threadPool with m_next := if 0 < n then (s.next + 1) % n else 0 } fd).RoundRobin
        ipPort := by
    refine ⟨h.m_ipPort, h.m_baseLoop, h.m_loops, rfl, congrArg Nat.succ h.m_nextConnId,
      fun c o hc => ?_⟩
    rcases objects_accepted_eq_some hc with ⟨rfl, rfl⟩ | ⟨-, hc⟩
    · refine ⟨rfl, ?_⟩
      show connectionName s.m_ipPort s.m_nextConnId = _
      rw [h.m_ipPort, h.m_nextConnId]
    · exact h.object c o hc
  exact haccepted.samePlaces hsame

theorem RoundRobin.step (h : s.RoundRobin ipPort) (e : Event n) :
    (s.step e).RoundRobin ipPort := by
  cases e with
  | accept fd input =>
      rw [Reactor.step]
      split
      · exact (h.newConnection fd input).samePlaces (samePlaces_reap _)
      · exact h
  | next i input =>
      exact (h.samePlaces (samePlaces_advance s i input)).samePlaces (samePlaces_reap _)

/-- How many of the first `count` connections are given to a loop. -/
def load (count : Nat) (i : Fin (n + 1)) : Nat := Nat.count (fun c => loopOf n c = i) count

/-- The loads of two loops of the pool differ by one at most. -/
theorem load_le (count : Nat) (i j : Fin n) : load count i.succ ≤ load count j.succ + 1 := by
  have hn : 0 < n := Fin.pos i
  have hload : ∀ i : Fin n, load count i.succ =
      count / n + if i % n < count % n then 1 else 0 := by
    intro i
    rw [load, ← Nat.count_modEq_card count hn]
    congr 1
    funext c
    rw [loopOf, dif_pos hn, Fin.ext_iff, Nat.ModEq, Nat.mod_eq_of_lt i.isLt]
    exact propext Nat.succ_inj
  rw [hload, hload]
  split
  · omega
  · omega

/-- In every run each connection has the loop whose turn it was and a name of its own, and the
loops of the pool have been given as many connections, or one more. -/
theorem roundRobin_run (n : Nat) (ipPort : String) (writeComplete : Bool)
    (events : List (Event n)) :
    AllStates step (fun s : Reactor n =>
        (∀ c o, s.objects c = some o →
          o.m_loop = loopOf n c ∧ o.m_name = connectionName ipPort (c + 1)) ∧
        (∀ c c' o o', s.objects c = some o → s.objects c' = some o' →
          o.m_name = o'.m_name → c = c') ∧
        ∀ i j : Fin n, load s.next i.succ ≤ load s.next j.succ + 1)
      (start n ipPort writeComplete) events := by
  have hstart : (start n ipPort writeComplete).RoundRobin ipPort := by
    refine ⟨rfl, rfl, List.nil_append _, ?_, rfl, fun c o hc => ?_⟩
    · split
      · exact (Nat.zero_mod n).symm
      · rfl
    · exact absurd hc (Option.some_ne_none _).symm
  have hall : StepsMeet (step (n := n)) (fun _ _ => True) (start n ipPort writeComplete) events :=
    stepsMeet_true
  refine (allStates_of_stepsMeet (fun _ e h _ => h.step e) hstart hall).imp fun s h => ?_
  refine ⟨h.object, fun c c' o o' hc hc' heq => ?_, fun i j => load_le s.next i j⟩
  rw [(h.object c o hc).2, (h.object c' o' hc').2] at heq
  exact Nat.succ_inj.mp (connectionName_injective ipPort heq)

end Reactor

end RegistrationCenter
