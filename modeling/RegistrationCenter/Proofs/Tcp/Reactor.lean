import RegistrationCenter.Proofs.Tcp.Handlers
import RegistrationCenter.Proofs.Server.AddressIndex

/-!
# `RegistrationCenter.Proofs.Tcp.Reactor`: who holds a connection

The invariant of the whole server. `Ordered` says where the pointers go: what an epoll set, a
map of a poller, a queue, the active channels of a loop or `m_connections` mention is there, and
belongs to that loop. `Standing` says what is still to come for one connection, by its state: as
long as its channel is registered, `m_connections` has it or one of the functors that lead to
`connectDestoryed` waits.

A step changes one connection. `Touches` is what all these changes have in common, and
`Ordered.touched` says once that it keeps the others in order.
-/

set_option autoImplicit false

namespace RegistrationCenter

/-- The loop in whose queue a functor of a connection waits. -/
def Task.home {n : Nat} (m_loop : Fin (n + 1)) : Task → Fin (n + 1)
  | .removeConnectionInLoop _ => Reactor.baseLoop
  | _ => m_loop

namespace Reactor

variable {n : Nat} {s s' s'' : Reactor n} {c : Nat} {o o' o'' : ConnectionObject n}

/-- The functors that loop `i` has still to run. -/
def waiting (s : Reactor n) (i : Fin (n + 1)) : List Task :=
  (s.turn i).todo ++ s.m_pendingFunctors i

/-- The functors that loop `i` keeps. -/
def tasks (s : Reactor n) (i : Fin (n + 1)) : List Task :=
  s.m_pendingFunctors i ++ (s.turn i).funcs

theorem Turn.funcs_of_mem_todo {turn : Turn} {t : Task} (h : t ∈ turn.todo) : t ∈ turn.funcs := by
  cases turn with
  | running done todo => exact List.mem_append_right _ h
  | polling => exact absurd h List.not_mem_nil
  | dispatching active => exact absurd h List.not_mem_nil
  | handling channel guard callbacks active => exact absurd h List.not_mem_nil

theorem mem_tasks_of_waiting {i : Fin (n + 1)} {t : Task} (h : t ∈ s.waiting i) :
    t ∈ s.tasks i := by
  rcases List.mem_append.mp h with htodo | hpending
  · exact List.mem_append_right _ (Turn.funcs_of_mem_todo htodo)
  · exact List.mem_append_left _ hpending

/-! ## The invariant -/

/-- What is to come for a connection: how often its functors wait, and whether `m_connections`
has it. -/
structure Standing (o : ConnectionObject n) (establishing removing destroying : Nat)
    (inConnections : Prop) : Prop where
  opening : o.life.connection.m_state = .kConnecting → o.life.m_channel.m_index = .kNew
  waits : establishing = if o.life.connection.m_state = .kConnecting then 1 else 0
  reads : o.life.IsOpen → o.life.Reads
  listed : o.life.connection.m_state ≠ .kDisconnected → inConnections
  quiet : o.life.connection.m_state ≠ .kDisconnected → removing = 0 ∧ destroying = 0
  leaving : o.life.connection.m_state = .kDisconnected → inConnections → 0 < removing
  anchored : o.life.m_channel.m_index ≠ .kNew → inConnections ∨ 0 < removing ∨ 0 < destroying

def Stands (s : Reactor n) (c : Nat) (o : ConnectionObject n) : Prop :=
  Standing o ((s.waiting o.m_loop).count (.connectEstablished c))
    ((s.waiting baseLoop).count (.removeConnectionInLoop c))
    ((s.waiting o.m_loop).count (.connectDestoryed c))
    (s.m_connections.lookup o.m_name = some c)

/-- A connection in its place. -/
structure Placed (s : Reactor n) (c : Nat) (o : ConnectionObject n) : Prop where
  fresh : c < s.next
  self : o.life.m_channel.self = c
  placed : o.life.m_channel.Placed (s.poller o.m_loop)
  named : ∃ id < s.m_nextConnId, o.m_name = connectionName s.m_ipPort id

/-- All pointers go to connections that are there. -/
structure Ordered (s : Reactor n) : Prop where
  object : ∀ c o, s.objects c = some o → s.Placed c o
  fds : ∀ c c' o o', s.objects c = some o → s.objects c' = some o' →
    o.life.m_channel.m_fd = o'.life.m_channel.m_fd → c = c'
  names : ∀ c c' o o', s.objects c = some o → s.objects c' = some o' →
    o.m_name = o'.m_name → c = c'
  entries : ∀ i fd e, (s.poller i).epollSet fd = some e →
    ∃ o, s.objects e.2 = some o ∧ o.m_loop = i ∧ o.life.m_channel.m_fd = fd
  mapped : ∀ i fd a, (s.poller i).m_channels fd = some a →
    ∃ o, s.objects a = some o ∧ o.m_loop = i ∧ o.life.m_channel.m_fd = fd
  tasks : ∀ i, ∀ t ∈ s.tasks i, ∃ o, s.objects t.connection = some o ∧ t.home o.m_loop = i
  active : ∀ i, ∀ a ∈ (s.turn i).active,
    ∃ o, s.objects a = some o ∧ o.m_loop = i ∧ o.life.m_channel.m_index ≠ .kNew
  table : ∀ name a, s.m_connections.lookup name = some a →
    ∃ o, s.objects a = some o ∧ o.m_name = name
  running : ∀ i, (s.poller i).fatal = false
  dangling : s.dangling = false
  foreign : s.foreign = false

/-- The invariant of a run. -/
structure Sound (s : Reactor n) : Prop extends Ordered s where
  stands : ∀ c o, s.objects c = some o → s.Stands c o

/-! ## One connection changes -/

/-- A step on the connection `c`, which was `o` and is `o'` after it. -/
structure Touches (s s' : Reactor n) (c : Nat) (o o' : ConnectionObject n) : Prop where
  before : s.objects c = some o
  objects : s'.objects = Function.update s.objects c (some o')
  m_loop : o'.m_loop = o.m_loop
  m_name : o'.m_name = o.m_name
  self : o'.life.m_channel.self = o.life.m_channel.self
  fd : o'.life.m_channel.m_fd = o.life.m_channel.m_fd
  placed : o.life.m_channel.Placed (s.poller o.m_loop) →
    o'.life.m_channel.Placed (s'.poller o.m_loop)
  elsewhere : EpollPoller.SameElsewhere o.life.m_channel.m_fd (s.poller o.m_loop)
    (s'.poller o.m_loop)
  pollers : ∀ j, j ≠ o.m_loop → s'.poller j = s.poller j
  counts : ∀ j t, t.connection ≠ c → (s'.waiting j).count t = (s.waiting j).count t
  tasks : ∀ j, ∀ t ∈ s'.tasks j, t ∈ s.tasks j ∨ t.connection = c ∧ t.home o.m_loop = j
  others : ∀ name, name ≠ o.m_name → s'.m_connections.lookup name = s.m_connections.lookup name
  listed : ∀ a, s'.m_connections.lookup o.m_name = some a →
    s.m_connections.lookup o.m_name = some a
  active : ∀ j, ∀ a ∈ (s'.turn j).active, a ∈ (s.turn j).active
  next : s'.next = s.next
  m_nextConnId : s'.m_nextConnId = s.m_nextConnId
  m_ipPort : s'.m_ipPort = s.m_ipPort
  dangling : s'.dangling = s.dangling
  foreign : s'.foreign = s.foreign

namespace Touches

/-- Nothing happens. -/
theorem refl (hc : s.objects c = some o) : Touches s s c o o where
  before := hc
  objects := by rw [← hc, Function.update_eq_self]
  m_loop := rfl
  m_name := rfl
  self := rfl
  fd := rfl
  placed h := h
  elsewhere := .refl _ _
  pollers _ _ := rfl
  counts _ _ _ := rfl
  tasks _ _ h := .inl h
  others _ _ := rfl
  listed _ h := h
  active _ _ h := h
  next := rfl
  m_nextConnId := rfl
  m_ipPort := rfl
  dangling := rfl
  foreign := rfl

theorem trans (h : Touches s s' c o o') (h' : Touches s' s'' c o' o'') : Touches s s'' c o o'' where
  before := h.before
  objects := by rw [h'.objects, h.objects, Function.update_idem]
  m_loop := h'.m_loop.trans h.m_loop
  m_name := h'.m_name.trans h.m_name
  self := h'.self.trans h.self
  fd := h'.fd.trans h.fd
  placed hplaced := by
    have hplaced' := h'.placed
    rw [h.m_loop] at hplaced'
    exact hplaced' (h.placed hplaced)
  elsewhere := by
    have helsewhere := h'.elsewhere
    rw [h.fd, h.m_loop] at helsewhere
    exact h.elsewhere.trans helsewhere
  pollers j hj := by
    rw [← h.pollers j hj]
    exact h'.pollers j (h.m_loop ▸ hj)
  counts j t ht := (h'.counts j t ht).trans (h.counts j t ht)
  tasks j t ht := by
    rcases h'.tasks j t ht with hbefore | hnew
    · exact h.tasks j t hbefore
    · rw [h.m_loop] at hnew
      exact .inr hnew
  others name hname := by
    rw [← h.others name hname]
    exact h'.others name (h.m_name ▸ hname)
  listed a ha := by
    have hlisted := h'.listed a
    rw [h.m_name] at hlisted
    exact h.listed a (hlisted ha)
  active j a ha := h.active j a (h'.active j a ha)
  next := h'.next.trans h.next
  m_nextConnId := h'.m_nextConnId.trans h.m_nextConnId
  m_ipPort := h'.m_ipPort.trans h.m_ipPort
  dangling := h'.dangling.trans h.dangling
  foreign := h'.foreign.trans h.foreign

/-- A connection after the step, with the loop, the name and the fd that it had. -/
theorem after (h : Touches s s' c o o') {a : Nat} {oa : ConnectionObject n}
    (ha : s.objects a = some oa) :
    ∃ oa', s'.objects a = some oa' ∧ oa'.m_loop = oa.m_loop ∧ oa'.m_name = oa.m_name ∧
      oa'.life.m_channel.m_fd = oa.life.m_channel.m_fd ∧ (a ≠ c → oa' = oa) := by
  rw [h.objects]
  by_cases hac : a = c
  · subst hac
    obtain rfl := Option.some.inj (h.before.symm.trans ha)
    exact ⟨o', Function.update_self .., h.m_loop, h.m_name, h.fd, fun hne => absurd rfl hne⟩
  · refine ⟨oa, ?_, rfl, rfl, rfl, fun _ => rfl⟩
    rw [Function.update_of_ne hac]
    exact ha

/-- A connection of after the step was there before. -/
theorem old (h : Touches s s' c o o') {a : Nat} {oa' : ConnectionObject n}
    (ha : s'.objects a = some oa') :
    ∃ oa, s.objects a = some oa ∧ oa'.m_loop = oa.m_loop ∧ oa'.m_name = oa.m_name ∧
      oa'.life.m_channel.m_fd = oa.life.m_channel.m_fd ∧ (a ≠ c → oa' = oa) := by
  rw [h.objects] at ha
  by_cases hac : a = c
  · subst hac
    rw [Function.update_self] at ha
    obtain rfl := Option.some.inj ha
    exact ⟨o, h.before, h.m_loop, h.m_name, h.fd, fun hne => absurd rfl hne⟩
  · rw [Function.update_of_ne hac] at ha
    exact ⟨oa', ha, rfl, rfl, rfl, fun _ => rfl⟩

end Touches

/-- A step on one connection keeps the others in order. -/
theorem Ordered.touched (h : s.Ordered) (ht : Touches s s' c o o')
    (hregistered : ∀ j, c ∈ (s'.turn j).active → o'.life.m_channel.m_index ≠ .kNew) :
    s'.Ordered where
  object a oa' ha := by
    obtain ⟨oa, hold, hloop, hname, hfd, hsame⟩ := ht.old ha
    have hp := h.object a oa hold
    refine ⟨ht.next ▸ hp.fresh, ?_, ?_, ?_⟩
    · by_cases hac : a = c
      · subst hac
        rw [ht.objects, Function.update_self] at ha
        obtain rfl := Option.some.inj ha
        obtain rfl := Option.some.inj (ht.before.symm.trans hold)
        exact ht.self.trans hp.self
      · rw [hsame hac]
        exact hp.self
    · by_cases hac : a = c
      · subst hac
        rw [ht.objects, Function.update_self] at ha
        obtain rfl := Option.some.inj ha
        obtain rfl := Option.some.inj (ht.before.symm.trans hold)
        rw [ht.m_loop]
        exact ht.placed hp.placed
      -- Another connection: its fd is another one, or its loop is.
      · rw [hsame hac]
        by_cases hloop : oa.m_loop = o.m_loop
        · have hne : oa.life.m_channel.m_fd ≠ o.life.m_channel.m_fd :=
            fun heq => hac (h.fds a c oa o hold ht.before heq)
          have hplaced := hp.placed
          rw [hloop] at hplaced ⊢
          exact ⟨(ht.elsewhere.epollSet _ hne).trans hplaced.entry,
            (ht.elsewhere.m_channels _ hne).trans hplaced.mapped⟩
        · rw [ht.pollers _ hloop]
          exact hp.placed
    · rw [ht.m_nextConnId, ht.m_ipPort, hname]
      exact hp.named
  fds a b oa ob ha hb heq := by
    obtain ⟨oa₀, ha₀, -, -, hfda, -⟩ := ht.old ha
    obtain ⟨ob₀, hb₀, -, -, hfdb, -⟩ := ht.old hb
    exact h.fds a b oa₀ ob₀ ha₀ hb₀ (hfda.symm.trans (heq.trans hfdb))
  names a b oa ob ha hb heq := by
    obtain ⟨oa₀, ha₀, -, hnamea, -, -⟩ := ht.old ha
    obtain ⟨ob₀, hb₀, -, hnameb, -, -⟩ := ht.old hb
    exact h.names a b oa₀ ob₀ ha₀ hb₀ (hnamea.symm.trans (heq.trans hnameb))
  entries i fd e he := by
    have hold : (s.poller i).epollSet fd = some e ∨
        (i = o.m_loop ∧ fd = o.life.m_channel.m_fd) := by
      by_cases hi : i = o.m_loop
      · by_cases hfd : fd = o.life.m_channel.m_fd
        · exact .inr ⟨hi, hfd⟩
        · subst hi
          rw [ht.elsewhere.epollSet fd hfd] at he
          exact .inl he
      · rw [ht.pollers i hi] at he
        exact .inl he
    rcases hold with hold | ⟨rfl, rfl⟩
    · obtain ⟨oa, ha, hloop, hfd⟩ := h.entries i fd e hold
      obtain ⟨oa', ha', hloop', -, hfd', -⟩ := ht.after ha
      exact ⟨oa', ha', hloop'.trans hloop, hfd'.trans hfd⟩
    -- The entry of the connection itself.
    · have hp := h.object c o ht.before
      have hentry := (ht.placed hp.placed).entry
      rw [ht.fd, he] at hentry
      split at hentry
      · have hself : e.2 = c := by
          rw [Option.some.inj hentry]
          exact ht.self.trans hp.self
        refine ⟨o', ?_, ht.m_loop, ht.fd⟩
        rw [hself, ht.objects]
        exact Function.update_self ..
      · cases hentry
  mapped i fd a ha := by
    have hold : (s.poller i).m_channels fd = some a ∨
        (i = o.m_loop ∧ fd = o.life.m_channel.m_fd) := by
      by_cases hi : i = o.m_loop
      · by_cases hfd : fd = o.life.m_channel.m_fd
        · exact .inr ⟨hi, hfd⟩
        · subst hi
          rw [ht.elsewhere.m_channels fd hfd] at ha
          exact .inl ha
      · rw [ht.pollers i hi] at ha
        exact .inl ha
    rcases hold with hold | ⟨rfl, rfl⟩
    · obtain ⟨oa, ha, hloop, hfd⟩ := h.mapped i fd a hold
      obtain ⟨oa', ha', hloop', -, hfd', -⟩ := ht.after ha
      exact ⟨oa', ha', hloop'.trans hloop, hfd'.trans hfd⟩
    · have hp := h.object c o ht.before
      have hmapped := (ht.placed hp.placed).mapped
      rw [ht.fd, ha] at hmapped
      split at hmapped
      · cases hmapped
      · have hself : a = c := (Option.some.inj hmapped).trans (ht.self.trans hp.self)
        refine ⟨o', ?_, ht.m_loop, ht.fd⟩
        rw [hself, ht.objects]
        exact Function.update_self ..
  tasks i t hmem := by
    rcases ht.tasks i t hmem with hbefore | ⟨hconnection, hhome⟩
    · obtain ⟨oa, ha, hloop⟩ := h.tasks i t hbefore
      obtain ⟨oa', ha', hloop', -, -, -⟩ := ht.after ha
      exact ⟨oa', ha', hloop' ▸ hloop⟩
    · obtain ⟨oa', ha', hloop', -, -, -⟩ := ht.after ht.before
      exact ⟨oa', hconnection ▸ ha', hloop' ▸ hhome⟩
  active i a hmem := by
    obtain ⟨oa, ha, hloop, hindex⟩ := h.active i a (ht.active i a hmem)
    obtain ⟨oa', ha', hloop', -, -, hsame⟩ := ht.after ha
    refine ⟨oa', ha', hloop'.trans hloop, ?_⟩
    by_cases hac : a = c
    · subst hac
      rw [ht.objects, Function.update_self] at ha'
      obtain rfl := Option.some.inj ha'
      exact hregistered i hmem
    · rw [hsame hac]
      exact hindex
  table name a hlookup := by
    have hold : s.m_connections.lookup name = some a := by
      by_cases hname : name = o.m_name
      · subst hname
        exact ht.listed a hlookup
      · rw [← ht.others name hname]
        exact hlookup
    obtain ⟨oa, ha, hname⟩ := h.table name a hold
    obtain ⟨oa', ha', -, hname', -, -⟩ := ht.after ha
    exact ⟨oa', ha', hname'.trans hname⟩
  running i := by
    by_cases hi : i = o.m_loop
    · subst hi
      exact ht.elsewhere.fatal.trans (h.running _)
    · rw [ht.pollers i hi]
      exact h.running i
  dangling := ht.dangling.trans h.dangling
  foreign := ht.foreign.trans h.foreign

/-- What the other connections have to come is as it was. -/
theorem Stands.touched (h : s.Ordered) (ht : Touches s s' c o o') {a : Nat}
    {oa : ConnectionObject n} (ha : s.objects a = some oa) (hac : a ≠ c)
    (hstands : s.Stands a oa) : s'.Stands a oa := by
  have hname : oa.m_name ≠ o.m_name := fun heq => hac (h.names a c oa o ha ht.before heq)
  rw [Stands, ht.counts _ (.connectEstablished a) hac, ht.counts _ (.removeConnectionInLoop a) hac,
    ht.counts _ (.connectDestoryed a) hac, ht.others _ hname]
  exact hstands

/-- A step on one connection, which stands after it as it should. All but this connection did so
before. -/
theorem Ordered.sound (h : s.Ordered) (ht : Touches s s' c o o')
    (hothers : ∀ a oa, s.objects a = some oa → a ≠ c → s.Stands a oa)
    (hregistered : ∀ j, c ∈ (s'.turn j).active → o'.life.m_channel.m_index ≠ .kNew)
    (hstands : s'.Stands c o') : s'.Sound where
  toOrdered := h.touched ht hregistered
  stands a oa' ha := by
    by_cases hac : a = c
    · subst hac
      rw [ht.objects, Function.update_self] at ha
      obtain rfl := Option.some.inj ha
      exact hstands
    · rw [ht.objects, Function.update_of_ne hac] at ha
      exact Stands.touched h ht ha hac (hothers a oa' ha hac)

/-! ## What is destroyed -/

theorem held_of_lookup {name : String} (h : s.m_connections.lookup name = some c) : s.Held c :=
  .inl ⟨⟨name, c⟩, AList.mem_lookup_iff.mp h, rfl⟩

theorem held_of_tasks {i : Fin (n + 1)} {t : Task} (h : t ∈ s.tasks i) : s.Held t.connection :=
  .inr ⟨i, .inl ⟨t, h, rfl⟩⟩

theorem held_of_count {i : Fin (n + 1)} {t : Task} (h : 0 < (s.waiting i).count t) :
    s.Held t.connection :=
  held_of_tasks (mem_tasks_of_waiting (List.count_pos_iff.mp h))

/-- As long as its channel is registered, somebody holds the connection. -/
theorem Sound.held (h : s.Sound) (hc : s.objects c = some o)
    (hindex : o.life.m_channel.m_index ≠ .kNew) : s.Held c := by
  rcases (h.stands c o hc).anchored hindex with hlisted | hremoving | hdestroying
  · exact held_of_lookup hlisted
  · exact held_of_count hremoving
  · exact held_of_count hdestroying

theorem objects_reap (hc : s.Held c) : s.reap.objects c = s.objects c := if_pos hc

theorem objects_reap_eq_some (h : s.reap.objects c = some o) : s.Held c ∧ s.objects c = some o := by
  have hite : (if s.Held c then s.objects c else none) = some o := h
  split at hite
  case isTrue hheld => exact ⟨hheld, hite⟩
  case isFalse => cases hite

theorem Sound.reap (h : s.Sound) : s.reap.Sound where
  object c o hc := by
    obtain ⟨hheld, hold⟩ := objects_reap_eq_some hc
    have hp := h.object c o hold
    refine ⟨hp.fresh, hp.self, ⟨?_, hp.placed.mapped⟩, hp.named⟩
    show ((s.poller o.m_loop).epollSet o.life.m_channel.m_fd).filter _ = _
    rw [hp.placed.entry]
    split
    · exact if_pos (decide_eq_true (hp.self.symm ▸ hheld))
    · rfl
  fds a b oa ob ha hb :=
    h.fds a b oa ob (objects_reap_eq_some ha).2 (objects_reap_eq_some hb).2
  names a b oa ob ha hb :=
    h.names a b oa ob (objects_reap_eq_some ha).2 (objects_reap_eq_some hb).2
  entries i fd e he := by
    have hfilter : ((s.poller i).epollSet fd).filter (fun e => s.Held e.2) = some e := he
    obtain ⟨hold, hheld⟩ := Option.filter_eq_some_iff.mp hfilter
    rw [objects_reap (of_decide_eq_true hheld)]
    exact h.entries i fd e hold
  mapped i fd a ha := by
    obtain ⟨o, hc, hloop, hfd⟩ := h.mapped i fd a ha
    -- The map has the channel until `remove`, so the connection is held.
    have hmapped := (h.object a o hc).placed.mapped
    rw [hloop, hfd] at hmapped
    have hindex : o.life.m_channel.m_index ≠ .kNew := by
      intro hnew
      rw [if_pos hnew] at hmapped
      exact absurd (hmapped.symm.trans ha) (Option.some_ne_none a).symm
    rw [objects_reap (h.held hc hindex)]
    exact ⟨o, hc, hloop, hfd⟩
  tasks i t ht := by
    have hmem : t ∈ s.tasks i := ht
    rw [objects_reap (held_of_tasks hmem)]
    exact h.tasks i t hmem
  active i a ha := by
    obtain ⟨o, hc, hloop, hindex⟩ := h.active i a ha
    rw [objects_reap (h.held hc hindex)]
    exact ⟨o, hc, hloop, hindex⟩
  table name a hlookup := by
    have hlisted : s.m_connections.lookup name = some a := hlookup
    rw [objects_reap (held_of_lookup hlisted)]
    exact h.table name a hlisted
  running := h.running
  dangling := h.dangling
  foreign := h.foreign
  stands c o hc := h.stands c o (objects_reap_eq_some hc).2

/-! ## The pieces of a step -/

/-- The turn of loop `i` goes on, with no new functor and no new channel. -/
theorem touches_setTurn (hc : s.objects c = some o) {i : Fin (n + 1)} {turn : Turn}
    (htodo : ∀ t, t.connection ≠ c → turn.todo.count t = (s.turn i).todo.count t)
    (hfuncs : ∀ t ∈ turn.funcs, t ∈ (s.turn i).funcs)
    (hactive : ∀ a ∈ turn.active, a ∈ (s.turn i).active) :
    Touches s (s.setTurn i turn) c o o :=
  { Touches.refl hc with
    counts := fun j t ht => by
      show ((Function.update s.turn i turn j).todo ++ s.m_pendingFunctors j).count t = _
      rw [waiting, List.count_append, List.count_append]
      by_cases hj : j = i
      · subst hj
        rw [Function.update_self, htodo t ht]
      · rw [Function.update_of_ne hj]
    tasks := fun j t ht => by
      have hmem : t ∈ s.m_pendingFunctors j ++ (Function.update s.turn i turn j).funcs := ht
      by_cases hj : j = i
      · subst hj
        rw [Function.update_self] at hmem
        rcases List.mem_append.mp hmem with hpending | hfunc
        · exact .inl (List.mem_append_left _ hpending)
        · exact .inl (List.mem_append_right _ (hfuncs t hfunc))
      · rw [Function.update_of_ne hj] at hmem
        exact .inl hmem
    active := fun j a ha => by
      have hmem : a ∈ (Function.update s.turn i turn j).active := ha
      by_cases hj : j = i
      · subst hj
        rw [Function.update_self] at hmem
        exact hactive a hmem
      · rw [Function.update_of_ne hj] at hmem
        exact hmem }

/-- Functors of the connection are queued where they belong. -/
theorem touches_queue (hc : s.objects c = some o) {i : Fin (n + 1)} {ts : List Task}
    (hts : ∀ t ∈ ts, t.connection = c ∧ t.home o.m_loop = i) :
    Touches s { s with
      m_pendingFunctors := Function.update s.m_pendingFunctors i (s.m_pendingFunctors i ++ ts) }
      c o o :=
  { Touches.refl hc with
    counts := fun j t ht => by
      have hnot : t ∉ ts := fun hmem => ht (hts t hmem).1
      show ((s.turn j).todo ++ Function.update s.m_pendingFunctors i _ j).count t = _
      rw [waiting, List.count_append, List.count_append]
      by_cases hj : j = i
      · subst hj
        rw [Function.update_self, List.count_append, List.count_eq_zero_of_not_mem hnot,
          Nat.add_zero]
      · rw [Function.update_of_ne hj]
    tasks := fun j t ht => by
      have hmem : t ∈ Function.update s.m_pendingFunctors i (s.m_pendingFunctors i ++ ts) j ++
          (s.turn j).funcs := ht
      by_cases hj : j = i
      · subst hj
        rw [Function.update_self, List.append_assoc] at hmem
        rcases List.mem_append.mp hmem with hpending | hmem
        · exact .inl (List.mem_append_left _ hpending)
        · rcases List.mem_append.mp hmem with hnew | hfunc
          · exact .inr (hts t hnew)
          · exact .inl (List.mem_append_right _ hfunc)
      · rw [Function.update_of_ne hj] at hmem
        exact .inl hmem }

theorem touches_erase (hc : s.objects c = some o) :
    Touches s { s with m_connections := s.m_connections.erase o.m_name } c o o :=
  { Touches.refl hc with
    others := fun name hname => AList.lookup_erase_ne hname
    listed := fun a ha => by
      have hnone : (s.m_connections.erase o.m_name).lookup o.m_name = none :=
        AList.lookup_erase ..
      exact absurd (hnone.symm.trans ha) (Option.some_ne_none a).symm }

/-- A function of the connection works on the poller of its loop. -/
theorem touches_object (hc : s.objects c = some o) {l l' : ConnectionLife} {foreign : Bool}
    (hchannel : l.m_channel = o.life.m_channel) (hpoller : l.poller = s.poller o.m_loop)
    (hmoved : ConnectionLife.Moved l l') (hforeign : foreign = s.foreign) :
    Touches s { s with
      objects := Function.update s.objects c (some { o with life := l' })
      poller := Function.update s.poller o.m_loop l'.poller
      foreign := foreign } c o { o with life := l' } :=
  { Touches.refl hc with
    objects := rfl
    m_loop := rfl
    m_name := rfl
    self := hmoved.self.trans (congrArg Channel.self hchannel)
    fd := hmoved.fd.trans (congrArg Channel.m_fd hchannel)
    placed := fun _ => by
      show l'.m_channel.Placed (Function.update s.poller o.m_loop l'.poller o.m_loop)
      rw [Function.update_self]
      exact hmoved.placed
    elsewhere := by
      show EpollPoller.SameElsewhere _ _ (Function.update s.poller o.m_loop l'.poller o.m_loop)
      rw [Function.update_self, ← hpoller, ← hchannel]
      exact hmoved.elsewhere
    pollers := fun j hj => Function.update_of_ne hj ..
    foreign := hforeign }

/-! ## The functions of a connection -/

/-- The connection as a function finds it. -/
def found (s : Reactor n) (o : ConnectionObject n) : ConnectionLife :=
  { o.life with
      connection := { o.life.connection with queued := [] }
      poller := s.poller o.m_loop
      removing := 0 }

/-- The server when a function in the thread of loop `i` has left the connection as `l`, before
the close callback. -/
def ran (s : Reactor n) (i : Fin (n + 1)) (c : Nat) (o : ConnectionObject n) (l : ConnectionLife) :
    Reactor n :=
  { s with
      objects := Function.update s.objects c (some { o with life := l })
      poller := Function.update s.poller o.m_loop l.poller
      m_pendingFunctors := Function.update s.m_pendingFunctors o.m_loop
        (s.m_pendingFunctors o.m_loop ++ l.connection.queued.map fun _ => Task.userCallback c)
      foreign := s.foreign || decide (o.m_loop ≠ i) }

theorem run_eq (hc : s.objects c = some o) (i : Fin (n + 1))
    (f : ConnectionLife → ConnectionLife) :
    s.run i c f = (fun s => s.removeConnection i c)^[(f (s.found o)).removing]
      (s.ran i c o (f (s.found o))) := by
  rw [run, hc]
  rfl

theorem objects_ran (i : Fin (n + 1)) (l : ConnectionLife) :
    (s.ran i c o l).objects c = some { o with life := l } :=
  Function.update_self ..

theorem touches_ran (hc : s.objects c = some o) {l : ConnectionLife}
    (hmoved : ConnectionLife.Moved (s.found o) l) :
    Touches s (s.ran o.m_loop c o l) c o { o with life := l } := by
  have hforeign : (s.foreign || decide (o.m_loop ≠ o.m_loop)) = s.foreign := by simp
  refine (touches_object hc (l := s.found o) rfl rfl hmoved hforeign).trans
    (touches_queue (Function.update_self ..) fun t ht => ?_)
  obtain ⟨_, -, rfl⟩ := List.mem_map.mp ht
  exact ⟨rfl, rfl⟩

/-- Only callbacks of the user are queued by it. -/
theorem count_ran (i : Fin (n + 1)) (l : ConnectionLife) {t : Task} (ht : t ≠ .userCallback c)
    (j : Fin (n + 1)) : ((s.ran i c o l).waiting j).count t = (s.waiting j).count t := by
  show ((s.turn j).todo ++ Function.update s.m_pendingFunctors o.m_loop _ j).count t = _
  rw [waiting, List.count_append, List.count_append]
  by_cases hj : j = o.m_loop
  · subst hj
    have hnot : t ∉ l.connection.queued.map fun _ => Task.userCallback c := by
      intro hmem
      obtain ⟨_, -, heq⟩ := List.mem_map.mp hmem
      exact ht heq.symm
    rw [Function.update_self, List.count_append, List.count_eq_zero_of_not_mem hnot, Nat.add_zero]
  · rw [Function.update_of_ne hj]

theorem count_queueInLoop (i j : Fin (n + 1)) (t t' : Task) :
    ((s.queueInLoop i t).waiting j).count t' =
      (s.waiting j).count t' + if j = i ∧ t' = t then 1 else 0 := by
  show ((s.turn j).todo ++ Function.update s.m_pendingFunctors i _ j).count t' = _
  rw [waiting, List.count_append, List.count_append]
  by_cases hj : j = i
  · subst hj
    rw [Function.update_self, List.count_append, ← Nat.add_assoc]
    congr 1
    by_cases ht : t' = t
    · rw [ht, if_pos ⟨rfl, rfl⟩, List.count_singleton_self]
    · rw [if_neg fun hboth => ht hboth.2]
      exact List.count_eq_zero_of_not_mem fun hmem => ht (List.mem_singleton.mp hmem)
  · rw [Function.update_of_ne hj, if_neg fun hboth => hj hboth.1, Nat.add_zero]

/-! ### The removal -/

theorem removeConnectionInLoop_eq (hc : s.objects c = some o) :
    s.removeConnectionInLoop c =
      { s with m_connections := s.m_connections.erase o.m_name }.queueInLoop o.m_loop
        (.connectDestoryed c) := by
  rw [removeConnectionInLoop, hc]

theorem touches_removeConnectionInLoop (hc : s.objects c = some o) :
    Touches s (s.removeConnectionInLoop c) c o o := by
  rw [removeConnectionInLoop_eq hc]
  let s₁ := { s with m_connections := s.m_connections.erase o.m_name }
  have hc₁ : s₁.objects c = some o := hc
  refine (touches_erase hc).trans (touches_queue hc₁ fun t ht => ?_)
  rw [List.mem_singleton.mp ht]
  exact ⟨rfl, rfl⟩

theorem count_removeConnectionInLoop (hc : s.objects c = some o) (j : Fin (n + 1)) (t : Task) :
    ((s.removeConnectionInLoop c).waiting j).count t =
      (s.waiting j).count t + if j = o.m_loop ∧ t = .connectDestoryed c then 1 else 0 := by
  rw [removeConnectionInLoop_eq hc, count_queueInLoop]
  rfl

theorem lookup_removeConnectionInLoop (hc : s.objects c = some o) :
    (s.removeConnectionInLoop c).m_connections.lookup o.m_name = none := by
  rw [removeConnectionInLoop_eq hc]
  exact AList.lookup_erase ..

theorem touches_removeConnection (hc : s.objects c = some o) (i : Fin (n + 1)) :
    Touches s (s.removeConnection i c) c o o := by
  rw [removeConnection]
  split
  · exact touches_removeConnectionInLoop hc
  · refine touches_queue hc fun t ht => ?_
    rw [List.mem_singleton.mp ht]
    exact ⟨rfl, rfl⟩

/-! ### How a connection stands -/

theorem Standing.kept {l : ConnectionLife} {establishing removing destroying : Nat}
    {inConnections : Prop} (h : Standing o establishing removing destroying inConnections)
    (hkept : ConnectionLife.Kept (s.found o) l) :
    Standing { o with life := l } establishing removing destroying inConnections := by
  have hstate : ∀ state : StateE, state = .kConnecting ∨ state = .kDisconnected →
      (l.connection.m_state = state ↔ o.life.connection.m_state = state) := by
    intro state hnot
    rcases hkept.state with hsame | ⟨hconnected, hdisconnecting⟩
    · exact iff_of_eq (congrArg (· = state) hsame)
    · have hconnected : o.life.connection.m_state = .kConnected := hconnected
      rcases hnot with rfl | rfl
      · rw [hdisconnecting, hconnected]
        decide
      · rw [hdisconnecting, hconnected]
        decide
  have hconnecting := hstate .kConnecting (.inl rfl)
  have hdisconnected := hstate .kDisconnected (.inr rfl)
  refine ⟨fun hs => hkept.registered.mpr (h.opening (hconnecting.mp hs)), ?_,
    fun hopen => hkept.reads (hkept.isOpen_iff.mp hopen) (h.reads (hkept.isOpen_iff.mp hopen)),
    fun hs => h.listed (mt hdisconnected.mpr hs), fun hs => h.quiet (mt hdisconnected.mpr hs),
    fun hs => h.leaving (hdisconnected.mp hs),
    fun hindex => h.anchored (mt hkept.registered.mpr hindex)⟩
  rw [h.waits]
  exact if_congr hconnecting.symm rfl rfl

/-- A connection that is closed. -/
theorem Standing.of_disconnected {establishing removing destroying : Nat} {inConnections : Prop}
    (hstate : o.life.connection.m_state = .kDisconnected) (hwaits : establishing = 0)
    (hleaving : inConnections → 0 < removing)
    (hanchored : o.life.m_channel.m_index ≠ .kNew →
      inConnections ∨ 0 < removing ∨ 0 < destroying) :
    Standing o establishing removing destroying inConnections where
  opening hs := StateE.noConfusion (hstate.symm.trans hs)
  waits := by
    rw [hwaits, if_neg]
    exact fun hs => StateE.noConfusion (hstate.symm.trans hs)
  reads hopen := by
    rcases hopen with hs | hs
    · exact StateE.noConfusion (hstate.symm.trans hs)
    · exact StateE.noConfusion (hstate.symm.trans hs)
  listed hs := absurd hstate hs
  quiet hs := absurd hstate hs
  leaving _ := hleaving
  anchored := hanchored

end Reactor

end RegistrationCenter
