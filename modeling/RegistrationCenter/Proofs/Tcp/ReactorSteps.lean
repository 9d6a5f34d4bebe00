import RegistrationCenter.Proofs.Tcp.Reactor

/-!
# `RegistrationCenter.Proofs.Tcp.ReactorSteps`: the steps of a loop

Each step of a thread keeps the invariant of the server: a callback of an active channel, a
functor of the batch, and the turns between them. A function that keeps its connection and one
that closes it are told apart; the three functors that open, remove and destroy a connection have
a lemma each.
-/

set_option autoImplicit false

namespace RegistrationCenter

namespace Reactor

variable {n : Nat} {s : Reactor n} {c : Nat} {o : ConnectionObject n}

/-! ## The functions and the turn -/

/-- The turn of a loop goes on to `turn`, and only the count of `t` among the functors that are
to run may differ. -/
structure GoesOn (s : Reactor n) (i : Fin (n + 1)) (turn : Turn) (t : Task) : Prop where
  todo : ∀ t', t' ≠ t → turn.todo.count t' = (s.turn i).todo.count t'
  funcs : ∀ t' ∈ turn.funcs, t' ∈ (s.turn i).funcs
  active : ∀ a ∈ turn.active, a ∈ (s.turn i).active

theorem count_setTurn {i : Fin (n + 1)} {turn : Turn} {t t' : Task} (h : s.GoesOn i turn t)
    (ht : t' ≠ t) (j : Fin (n + 1)) :
    ((s.setTurn i turn).waiting j).count t' = (s.waiting j).count t' := by
  show ((Function.update s.turn i turn j).todo ++ s.m_pendingFunctors j).count t' = _
  rw [waiting, List.count_append, List.count_append]
  by_cases hj : j = i
  · subst hj
    rw [Function.update_self, h.todo t' ht]
  · rw [Function.update_of_ne hj]

theorem GoesOn.touches {i : Fin (n + 1)} {turn : Turn} {t : Task} (h : s.GoesOn i turn t)
    (hc : s.objects c = some o) (ht : t.connection = c) : Touches s (s.setTurn i turn) c o o :=
  touches_setTurn hc (fun t' ht' => h.todo t' fun heq => ht' (heq ▸ ht)) h.funcs h.active

theorem turn_removeConnection (hc : s.objects c = some o) (i : Fin (n + 1)) :
    (s.removeConnection i c).turn = s.turn := by
  rw [removeConnection]
  split
  · rw [removeConnectionInLoop_eq hc]
    rfl
  · rfl

/-- A function that keeps the connection. -/
theorem Sound.run_kept (h : s.Sound) (hc : s.objects c = some o)
    {f : ConnectionLife → ConnectionLife} (hkept : ConnectionLife.Kept (s.found o) (f (s.found o)))
    {turn : Turn} (hturn : s.GoesOn o.m_loop turn (.userCallback c)) :
    ((s.run o.m_loop c f).setTurn o.m_loop turn).Sound := by
  have hrun : s.run o.m_loop c f = s.ran o.m_loop c o (f (s.found o)) := by
    rw [run_eq hc, hkept.removing]
    rfl
  rw [hrun]
  have hturn₁ : (s.ran o.m_loop c o (f (s.found o))).GoesOn o.m_loop turn (.userCallback c) :=
    ⟨hturn.todo, hturn.funcs, hturn.active⟩
  have ht := (touches_ran hc hkept.toMoved).trans (hturn₁.touches (objects_ran _ _) rfl)
  refine h.toOrdered.sound ht (fun a oa ha _ => h.stands a oa ha) (fun j hj => ?_) ?_
  -- What is active is registered, and stays so.
  · obtain ⟨oc, hc', -, hindex⟩ := h.active j c (ht.active j c hj)
    obtain rfl := Option.some.inj (hc.symm.trans hc')
    exact mt hkept.registered.mp hindex
  · have hcount : ∀ (j : Fin (n + 1)) (t : Task), t ≠ .userCallback c →
        (((s.ran o.m_loop c o (f (s.found o))).setTurn o.m_loop turn).waiting j).count t =
          (s.waiting j).count t := fun j t hne =>
      (count_setTurn hturn₁ hne j).trans (count_ran _ _ hne j)
    rw [Stands, hcount _ _ (by simp), hcount _ _ (by simp), hcount _ _ (by simp)]
    exact (h.stands c o hc).kept hkept

/-- A function that closes a registered connection. -/
theorem Sound.run_closed (h : s.Sound) (hc : s.objects c = some o)
    (hindex : o.life.m_channel.m_index ≠ .kNew) {f : ConnectionLife → ConnectionLife}
    (hclosed : ConnectionLife.Closed (s.found o) (f (s.found o)))
    {turn : Turn} (hturn : s.GoesOn o.m_loop turn (.userCallback c)) :
    ((s.run o.m_loop c f).setTurn o.m_loop turn).Sound := by
  let s₁ := s.ran o.m_loop c o (f (s.found o))
  let o₁ : ConnectionObject n := { o with life := f (s.found o) }
  have hc₁ : s₁.objects c = some o₁ := objects_ran _ _
  have hrun : s.run o.m_loop c f = s₁.removeConnection o.m_loop c := by
    rw [run_eq hc, hclosed.removing]
    rfl
  rw [hrun]
  have htouch := touches_removeConnection hc₁ o.m_loop
  have hc₂ : (s₁.removeConnection o.m_loop c).objects c = some o₁ := by
    rw [htouch.objects, Function.update_self]
  have hturn₂ : (s₁.removeConnection o.m_loop c).GoesOn o.m_loop turn (.userCallback c) := by
    refine ⟨?_, ?_, ?_⟩
    all_goals rw [turn_removeConnection hc₁]
    · exact hturn.todo
    · exact hturn.funcs
    · exact hturn.active
  have ht := ((touches_ran hc hclosed.toMoved).trans htouch).trans (hturn₂.touches hc₂ rfl)
  refine h.toOrdered.sound ht (fun a oa ha _ => h.stands a oa ha) (fun _ _ => hclosed.registered) ?_
  -- The connection was established, so `connectEstablished` does not wait.
  have hestablishing : (s.waiting o.m_loop).count (.connectEstablished c) = 0 := by
    have hs := h.stands c o hc
    rw [hs.waits, if_neg fun hstate => hindex (hs.opening hstate)]
  have hcount : ∀ (j : Fin (n + 1)) (t : Task), t ≠ .userCallback c →
      (((s₁.removeConnection o.m_loop c).setTurn o.m_loop turn).waiting j).count t =
        ((s₁.removeConnection o.m_loop c).waiting j).count t := fun j t hne =>
    count_setTurn hturn₂ hne j
  rw [Stands, hcount _ _ (by simp), hcount _ _ (by simp), hcount _ _ (by simp)]
  by_cases hbase : o.m_loop = baseLoop
  -- In the base loop the connection is removed at once.
  · have hremoved : s₁.removeConnection o.m_loop c = s₁.removeConnectionInLoop c := if_pos hbase
    rw [hremoved, count_removeConnectionInLoop hc₁, count_removeConnectionInLoop hc₁,
      count_removeConnectionInLoop hc₁]
    refine .of_disconnected hclosed.state ?_ (fun hlisted => ?_) fun _ => .inr (.inr ?_)
    · rw [count_ran _ _ (by simp), hestablishing]
      simp
    · have hnone := lookup_removeConnectionInLoop hc₁
      exact absurd (hnone.symm.trans hlisted) (Option.some_ne_none c).symm
    · rw [if_pos ⟨rfl, rfl⟩]
      exact Nat.succ_pos _
  · have hremoved : s₁.removeConnection o.m_loop c =
        s₁.queueInLoop baseLoop (.removeConnectionInLoop c) := if_neg hbase
    rw [hremoved, count_queueInLoop, count_queueInLoop, count_queueInLoop]
    refine .of_disconnected hclosed.state ?_ (fun _ => ?_) fun _ => .inr (.inl ?_)
    · rw [count_ran _ _ (by simp), hestablishing]
      simp
    · rw [if_pos ⟨rfl, rfl⟩]
      exact Nat.succ_pos _
    · rw [if_pos ⟨rfl, rfl⟩]
      exact Nat.succ_pos _

/-- A callback of a channel runs one function of the connection, which keeps or closes it. -/
theorem Sound.handle_cases (h : s.Sound) (hc : s.objects c = some o)
    (hindex : o.life.m_channel.m_index ≠ .kNew) (input : Input) (callback : ChannelCallback) :
    ∃ f : ConnectionLife → ConnectionLife, (∀ i, s.handle i c input callback = s.run i c f) ∧
      (ConnectionLife.Kept (s.found o) (f (s.found o)) ∨
        ConnectionLife.Closed (s.found o) (f (s.found o))) := by
  have hplaced : (s.found o).m_channel.Placed (s.found o).poller := (h.object c o hc).placed
  have hreads : (s.found o).IsOpen → (s.found o).Reads := (h.stands c o hc).reads
  -- The user's callback finds a closed connection not connected.
  have hact : ∀ {l : ConnectionLife}, ConnectionLife.Closed (s.found o) l →
      ConnectionLife.Closed (s.found o) (l.act input.actions) := by
    intro l hclosed
    rw [ConnectionLife.act_of_ne]
    · exact hclosed
    · exact fun hs => StateE.noConfusion (hclosed.state.symm.trans hs)
  cases callback with
  | m_closeCallback =>
      exact ⟨fun l => l.handleClose.act input.actions, fun _ => rfl,
        .inr (hact (ConnectionLife.closed_handleClose hplaced))⟩
  | m_errorCallback => exact ⟨id, fun _ => rfl, .inl (.refl hplaced)⟩
  | m_readCallback =>
      refine ⟨fun l => (l.handleRead input.incoming input.consumed).act input.actions,
        fun _ => rfl, ?_⟩
      rcases ConnectionLife.handleRead_cases hplaced input.incoming input.consumed with
        hkept | hclosed
      · exact .inl (hkept.trans (ConnectionLife.kept_act _ hkept.placed fun hopen =>
          hkept.reads (hkept.isOpen_iff.mp hopen) (hreads (hkept.isOpen_iff.mp hopen))))
      · exact .inr (hact hclosed)
  | m_writeCallback =>
      exact ⟨fun l => l.handleWrite input.outcome, fun _ => rfl,
        .inl (ConnectionLife.kept_handleWrite hplaced hindex input.outcome)⟩

/-- A callback of an active channel. -/
theorem Sound.handle (h : s.Sound) {i : Fin (n + 1)} {guard : Bool} {callback : ChannelCallback}
    {callbacks : List ChannelCallback} {active : List (Nat × Revents)}
    (hturn : s.turn i = .handling c guard (callback :: callbacks) active) (input : Input) :
    ((s.handle i c input callback).setTurn i (.handling c guard callbacks active)).Sound := by
  have hmem : c ∈ (s.turn i).active := by
    rw [hturn]
    exact List.mem_cons_self ..
  obtain ⟨o, hc, rfl, hindex⟩ := h.active i c hmem
  have hgoes : s.GoesOn o.m_loop (.handling c guard callbacks active) (.userCallback c) := by
    refine ⟨?_, ?_, ?_⟩
    all_goals rw [hturn]
    · exact fun _ _ => rfl
    · exact fun _ ht => ht
    · exact fun _ ha => ha
  obtain ⟨f, hf, hkept | hclosed⟩ := h.handle_cases hc hindex input callback
  · rw [hf]
    exact h.run_kept hc hkept hgoes
  · rw [hf]
    exact h.run_closed hc hindex hclosed hgoes

/-! ## The functors -/

/-- The batch of a loop goes on to its next functor. -/
theorem goesOn_running {i : Fin (n + 1)} {done todo : List Task} {t : Task}
    (hturn : s.turn i = .running done (t :: todo)) :
    s.GoesOn i (.running (done ++ [t]) todo) t := by
  refine ⟨?_, ?_, ?_⟩
  all_goals rw [hturn]
  · exact fun t' ht' => (List.count_cons_of_ne ht'.symm).symm
  · intro t' ht'
    have hmem : t' ∈ done ++ [t] ++ todo := ht'
    rwa [List.append_assoc] at hmem
  · exact fun _ ha => ha

/-- The functor that has run does not wait any longer. -/
theorem count_head {i : Fin (n + 1)} {done todo : List Task} {t : Task}
    (hturn : s.turn i = .running done (t :: todo)) :
    (s.waiting i).count t =
      ((s.setTurn i (.running (done ++ [t]) todo)).waiting i).count t + 1 := by
  have hafter : (s.setTurn i (.running (done ++ [t]) todo)).waiting i =
      todo ++ s.m_pendingFunctors i := by
    show (Function.update s.turn i _ i).todo ++ s.m_pendingFunctors i = _
    rw [Function.update_self]
    rfl
  have hbefore : s.waiting i = t :: todo ++ s.m_pendingFunctors i :=
    congrArg (fun turn : Turn => turn.todo ++ s.m_pendingFunctors i) hturn
  rw [hafter, hbefore, List.cons_append, List.count_cons_self]

/-- A connection that is open. -/
theorem Standing.of_open {establishing removing destroying : Nat} {inConnections : Prop}
    (hopen : o.life.IsOpen) (hreads : o.life.Reads) (hwaits : establishing = 0)
    (hlisted : inConnections) (hquiet : removing = 0 ∧ destroying = 0) :
    Standing o establishing removing destroying inConnections := by
  have hne : ∀ state : StateE, state = .kConnecting ∨ state = .kDisconnected →
      o.life.connection.m_state ≠ state := by
    rintro _ (rfl | rfl) hs
    all_goals rcases hopen with hs' | hs'
    all_goals exact StateE.noConfusion (hs.symm.trans hs')
  refine ⟨fun hs => absurd hs (hne _ (.inl rfl)), ?_, fun _ => hreads, fun _ => hlisted,
    fun _ => hquiet, fun hs => absurd hs (hne _ (.inr rfl)), fun _ => .inl hlisted⟩
  rw [hwaits, if_neg (hne _ (.inl rfl))]

/-- `connectEstablished` in the loop of the connection. -/
theorem Sound.runEstablished (h : s.Sound) {done todo : List Task} (hc : s.objects c = some o)
    (hturn : s.turn o.m_loop = .running done (.connectEstablished c :: todo)) (input : Input) :
    ((s.runTask o.m_loop input (.connectEstablished c)).setTurn o.m_loop
      (.running (done ++ [.connectEstablished c]) todo)).Sound := by
  let f := fun l : ConnectionLife => l.connectEstablished.act input.actions
  have hplaced : (s.found o).m_channel.Placed (s.found o).poller := (h.object c o hc).placed
  have hopened : ConnectionLife.Opened (s.found o) (f (s.found o)) :=
    (ConnectionLife.opened_connectEstablished hplaced).act input.actions
  have hrun : s.runTask o.m_loop input (.connectEstablished c) =
      s.ran o.m_loop c o (f (s.found o)) := by
    show s.run o.m_loop c f = _
    rw [run_eq hc, hopened.removing]
    rfl
  rw [hrun]
  have hturn₁ : (s.ran o.m_loop c o (f (s.found o))).turn o.m_loop =
    .running done (.connectEstablished c :: todo) := hturn
  have hgoes := goesOn_running hturn₁
  have ht := (touches_ran hc hopened.toMoved).trans (hgoes.touches (objects_ran _ _) rfl)
  refine h.toOrdered.sound ht (fun a oa ha _ => h.stands a oa ha)
    (fun _ _ hnew => ChannelIndex.noConfusion (hnew.symm.trans hopened.reads.1)) ?_
  -- The functor waited once, since the connection was not established.
  have hs := h.stands c o hc
  have hhead := count_head hturn₁
  rw [count_ran _ _ (by simp), hs.waits] at hhead
  have hstate : o.life.connection.m_state = .kConnecting := by
    by_contra hne
    rw [if_neg hne] at hhead
    omega
  rw [if_pos hstate] at hhead
  have hnot : o.life.connection.m_state ≠ .kDisconnected :=
    fun hs' => StateE.noConfusion (hstate.symm.trans hs')
  refine .of_open hopened.isOpen hopened.reads (by simpa using hhead.symm) (hs.listed hnot) ?_
  rw [count_setTurn hgoes (by simp), count_setTurn hgoes (by simp), count_ran _ _ (by simp),
    count_ran _ _ (by simp)]
  exact hs.quiet hnot

/-- `connectDestoryed` in the loop of the connection. -/
theorem Sound.runDestoryed (h : s.Sound) {done todo : List Task} (hc : s.objects c = some o)
    (hturn : s.turn o.m_loop = .running done (.connectDestoryed c :: todo)) (input : Input) :
    ((s.runTask o.m_loop input (.connectDestoryed c)).setTurn o.m_loop
      (.running (done ++ [.connectDestoryed c]) todo)).Sound := by
  have hs := h.stands c o hc
  -- The functor waits, so the connection is closed.
  have hstate : o.life.connection.m_state = .kDisconnected := by
    by_contra hne
    have hhead := count_head hturn
    have hnone := (hs.quiet hne).2
    omega
  have hnot : o.life.connection.m_state ≠ .kConnecting :=
    fun hs' => StateE.noConfusion (hstate.symm.trans hs')
  obtain ⟨hmoved, hstate', hindex, hremoving⟩ :=
    ConnectionLife.connectDestoryed_spec (l := s.found o) (h.object c o hc).placed hstate
  have hrun : s.runTask o.m_loop input (.connectDestoryed c) =
      s.ran o.m_loop c o (s.found o).connectDestoryed := by
    show s.run o.m_loop c ConnectionLife.connectDestoryed = _
    rw [run_eq hc, hremoving]
    rfl
  rw [hrun]
  have hturn₁ : (s.ran o.m_loop c o (s.found o).connectDestoryed).turn o.m_loop =
    .running done (.connectDestoryed c :: todo) := hturn
  have hgoes := goesOn_running hturn₁
  have ht := (touches_ran hc hmoved).trans (hgoes.touches (objects_ran _ _) rfl)
  refine h.toOrdered.sound ht (fun a oa ha _ => h.stands a oa ha) (fun j hj => ?_) ?_
  -- The loop runs functors and has no active channels.
  · obtain ⟨oc, hc', hloop, -⟩ := h.active j c (ht.active j c hj)
    obtain rfl := Option.some.inj (hc.symm.trans hc')
    have hactive := ht.active j c hj
    rw [← hloop, hturn] at hactive
    exact absurd hactive List.not_mem_nil
  · refine .of_disconnected hstate' ?_ (fun hlisted => ?_) fun hne => absurd hindex hne
    · rw [count_setTurn hgoes (by simp), count_ran _ _ (by simp), hs.waits, if_neg hnot]
    · rw [count_setTurn hgoes (by simp), count_ran _ _ (by simp)]
      exact hs.leaving hstate hlisted

/-- `removeConnectionInLoop` in the base loop. -/
theorem Sound.runRemove (h : s.Sound) {done todo : List Task} (hc : s.objects c = some o)
    (hturn : s.turn baseLoop = .running done (.removeConnectionInLoop c :: todo)) :
    ((s.removeConnectionInLoop c).setTurn baseLoop
      (.running (done ++ [.removeConnectionInLoop c]) todo)).Sound := by
  have hs := h.stands c o hc
  have hstate : o.life.connection.m_state = .kDisconnected := by
    by_contra hne
    have hhead := count_head hturn
    have hnone := (hs.quiet hne).1
    omega
  have hnot : o.life.connection.m_state ≠ .kConnecting :=
    fun hs' => StateE.noConfusion (hstate.symm.trans hs')
  have htouch := touches_removeConnectionInLoop hc
  have hc₁ : (s.removeConnectionInLoop c).objects c = some o := by
    rw [htouch.objects, Function.update_self]
  have hturn₁ : (s.removeConnectionInLoop c).turn baseLoop =
      .running done (.removeConnectionInLoop c :: todo) := by
    rw [removeConnectionInLoop_eq hc]
    exact hturn
  have hgoes := goesOn_running hturn₁
  have ht := htouch.trans (hgoes.touches hc₁ rfl)
  refine h.toOrdered.sound ht (fun a oa ha _ => h.stands a oa ha) (fun j hj => ?_) ?_
  · obtain ⟨oc, hc', -, hindex⟩ := h.active j c (ht.active j c hj)
    obtain rfl := Option.some.inj (hc.symm.trans hc')
    exact hindex
  · refine .of_disconnected hstate ?_ (fun hlisted => ?_) fun _ => .inr (.inr ?_)
    · rw [count_setTurn hgoes (by simp), count_removeConnectionInLoop hc, hs.waits, if_neg hnot]
      simp
    · have hnone := lookup_removeConnectionInLoop hc
      exact absurd (hnone.symm.trans hlisted) (Option.some_ne_none c).symm
    · rw [count_setTurn hgoes (by simp), count_removeConnectionInLoop hc, if_pos ⟨rfl, rfl⟩]
      exact Nat.succ_pos _

theorem Sound.runTask (h : s.Sound) {i : Fin (n + 1)} {done todo : List Task} {t : Task}
    (hturn : s.turn i = .running done (t :: todo)) (input : Input) :
    ((s.runTask i input t).setTurn i (.running (done ++ [t]) todo)).Sound := by
  have hmem : t ∈ s.tasks i := by
    rw [Reactor.tasks, hturn]
    exact List.mem_append_right _ (List.mem_append_right _ (List.mem_cons_self ..))
  obtain ⟨o, hc, hhome⟩ := h.tasks i t hmem
  cases t with
  | connectEstablished c =>
      obtain rfl : o.m_loop = i := hhome
      exact h.runEstablished hc hturn input
  | removeConnectionInLoop c =>
      obtain rfl : (baseLoop : Fin (n + 1)) = i := hhome
      exact h.runRemove hc hturn
  | connectDestoryed c =>
      obtain rfl : o.m_loop = i := hhome
      exact h.runDestoryed hc hturn input
  | userCallback c =>
      obtain rfl : o.m_loop = i := hhome
      have hplaced : (s.found o).m_channel.Placed (s.found o).poller := (h.object c o hc).placed
      exact h.run_kept hc
        (ConnectionLife.kept_act input.actions hplaced (h.stands c o hc).reads)
        (goesOn_running hturn)

/-! ## The turns -/

/-- The thread of loop `i` goes on without touching a connection. -/
theorem Sound.moveOn (h : s.Sound) (i : Fin (n + 1)) (pending : List Task) (turn : Turn)
    (hwaiting : ∀ t, (turn.todo ++ pending).count t = (s.waiting i).count t)
    (htasks : ∀ t ∈ pending ++ turn.funcs, t ∈ s.tasks i)
    (hactive : ∀ a ∈ turn.active,
      ∃ o, s.objects a = some o ∧ o.m_loop = i ∧ o.life.m_channel.m_index ≠ .kNew) :
    ({ s with
        m_pendingFunctors := Function.update s.m_pendingFunctors i pending
        turn := Function.update s.turn i turn } : Reactor n).Sound := by
  let s' : Reactor n := { s with
    m_pendingFunctors := Function.update s.m_pendingFunctors i pending
    turn := Function.update s.turn i turn }
  have hcount : ∀ (j : Fin (n + 1)) (t : Task), (s'.waiting j).count t = (s.waiting j).count t := by
    intro j t
    show ((Function.update s.turn i turn j).todo ++
      Function.update s.m_pendingFunctors i pending j).count t = _
    by_cases hj : j = i
    · subst hj
      rw [Function.update_self, Function.update_self]
      exact hwaiting t
    · rw [Function.update_of_ne hj, Function.update_of_ne hj]
      rfl
  refine { h with
    object := fun c o hc => { h.object c o hc with }
    tasks := fun j t ht => ?_
    active := fun j a ha => ?_
    stands := fun c o hc => ?_ }
  · have hmem : t ∈ Function.update s.m_pendingFunctors i pending j ++
        (Function.update s.turn i turn j).funcs := ht
    by_cases hj : j = i
    · subst hj
      rw [Function.update_self, Function.update_self] at hmem
      exact h.tasks j t (htasks t hmem)
    · rw [Function.update_of_ne hj, Function.update_of_ne hj] at hmem
      exact h.tasks j t hmem
  · have hmem : a ∈ (Function.update s.turn i turn j).active := ha
    by_cases hj : j = i
    · subst hj
      rw [Function.update_self] at hmem
      exact hactive a hmem
    · rw [Function.update_of_ne hj] at hmem
      exact h.active j a hmem
  · show Standing o ((s'.waiting o.m_loop).count _) ((s'.waiting baseLoop).count _)
      ((s'.waiting o.m_loop).count _) _
    rw [hcount, hcount, hcount]
    exact h.stands c o hc

theorem Sound.setTurn (h : s.Sound) {i : Fin (n + 1)} {turn : Turn}
    (htodo : turn.todo = (s.turn i).todo) (hfuncs : ∀ t ∈ turn.funcs, t ∈ s.tasks i)
    (hactive : ∀ a ∈ turn.active,
      ∃ o, s.objects a = some o ∧ o.m_loop = i ∧ o.life.m_channel.m_index ≠ .kNew) :
    (s.setTurn i turn).Sound := by
  have hmoved := h.moveOn i (s.m_pendingFunctors i) turn
    (fun t => by rw [htodo]; rfl)
    (fun t ht => (List.mem_append.mp ht).elim (List.mem_append_left _) (hfuncs t)) hactive
  rw [Function.update_eq_self] at hmoved
  exact hmoved

/-- An entry of an epoll set is a registered connection of the loop. -/
theorem Sound.registered_of_entry (h : s.Sound) {i : Fin (n + 1)} {fd : Nat} {e : Events × Nat}
    (he : (s.poller i).epollSet fd = some e) :
    ∃ o, s.objects e.2 = some o ∧ o.m_loop = i ∧ o.life.m_channel.m_index ≠ .kNew := by
  obtain ⟨o, hc, rfl, rfl⟩ := h.entries i fd e he
  refine ⟨o, hc, rfl, fun hnew => ?_⟩
  have hindexed := (h.object e.2 o hc).placed.indexed
  have hadded := hindexed.mpr (Option.isSome_iff_exists.mpr ⟨e, he⟩)
  exact ChannelIndex.noConfusion (hnew.symm.trans hadded)

theorem Sound.advance (h : s.Sound) (i : Fin (n + 1)) (input : Input) :
    (s.advance i input).Sound := by
  rw [Reactor.advance]
  have hactive := h.active i
  split
  -- `poll` fills the active channels from the epoll set.
  case h_1 hturn =>
    refine h.setTurn (by rw [hturn]; rfl) (fun t ht => absurd ht List.not_mem_nil) fun a ha => ?_
    obtain ⟨⟨_, revents⟩, hmem, rfl⟩ := List.mem_map.mp ha
    obtain ⟨⟨fd, revents'⟩, -, hentry⟩ := List.mem_filterMap.mp hmem
    obtain ⟨e, he, heq⟩ := Option.map_eq_some_iff.mp hentry
    obtain ⟨rfl, -⟩ := Prod.mk.inj heq
    exact h.registered_of_entry he
  -- `doPendingFunctors` swaps the queue.
  case h_2 hturn =>
    have hwaiting : s.waiting i = s.m_pendingFunctors i := by
      rw [waiting, hturn]
      rfl
    refine h.moveOn i [] (.running [] (s.m_pendingFunctors i))
      (fun t => ?_) (fun t ht => ?_) fun a ha => absurd ha List.not_mem_nil
    · rw [hwaiting, List.append_nil]
      rfl
    · exact List.mem_append_left _ ht
  -- The next active channel: its connection is there.
  case h_3 c revents active hturn =>
    rw [hturn] at hactive
    obtain ⟨o, hc, hloop, hindex⟩ := hactive c (List.mem_cons_self ..)
    rw [hc]
    exact h.setTurn (by rw [hturn]; rfl) (fun t ht => absurd ht List.not_mem_nil)
      fun a ha => hactive a ha
  case h_4 c guard active hturn =>
    rw [hturn] at hactive
    exact h.setTurn (by rw [hturn]; rfl) (fun t ht => absurd ht List.not_mem_nil)
      fun a ha => hactive a (List.mem_cons_of_mem _ ha)
  case h_5 c guard callback callbacks active hturn => exact h.handle hturn input
  case h_6 done t todo hturn => exact h.runTask hturn input
  -- The batch is over, and its functors are given up.
  case h_7 done hturn =>
    exact h.setTurn (by rw [hturn]; rfl) (fun t ht => absurd ht List.not_mem_nil)
      fun a ha => absurd ha List.not_mem_nil

end Reactor

end RegistrationCenter
