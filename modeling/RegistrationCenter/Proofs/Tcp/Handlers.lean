import RegistrationCenter.Proofs.Tcp.Lifecycle
import RegistrationCenter.Spec.Tcp.Reactor

/-!
# `RegistrationCenter.Proofs.Tcp.Handlers`: what a connection does to its poller

The poller of a loop is shared by the connections of the loop. `Channel.Placed` says what the
poller has of one channel, to the point, and `Moved` what a function of a connection may do: it
keeps its own channel placed and leaves the entries of the other fds alone. `Kept` adds what the
functions keep that do not close the connection.
-/

set_option autoImplicit false

namespace RegistrationCenter

/-! ## A channel and its poller -/

/-- What the poller has for the fd of the channel: the channel with its interest in the epoll set
while it is added, and the channel in the map from its first interest to `remove`. -/
structure Channel.Placed (channel : Channel) (p : EpollPoller) : Prop where
  entry : p.epollSet channel.m_fd =
    if channel.m_index = .kAdded then some (channel.m_events, channel.self) else none
  mapped : p.m_channels channel.m_fd =
    if channel.m_index = .kNew then none else some channel.self

/-- The pollers differ at this fd only. -/
structure EpollPoller.SameElsewhere (fd : Nat) (p p' : EpollPoller) : Prop where
  epollSet : ∀ fd', fd' ≠ fd → p'.epollSet fd' = p.epollSet fd'
  m_channels : ∀ fd', fd' ≠ fd → p'.m_channels fd' = p.m_channels fd'
  fatal : p'.fatal = p.fatal

namespace EpollPoller.SameElsewhere

variable {fd : Nat} {p p' p'' : EpollPoller}

theorem refl (fd : Nat) (p : EpollPoller) : SameElsewhere fd p p :=
  ⟨fun _ _ => rfl, fun _ _ => rfl, rfl⟩

theorem trans (h : SameElsewhere fd p p') (h' : SameElsewhere fd p' p'') :
    SameElsewhere fd p p'' where
  epollSet fd' hne := (h'.epollSet fd' hne).trans (h.epollSet fd' hne)
  m_channels fd' hne := (h'.m_channels fd' hne).trans (h.m_channels fd' hne)
  fatal := h'.fatal.trans h.fatal

end EpollPoller.SameElsewhere

namespace Channel.Placed

variable {channel : Channel} {p : EpollPoller}

theorem indexed (h : channel.Placed p) : channel.Indexed p := by
  rw [Channel.Indexed, h.entry]
  split
  case isTrue hadded => exact iff_of_true hadded rfl
  case isFalse hdeleted => exact iff_of_false hdeleted Bool.false_ne_true

/-- A call on the channel. -/
theorem call (h : channel.Placed p) (call : ChannelCall) :
    (channel.call p call).2.Placed (channel.call p call).1 ∧
      EpollPoller.SameElsewhere channel.m_fd p (channel.call p call).1 := by
  rw [h.indexed.call_eq call]
  refine ⟨⟨Function.update_self .., ?_⟩,
    fun fd' hne => Function.update_of_ne hne .., fun fd' hne => ?_, rfl⟩
  · show (if call = .remove then _ else _ : Nat → Option Nat) channel.m_fd =
      if channel.nextIndex call = .kNew then none else some channel.self
    by_cases hremove : call = .remove
    · have hnew : channel.nextIndex call = .kNew := if_pos hremove
      rw [if_pos hremove, if_pos hnew]
      exact Function.update_self ..
    · have hnew : channel.nextIndex call ≠ .kNew := by
        rw [Channel.nextIndex, if_neg hremove, Channel.updatedIndex]
        split
        · exact fun h => ChannelIndex.noConfusion h
        · exact fun h => ChannelIndex.noConfusion h
      rw [if_neg hremove, if_neg hnew]
      split
      · exact Function.update_self ..
      -- A channel that is not new is in the map already.
      case isFalse hold => rw [h.mapped, if_neg hold]
  · show (if call = .remove then _ else _ : Nat → Option Nat) fd' = _
    split
    · exact Function.update_of_ne hne ..
    · split
      · exact Function.update_of_ne hne ..
      · rfl

end Channel.Placed

/-- A call that is not `remove` leaves the channel registered. -/
theorem Channel.call_index {channel : Channel} {p : EpollPoller} (h : channel.Indexed p)
    (call : ChannelCall) (hcall : call ≠ .remove) :
    (channel.call p call).2.m_index ≠ .kNew ∧
      (call.events channel.m_events ≠ .kNoneEvent → (channel.call p call).2.m_index = .kAdded) := by
  have hindex : (channel.call p call).2.m_index =
      if channel.m_index = .kAdded ∧ call.events channel.m_events = .kNoneEvent then .kDeleted
      else .kAdded := by
    rw [h.call_eq call]
    exact if_neg hcall
  rw [hindex]
  constructor
  · split
    · exact fun h => ChannelIndex.noConfusion h
    · exact fun h => ChannelIndex.noConfusion h
  · exact fun hevents => if_neg fun hboth => hevents hboth.2

namespace ConnectionLife

variable {l l' l'' : ConnectionLife}

/-! ## What any function does -/

/-- A function has been run: the channel is the same one and has its place. -/
structure Moved (l l' : ConnectionLife) : Prop where
  self : l'.m_channel.self = l.m_channel.self
  fd : l'.m_channel.m_fd = l.m_channel.m_fd
  placed : l'.m_channel.Placed l'.poller
  elsewhere : EpollPoller.SameElsewhere l.m_channel.m_fd l.poller l'.poller

theorem Moved.refl (h : l.m_channel.Placed l.poller) : Moved l l :=
  ⟨rfl, rfl, h, .refl _ _⟩

theorem Moved.trans (h : Moved l l') (h' : Moved l' l'') : Moved l l'' :=
  ⟨h'.self.trans h.self, h'.fd.trans h.fd, h'.placed,
    h.elsewhere.trans (h.fd ▸ h'.elsewhere)⟩

/-- A call on the channel, whatever happens to the rest of the connection. -/
theorem moved_call (h : l.m_channel.Placed l.poller) (call : ChannelCall)
    (hpoller : l'.poller = (l.m_channel.call l.poller call).1)
    (hchannel : l'.m_channel = (l.m_channel.call l.poller call).2) : Moved l l' := by
  obtain ⟨hplaced, helsewhere⟩ := h.call call
  have hcall := h.indexed.call_eq call
  refine ⟨?_, ?_, ?_, ?_⟩
  · rw [hchannel, hcall]
  · rw [hchannel, hcall]
  · rw [hchannel, hpoller]
    exact hplaced
  · rw [hpoller]
    exact helsewhere

/-! ## The functions that keep a connection -/

/-- A connection that has been opened and not closed. -/
def IsOpen (l : ConnectionLife) : Prop :=
  l.connection.m_state = .kConnected ∨ l.connection.m_state = .kDisconnecting

/-- While the connection is open its channel is in the epoll set, with an interest in reading. -/
def Reads (l : ConnectionLife) : Prop :=
  l.m_channel.m_index = .kAdded ∧ l.m_channel.m_events.reading = true

/-- A function has been run that does not close the connection. -/
structure Kept (l l' : ConnectionLife) : Prop extends Moved l l' where
  state : l'.connection.m_state = l.connection.m_state ∨
    l.connection.m_state = .kConnected ∧ l'.connection.m_state = .kDisconnecting
  registered : l'.m_channel.m_index = .kNew ↔ l.m_channel.m_index = .kNew
  reads : l.IsOpen → l.Reads → l'.Reads
  removing : l'.removing = l.removing

theorem Kept.refl (h : l.m_channel.Placed l.poller) : Kept l l :=
  { Moved.refl h with
    state := .inl rfl
    registered := Iff.rfl
    reads := fun _ hreads => hreads
    removing := rfl }

theorem Kept.isOpen_iff (h : Kept l l') : l'.IsOpen ↔ l.IsOpen := by
  rcases h.state with hsame | ⟨hconnected, hdisconnecting⟩
  · rw [IsOpen, IsOpen, hsame]
  · exact iff_of_true (.inr hdisconnecting) (.inl hconnected)

theorem Kept.trans (h : Kept l l') (h' : Kept l' l'') : Kept l l'' :=
  { h.toMoved.trans h'.toMoved with
    state := by
      rcases h.state with hsame | ⟨hconnected, hdisconnecting⟩
      · rw [← hsame]
        exact h'.state
      · rcases h'.state with hsame' | ⟨hconnected', -⟩
        · exact .inr ⟨hconnected, hsame'.trans hdisconnecting⟩
        · exact absurd (hdisconnecting.symm.trans hconnected') fun h => StateE.noConfusion h
    registered := h'.registered.trans h.registered
    reads := fun hopen hreads => h'.reads (h.isOpen_iff.mpr hopen) (h.reads hopen hreads)
    removing := h'.removing.trans h.removing }

/-- A step on the output, and the write interest that follows it. -/
theorem kept_setOutput (h : l.m_channel.Placed l.poller) (s : HalfClose)
    (hstate : s.connection.m_state = l.connection.m_state ∨
      l.connection.m_state = .kConnected ∧ s.connection.m_state = .kDisconnecting)
    (hnew : l.m_channel.m_index = .kNew → s.connection.isWriting = l.connection.isWriting) :
    Kept l (l.setOutput s) := by
  by_cases hsame : s.connection.isWriting = l.connection.isWriting
  -- The poller is not asked.
  · have hout : l.setOutput s =
        { l with toHalfClose := s, m_channel := l.m_channel, poller := l.poller } := by
      rw [setOutput, if_pos hsame]
    rw [hout]
    exact { Moved.refl h with
      state := hstate
      registered := Iff.rfl
      reads := fun _ hreads => hreads
      removing := rfl }
  · have hregistered : l.m_channel.m_index ≠ .kNew := fun hindex => hsame (hnew hindex)
    obtain ⟨call, hcall, hevents, hout⟩ : ∃ call : ChannelCall, call ≠ .remove ∧
        (∀ e : Events, (call.events e).reading = e.reading) ∧
        l.setOutput s =
          { l with
              toHalfClose := s
              m_channel := (l.m_channel.call l.poller call).2
              poller := (l.m_channel.call l.poller call).1 } := by
      by_cases hwriting : s.connection.isWriting = true
      · refine ⟨.enableWriting, by decide, fun _ => rfl, ?_⟩
        rw [setOutput, if_neg hsame, if_pos hwriting]
        rfl
      · refine ⟨.disableWriting, by decide, fun _ => rfl, ?_⟩
        rw [setOutput, if_neg hsame, if_neg hwriting]
        rfl
    obtain ⟨hindex, hadded⟩ := Channel.call_index h.indexed call hcall
    rw [hout]
    exact { moved_call h call rfl rfl with
      state := hstate
      registered := iff_of_false hindex hregistered
      -- The interest in reading stays, so there is one.
      reads := fun _ hreads => by
        have hreading : (call.events l.m_channel.m_events).reading = true :=
          (hevents _).trans hreads.2
        refine ⟨hadded fun hnone => ?_, ?_⟩
        · rw [hnone] at hreading
          exact Bool.noConfusion hreading
        · show (l.m_channel.call l.poller call).2.m_events.reading = true
          rw [h.indexed.call_eq call]
          exact hreading
      removing := rfl }

/-- What the user does in a callback changes a connected connection only. -/
theorem step_action_of_ne (h : l.connection.m_state ≠ .kConnected) (action : UserAction) :
    l.toHalfClose.step action.event = l.toHalfClose := by
  cases action with
  | send message outcome before =>
      simp [UserAction.event, HalfClose.step, HalfClose.run, TcpConnection.send, h]
  | shutdown => simp [UserAction.event, HalfClose.step, HalfClose.run, TcpConnection.shutdown, h]

theorem setOutput_self (l : ConnectionLife) : l.setOutput l.toHalfClose = l := by
  rw [setOutput, if_pos rfl]

theorem act_of_ne (h : l.connection.m_state ≠ .kConnected) (actions : List UserAction) :
    l.act actions = l := by
  induction actions with
  | nil => rfl
  | cons action actions ih =>
      rw [act, List.foldl_cons, step_action_of_ne h, setOutput_self]
      exact ih

theorem kept_act (actions : List UserAction) :
    ∀ {l : ConnectionLife}, l.m_channel.Placed l.poller → (l.IsOpen → l.Reads) →
      Kept l (l.act actions) := by
  induction actions with
  | nil => exact fun h _ => Kept.refl h
  | cons action actions ih =>
      intro l h hopen
      have hstep : Kept l (l.setOutput (l.toHalfClose.step action.event)) := by
        by_cases hconnected : l.connection.m_state = .kConnected
        · refine kept_setOutput h _ ?_ fun hindex => ?_
          · cases action with
            | send message outcome before =>
                exact .inl (TcpConnection.state_send { l.connection with isShutdown := false } ..)
            | shutdown =>
                exact TcpConnection.state_shutdown { l.connection with isShutdown := false }
          · exact absurd (hindex.symm.trans (hopen (.inl hconnected)).1)
              fun h => ChannelIndex.noConfusion h
        · rw [step_action_of_ne hconnected, setOutput_self]
          exact Kept.refl h
      exact hstep.trans (ih hstep.placed fun hopen' =>
        hstep.reads (hstep.isOpen_iff.mp hopen') (hopen (hstep.isOpen_iff.mp hopen')))

theorem kept_handleWrite (h : l.m_channel.Placed l.poller)
    (hregistered : l.m_channel.m_index ≠ .kNew) (outcome : WriteOutcome) :
    Kept l (l.handleWrite outcome) :=
  kept_setOutput h _
    (.inl (TcpConnection.state_handleWrite { l.connection with isShutdown := false } outcome))
    fun hindex => absurd hindex hregistered

/-! ## Opening and closing -/

/-- What a function leaves that opens the connection. -/
structure Opened (l l' : ConnectionLife) : Prop extends Moved l l' where
  isOpen : l'.IsOpen
  reads : l'.Reads
  removing : l'.removing = l.removing

theorem opened_connectEstablished (h : l.m_channel.Placed l.poller) :
    Opened l l.connectEstablished := by
  obtain ⟨-, hadded⟩ := Channel.call_index h.indexed .enableReading (by decide)
  have hreading : (l.m_channel.call l.poller .enableReading).2.m_events.reading = true := by
    rw [h.indexed.call_eq]
    rfl
  exact { moved_call h .enableReading rfl rfl with
    isOpen := .inl rfl
    reads := ⟨hadded fun hnone => Bool.noConfusion (congrArg Events.reading hnone), hreading⟩
    removing := rfl }

theorem Opened.act (h : Opened l l') (actions : List UserAction) : Opened l (l'.act actions) := by
  have hkept := kept_act actions h.placed fun _ => h.reads
  exact { h.toMoved.trans hkept.toMoved with
    isOpen := hkept.isOpen_iff.mpr h.isOpen
    reads := hkept.reads h.isOpen h.reads
    removing := hkept.removing.trans h.removing }

/-- What a function leaves that closes the connection: the close callback has run once. -/
structure Closed (l l' : ConnectionLife) : Prop extends Moved l l' where
  state : l'.connection.m_state = .kDisconnected
  registered : l'.m_channel.m_index ≠ .kNew
  removing : l'.removing = l.removing + 1

theorem closed_handleClose (h : l.m_channel.Placed l.poller) : Closed l l.handleClose :=
  { moved_call h .disableAll rfl rfl with
    state := rfl
    registered := (Channel.call_index h.indexed .disableAll (by decide)).1
    removing := rfl }

/-- A read keeps the connection or closes it. -/
theorem handleRead_cases (h : l.m_channel.Placed l.poller) (incoming : Bytes) (consumed : Nat) :
    Kept l (l.handleRead incoming consumed) ∨ Closed l (l.handleRead incoming consumed) := by
  rw [handleRead, TcpConnection.handleRead]
  split
  · exact .inl (.refl h)
  · rename_i buffer l' hread
    split at hread
    · cases hread
    · split at hread
      -- Bytes have arrived: the message callback takes some of them.
      · cases hread
        exact .inl { Kept.refl h with }
      · split at hread
        · cases hread
          exact .inr { closed_handleClose h with }
        · cases hread
          exact .inl { Kept.refl h with }

/-- `connectDestoryed` after a close: the channel is given up. -/
theorem connectDestoryed_spec (h : l.m_channel.Placed l.poller)
    (hstate : l.connection.m_state = .kDisconnected) :
    Moved l l.connectDestoryed ∧ l.connectDestoryed.connection.m_state = .kDisconnected ∧
      l.connectDestoryed.m_channel.m_index = .kNew ∧
      l.connectDestoryed.removing = l.removing := by
  let l₁ := (l.setState .kDisconnected).disableAll.connectionCallback
  have hdestroyed : l.connectDestoryed =
      { l₁ with
          m_channel := (l₁.m_channel.remove l₁.poller).2
          poller := (l₁.m_channel.remove l₁.poller).1
          returned := l₁.returned ++ [(l₁.connection.m_state,
            (l₁.m_channel.remove l₁.poller).2.registered (l₁.m_channel.remove l₁.poller).1)] } := by
    rw [connectDestoryed, if_pos hstate]
  have h₁ : Moved l l₁ := moved_call h .disableAll rfl rfl
  rw [hdestroyed]
  refine ⟨h₁.trans (moved_call h₁.placed .remove rfl rfl), rfl, ?_, rfl⟩
  rfl

end ConnectionLife

end RegistrationCenter
