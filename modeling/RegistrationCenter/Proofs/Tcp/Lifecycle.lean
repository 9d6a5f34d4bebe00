import RegistrationCenter.Lib.Runs
import RegistrationCenter.Proofs.Tcp.HalfClose
import RegistrationCenter.Proofs.Tcp.Channels
import RegistrationCenter.Spec.Tcp.TcpServer

/-!
# `RegistrationCenter.Proofs.Tcp.Lifecycle`: how a connection ends

A connection opens once, and when `connectDestoryed` returns its channel is unregistered:
`opens_once`. But the test in `connectDestoryed` is for the wrong state. After a close it runs
the connection callback a second time, and in a connection that is still open it does not run
it at all and leaves the state: `not_endsOnce` shows that no run ends as it should.
-/

set_option autoImplicit false

namespace RegistrationCenter

open Lib

/-! ## The state of a connection -/

namespace TcpConnection

theorem state_send (c : TcpConnection) (message : Bytes) (outcome : WriteOutcome) (before : UInt8) :
    (c.send message outcome before).2.m_state = c.m_state := by
  rw [send]
  split
  · exact (c.sameState_sendInLoop message outcome before).1
  · rfl

theorem state_shutdown (c : TcpConnection) : c.shutdown.m_state = c.m_state ∨
    c.m_state = .kConnected ∧ c.shutdown.m_state = .kDisconnecting := by
  rw [shutdown]
  split
  · rename_i hstate
    exact .inr ⟨hstate, (shutdownInLoop_same _).1⟩
  · exact .inl rfl

theorem state_handleWrite (c : TcpConnection) (outcome : WriteOutcome) :
    (c.handleWrite outcome).2.m_state = c.m_state := by
  rw [handleWrite]
  split
  · simp only
    split
    · split
      · let c₂ : TcpConnection := { c with
          m_outputBuffer := c.m_outputBuffer.retrieve (c.m_outputBuffer.writeFd outcome).2.toNat
          isWriting := false }
        exact (drained_same c₂).1
      · rfl
    · rfl
  · rfl

end TcpConnection

namespace HalfClose

/-- A step leaves the state of the connection, or starts a shutdown that has found it
connected. -/
theorem state_step (s : HalfClose) (e : Event) :
    (s.step e).connection.m_state = s.connection.m_state ∨
      (s.connection.m_state = .kConnected ∨ 0 < s.shutdownTested) ∧
        (s.step e).connection.m_state = .kDisconnecting := by
  cases e with
  | send message outcome before =>
      exact .inl (TcpConnection.state_send { s.connection with isShutdown := false } ..)
  | shutdown =>
      rcases TcpConnection.state_shutdown { s.connection with isShutdown := false } with h | h
      · exact .inl h
      · exact .inr ⟨.inl h.1, h.2⟩
  | writable outcome =>
      exact .inl (TcpConnection.state_handleWrite { s.connection with isShutdown := false } outcome)
  -- A functor of the loop runs: neither of them sets the state.
  | runFunctor outcome before =>
      rw [step]
      split
      · exact .inl rfl
      · rename_i f functors _
        cases f with
        | sendInLoop message =>
            exact .inl (TcpConnection.sameState_sendInLoop
              { s.connection with isShutdown := false } message outcome before).1
        | shutdownInLoop =>
            exact .inl (TcpConnection.shutdownInLoop_same
              { s.connection with isShutdown := false }).1
  | sendTest message =>
      rw [step]
      split
      · exact .inl rfl
      · exact .inl rfl
  | sendHandOver i =>
      rw [step]
      split
      · exact .inl rfl
      · exact .inl rfl
  | shutdownTest =>
      rw [step]
      split
      · exact .inl rfl
      · exact .inl rfl
  -- The store of a shutdown in another thread, whose test was before.
  | shutdownSet =>
      rw [step]
      split
      · exact .inl rfl
      · rename_i n htested
        exact .inr ⟨.inr (by omega), rfl⟩
  | shutdownHandOver =>
      rw [step]
      split
      · exact .inl rfl
      · exact .inl rfl

/-- A call of `shutdown` in another thread gets past its test only on a connected state. -/
theorem shutdownTested_step {s : HalfClose} (hstate : s.connection.m_state ≠ .kConnected)
    (htested : s.shutdownTested = 0) (e : Event) : (s.step e).shutdownTested = 0 := by
  cases e with
  | send message outcome before => exact htested
  | shutdown => exact htested
  | writable outcome => exact htested
  | runFunctor outcome before =>
      rw [step]
      split
      · exact htested
      · exact htested
  | sendTest message => rw [step, if_neg hstate, htested]
  | sendHandOver i =>
      rw [step]
      split
      · exact htested
      · exact htested
  | shutdownTest => rw [step, if_neg hstate, htested]
  | shutdownSet =>
      rw [step]
      split
      · exact htested
      · omega
  | shutdownHandOver =>
      rw [step]
      split
      · exact htested
      · exact htested

end HalfClose

namespace ConnectionLife

variable {l : ConnectionLife}

/-! ## The invariant -/

/-- What holds in every state of the life of a connection. -/
structure Sound (l : ConnectionLife) : Prop where
  indexed : l.m_channel.Indexed l.poller
  /-- The connection callback has seen a connected state once, when the connection opened. -/
  opened : l.callbacks.count true = if l.connection.m_state = .kConnecting then 0 else 1
  /-- Nobody shuts a connection down that is not open yet. -/
  untested : l.connection.m_state = .kConnecting → l.shutdownTested = 0
  /-- A connection gets disconnected by a close, which has run the connection callback. -/
  closed : l.connection.m_state = .kDisconnected → 1 ≤ l.callbacks.count false
  unregistered : ∀ r ∈ l.returned, r.2 = false
  /-- When `connectDestoryed` has returned, the callback has seen a closed connection twice, or
  the state was left as it was. -/
  ended : l.returned ≠ [] →
    2 ≤ l.callbacks.count false ∨ ∃ r ∈ l.returned, r.1 ≠ .kDisconnected

theorem sound_newConnection (fd : Nat) (poller : EpollPoller) (highWaterMark : UInt64)
    (writeComplete highWater : Bool) :
    (newConnection fd poller highWaterMark writeComplete highWater).Sound where
  indexed := by
    show ChannelIndex.kNew = .kAdded ↔ (Function.update poller.epollSet fd none fd).isSome
    rw [Function.update_self]
    exact iff_of_false (fun h => ChannelIndex.noConfusion h) Bool.false_ne_true
  opened := rfl
  untested _ := rfl
  closed h := StateE.noConfusion h
  unregistered _ h := absurd h List.not_mem_nil
  ended h := absurd rfl h

theorem Sound.connectEstablished (h : l.Sound) (hstate : l.connection.m_state = .kConnecting) :
    l.connectEstablished.Sound where
  indexed := Channel.Indexed.updateChannel h.indexed
  opened := by
    have hopened := h.opened
    rw [if_pos hstate] at hopened
    show (l.callbacks ++ [true]).count true = 1
    rw [List.count_append, hopened]
    rfl
  untested hstate' := StateE.noConfusion hstate'
  closed hstate' := StateE.noConfusion hstate'
  unregistered := h.unregistered
  ended hreturned := by
    show 2 ≤ (l.callbacks ++ [true]).count false ∨ _
    rw [List.count_append]
    exact h.ended hreturned

/-- A channel that is out of the epoll set comes back with `disableAll`: this is what
`connectDestoryed` does after a close, until it removes the channel. -/
theorem epollSet_disableAll (h : l.Sound) (hindex : l.m_channel.m_index ≠ .kAdded) :
    l.disableAll.poller.epollSet l.m_channel.m_fd = some (.kNoneEvent, l.m_channel.self) := by
  have hindexed : { l.m_channel with m_events := .kNoneEvent }.Indexed l.poller := h.indexed
  have hupdated : { l.m_channel with m_events := .kNoneEvent }.updatedIndex = .kAdded :=
    if_neg fun hboth => hindex hboth.1
  have hpoller : l.disableAll.poller = _ := congrArg Prod.fst hindexed.updateChannel_eq
  rw [hpoller, hupdated, if_pos rfl]
  exact Function.update_self ..

/-- Disconnecting, as `handleClose` and `connectDestoryed` do it, runs the callback on a
connection that is not connected. -/
theorem Sound.disconnect (h : l.Sound) (hstate : l.connection.m_state ≠ .kConnecting) :
    ((l.setState .kDisconnected).disableAll.connectionCallback).Sound ∧
      ((l.setState .kDisconnected).disableAll.connectionCallback).callbacks.count false =
        l.callbacks.count false + 1 := by
  have hcount : (l.callbacks ++ [false]).count false = l.callbacks.count false + 1 := by
    rw [List.count_append]
    rfl
  refine ⟨⟨Channel.Indexed.updateChannel h.indexed, ?_, fun h => StateE.noConfusion h, fun _ => ?_,
    h.unregistered, fun hreturned => ?_⟩, hcount⟩
  -- The callback has seen the connected state once before, and not now.
  · have hopened := h.opened
    rw [if_neg hstate] at hopened
    show (l.callbacks ++ [false]).count true = 1
    rw [List.count_append, hopened]
    rfl
  · show 1 ≤ (l.callbacks ++ [false]).count false
    omega
  · show 2 ≤ (l.callbacks ++ [false]).count false ∨ _
    rcases h.ended hreturned with htwo | hleft
    · exact .inl (by omega)
    · exact .inr hleft

theorem Sound.handleClose (h : l.Sound) (hstate : l.connection.m_state ≠ .kConnecting) :
    l.handleClose.Sound := by
  obtain ⟨hs, -⟩ := h.disconnect hstate
  exact ⟨hs.indexed, hs.opened, hs.untested, hs.closed, hs.unregistered, hs.ended⟩

/-- The end of `connectDestoryed`. -/
theorem Sound.remove (h : l.Sound)
    (hended : 2 ≤ l.callbacks.count false ∨ l.connection.m_state ≠ .kDisconnected) :
    let (poller, channel) := l.m_channel.remove l.poller
    ({ l with
        m_channel := channel
        poller := poller
        returned := l.returned ++ [(l.connection.m_state, channel.registered poller)] }
      : ConnectionLife).Sound := by
  obtain ⟨hindexed, hregistered⟩ := h.indexed.remove
  refine ⟨hindexed, h.opened, h.untested, h.closed, fun r hr => ?_, fun _ => ?_⟩
  · rcases List.mem_append.mp hr with hr | hr
    · exact h.unregistered r hr
    · rw [List.mem_singleton.mp hr]
      exact hregistered
  · rcases hended with htwo | hleft
    · exact .inl htwo
    · exact .inr ⟨_, List.mem_append_right _ (List.mem_singleton.mpr rfl), hleft⟩

theorem Sound.connectDestoryed (h : l.Sound) (hstate : l.connection.m_state ≠ .kConnecting) :
    l.connectDestoryed.Sound := by
  rw [ConnectionLife.connectDestoryed]
  by_cases hdisconnected : l.connection.m_state = .kDisconnected
  -- A close was there before, so the callback runs for the second time.
  · rw [if_pos hdisconnected]
    obtain ⟨hs, hcount⟩ := h.disconnect hstate
    have hone := h.closed hdisconnected
    exact hs.remove (.inl (by omega))
  -- The connection is open, and stays so.
  · rw [if_neg hdisconnected]
    exact h.remove (.inr hdisconnected)

theorem Sound.handleRead (h : l.Sound) (hstate : l.connection.m_state ≠ .kConnecting)
    (incoming : Bytes) (consumed : Nat) : (l.handleRead incoming consumed).Sound := by
  rw [ConnectionLife.handleRead, TcpConnection.handleRead]
  split
  · exact h
  · rename_i buffer l' hread
    -- A read ends in the message callback, in `handleClose` or in `handleError`.
    have hs : l'.Sound := by
      split at hread
      · cases hread
      · split at hread
        · cases hread
          exact h
        · split at hread
          · cases hread
            exact h.handleClose hstate
          · cases hread
            exact h
    exact ⟨hs.indexed, hs.opened, hs.untested, hs.closed, hs.unregistered, hs.ended⟩

theorem Sound.output (h : l.Sound) (e : HalfClose.Event) :
    (l.setOutput (l.toHalfClose.step e)).Sound := by
  have hstate := l.toHalfClose.state_step e
  have htested := h.untested
  refine ⟨?_, ?_, fun hconnecting => ?_, fun hdisconnected => ?_, h.unregistered, h.ended⟩
  -- The write interest changes, and the poller is told.
  · show Channel.Indexed (if _ then _ else _ : EpollPoller × Channel).2
      (if _ then _ else _ : EpollPoller × Channel).1
    split
    · exact h.indexed
    · split
      · exact Channel.Indexed.updateChannel h.indexed
      · exact Channel.Indexed.updateChannel h.indexed
  · show l.callbacks.count true =
      if (l.toHalfClose.step e).connection.m_state = .kConnecting then 0 else 1
    rw [h.opened]
    rcases hstate with hsame | ⟨hopen, hshut⟩
    · rw [hsame]
    -- A shutdown has found the connection connected.
    · have hne : l.connection.m_state ≠ .kConnecting := by
        rcases hopen with hconnected | htests
        · rw [hconnected]
          exact fun h => StateE.noConfusion h
        · intro hconnecting
          rw [htested hconnecting] at htests
          exact absurd htests (Nat.lt_irrefl 0)
      rw [if_neg hne, hshut, if_neg fun h => StateE.noConfusion h]
  · have hsame : l.connection.m_state = .kConnecting := by
      rcases hstate with hsame | ⟨-, hshut⟩
      · exact hsame.symm.trans hconnecting
      · exact absurd (hshut.symm.trans hconnecting) fun h => StateE.noConfusion h
    refine HalfClose.shutdownTested_step ?_ (htested hsame) e
    rw [hsame]
    exact fun h => StateE.noConfusion h
  · rcases hstate with hsame | ⟨-, hshut⟩
    · exact h.closed (hsame.symm.trans hdisconnected)
    · exact absurd (hshut.symm.trans hdisconnected) fun h => StateE.noConfusion h

theorem Sound.step (h : l.Sound) (e : Event) : (l.step e).Sound := by
  cases e with
  | connectEstablished =>
      rw [ConnectionLife.step]
      split
      · rename_i hstate
        exact h.connectEstablished hstate
      · exact h
  | read incoming consumed =>
      rw [ConnectionLife.step]
      split
      · exact h
      · rename_i hstate
        exact h.handleRead hstate incoming consumed
  | close =>
      rw [ConnectionLife.step]
      split
      · exact h
      · rename_i hstate
        exact h.handleClose hstate
  | output e => exact h.output e
  | removeConnectionInLoop =>
      rw [ConnectionLife.step]
      split
      · exact h
      · exact ⟨h.indexed, h.opened, h.untested, h.closed, h.unregistered, h.ended⟩
  | destroyServer =>
      rw [ConnectionLife.step, destroyServer]
      split
      · exact ⟨h.indexed, h.opened, h.untested, h.closed, h.unregistered, h.ended⟩
      · exact h
  | connectDestoryed =>
      rw [ConnectionLife.step]
      split
      · exact h
      · rename_i hstate
        split
        · exact h
        · rename_i n _
          have hs : ({ l with destroying := n } : ConnectionLife).Sound :=
            ⟨h.indexed, h.opened, h.untested, h.closed, h.unregistered, h.ended⟩
          exact hs.connectDestoryed hstate

/-! ## Runs -/

/-- A run of a new connection. -/
def run (fd : Nat) (poller : EpollPoller) (highWaterMark : UInt64) (writeComplete highWater : Bool)
    (events : List Event) : ConnectionLife :=
  events.foldl step (newConnection fd poller highWaterMark writeComplete highWater)

theorem sound_run (fd : Nat) (poller : EpollPoller) (highWaterMark : UInt64)
    (writeComplete highWater : Bool) (events : List Event) :
    (run fd poller highWaterMark writeComplete highWater events).Sound :=
  inv_foldl (fun _ e h => h.step e) events
    (sound_newConnection fd poller highWaterMark writeComplete highWater)

/-- What is as it should be: the callback never sees a second connected state, and a channel
is unregistered when `connectDestoryed` returns. -/
theorem opens_once (fd : Nat) (poller : EpollPoller) (highWaterMark : UInt64)
    (writeComplete highWater : Bool) (events : List Event) :
    let l := run fd poller highWaterMark writeComplete highWater events
    l.callbacks.count true ≤ 1 ∧ ∀ r ∈ l.returned, r.2 = false := by
  intro l
  have hs : l.Sound := sound_run ..
  refine ⟨?_, hs.unregistered⟩
  rw [hs.opened]
  split
  · exact Nat.zero_le _
  · exact Nat.le_refl _

/-- The connection callback has seen one connected and one closed connection, and when
`connectDestoryed` returned the state was disconnected and the channel unregistered. -/
def EndsOnce (l : ConnectionLife) : Prop :=
  l.callbacks.count true = 1 ∧ l.callbacks.count false = 1 ∧
    ∀ r ∈ l.returned, r = (.kDisconnected, false)

/-- No connection that comes to its end ends as it should. -/
theorem not_endsOnce (fd : Nat) (poller : EpollPoller) (highWaterMark : UInt64)
    (writeComplete highWater : Bool) (events : List Event)
    (hreturned : (run fd poller highWaterMark writeComplete highWater events).returned ≠ []) :
    ¬ EndsOnce (run fd poller highWaterMark writeComplete highWater events) := by
  -- Each way to the end fails one part of what is asked.
  rintro ⟨-, hfalse, hends⟩
  rcases (sound_run fd poller highWaterMark writeComplete highWater events).ended hreturned with
    htwo | ⟨r, hr, hstate⟩
  · rw [hfalse] at htwo
    exact absurd htwo (by decide)
  · rw [hends r hr] at hstate
    exact hstate rfl

/-- The server is destroyed while the connection is open. -/
theorem not_endsOnce_serverDestroyed : ¬ EndsOnce (run 5 .new 67108864 false false
    [.connectEstablished, .destroyServer, .connectDestoryed]) :=
  not_endsOnce 5 .new 67108864 false false _ (by decide)

/-- The peer closes, and the callback sees the closed connection twice. -/
theorem not_endsOnce_peerClosed : ¬ EndsOnce (run 5 .new 67108864 false false
    [.connectEstablished, .close, .removeConnectionInLoop, .connectDestoryed]) := by
  intro h
  exact absurd h.2.1 (by decide)

end ConnectionLife

end RegistrationCenter
