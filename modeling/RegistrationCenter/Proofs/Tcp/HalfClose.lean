import RegistrationCenter.Proofs.Tcp.OutputStream
import RegistrationCenter.Spec.Tcp.HalfClose

/-!
# `RegistrationCenter.Proofs.Tcp.HalfClose`: a shutdown waits for the output

`followsOutput_run` is about every order of the steps of `HalfClose`, with any outcome of each
`::write`. The channel has write interest exactly while bytes wait, the socket is shut down
only when none do, and a shutdown is never forgotten: it is done, or on its way to the loop, or
left to the `handleWrite` that writes the last byte.
-/

set_option autoImplicit false

namespace RegistrationCenter

open Lib

namespace TcpConnection

variable {c : TcpConnection}

/-! ## What each function does to the pending output -/

/-- The connection takes bytes from its buffer to the socket. -/
def Open (c : TcpConnection) : Prop := c.m_state = .kConnected ∨ c.m_state = .kDisconnecting

/-- What a function of the connection does: it keeps the write interest in step with the
buffer, it calls `shutdownWrite` only when no bytes wait, and it does so when it leaves a
connection with a shutdown and no bytes that it has not found like this. -/
structure Follows (c c' : TcpConnection) : Prop where
  waits : c'.Waits
  isOpen : c'.Open
  whole : c'.isShutdown = true → c'.m_outputBuffer.readable = []
  closes : c'.m_state = .kDisconnecting → c'.m_outputBuffer.readable = [] →
    c'.isShutdown = true ∨ c.m_state = .kDisconnecting ∧ c.m_outputBuffer.readable = []

/-- A function that does nothing to a connection. -/
theorem Follows.refl (h : c.Waits) (hopen : c.Open) (hclean : c.isShutdown = false) :
    Follows c c :=
  ⟨h, hopen, fun hs => absurd (hclean.symm.trans hs) Bool.false_ne_true,
    fun hstate hnil => .inr ⟨hstate, hnil⟩⟩

/-- `c'` is in the state of `c`, and `shutdownWrite` has not been called in between. -/
def SameState (c c' : TcpConnection) : Prop :=
  c'.m_state = c.m_state ∧ c'.isShutdown = c.isShutdown

theorem sameState_writeDirect (c : TcpConnection) (message : Bytes) (outcome : WriteOutcome) :
    SameState c (c.writeDirect message outcome).2.2.2 := by
  -- The branch of an error is never taken.
  have hnonneg : (0 : UInt64) ≤ outcome.result message := UInt64.le_iff_toNat_le.mpr (Nat.zero_le _)
  rw [writeDirect, if_pos hnonneg]
  show SameState c (if _ then c.queueInLoop _ else c)
  split
  · exact ⟨rfl, rfl⟩
  · exact ⟨rfl, rfl⟩

theorem sameState_appendRest (c : TcpConnection) (rest : Bytes) (remaining : UInt64) :
    SameState c (c.appendRest rest remaining) := by
  rw [appendRest]
  show SameState c (if _ then c.queueInLoop _ else c)
  split
  · exact ⟨rfl, rfl⟩
  · exact ⟨rfl, rfl⟩

theorem sameState_sendInLoop (c : TcpConnection) (message : Bytes) (outcome : WriteOutcome)
    (before : UInt8) : SameState c (c.sendInLoop message outcome before).2 := by
  have hdirect := c.sameState_writeDirect message outcome
  rw [sendInLoop]
  split
  · exact ⟨rfl, rfl⟩
  · generalize (!c.isWriting && c.m_outputBuffer.readableBytes == 0) = direct
    -- A write is tried only when no bytes wait and the channel does not write.
    cases direct with
    | false =>
        show SameState c (if _ then _ else _ : Bytes × TcpConnection).2
        split
        · exact c.sameState_appendRest _ _
        · exact ⟨rfl, rfl⟩
    | true =>
        generalize c.writeDirect message outcome = r at hdirect
        obtain ⟨nwrote, remaining, faultError, c₁⟩ := r
        show SameState c (if _ then _ else _ : Bytes × TcpConnection).2
        split
        · have hrest := c₁.sameState_appendRest
            (bytesAt before message nwrote remaining) remaining
          exact ⟨hrest.1.trans hdirect.1, hrest.2.trans hdirect.2⟩
        · exact hdirect

/-- `sendInLoop` keeps the write interest in step with the buffer, whatever its `::write`
meets, and never takes out bytes that wait. -/
theorem Waits.sendInLoop_any (h : c.Waits) (hstate : c.m_state ≠ .kDisconnected)
    (message : StringObject) (outcome : WriteOutcome) (before : UInt8) :
    let c' := (c.sendInLoop message outcome before).2
    c'.Waits ∧ c'.m_state = c.m_state ∧
      (c'.m_outputBuffer.readable = [] → c.m_outputBuffer.readable = []) := by
  intro c'
  cases hwriting : c.isWriting with
  | true =>
      have hbuffered := sendInLoop_buffered hstate hwriting message outcome before
      have hle : (0 : UInt64).toNat ≤ message.val.length := Nat.zero_le _
      obtain ⟨hwaits, hsame, hread⟩ := h.queueRest before message hle
      rw [UInt64.sub_zero] at hwaits hsame hread
      have hc' : c' = c.queueRest before message 0 (.ofNat message.val.length) :=
        congrArg Prod.snd hbuffered
      rw [hc']
      refine ⟨hwaits, hsame, fun hnil => ?_⟩
      rw [hread] at hnil
      exact (List.append_eq_nil_iff.mp hnil).1
  | false =>
      have hempty := h.direct_iff.mp hwriting
      cases outcome with
      | accepted count =>
          obtain ⟨hwaits, hsame, -⟩ :=
            h.sendInLoop hstate message (.accepted count) before fun _ => trivial
          exact ⟨hwaits, hsame, fun _ => hempty⟩
      -- A failed write puts bytes into the buffer, and the channel waits for them.
      | failed errno =>
          obtain ⟨c₁, hsame, hdirect⟩ := sendInLoop_direct hstate hwriting
            (h.valid.readable_eq_nil.mp hempty) message (.failed errno) before
          obtain ⟨hbytes, hpos⟩ := bytesAt_failed before message
          rw [WriteOutcome.result_failed, TcpConnection.queueRest, if_pos hpos, hbytes] at hdirect
          have hc' : c' = c₁.appendRest (before :: message.val)
              (.ofNat message.val.length - .ofNat (2 ^ 64 - 1)) := congrArg Prod.snd hdirect
          rw [hc']
          refine ⟨((h.of_same hsame).appendRest (List.cons_ne_nil _ _) _).1, ?_, fun _ => hempty⟩
          rw [(c₁.appendRest_spec _ _).1, hsame.1]

theorem Waits.follows_sendInLoop (h : c.Waits) (hopen : c.Open) (hclean : c.isShutdown = false)
    (message : StringObject) (outcome : WriteOutcome) (before : UInt8) :
    Follows c (c.sendInLoop message outcome before).2 := by
  have hstate : c.m_state ≠ .kDisconnected := by
    rcases hopen with hstate | hstate
    · rw [hstate]
      exact fun h => StateE.noConfusion h
    · rw [hstate]
      exact fun h => StateE.noConfusion h
  obtain ⟨hwaits, hsame, hnil⟩ := h.sendInLoop_any hstate message outcome before
  refine ⟨hwaits, ?_, fun hs => ?_, fun hd hempty => .inr ⟨hsame ▸ hd, hnil hempty⟩⟩
  · rw [Open, hsame]
    exact hopen
  · rw [(sameState_sendInLoop c message outcome before).2, hclean] at hs
    exact absurd hs Bool.false_ne_true

theorem Waits.follows_send (h : c.Waits) (hopen : c.Open) (hclean : c.isShutdown = false)
    (message : StringObject) (outcome : WriteOutcome) (before : UInt8) :
    Follows c (c.send message outcome before).2 := by
  rw [send]
  split
  · exact h.follows_sendInLoop hopen hclean message outcome before
  · exact Follows.refl h hopen hclean

/-- `shutdownInLoop` shuts the socket down exactly when no bytes wait. -/
theorem Waits.isShutdown_shutdownInLoop (h : c.Waits) (hclean : c.isShutdown = false) :
    c.shutdownInLoop.isShutdown = true ↔ c.m_outputBuffer.readable = [] := by
  rw [← h.direct_iff, shutdownInLoop]
  cases hwriting : c.isWriting with
  | true => simp [hclean]
  | false => simp

theorem Waits.follows_shutdownInLoop (h : c.Waits) (hopen : c.Open)
    (hclean : c.isShutdown = false) : Follows c c.shutdownInLoop := by
  have hsame := shutdownInLoop_same c
  have hiff := h.isShutdown_shutdownInLoop hclean
  -- `shutdownInLoop` tests the write interest, which says whether bytes wait.
  refine ⟨h.of_same hsame, ?_, fun hs => ?_, fun _ hnil => .inl ?_⟩
  · rw [Open, hsame.1]
    exact hopen
  · rw [hsame.2.2]
    exact hiff.mp hs
  · rw [hsame.2.2] at hnil
    exact hiff.mpr hnil

theorem Waits.follows_shutdown (h : c.Waits) (hopen : c.Open) (hclean : c.isShutdown = false) :
    Follows c c.shutdown := by
  rw [shutdown]
  split
  · have hwaits : ({ c with m_state := .kDisconnecting } : TcpConnection).Waits := h.congr rfl rfl
    have hfollows := hwaits.follows_shutdownInLoop (.inr rfl) hclean
    -- The state is set here, so this shutdown is not one that was there before.
    refine ⟨hfollows.waits, hfollows.isOpen, hfollows.whole, fun _ hnil => .inl ?_⟩
    rw [(shutdownInLoop_same _).2.2] at hnil
    exact (hwaits.isShutdown_shutdownInLoop hclean).mpr hnil
  · exact Follows.refl h hopen hclean

/-- The end of `handleWrite`, when the last byte is written: the channel stops waiting, and a
pending shutdown is done. -/
theorem Waits.follows_drained (h : c.Waits) (hopen : c.Open) (hclean : c.isShutdown = false)
    (hempty : c.m_outputBuffer.readable = []) :
    let c₃ := if c.m_writeCompleteCallback then c.queueInLoop .writeCompleteCallback else c
    let c' := if c₃.m_state = .kDisconnecting then c₃.shutdownInLoop else c₃
    c'.Waits ∧ c'.Open ∧ (c'.isShutdown = true → c'.m_outputBuffer.readable = []) ∧
      (c'.m_state = .kDisconnecting → c'.isShutdown = true) := by
  intro c₃ c'
  have hsame : SameButQueued c c₃ := sameButQueued_ite _ c _
  have hwaits₃ : c₃.Waits := h.of_same hsame
  have hopen₃ : c₃.Open := by
    rw [Open, hsame.1]
    exact hopen
  have hclean₃ : c₃.isShutdown = false := by
    show (if _ then c.queueInLoop _ else c).isShutdown = false
    split
    · exact hclean
    · exact hclean
  have hempty₃ : c₃.m_outputBuffer.readable = [] := by rw [hsame.2.2, hempty]
  by_cases hstate : c₃.m_state = .kDisconnecting
  · have hc' : c' = c₃.shutdownInLoop := if_pos hstate
    have hfollows := hwaits₃.follows_shutdownInLoop hopen₃ hclean₃
    rw [hc']
    exact ⟨hfollows.waits, hfollows.isOpen, hfollows.whole,
      fun _ => (hwaits₃.isShutdown_shutdownInLoop hclean₃).mpr hempty₃⟩
  · have hc' : c' = c₃ := if_neg hstate
    rw [hc']
    exact ⟨hwaits₃, hopen₃, fun _ => hempty₃, fun hd => absurd hd hstate⟩

theorem Waits.follows_handleWrite (h : c.Waits) (hopen : c.Open) (hclean : c.isShutdown = false)
    (outcome : WriteOutcome) : Follows c (c.handleWrite outcome).2 := by
  cases hwriting : c.isWriting with
  | false =>
      rw [TcpConnection.handleWrite, hwriting]
      exact Follows.refl h hopen hclean
  | true =>
      have hwaits := (h.handleWrite hwriting outcome).2.1
      have hvalid := h.valid.retrieve (outcome.result c.m_outputBuffer.readable).toNat
      rw [TcpConnection.handleWrite, if_pos hwriting] at hwaits ⊢
      have hfd : c.m_outputBuffer.writeFd outcome = (outcome.taken c.m_outputBuffer.readable,
        outcome.result c.m_outputBuffer.readable) := rfl
      simp only [hfd] at hwaits ⊢
      split
      · split
        -- The last byte is written.
        · rename_i hempty
          have hnil := hvalid.readable_eq_nil.mpr hempty
          let c₂ : TcpConnection := { c with
            m_outputBuffer :=
              c.m_outputBuffer.retrieve (outcome.result c.m_outputBuffer.readable).toNat
            isWriting := false }
          have hwaits₂ : c₂.Waits :=
            ⟨hvalid, ⟨fun hw => Bool.noConfusion hw, fun hne => absurd hnil hne⟩⟩
          obtain ⟨hw, ho, hwhole, hcloses⟩ := hwaits₂.follows_drained hopen hclean hnil
          exact ⟨hw, ho, hwhole, fun hd _ => .inl (hcloses hd)⟩
        -- Bytes are left, so no shutdown is due.
        · rename_i hpos hleft
          rw [if_pos hpos, if_neg hleft] at hwaits
          refine ⟨hwaits, hopen, fun hs => ?_, fun _ hnil => ?_⟩
          · exact absurd (hclean.symm.trans hs) Bool.false_ne_true
          · exact absurd (hvalid.readable_eq_nil.mp hnil) hleft
      · exact Follows.refl h hopen hclean

end TcpConnection

namespace HalfClose

variable {s : HalfClose}

/-- Write interest and half-close follow the pending output. -/
structure FollowsOutput (s : HalfClose) : Prop where
  interest : s.connection.Open →
    (s.connection.isWriting = true ↔ s.connection.m_outputBuffer.readableBytes ≠ 0)
  /-- No call of `shutdownWrite` has cut off bytes. -/
  whole : ∀ waiting ∈ s.shutdownWrites, waiting = []
  /-- A shutdown with nothing left to write is done, queued, or about to be queued. -/
  closes : s.connection.m_state = .kDisconnecting →
    s.connection.m_outputBuffer.readableBytes = 0 →
      s.connection.isShutdown = true ∨ .shutdownInLoop ∈ s.functors ∨ 0 < s.shutdownSet

/-- The invariant. -/
structure Sound (s : HalfClose) : Prop where
  waits : s.connection.Waits
  isOpen : s.connection.Open
  whole : ∀ waiting ∈ s.shutdownWrites, waiting = []
  closes : s.connection.m_state = .kDisconnecting → s.connection.m_outputBuffer.readable = [] →
    s.connection.isShutdown = true ∨ .shutdownInLoop ∈ s.functors ∨ 0 < s.shutdownSet

theorem Sound.followsOutput (h : s.Sound) : s.FollowsOutput where
  interest _ := by
    rw [h.waits.writing, ne_eq, h.waits.valid.readable_eq_nil]
  whole := h.whole
  closes hstate hempty := h.closes hstate (h.waits.valid.readable_eq_nil.mpr hempty)

theorem sound_established (highWaterMark : UInt64) (writeComplete highWater : Bool) :
    (established highWaterMark writeComplete highWater).Sound where
  waits := (OutputStream.sound_established highWaterMark writeComplete highWater).waits
  isOpen := .inl rfl
  whole _ hmem := absurd hmem List.not_mem_nil
  closes hstate := StateE.noConfusion hstate

/-- A function of the connection runs, and the functors left are `functors`. A shutdown that
it finds undone and leaves undone is still on its way. -/
theorem Sound.run (h : s.Sound) (functors : List LoopFunctor)
    {f : TcpConnection → TcpConnection}
    (hf : ∀ c : TcpConnection, c.Waits → c.Open → c.isShutdown = false → c.Follows (f c))
    (hleft : .shutdownInLoop ∈ s.functors → .shutdownInLoop ∈ functors ∨
      ∀ c : TcpConnection, c.Waits → c.Open → c.isShutdown = false →
        (f c).m_outputBuffer.readable = [] → (f c).isShutdown = true) :
    (({ s with functors := functors } : HalfClose).run f).Sound := by
  let c : TcpConnection := { s.connection with isShutdown := false }
  have hwaits : c.Waits := h.waits.congr rfl rfl
  have hfollows : c.Follows (f c) := hf c hwaits h.isOpen rfl
  refine ⟨hfollows.waits.congr rfl rfl, hfollows.isOpen, ?_, ?_⟩
  · show ∀ waiting ∈ (if (f c).isShutdown then _ else _ : List Bytes), waiting = []
    split
    · rename_i hs
      intro waiting hmem
      rcases List.mem_append.mp hmem with hmem | hmem
      · exact h.whole waiting hmem
      · rw [List.mem_singleton.mp hmem]
        exact hfollows.whole hs
    · exact h.whole
  · intro hstate hnil
    show (s.connection.isShutdown || (f c).isShutdown) = true ∨ _
    rw [Bool.or_eq_true]
    rcases hfollows.closes hstate hnil with hs | ⟨hstate', hnil'⟩
    · exact .inl (.inr hs)
    -- The shutdown was there before this step.
    · rcases h.closes hstate' hnil' with hs | hqueued | hset
      · exact .inl (.inl hs)
      · rcases hleft hqueued with hqueued | hdone
        · exact .inr (.inl hqueued)
        · exact .inl (.inr (hdone c hwaits h.isOpen rfl hnil))
      · exact .inr (.inr hset)

theorem Sound.step (h : s.Sound) (e : Event) : (s.step e).Sound := by
  cases e with
  | send message outcome before =>
      exact h.run s.functors
        (fun c hw ho hc => hw.follows_send ho hc message outcome before) .inl
  | shutdown => exact h.run s.functors (fun c hw ho hc => hw.follows_shutdown ho hc) .inl
  | writable outcome =>
      exact h.run s.functors (fun c hw ho hc => hw.follows_handleWrite ho hc outcome) .inl
  | runFunctor outcome before =>
      rw [HalfClose.step]
      cases hfunctors : s.functors with
      | nil => exact h
      | cons f functors =>
          cases f with
          | sendInLoop message =>
              refine h.run functors
                (fun c hw ho hc => hw.follows_sendInLoop ho hc message outcome before) ?_
              intro hmem
              rw [hfunctors] at hmem
              exact .inl ((List.mem_cons.mp hmem).resolve_left LoopFunctor.noConfusion)
          | shutdownInLoop =>
              refine h.run functors (fun c hw ho hc => hw.follows_shutdownInLoop ho hc)
                fun _ => .inr fun c hw _ hc hnil => ?_
              -- The functor that was queued does the shutdown now.
              have hnil : c.shutdownInLoop.m_outputBuffer.readable = [] := hnil
              rw [(TcpConnection.shutdownInLoop_same c).2.2] at hnil
              exact (hw.isShutdown_shutdownInLoop hc).mpr hnil
  -- The other threads: a test, a store and a hand-over are steps of their own.
  | sendTest message =>
      rw [HalfClose.step]
      split
      · exact ⟨h.waits, h.isOpen, h.whole, h.closes⟩
      · exact h
  | sendHandOver i =>
      rw [HalfClose.step]
      split
      · exact h
      · refine ⟨h.waits, h.isOpen, h.whole, fun hstate hnil => ?_⟩
        rcases h.closes hstate hnil with hs | hqueued | hset
        · exact .inl hs
        · exact .inr (.inl (List.mem_append_left _ hqueued))
        · exact .inr (.inr hset)
  | shutdownTest =>
      rw [HalfClose.step]
      split
      · exact ⟨h.waits, h.isOpen, h.whole, h.closes⟩
      · exact h
  -- The state is set, and the functor of the shutdown is still to be queued.
  | shutdownSet =>
      rw [HalfClose.step]
      split
      · exact h
      · exact ⟨h.waits.congr rfl rfl, .inr rfl, h.whole, fun _ _ => .inr (.inr (Nat.succ_pos _))⟩
  | shutdownHandOver =>
      rw [HalfClose.step]
      split
      · exact h
      · refine ⟨h.waits, h.isOpen, h.whole, fun hstate hnil => ?_⟩
        exact .inr (.inl (List.mem_append_right _ (List.mem_singleton.mpr rfl)))

/-- In all states of a run of an established connection, write interest and half-close follow
the pending output. -/
theorem followsOutput_run (highWaterMark : UInt64) (writeComplete highWater : Bool)
    (events : List Event) :
    AllStates step FollowsOutput (established highWaterMark writeComplete highWater) events := by
  have hkeep : ∀ (s : HalfClose) (e : Event), s.Sound → True → (s.step e).Sound :=
    fun _ e hs _ => hs.step e
  have hall : AllStates step Sound (established highWaterMark writeComplete highWater) events :=
    allStates_of_stepsMeet hkeep (sound_established highWaterMark writeComplete highWater)
      stepsMeet_true
  -- What is observed follows from the invariant.
  exact hall.imp fun _ hs => hs.followsOutput

end HalfClose

end RegistrationCenter
