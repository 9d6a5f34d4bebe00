import RegistrationCenter.Lib.Runs
import RegistrationCenter.Spec.Tcp.EpollPoller

/-!
# `RegistrationCenter.Proofs.Tcp.Channels`: the channels of a poller

The kernel's epoll set, the map of the poller and the index of each channel have one thing to
say. `call_spec` says what a call on a channel does to them when they agree, and the rest of the
module follows from it. The channels are any family of them, with a fd for each.

`issuesProperly` says that they agree for good: no operation of `epoll_ctl` is issued that could
fail. `asInterest_iff` says when the epoll set has what the channel is interested in: a channel
that is not in the set is added to it at each call, also at one that leaves no interest.
-/

set_option autoImplicit false

namespace RegistrationCenter

open Lib

/-! ## The index and the epoll set -/

/-- The index of the channel says whether the epoll set has its fd. -/
def Channel.Indexed (channel : Channel) (p : EpollPoller) : Prop :=
  channel.m_index = .kAdded ↔ (p.epollSet channel.m_fd).isSome

namespace EpollPoller

variable {p : EpollPoller} {channel : Channel}

theorem update_add (habsent : p.epollSet channel.m_fd = none) :
    p.update .EPOLL_CTL_ADD channel =
      { p with
          epollSet :=
            Function.update p.epollSet channel.m_fd (some (channel.m_events, channel.self)) } := by
  simp [update, epollCtl, habsent]

theorem update_mod (hpresent : (p.epollSet channel.m_fd).isSome) :
    p.update .EPOLL_CTL_MOD channel =
      { p with
          epollSet :=
            Function.update p.epollSet channel.m_fd (some (channel.m_events, channel.self)) } := by
  simp [update, epollCtl, hpresent]

theorem update_del (hpresent : (p.epollSet channel.m_fd).isSome) :
    p.update .EPOLL_CTL_DEL channel =
      { p with
          epollSet := Function.update p.epollSet channel.m_fd none } := by
  simp [update, epollCtl, hpresent]

end EpollPoller

namespace Channel

variable {channel : Channel} {p : EpollPoller}

theorem Indexed.absent (h : channel.Indexed p) (hindex : channel.m_index ≠ .kAdded) :
    p.epollSet channel.m_fd = none := by
  rw [← Option.not_isSome_iff_eq_none]
  exact fun hsome => hindex (h.mpr hsome)

/-- The index after a change of the interest. -/
def updatedIndex (channel : Channel) : ChannelIndex :=
  if channel.m_index = .kAdded ∧ channel.m_events = .kNoneEvent then .kDeleted else .kAdded

/-- What `updateChannel` does: the channel gets into the epoll set, unless it was there and has
no interest left. -/
theorem Indexed.updateChannel_eq (h : channel.Indexed p) : p.updateChannel channel =
    ({ p with
        m_channels := if channel.m_index = .kNew then
            Function.update p.m_channels channel.m_fd (some channel.self)
          else p.m_channels
        epollSet := Function.update p.epollSet channel.m_fd
          (if channel.updatedIndex = .kAdded then some (channel.m_events, channel.self)
            else none) },
      { channel with m_index := channel.updatedIndex }) := by
  by_cases hindex : channel.m_index = .kAdded
  -- In the set: the channel is changed or taken out.
  · have hpresent := h.mp hindex
    have hnotNew : ¬ (channel.m_index = .kNew ∨ channel.m_index = .kDeleted) := by
      rw [hindex]
      decide
    rw [EpollPoller.updateChannel, if_neg hnotNew, if_neg (not_or.mp hnotNew).1]
    by_cases hnone : channel.m_events = .kNoneEvent
    · have hupdated : channel.updatedIndex = .kDeleted := if_pos ⟨hindex, hnone⟩
      rw [if_pos hnone, EpollPoller.update_del hpresent, hupdated]
      rfl
    · have hupdated : channel.updatedIndex = channel.m_index := by
        rw [hindex]
        exact if_neg fun hboth => hnone hboth.2
      rw [if_neg hnone, EpollPoller.update_mod hpresent, hupdated, if_pos hindex]
  -- Not in the set: the channel is added, whatever its interest.
  · have habsent := h.absent hindex
    have hnotAdded : channel.m_index = .kNew ∨ channel.m_index = .kDeleted := by
      cases hkind : channel.m_index with
      | kNew => exact .inl rfl
      | kAdded => exact absurd hkind hindex
      | kDeleted => exact .inr rfl
    have hupdated : channel.updatedIndex = .kAdded := if_neg fun hboth => hindex hboth.1
    rw [EpollPoller.updateChannel, if_pos hnotAdded, hupdated, if_pos rfl]
    let channel' := { channel with m_index := .kAdded }
    have hadd : ∀ m_channels, { p with m_channels := m_channels }.update .EPOLL_CTL_ADD channel' =
        { p with
            m_channels := m_channels
            epollSet :=
              Function.update p.epollSet channel.m_fd (some (channel.m_events, channel.self)) } :=
      fun _ => EpollPoller.update_add habsent
    by_cases hnew : channel.m_index = .kNew
    · rw [if_pos hnew, if_pos hnew]
      exact congrArg (fun p' => (p', channel')) (hadd _)
    · rw [if_neg hnew, if_neg hnew]
      exact congrArg (fun p' => (p', channel')) (hadd _)

/-- What `remove` does. -/
theorem Indexed.remove_eq (h : channel.Indexed p) : channel.remove p =
    ({ p with
        m_channels := Function.update p.m_channels channel.m_fd none
        epollSet := Function.update p.epollSet channel.m_fd none },
      { channel with m_index := .kNew }) := by
  let p₁ := { p with m_channels := Function.update p.m_channels channel.m_fd none }
  show ((if channel.m_index = .kAdded then p₁.update .EPOLL_CTL_DEL channel else p₁),
    { channel with m_index := .kNew }) = _
  by_cases hindex : channel.m_index = .kAdded
  · have hpresent : (p₁.epollSet channel.m_fd).isSome := h.mp hindex
    rw [if_pos hindex, EpollPoller.update_del hpresent]
  · have hsame : Function.update p.epollSet channel.m_fd none = p.epollSet := by
      rw [← h.absent hindex, Function.update_eq_self]
    rw [if_neg hindex, hsame]

/-- A change of the interest keeps the index in step with the epoll set. -/
theorem Indexed.updateChannel (h : channel.Indexed p) :
    (p.updateChannel channel).2.Indexed (p.updateChannel channel).1 := by
  rw [h.updateChannel_eq, Indexed]
  show channel.updatedIndex = .kAdded ↔ (Function.update p.epollSet channel.m_fd _ _).isSome
  rw [Function.update_self]
  split
  case isTrue hadded => exact iff_of_true hadded rfl
  case isFalse hdeleted => exact iff_of_false hdeleted Bool.false_ne_true

/-- `remove` takes the channel out of the poller. -/
theorem Indexed.remove (h : channel.Indexed p) :
    (channel.remove p).2.Indexed (channel.remove p).1 ∧
      (channel.remove p).2.registered (channel.remove p).1 = false := by
  rw [h.remove_eq]
  constructor
  · show ChannelIndex.kNew = .kAdded ↔ (Function.update p.epollSet channel.m_fd none _).isSome
    rw [Function.update_self]
    exact iff_of_false (fun h => ChannelIndex.noConfusion h) Bool.false_ne_true
  · show ((Function.update p.m_channels channel.m_fd none _).isSome ||
      (Function.update p.epollSet channel.m_fd none _).isSome) = false
    rw [Function.update_self, Function.update_self]
    rfl

end Channel

/-! ## Calls on a channel -/

/-- The calls that change what a channel is interested in, and the one that gives it up. -/
inductive ChannelCall
  | enableReading
  | disableReading
  | enableWriting
  | disableWriting
  | disableAll
  | remove
  deriving DecidableEq

/-- The interest that a call leaves. -/
def ChannelCall.events : ChannelCall → Events → Events
  | .enableReading, e => { e with reading := true }
  | .disableReading, e => { e with reading := false }
  | .enableWriting, e => { e with writing := true }
  | .disableWriting, e => { e with writing := false }
  | .disableAll, _ => .kNoneEvent
  | .remove, e => e

/-- An operation that `epoll_ctl` carries out. -/
def EpollOperation.Proper (epollSet : Nat → Option (Events × Nat)) (fd : Nat) :
    EpollOperation → Prop
  | .EPOLL_CTL_ADD => epollSet fd = none
  | .EPOLL_CTL_MOD => (epollSet fd).isSome
  | .EPOLL_CTL_DEL => (epollSet fd).isSome

namespace Channel

variable {channel : Channel} {p : EpollPoller}

def call (channel : Channel) (p : EpollPoller) : ChannelCall → EpollPoller × Channel
  | .enableReading => channel.enableReading p
  | .disableReading => channel.disableReading p
  | .enableWriting => channel.enableWriting p
  | .disableWriting => channel.disableWriting p
  | .disableAll => channel.disableAll p
  | .remove => channel.remove p

/-- The operation that a call issues, if any. -/
def operation (channel : Channel) (call : ChannelCall) : Option EpollOperation :=
  if channel.m_index ≠ .kAdded then
    if call = .remove then none else some .EPOLL_CTL_ADD
  else if call = .remove ∨ call.events channel.m_events = .kNoneEvent then some .EPOLL_CTL_DEL
  else some .EPOLL_CTL_MOD

/-- The index after a call. -/
def nextIndex (channel : Channel) (call : ChannelCall) : ChannelIndex :=
  if call = .remove then .kNew
  else { channel with m_events := call.events channel.m_events }.updatedIndex

/-- All calls but `remove` go to `updateChannel`. -/
theorem call_of_ne {call : ChannelCall} (hcall : call ≠ .remove) : channel.call p call =
    p.updateChannel { channel with m_events := call.events channel.m_events } := by
  cases call with
  | enableReading => rfl
  | disableReading => rfl
  | enableWriting => rfl
  | disableWriting => rfl
  | disableAll => rfl
  | remove => exact absurd rfl hcall

/-- The call changes the map of the poller first, if at all, and then hands its operation to
`update`. -/
def HandsOver (channel : Channel) (p : EpollPoller) (call : ChannelCall) : Prop :=
  ∃ m_channels, (channel.call p call).1 = match channel.operation call with
    | none => { p with m_channels := m_channels }
    | some operation => { p with m_channels := m_channels }.update operation
        { channel with m_events := call.events channel.m_events }

theorem handsOver (channel : Channel) (p : EpollPoller) (call : ChannelCall) :
    channel.HandsOver p call := by
  by_cases hcall : call = .remove
  · subst hcall
    refine ⟨Function.update p.m_channels channel.m_fd none, ?_⟩
    cases hindex : channel.m_index with
    | kAdded => simp [Channel.call, remove, EpollPoller.removeChannel, operation, hindex]; rfl
    | kNew => simp [Channel.call, remove, EpollPoller.removeChannel, operation, hindex]
    | kDeleted => simp [Channel.call, remove, EpollPoller.removeChannel, operation, hindex]
  · rw [HandsOver, call_of_ne hcall]
    cases hindex : channel.m_index with
    | kNew =>
        refine ⟨Function.update p.m_channels channel.m_fd (some channel.self), ?_⟩
        simp [EpollPoller.updateChannel, operation, hindex, hcall]
        rfl
    | kDeleted =>
        refine ⟨p.m_channels, ?_⟩
        simp [EpollPoller.updateChannel, operation, hindex, hcall]
        rfl
    | kAdded =>
        refine ⟨p.m_channels, ?_⟩
        by_cases hnone : call.events channel.m_events = .kNoneEvent
        · simp [EpollPoller.updateChannel, operation, hindex, hcall, hnone]
        · simp [EpollPoller.updateChannel, operation, hindex, hcall, hnone]

/-- What a call does to a channel that the epoll set has as its index says. -/
theorem Indexed.call_eq (h : channel.Indexed p) (call : ChannelCall) : channel.call p call =
    ({ p with
        m_channels := if call = .remove then Function.update p.m_channels channel.m_fd none
          else if channel.m_index = .kNew then
            Function.update p.m_channels channel.m_fd (some channel.self)
          else p.m_channels
        epollSet := Function.update p.epollSet channel.m_fd
          (if channel.nextIndex call = .kAdded then
            some (call.events channel.m_events, channel.self)
          else none) },
      { channel with
          m_events := call.events channel.m_events, m_index := channel.nextIndex call }) := by
  by_cases hcall : call = .remove
  · subst hcall
    have hnext : channel.nextIndex .remove = .kNew := if_pos rfl
    rw [if_pos rfl, hnext]
    exact h.remove_eq
  · have hindexed : { channel with m_events := call.events channel.m_events }.Indexed p := h
    rw [call_of_ne hcall, if_neg hcall, hindexed.updateChannel_eq, nextIndex, if_neg hcall]

/-- The operation that a call issues is one that `epoll_ctl` carries out. -/
theorem Indexed.proper (h : channel.Indexed p) {call : ChannelCall} {operation : EpollOperation}
    (hissued : channel.operation call = some operation) :
    operation.Proper p.epollSet channel.m_fd := by
  unfold Channel.operation at hissued
  split at hissued
  case isTrue hindex =>
    split at hissued
    · cases hissued
    · obtain rfl := Option.some.inj hissued
      exact h.absent hindex
  case isFalse hindex =>
    have hpresent := h.mp (not_not.mp hindex)
    split at hissued
    · obtain rfl := Option.some.inj hissued
      exact hpresent
    · obtain rfl := Option.some.inj hissued
      exact hpresent

end Channel

/-! ## The channels of a poller -/

/-- A poller and its channels. -/
structure Channels (ι : Type*) where
  poller : EpollPoller
  channel : ι → Channel

namespace Channels

variable {ι : Type*} {address fd : ι → Nat} {s : Channels ι}

/-- New channels on these fds. -/
def init (address fd : ι → Nat) : Channels ι :=
  { poller := .new, channel := fun i => .new (address i) (fd i) }

/-- A call on one of the channels. -/
def step [DecidableEq ι] (s : Channels ι) (e : ι × ChannelCall) : Channels ι :=
  let (poller, channel) := (s.channel e.1).call s.poller e.2
  { poller := poller, channel := Function.update s.channel e.1 channel }

/-- The invariant of a run. -/
structure Sound (address fd : ι → Nat) (s : Channels ι) : Prop where
  fds : ∀ i, (s.channel i).m_fd = fd i
  selves : ∀ i, (s.channel i).self = address i
  indexed : ∀ i, (s.channel i).Indexed s.poller
  /-- A channel stays in the map of the poller until it is removed. -/
  mapped : ∀ i, (s.channel i).m_index ≠ .kNew → s.poller.m_channels (fd i) = some (address i)
  running : s.poller.fatal = false

theorem sound_init (address fd : ι → Nat) : (init address fd).Sound address fd where
  fds _ := rfl
  selves _ := rfl
  indexed _ := iff_of_false (fun h => ChannelIndex.noConfusion h) Bool.false_ne_true
  mapped _ h := absurd rfl h
  running := rfl

/-- A call on a channel leaves the others and their fds alone. -/
theorem Sound.step [DecidableEq ι] (hfd : Function.Injective fd) (s : Channels ι)
    (e : ι × ChannelCall) (h : s.Sound address fd) : (s.step e).Sound address fd := by
  obtain ⟨i, call⟩ := e
  have hcall := (h.indexed i).call_eq call
  have hchannel : (s.step (i, call)).channel = Function.update s.channel i
      { s.channel i with
          m_events := call.events (s.channel i).m_events
          m_index := (s.channel i).nextIndex call } :=
    congrArg (fun r : EpollPoller × Channel => Function.update s.channel i r.2) hcall
  have hpoller : (s.step (i, call)).poller = _ := congrArg Prod.fst hcall
  rw [h.fds, h.selves] at hpoller
  -- No call changes what a channel is.
  have hsame : ∀ j, ((s.step (i, call)).channel j).m_fd = (s.channel j).m_fd ∧
      ((s.step (i, call)).channel j).self = (s.channel j).self := by
    intro j
    rw [hchannel]
    by_cases hji : j = i
    · subst hji
      rw [Function.update_self]
      exact ⟨rfl, rfl⟩
    · rw [Function.update_of_ne hji]
      exact ⟨rfl, rfl⟩
  refine ⟨fun j => (hsame j).1.trans (h.fds j), fun j => (hsame j).2.trans (h.selves j),
    fun j => ?_, fun j hj => ?_, ?_⟩
  · rw [Channel.Indexed, hchannel, hpoller]
    by_cases hji : j = i
    · subst hji
      rw [Function.update_self]
      show _ ↔ (Function.update s.poller.epollSet (fd j) _ (s.channel j).m_fd).isSome
      rw [h.fds, Function.update_self]
      show (s.channel j).nextIndex call = .kAdded ↔ _
      split
      case isTrue hadded => exact iff_of_true hadded rfl
      case isFalse hdeleted => exact iff_of_false hdeleted Bool.false_ne_true
    · rw [Function.update_of_ne hji]
      show _ ↔ (Function.update s.poller.epollSet (fd i) _ (s.channel j).m_fd).isSome
      have hindexed := h.indexed j
      rw [Channel.Indexed, h.fds] at hindexed
      rw [h.fds, Function.update_of_ne (hfd.ne hji)]
      exact hindexed
  · rw [hchannel] at hj
    rw [hpoller]
    by_cases hji : j = i
    · subst hji
      rw [Function.update_self] at hj
      -- The call was not `remove`, and a new channel has been put into the map.
      have hcall : call ≠ .remove := by
        rintro rfl
        have hnew : (s.channel j).nextIndex .remove = .kNew := if_pos rfl
        exact hj hnew
      show (if call = .remove then _ else _ : Nat → Option Nat) (fd j) = some (address j)
      rw [if_neg hcall]
      split
      · exact Function.update_self ..
      case isFalse hold => exact h.mapped j hold
    · rw [Function.update_of_ne hji] at hj
      show (if call = .remove then _ else _ : Nat → Option Nat) (fd j) = some (address j)
      split
      · rw [Function.update_of_ne (hfd.ne hji)]
        exact h.mapped j hj
      · split
        · rw [Function.update_of_ne (hfd.ne hji)]
          exact h.mapped j hj
        · exact h.mapped j hj
  · rw [hpoller]
    exact h.running

/-! ### The operations that are issued -/

/-- The channels that the epoll set has are those whose index says so, and the poller has them in
its map. -/
def Agrees (address fd : ι → Nat) (s : Channels ι) : Prop :=
  ∀ i, ((s.channel i).m_index = .kAdded ↔ (s.poller.epollSet (fd i)).isSome) ∧
    ((s.channel i).m_index = .kAdded → s.poller.m_channels (fd i) = some (address i))

/-- What a call issues is its operation, if it has one, and that can be carried out. -/
def IssuesProperly (fd : ι → Nat) (s : Channels ι) (e : ι × ChannelCall) : Prop :=
  (s.channel e.1).HandsOver s.poller e.2 ∧
    ∀ operation, (s.channel e.1).operation e.2 = some operation →
      operation.Proper s.poller.epollSet (fd e.1)

theorem Sound.agrees (h : s.Sound address fd) : s.Agrees address fd := by
  intro i
  have hindexed := h.indexed i
  rw [Channel.Indexed, h.fds] at hindexed
  refine ⟨hindexed, fun hadded => h.mapped i ?_⟩
  rw [hadded]
  exact fun hnew => ChannelIndex.noConfusion hnew

theorem Sound.issues (h : s.Sound address fd) (e : ι × ChannelCall) :
    s.IssuesProperly fd e := by
  refine ⟨(s.channel e.1).handsOver s.poller e.2, fun operation hissued => ?_⟩
  rw [← h.fds e.1]
  exact (h.indexed e.1).proper hissued

/-- Channels on different fds: in every run the poller, the kernel and the indices agree, each call
hands its operation to `update` and that can be carried out, and none ends the process. -/
theorem issuesProperly [DecidableEq ι] (address fd : ι → Nat) (hfd : Function.Injective fd)
    (calls : List (ι × ChannelCall)) :
    AllStates step (Agrees address fd) (init address fd) calls ∧
      StepsMeet step (IssuesProperly fd) (init address fd) calls ∧
      AllStates step (fun s => s.poller.fatal = false) (init address fd) calls := by
  have hkeep : ∀ (s : Channels ι) e, s.Sound address fd → True → (s.step e).Sound address fd :=
    fun s e h _ => h.step hfd s e
  have hall : StepsMeet step (fun _ _ => True) (init address fd) calls := stepsMeet_true
  have hsound := allStates_of_stepsMeet hkeep (sound_init address fd) hall
  exact ⟨hsound.imp fun _ h => h.agrees,
    hall.imp hkeep (fun _ e h _ => h.issues e) (sound_init address fd),
    hsound.imp fun _ h => h.running⟩

/-- Two channels that take turns. -/
theorem issuesProperly_twoChannels :
    let calls : List (Bool × ChannelCall) :=
      [(true, .enableReading), (false, .enableReading), (true, .disableAll), (true, .disableAll),
        (false, .remove), (true, .remove)]
    let address : Bool → Nat := fun b => cond b 1000 2000
    let fd : Bool → Nat := fun b => cond b 7 8
    AllStates step (Agrees address fd) (init address fd) calls ∧
      StepsMeet step (IssuesProperly fd) (init address fd) calls ∧
      AllStates step (fun s => s.poller.fatal = false) (init address fd) calls :=
  issuesProperly _ _ (Bool.injective_iff.mpr (by decide)) _

/-! ### The interest in the epoll set -/

/-- The epoll set has what the channel is interested in, and nothing when it is not interested. -/
def AsInterest (channel : Channel) (p : EpollPoller) : Prop :=
  p.epollSet channel.m_fd =
    if channel.m_events = .kNoneEvent then none else some (channel.m_events, channel.self)

/-- After a call that changes the interest, the epoll set has it. -/
def LeavesInterest [DecidableEq ι] (s : Channels ι) (e : ι × ChannelCall) : Prop :=
  e.2 ≠ .remove → AsInterest ((s.step e).channel e.1) (s.step e).poller

/-- The call leaves an interest, or the channel is in the epoll set. -/
def InterestOrAdded (s : Channels ι) (e : ι × ChannelCall) : Prop :=
  e.2 ≠ .remove →
    e.2.events (s.channel e.1).m_events ≠ .kNoneEvent ∨ (s.channel e.1).m_index = .kAdded

/-- A second `disableAll` makes no difference to the epoll set. -/
def DisableAllOnce [DecidableEq ι] (s : Channels ι) (i : ι) : Prop :=
  ((s.step (i, .disableAll)).step (i, .disableAll)).poller.epollSet =
    (s.step (i, .disableAll)).poller.epollSet

theorem Sound.leaves_iff [DecidableEq ι] (h : s.Sound address fd) (e : ι × ChannelCall) :
    s.LeavesInterest e ↔ s.InterestOrAdded e := by
  obtain ⟨i, call⟩ := e
  refine imp_congr_right fun hcall => ?_
  have heq := (h.indexed i).call_eq call
  have hpoller : (s.step (i, call)).poller = _ := congrArg Prod.fst heq
  have hchannel : (s.step (i, call)).channel i = ((s.channel i).call s.poller call).2 :=
    Function.update_self ..
  rw [AsInterest, hchannel, hpoller, heq]
  show Function.update s.poller.epollSet (s.channel i).m_fd _ (s.channel i).m_fd = _ ↔ _
  rw [Function.update_self, Channel.nextIndex, if_neg hcall, Channel.updatedIndex]
  show (if (if (s.channel i).m_index = .kAdded ∧ call.events (s.channel i).m_events = .kNoneEvent
      then ChannelIndex.kDeleted else .kAdded) = .kAdded then
        some (call.events (s.channel i).m_events, (s.channel i).self) else none) =
    (if call.events (s.channel i).m_events = .kNoneEvent then none
      else some (call.events (s.channel i).m_events, (s.channel i).self)) ↔
    call.events (s.channel i).m_events ≠ .kNoneEvent ∨ (s.channel i).m_index = .kAdded
  by_cases hnone : call.events (s.channel i).m_events = .kNoneEvent
  · by_cases hindex : (s.channel i).m_index = .kAdded
    · simp [hnone, hindex]
    -- The channel is added without an interest.
    · simp [hnone, hindex]
  · simp [hnone]

theorem Sound.not_disableAllOnce [DecidableEq ι] (hfd : Function.Injective fd)
    (h : s.Sound address fd) (i : ι) : ¬ s.DisableAllOnce i := by
  intro honce
  have h₁ := h.step hfd s (i, .disableAll)
  have h₂ := h₁.step hfd _ (i, .disableAll)
  -- The index of the channel has gone from in to out, or from out to in.
  have hindex : ∀ t : Channels ι, (t.channel i).Indexed t.poller →
      (((t.step (i, .disableAll)).channel i).m_index = .kAdded ↔
        (t.channel i).m_index ≠ .kAdded) := by
    intro t ht
    have hchannel : (t.step (i, .disableAll)).channel i =
        ((t.channel i).call t.poller .disableAll).2 := Function.update_self ..
    rw [hchannel, ht.call_eq]
    show (t.channel i).nextIndex .disableAll = .kAdded ↔ _
    rw [Channel.nextIndex, if_neg (by decide), Channel.updatedIndex]
    show (if (t.channel i).m_index = .kAdded ∧ Events.kNoneEvent = .kNoneEvent then
      ChannelIndex.kDeleted else .kAdded) = .kAdded ↔ _
    by_cases hadded : (t.channel i).m_index = .kAdded
    · simp [hadded]
    · simp [hadded]
  have hset := hindex _ (h₁.indexed i)
  rw [(h₂.agrees i).1, honce, ← (h₁.agrees i).1] at hset
  exact iff_not_self hset

/-- In every run, the epoll set has the interest of a channel after each call that changes it
exactly when no call on a channel that is not in the set leaves it without interest. A second
`disableAll` always makes a difference. -/
theorem leavesInterest_iff [DecidableEq ι] (address fd : ι → Nat) (hfd : Function.Injective fd)
    (calls : List (ι × ChannelCall)) :
    (StepsMeet step LeavesInterest (init address fd) calls ↔
        StepsMeet step InterestOrAdded (init address fd) calls) ∧
      AllStates step (fun s => ∀ i, ¬ s.DisableAllOnce i) (init address fd) calls := by
  have hkeep : ∀ (s : Channels ι) e, s.Sound address fd → (s.step e).Sound address fd :=
    fun s e h => h.step hfd s e
  have hstart := sound_init address fd
  refine ⟨⟨fun hmeet => ?_, fun hmeet => ?_⟩, ?_⟩
  · exact hmeet.imp (fun s e h _ => hkeep s e h)
      (fun s e h hleaves => (h.leaves_iff e).mp hleaves) hstart
  · exact hmeet.imp (fun s e h _ => hkeep s e h)
      (fun s e h hadded => (h.leaves_iff e).mpr hadded) hstart
  · have hall : StepsMeet step (fun _ _ => True) (init address fd) calls := stepsMeet_true
    exact (allStates_of_stepsMeet (fun s e h _ => hkeep s e h) hstart hall).imp
      fun s h i => h.not_disableAllOnce hfd i

/-- A channel that is used and given up as it should be. -/
theorem leavesInterest_iff_oneChannel :
    let calls : List (Unit × ChannelCall) :=
      [((), .enableReading), ((), .enableWriting), ((), .disableWriting), ((), .disableAll),
        ((), .remove)]
    (StepsMeet step LeavesInterest (init (fun _ => 1000) fun _ => 7) calls ↔
        StepsMeet step InterestOrAdded (init (fun _ => 1000) fun _ => 7) calls) ∧
      AllStates step (fun s => ∀ i, ¬ s.DisableAllOnce i)
        (init (fun _ => 1000) fun _ => 7) calls :=
  leavesInterest_iff _ _ (fun _ _ _ => rfl) _

/-- What `handleClose` and then `connectDestoryed` do to the channel of a connection: the second
`disableAll` puts it back into the epoll set. -/
theorem not_leavesInterest_closed :
    ¬ StepsMeet step LeavesInterest (init (fun _ => 1000) fun _ => 7)
      [((), .enableReading), ((), .disableAll), ((), .disableAll), ((), .remove)] := by
  intro h
  have hleaves := h.2.2.1 (by decide)
  have hset : (some (Events.kNoneEvent, 1000) : Option (Events × Nat)) = none := hleaves
  cases hset

end Channels

end RegistrationCenter
