import Mathlib.Logic.Function.Basic

/-!
# `RegistrationCenter.Spec.Tcp.EpollPoller`: channels and the epoll set

`src/tcp/Channel.h`, `src/tcp/Channel.cpp`, `src/tcp/EpollPoller.h` and
`src/tcp/EpollPoller.cpp`: the interest of a channel, and how each change of it is carried to
the kernel. The kernel's side is the epoll set. `epoll_ctl` fails when it shall add an fd that
is there, or change or delete one that is not; no other failure is modelled.
-/

set_option autoImplicit false

namespace RegistrationCenter

/-- The mask `m_events`: the bits of `kReadEvent` and of `kWriteEvent`. -/
structure Events where
  reading : Bool
  writing : Bool
  deriving DecidableEq

def Events.kNoneEvent : Events := { reading := false, writing := false }

/-- `m_index`: where a channel stands with its poller. -/
inductive ChannelIndex
  | kNew
  | kAdded
  | kDeleted
  deriving DecidableEq

/-- A channel. `self` is its address. -/
structure Channel where
  self : Nat
  m_fd : Nat
  m_events : Events
  m_index : ChannelIndex
  deriving DecidableEq

inductive EpollOperation
  | EPOLL_CTL_ADD
  | EPOLL_CTL_MOD
  | EPOLL_CTL_DEL
  deriving DecidableEq

structure EpollPoller where
  /-- The channels by their fds. -/
  m_channels : Nat → Option Nat
  /-- The epoll set of the kernel: the mask and the channel for each fd. -/
  epollSet : Nat → Option (Events × Nat)
  /-- `LOG_FATAL` has ended the process. -/
  fatal : Bool

/-- `::epoll_ctl` on the set: the set after it, or a failure. -/
def epollCtl (epollSet : Nat → Option (Events × Nat)) (operation : EpollOperation) (fd : Nat)
    (ev : Events × Nat) : Option (Nat → Option (Events × Nat)) :=
  match operation with
  | .EPOLL_CTL_ADD =>
      if (epollSet fd).isSome then none else some (Function.update epollSet fd (some ev))
  | .EPOLL_CTL_MOD =>
      if (epollSet fd).isSome then some (Function.update epollSet fd (some ev)) else none
  | .EPOLL_CTL_DEL =>
      if (epollSet fd).isSome then some (Function.update epollSet fd none) else none

namespace EpollPoller

/-- A poller with no channel. -/
def new : EpollPoller :=
  { m_channels := fun _ => none, epollSet := fun _ => none, fatal := false }

def update (p : EpollPoller) (operation : EpollOperation) (channel : Channel) : EpollPoller :=
  match epollCtl p.epollSet operation channel.m_fd (channel.m_events, channel.self) with
  | some epollSet => { p with epollSet := epollSet }
  | none =>
      -- A failed delete is logged; a failed add or change ends the process.
      if operation = .EPOLL_CTL_DEL then p else { p with fatal := true }

def updateChannel (p : EpollPoller) (channel : Channel) : EpollPoller × Channel :=
  if channel.m_index = .kNew ∨ channel.m_index = .kDeleted then
    let p₁ :=
      if channel.m_index = .kNew then
        { p with
            m_channels := Function.update p.m_channels channel.m_fd (some channel.self) }
      else p
    let channel' := { channel with m_index := .kAdded }
    (p₁.update .EPOLL_CTL_ADD channel', channel')
  else if channel.m_events = .kNoneEvent then
    (p.update .EPOLL_CTL_DEL channel, { channel with m_index := .kDeleted })
  else (p.update .EPOLL_CTL_MOD channel, channel)

def removeChannel (p : EpollPoller) (channel : Channel) : EpollPoller × Channel :=
  let p₁ := { p with m_channels := Function.update p.m_channels channel.m_fd none }
  let p₂ := if channel.m_index = .kAdded then p₁.update .EPOLL_CTL_DEL channel else p₁
  (p₂, { channel with m_index := .kNew })

end EpollPoller

namespace Channel

/-- The constructor. -/
def new (self fd : Nat) : Channel :=
  { self := self, m_fd := fd, m_events := .kNoneEvent, m_index := .kNew }

def enableReading (channel : Channel) (p : EpollPoller) : EpollPoller × Channel :=
  p.updateChannel { channel with m_events := { channel.m_events with reading := true } }

def disableReading (channel : Channel) (p : EpollPoller) : EpollPoller × Channel :=
  p.updateChannel { channel with m_events := { channel.m_events with reading := false } }

def enableWriting (channel : Channel) (p : EpollPoller) : EpollPoller × Channel :=
  p.updateChannel { channel with m_events := { channel.m_events with writing := true } }

def disableWriting (channel : Channel) (p : EpollPoller) : EpollPoller × Channel :=
  p.updateChannel { channel with m_events := { channel.m_events with writing := false } }

def disableAll (channel : Channel) (p : EpollPoller) : EpollPoller × Channel :=
  p.updateChannel { channel with m_events := .kNoneEvent }

def remove (channel : Channel) (p : EpollPoller) : EpollPoller × Channel :=
  p.removeChannel channel

/-- The poller knows the channel: by its map, or by the epoll set. -/
def registered (channel : Channel) (p : EpollPoller) : Bool :=
  (p.m_channels channel.m_fd).isSome || (p.epollSet channel.m_fd).isSome

end Channel

end RegistrationCenter
