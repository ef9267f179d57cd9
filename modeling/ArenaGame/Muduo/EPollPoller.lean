import ArenaGame.Util.Machine
import ArenaGame.Util.UnorderedMap
import Mathlib.Data.Finset.Basic

/-!
# Channels and their poller (`muduo/Channel.h`, `muduo/Channel.cc`, `muduo/EPollPoller.cc`)

A set of events is the set of its flags.  A channel is known by its address, which is of any type
`P`; the poller keeps the address under the descriptor, and the kernel keeps it in `data.ptr`.

`epollfd_` stands for the interest list that the kernel keeps for the `epoll` instance.  A call of
`epoll_ctl` that fails is put out: after the failure of an `ADD` or a `MOD` the process ends.
-/

namespace ArenaGame

inductive EpollFlag
  | EPOLLIN
  | EPOLLPRI
  | EPOLLOUT
  | EPOLLERR
  | EPOLLHUP
deriving DecidableEq

abbrev EpollEvents := Finset EpollFlag

/-- `kNew`, `kAdded` and `kDeleted` of the poller. -/
inductive ChannelIndex
  | kNew
  | kAdded
  | kDeleted
deriving DecidableEq

structure Channel where
  fd_ : ℕ
  events_ : EpollEvents := ∅
  index_ : ChannelIndex := .kNew
deriving DecidableEq

namespace Channel

def kNoneEvent : EpollEvents := ∅

def kReadEvent : EpollEvents := {.EPOLLIN, .EPOLLPRI}

def kWriteEvent : EpollEvents := {.EPOLLOUT}

variable (channel : Channel)

def isNoneEvent : Bool := channel.events_ = kNoneEvent

/-- What the calls do to `events_`; each is followed by `update`. -/
def enableReading : Channel := { channel with events_ := channel.events_ ∪ kReadEvent }

def disableReading : Channel := { channel with events_ := channel.events_ \ kReadEvent }

def enableWriting : Channel := { channel with events_ := channel.events_ ∪ kWriteEvent }

def disableWriting : Channel := { channel with events_ := channel.events_ \ kWriteEvent }

def disableAll : Channel := { channel with events_ := kNoneEvent }

/-- The callbacks that `handleEventWithGuard` makes, in its order. -/
inductive Callback
  | closeCallback_
  | errorCallback_
  | readCallback_
  | writeCallback_
deriving DecidableEq

def handleEventWithGuard (revents : EpollEvents) : List Callback :=
  (if .EPOLLHUP ∈ revents ∧ .EPOLLIN ∉ revents then [.closeCallback_] else []) ++
    (if .EPOLLERR ∈ revents then [.errorCallback_] else []) ++
    (if .EPOLLIN ∈ revents ∨ .EPOLLPRI ∈ revents then [.readCallback_] else []) ++
    if .EPOLLOUT ∈ revents then [.writeCallback_] else []

end Channel

/-! ### The kernel -/

inductive EpollOp
  | EPOLL_CTL_ADD
  | EPOLL_CTL_MOD
  | EPOLL_CTL_DEL
deriving DecidableEq

/-- The descriptors of an `epoll` instance, each with its events and its `data.ptr`. -/
abbrev InterestList (P : Type) := UnorderedMap ℕ (EpollEvents × P)

/-- `epoll_ctl`.  It fails with `EEXIST` for a descriptor that is there already, and with `ENOENT`
for one that is not. -/
def epollCtl {P : Type} (epollfd : InterestList P) (operation : EpollOp) (fd : ℕ)
    (event : EpollEvents × P) : Option (InterestList P) :=
  match operation with
  | .EPOLL_CTL_ADD => if epollfd.lookup fd = none then some (epollfd.insert fd event) else none
  | .EPOLL_CTL_MOD => if epollfd.lookup fd = none then none else some (epollfd.insert fd event)
  | .EPOLL_CTL_DEL => if epollfd.lookup fd = none then none else some (epollfd.erase fd)

/-- What `epoll_wait` writes for the descriptors that are ready: their events and their `data.ptr`. -/
def epollWait {P : Type} (epollfd : InterestList P) (ready : List (ℕ × EpollEvents)) :
    List (EpollEvents × P) :=
  ready.filterMap fun (fd, revents) => (epollfd.lookup fd).map fun entry => (revents, entry.2)

/-- The kernel may report of a descriptor what it is watched for, and errors and hang-ups. -/
def Reportable {P : Type} (epollfd : InterestList P) (fd : ℕ) (revents : EpollEvents) : Prop :=
  match epollfd.lookup fd with
  | none => False
  | some entry => revents ≠ ∅ ∧ revents ⊆ entry.1 ∪ {.EPOLLERR, .EPOLLHUP}

instance {P : Type} (epollfd : InterestList P) (fd : ℕ) (revents : EpollEvents) :
    Decidable (Reportable epollfd fd revents) := by
  unfold Reportable
  split <;> infer_instance

/-! ### The poller -/

inductive PollerEvent
  | epollCtlFailed (operation : EpollOp) (fd : ℕ)
deriving DecidableEq

structure EPollPoller (P : Type) where
  channels_ : UnorderedMap ℕ P := ∅
  epollfd_ : InterestList P := ∅
  /-- `events_.size()`, at first `kInitEventListSize`. -/
  events_ : ℕ := 16

namespace EPollPoller

variable {P : Type} (poller : EPollPoller P) (ptr : P) (channel : Channel)

def update (operation : EpollOp) : EPollPoller P × List PollerEvent :=
  match epollCtl poller.epollfd_ operation channel.fd_ (channel.events_, ptr) with
  | some epollfd => ({ poller with epollfd_ := epollfd }, [])
  | none => (poller, [.epollCtlFailed operation channel.fd_])

/-- `updateChannel`, with the `index_` that it gives the channel. -/
def updateChannel : EPollPoller P × ChannelIndex × List PollerEvent :=
  match channel.index_ with
  | .kNew =>
    let poller := { poller with channels_ := poller.channels_.insert channel.fd_ ptr }
    let (poller, events) := poller.update ptr channel .EPOLL_CTL_ADD
    (poller, .kAdded, events)
  | .kDeleted =>
    let (poller, events) := poller.update ptr channel .EPOLL_CTL_ADD
    (poller, .kAdded, events)
  | .kAdded =>
    if channel.isNoneEvent then
      let (poller, events) := poller.update ptr channel .EPOLL_CTL_DEL
      (poller, .kDeleted, events)
    else
      let (poller, events) := poller.update ptr channel .EPOLL_CTL_MOD
      (poller, .kAdded, events)

/-- `removeChannel`; afterwards the channel has the index `kNew`. -/
def removeChannel : EPollPoller P × List PollerEvent :=
  let poller := { poller with channels_ := poller.channels_.erase channel.fd_ }
  if channel.index_ = .kAdded then poller.update ptr channel .EPOLL_CTL_DEL else (poller, [])

def hasChannel [DecidableEq P] : Bool := poller.channels_.lookup channel.fd_ = some ptr

/-- `poll`; `ready` are the descriptors that the kernel reports.  The active channels are returned,
with their `revents_`. -/
def poll (ready : List (ℕ × EpollEvents)) : EPollPoller P × List (P × EpollEvents) :=
  let events := epollWait poller.epollfd_ ready
  ({ poller with
      events_ := if events.length = poller.events_ then poller.events_ * 2 else poller.events_ },
    events.map fun event => (event.2, event.1))

/-- `epoll_wait` has room for `events_` reports; each is about another descriptor. -/
def Ready (ready : List (ℕ × EpollEvents)) : Prop :=
  ready.length ≤ poller.events_ ∧ (ready.map Prod.fst).Nodup ∧
    ∀ report ∈ ready, Reportable poller.epollfd_ report.1 report.2

instance (ready : List (ℕ × EpollEvents)) : Decidable (poller.Ready ready) := by
  unfold Ready
  infer_instance

/-- The kernel forgets a descriptor when it is closed. -/
def close (fd : ℕ) : EPollPoller P := { poller with epollfd_ := poller.epollfd_.erase fd }

end EPollPoller

/-! ### A poller with its channels -/

/-- The living channels of a loop, with their poller. -/
structure PolledChannels (P : Type) where
  poller : EPollPoller P := {}
  channels : UnorderedMap P Channel := ∅

inductive ChannelCall
  | enableReading
  | disableReading
  | enableWriting
  | disableWriting
  | disableAll
deriving DecidableEq

def ChannelCall.apply (channel : Channel) : ChannelCall → Channel
  | enableReading => channel.enableReading
  | disableReading => channel.disableReading
  | enableWriting => channel.enableWriting
  | disableWriting => channel.disableWriting
  | disableAll => channel.disableAll

inductive ChannelInput (P : Type)
  | create (ptr : P) (fd : ℕ)
  | call (ptr : P) (call : ChannelCall)
  | remove (ptr : P)
  /-- The channel is destroyed and its descriptor closed. -/
  | destroy (ptr : P)
  | poll (ready : List (ℕ × EpollEvents))
deriving DecidableEq

inductive ChannelOutput (P : Type)
  | poller (event : PollerEvent)
  | active (ptr : P) (revents : EpollEvents)
deriving DecidableEq

namespace PolledChannels

variable {P : Type} [DecidableEq P] (s : PolledChannels P)

def step : ChannelInput P → PolledChannels P × List (ChannelOutput P)
  | .create ptr fd => ({ s with channels := s.channels.insert ptr { fd_ := fd } }, [])
  | .call ptr call =>
    match s.channels.lookup ptr with
    | none => (s, [])
    | some channel =>
      let channel := call.apply channel
      let (poller, index, events) := s.poller.updateChannel ptr channel
      ({ poller := poller, channels := s.channels.insert ptr { channel with index_ := index } },
        events.map .poller)
  | .remove ptr =>
    match s.channels.lookup ptr with
    | none => (s, [])
    | some channel =>
      let (poller, events) := s.poller.removeChannel ptr channel
      ({ poller := poller, channels := s.channels.insert ptr { channel with index_ := .kNew } },
        events.map .poller)
  | .destroy ptr =>
    match s.channels.lookup ptr with
    | none => (s, [])
    | some channel =>
      ({ poller := s.poller.close channel.fd_, channels := s.channels.erase ptr }, [])
  | .poll ready =>
    let (poller, active) := s.poller.poll ready
    ({ s with poller := poller }, active.map fun channel => .active channel.1 channel.2)

/-- A new descriptor is not in use; a channel is removed before it is destroyed. -/
def Possible : ChannelInput P → Prop
  | .create ptr fd =>
    s.channels.lookup ptr = none ∧ ∀ channel ∈ UnorderedMap.values s.channels, channel.fd_ ≠ fd
  | .call ptr _ => ptr ∈ s.channels
  | .remove ptr => ptr ∈ s.channels
  | .destroy ptr => (s.channels.lookup ptr).map Channel.index_ = some .kNew
  | .poll ready => s.poller.Ready ready

instance (input : ChannelInput P) : Decidable (s.Possible input) := by
  cases input <;> unfold Possible <;> infer_instance

def machine (P : Type) [DecidableEq P] :
    Machine (PolledChannels P) (ChannelInput P) (ChannelOutput P) where
  step s input := s.step input
  Enabled s input := s.Possible input

instance (input : ChannelInput P) : Decidable ((machine P).Enabled s input) :=
  inferInstanceAs (Decidable (s.Possible input))

end PolledChannels

end ArenaGame
