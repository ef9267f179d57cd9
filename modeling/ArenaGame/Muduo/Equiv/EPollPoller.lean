import ArenaGame.Muduo.EPollPoller
import ArenaGame.Util.Tabulates

/-!
# The poller watches exactly the channels that say so

`EPollPoller.Watches` relates a poller to the channels of its loop: the interest list of the kernel
holds the channels with the index `kAdded`, each with its current events and its own address, and
`channels_` holds the ones that are not `kNew`.  Under it no call of `epoll_ctl` fails, although
`updateChannel` does not ask the kernel and adds even a channel that has no events.
-/

namespace ArenaGame

open EpollOp ChannelIndex

/-! ### `epoll_ctl` -/

section EpollCtl

variable {P : Type} {epollfd : InterestList P} {fd : ℕ} (event : EpollEvents × P)

theorem epollCtl_add (h : epollfd.lookup fd = none) :
    epollCtl epollfd EPOLL_CTL_ADD fd event = some (epollfd.insert fd event) := if_pos h

theorem epollCtl_mod (h : epollfd.lookup fd ≠ none) :
    epollCtl epollfd EPOLL_CTL_MOD fd event = some (epollfd.insert fd event) := if_neg h

theorem epollCtl_del (h : epollfd.lookup fd ≠ none) :
    epollCtl epollfd EPOLL_CTL_DEL fd event = some (epollfd.erase fd) := if_neg h

end EpollCtl

namespace Channel

variable {P : Type} (p : P) (channel : Channel)

/-- The entry of a channel in the interest list. -/
def interest : Option (EpollEvents × P) :=
  if channel.index_ = kAdded then some (channel.events_, p) else none

/-- The entry of a channel in `channels_`. -/
def registered : Option P := if channel.index_ = kNew then none else some p

/-- The index that `updateChannel` gives to a channel. -/
def updatedIndex : ChannelIndex :=
  if channel.index_ = kAdded ∧ channel.isNoneEvent = true then kDeleted else kAdded

theorem updatedIndex_ne_new : channel.updatedIndex ≠ kNew := by
  unfold updatedIndex
  split <;> simp

end Channel

namespace EPollPoller

variable {P : Type}

structure Watches (poller : EPollPoller P) (channels : P → Option Channel) : Prop where
  fds : KeysDistinct channels Channel.fd_
  epollfd_ : Tabulates poller.epollfd_.lookup channels Channel.fd_ Channel.interest
  channels_ : Tabulates poller.channels_.lookup channels Channel.fd_ Channel.registered

theorem Watches.empty : Watches ({} : EPollPoller P) fun _ => none where
  fds _ _ _ _ h := nomatch h
  epollfd_ := ⟨fun _ _ h => (nomatch h), fun _ _ h => (nomatch h)⟩
  channels_ := ⟨fun _ _ h => (nomatch h), fun _ _ h => (nomatch h)⟩

variable {poller : EPollPoller P} {channels : P → Option Channel} {p : P} {c c' : Channel}

theorem Watches.hasChannel [DecidableEq P] (h : Watches poller channels)
    (hc : channels p = some c) : poller.hasChannel p c = true ↔ c.index_ ≠ kNew := by
  rw [EPollPoller.hasChannel, h.channels_.lookup hc, Channel.registered]
  split
  · rename_i hnew
    simp [hnew]
  · rename_i hnot
    simp [hnot]

/-- What the kernel reports belongs to a channel that it watches. -/
theorem Watches.of_reportable (h : Watches poller channels) {fd : ℕ} {revents : EpollEvents}
    (hreport : Reportable poller.epollfd_ fd revents) :
    ∃ p c, channels p = some c ∧ c.fd_ = fd ∧ c.index_ = kAdded ∧
      poller.epollfd_.lookup fd = some (c.events_, p) ∧ revents ≠ ∅ ∧
      revents ⊆ c.events_ ∪ {.EPOLLERR, .EPOLLHUP} := by
  unfold Reportable at hreport
  split at hreport
  · exact hreport.elim
  · rename_i entry hlookup
    obtain ⟨p, c, hc, hfd, hentry⟩ := h.epollfd_.lookup_eq_some_iff.mp hlookup
    unfold Channel.interest at hentry
    split at hentry
    · rename_i hadded
      obtain rfl := Option.some.inj hentry
      exact ⟨p, c, hc, hfd, hadded, hlookup, hreport⟩
    · cases hentry

/-! ### The operations of the poller -/

variable (poller) in
theorem update_of_epollCtl {channel : Channel} {operation : EpollOp} {epollfd : InterestList P}
    (h : epollCtl poller.epollfd_ operation channel.fd_ (channel.events_, p) = some epollfd) :
    poller.update p channel operation = ({ poller with epollfd_ := epollfd }, []) := by
  unfold update
  rw [h]

/-- `updateChannel` as the poller and the kernel agree on the channel: the kernel adds it, changes
its events, or deletes it. -/
theorem updateChannel_eq {channel : Channel}
    (hepollfd : poller.epollfd_.lookup channel.fd_ = none ↔ channel.index_ ≠ kAdded) :
    poller.updateChannel p channel =
      ({ poller with
          channels_ :=
            if channel.index_ = kNew then poller.channels_.insert channel.fd_ p
            else poller.channels_
          epollfd_ :=
            if channel.updatedIndex = kAdded then
              poller.epollfd_.insert channel.fd_ (channel.events_, p)
            else poller.epollfd_.erase channel.fd_ },
        channel.updatedIndex, []) := by
  unfold updateChannel Channel.updatedIndex
  cases hcase : channel.index_ with
  | kNew =>
    have hcall := epollCtl_add (channel.events_, p) (hepollfd.mpr (by simp [hcase]))
    have hupdate := update_of_epollCtl
      { poller with channels_ := poller.channels_.insert channel.fd_ p } hcall
    simp [hupdate]
  | kDeleted =>
    have hcall := epollCtl_add (channel.events_, p) (hepollfd.mpr (by simp [hcase]))
    simp [update_of_epollCtl poller hcall]
  | kAdded =>
    have hin : poller.epollfd_.lookup channel.fd_ ≠ none := fun hnone => hepollfd.mp hnone hcase
    by_cases hnone : channel.isNoneEvent = true
    · simp [update_of_epollCtl poller (epollCtl_del (channel.events_, p) hin), hnone]
    · simp [update_of_epollCtl poller (epollCtl_mod (channel.events_, p) hin), hnone]

/-- `removeChannel` as the poller and the kernel agree on the channel. -/
theorem removeChannel_eq {channel : Channel}
    (hepollfd : poller.epollfd_.lookup channel.fd_ = none ↔ channel.index_ ≠ kAdded) :
    poller.removeChannel p channel =
      ({ poller with
          channels_ := poller.channels_.erase channel.fd_
          epollfd_ :=
            if channel.index_ = kAdded then poller.epollfd_.erase channel.fd_
            else poller.epollfd_ }, []) := by
  unfold removeChannel
  by_cases hadded : channel.index_ = kAdded
  · have hin : poller.epollfd_.lookup channel.fd_ ≠ none := fun hnone => hepollfd.mp hnone hadded
    simp only [if_pos hadded]
    exact update_of_epollCtl _ (epollCtl_del (channel.events_, p) hin)
  · simp only [if_neg hadded]

/-- The poller and the kernel agree on every channel. -/
theorem Watches.lookup_eq_none_iff (h : Watches poller channels) (hc : channels p = some c) :
    poller.epollfd_.lookup c.fd_ = none ↔ c.index_ ≠ kAdded := by
  rw [h.epollfd_.lookup hc, Channel.interest]
  split
  · rename_i hadded
    simp [hadded]
  · rename_i hnot
    simp [hnot]

section Change

variable [DecidableEq P]

/-- A channel that changes in front of `updateChannel` is watched for its new events behind it. -/
theorem Watches.updateChannel (h : Watches poller channels) (hc : channels p = some c)
    (hfd : c'.fd_ = c.fd_) (hindex : c'.index_ = c.index_) :
    (poller.updateChannel p c').2 = (c'.updatedIndex, []) ∧
      Watches (poller.updateChannel p c').1
        (Function.update channels p (some { c' with index_ := c'.updatedIndex })) := by
  have hepollfd := h.lookup_eq_none_iff hc
  have hregistered := h.channels_.lookup hc
  rw [← hfd, ← hindex] at hepollfd
  rw [← hfd, Channel.registered, ← hindex] at hregistered
  rw [updateChannel_eq hepollfd]
  refine ⟨rfl, h.fds.change hc hfd, h.epollfd_.change h.fds hc hfd ?_,
    h.channels_.change h.fds hc hfd ?_⟩
  · intro fd
    rw [← hfd, Channel.interest]
    show Finmap.lookup fd (if c'.updatedIndex = kAdded then _ else _) = _
    split
    · exact UnorderedMap.lookup_insert _ _ _ _
    · exact UnorderedMap.lookup_erase _ _ _
  · intro fd
    rw [← hfd, Channel.registered, if_neg c'.updatedIndex_ne_new]
    show Finmap.lookup fd (if c'.index_ = kNew then _ else _) = _
    split
    · exact UnorderedMap.lookup_insert _ _ _ _
    · rename_i hnot
      rw [if_neg hnot] at hregistered
      split
      · rename_i heq
        rw [heq, hregistered]
      · rfl

/-- A channel that is removed is not watched any more. -/
theorem Watches.removeChannel (h : Watches poller channels) (hc : channels p = some c) :
    (poller.removeChannel p c).2 = [] ∧
      Watches (poller.removeChannel p c).1
        (Function.update channels p (some { c with index_ := kNew })) := by
  have hepollfd := h.lookup_eq_none_iff hc
  rw [removeChannel_eq hepollfd]
  refine ⟨rfl, h.fds.change hc rfl, h.epollfd_.change h.fds hc rfl ?_,
    h.channels_.change h.fds hc rfl ?_⟩
  · intro fd
    show Finmap.lookup fd (if c.index_ = kAdded then _ else _) = if fd = c.fd_ then none else _
    split
    · exact UnorderedMap.lookup_erase _ _ _
    · rename_i hnot
      split
      · rename_i heq
        rw [heq, hepollfd.mpr hnot]
      · rfl
  · intro fd
    exact UnorderedMap.lookup_erase _ _ _

/-- A new channel is not watched. -/
theorem Watches.create (h : Watches poller channels) (hp : channels p = none)
    (hnew : c.index_ = kNew) (hfresh : ∀ q d, channels q = some d → d.fd_ ≠ c.fd_) :
    Watches poller (Function.update channels p (some c)) where
  fds := h.fds.insert hfresh
  epollfd_ := h.epollfd_.insert hp hfresh fun fd => by
    split
    · rename_i heq
      rw [heq, h.epollfd_.lookup_of_fresh hfresh]
      simp [Channel.interest, hnew]
    · rfl
  channels_ := h.channels_.insert hp hfresh fun fd => by
    split
    · rename_i heq
      rw [heq, h.channels_.lookup_of_fresh hfresh]
      simp [Channel.registered, hnew]
    · rfl

/-- A channel that was removed leaves nothing behind when its descriptor is closed. -/
theorem Watches.close (h : Watches poller channels) (hc : channels p = some c)
    (hnew : c.index_ = kNew) :
    Watches (poller.close c.fd_) (Function.update channels p none) where
  fds := h.fds.erase
  epollfd_ := h.epollfd_.erase h.fds hc fun fd => UnorderedMap.lookup_erase _ _ _
  channels_ := h.channels_.erase h.fds hc fun fd => by
    split
    · rename_i heq
      rw [heq]
      show poller.channels_.lookup c.fd_ = none
      rw [h.channels_.lookup hc, Channel.registered, if_pos hnew]
    · rfl

end Change

/-- Waiting changes nothing but the room for reports. -/
theorem Watches.poll (h : Watches poller channels) (ready : List (ℕ × EpollEvents)) :
    Watches (poller.poll ready).1 channels := ⟨h.fds, h.epollfd_, h.channels_⟩

/-- The active channels are channels that the kernel watches, each at most once. -/
theorem Watches.active (h : Watches poller channels) {ready : List (ℕ × EpollEvents)}
    (hready : poller.Ready ready) :
    ((poller.poll ready).2.map Prod.fst).Nodup ∧
      ∀ active ∈ (poller.poll ready).2, ∃ c, channels active.1 = some c ∧ c.index_ = kAdded ∧
        active.2 ≠ ∅ ∧ active.2 ⊆ c.events_ ∪ {.EPOLLERR, .EPOLLHUP} := by
  obtain ⟨-, hnodup, hreports⟩ := hready
  unfold EPollPoller.poll epollWait
  induction ready with
  | nil => simp
  | cons report ready ih =>
    obtain ⟨fd, revents⟩ := report
    rw [List.map_cons, List.nodup_cons] at hnodup
    rw [List.forall_mem_cons] at hreports
    obtain ⟨hdistinct, hactive⟩ := ih hnodup.2 hreports.2
    obtain ⟨p, c, hc, hfd, hadded, hlookup, hne, hsub⟩ := h.of_reportable hreports.1
    simp only [List.filterMap_cons, hlookup, Option.map_some, List.map_cons] at hdistinct hactive ⊢
    rw [List.nodup_cons, List.forall_mem_cons]
    refine ⟨⟨?_, hdistinct⟩, ⟨c, hc, hadded, hne, hsub⟩, hactive⟩
    -- Another report with the same address would have the same descriptor.
    intro hmem
    simp only [List.map_map, List.mem_map, List.mem_filterMap, Option.map_eq_some_iff] at hmem
    obtain ⟨_, ⟨⟨fd', revents'⟩, hmem, entry, hentry, rfl⟩, heq⟩ := hmem
    obtain ⟨q, d, hd, hfd', -, hlookup', -⟩ := h.of_reportable (hreports.2 _ hmem)
    obtain rfl := Option.some.inj (hlookup'.symm.trans hentry)
    obtain rfl : q = p := heq
    obtain rfl := Option.some.inj (hd.symm.trans hc)
    exact hnodup.1 (List.mem_map.mpr ⟨_, hmem, hfd'.symm.trans hfd⟩)

end EPollPoller

/-! ### Runs -/

namespace PolledChannels

variable {P : Type} [DecidableEq P]

theorem lookup_insert (channels : UnorderedMap P Channel) (p : P) (c : Channel) :
    (channels.insert p c).lookup = Function.update channels.lookup p (some c) := by
  funext q
  rw [UnorderedMap.lookup_insert, Function.update_apply]

theorem lookup_erase (channels : UnorderedMap P Channel) (p : P) :
    (channels.erase p).lookup = Function.update channels.lookup p none := by
  funext q
  rw [UnorderedMap.lookup_erase, Function.update_apply]

def Agrees (s : PolledChannels P) : Prop := s.poller.Watches s.channels.lookup

theorem fd_apply (channel : Channel) (call : ChannelCall) :
    (call.apply channel).fd_ = channel.fd_ := by
  cases call <;> rfl

theorem index_apply (channel : Channel) (call : ChannelCall) :
    (call.apply channel).index_ = channel.index_ := by
  cases call <;> rfl

variable {s : PolledChannels P}

/-- A step keeps the poller in step with its channels, and no call of `epoll_ctl` fails. -/
theorem Agrees.step (h : s.Agrees) {input : ChannelInput P} (hpossible : s.Possible input) :
    (s.step input).1.Agrees ∧ ∀ event, .poller event ∉ (s.step input).2 := by
  unfold Agrees at h
  cases input with
  | create ptr fd =>
    refine ⟨?_, by simp [PolledChannels.step]⟩
    show EPollPoller.Watches s.poller (s.channels.insert ptr { fd_ := fd }).lookup
    rw [lookup_insert]
    exact h.create hpossible.1 rfl fun q d hd =>
      hpossible.2 d ((UnorderedMap.mem_values s.channels).mpr ⟨q, hd⟩)
  | call ptr call =>
    obtain ⟨channel, hc⟩ := Finmap.mem_iff.mp hpossible
    have hupdated := h.updateChannel hc (fd_apply channel call) (index_apply channel call)
    simp only [PolledChannels.step, hc, hupdated.1]
    refine ⟨?_, by simp⟩
    show EPollPoller.Watches _ (s.channels.insert ptr _).lookup
    rw [lookup_insert]
    exact hupdated.2
  | remove ptr =>
    obtain ⟨channel, hc⟩ := Finmap.mem_iff.mp hpossible
    have hremoved := h.removeChannel hc
    simp only [PolledChannels.step, hc, hremoved.1]
    refine ⟨?_, by simp⟩
    show EPollPoller.Watches _ (s.channels.insert ptr _).lookup
    rw [lookup_insert]
    exact hremoved.2
  | destroy ptr =>
    obtain ⟨channel, hc, hnew⟩ := Option.map_eq_some_iff.mp hpossible
    simp only [PolledChannels.step, hc]
    refine ⟨?_, by simp⟩
    show EPollPoller.Watches _ (s.channels.erase ptr).lookup
    rw [lookup_erase]
    exact h.close hc hnew
  | poll ready => exact ⟨h.poll ready, by simp [PolledChannels.step]⟩

/-- From an empty poller on, whatever its channels ask for. -/
theorem agrees_run {is : List (ChannelInput P)} (his : (machine P).CanRun {} is) :
    ((machine P).run {} is).1.Agrees ∧ ∀ event, .poller event ∉ ((machine P).run {} is).2 := by
  refine Machine.run_induction (P := fun o s => s.Agrees ∧ ∀ event, .poller event ∉ o) ?_
    ⟨EPollPoller.Watches.empty, by simp⟩ his
  intro o s input h hpossible
  obtain ⟨hagrees, hsilent⟩ := h.1.step hpossible
  refine ⟨hagrees, fun event hmem => ?_⟩
  rcases List.mem_append.mp hmem with hmem | hmem
  · exact h.2 event hmem
  · exact hsilent event hmem

/-- In every run the kernel watches each channel for its current events exactly if the poller says
so, reports come from living channels that asked for them, and no call of `epoll_ctl` fails. -/
theorem kernel_agrees {is : List (ChannelInput P)} (his : (machine P).CanRun {} is) :
    (∀ event, .poller event ∉ ((machine P).run {} is).2) ∧
      let s := ((machine P).run {} is).1
      (∀ p c, s.channels.lookup p = some c →
        s.poller.epollfd_.lookup c.fd_ =
            (if c.index_ = kAdded then some (c.events_, p) else none) ∧
          (s.poller.hasChannel p c = true ↔ c.index_ ≠ kNew)) ∧
      (∀ fd events p, s.poller.epollfd_.lookup fd = some (events, p) →
        ∃ c, s.channels.lookup p = some c ∧ c.fd_ = fd) ∧
      ∀ ready, s.poller.Ready ready → ((s.poller.poll ready).2.map Prod.fst).Nodup ∧
        ∀ active ∈ (s.poller.poll ready).2, ∃ c, s.channels.lookup active.1 = some c ∧
          c.index_ = kAdded ∧ active.2 ⊆ c.events_ ∪ {.EPOLLERR, .EPOLLHUP} := by
  obtain ⟨hagrees, hsilent⟩ := agrees_run his
  refine ⟨hsilent, fun p c hc => ⟨hagrees.epollfd_.lookup hc, hagrees.hasChannel hc⟩, ?_, ?_⟩
  · intro fd events p hlookup
    obtain ⟨q, c, hc, hfd, hentry⟩ := hagrees.epollfd_.lookup_eq_some_iff.mp hlookup
    unfold Channel.interest at hentry
    split at hentry
    · obtain rfl : q = p := congrArg Prod.snd (Option.some.inj hentry)
      exact ⟨c, hc, hfd⟩
    · cases hentry
  · intro ready hready
    obtain ⟨hnodup, hactive⟩ := hagrees.active hready
    refine ⟨hnodup, fun active hmem => ?_⟩
    obtain ⟨c, hc, hadded, -, hsub⟩ := hactive active hmem
    exact ⟨c, hc, hadded, hsub⟩

/-- A channel is disabled and enabled again, and its descriptor used for another one after it. -/
def reusedDescriptor : List (ChannelInput ℕ) :=
  [.create 0 7, .call 0 .enableReading, .call 0 .enableWriting, .poll [(7, {.EPOLLIN, .EPOLLHUP})],
    .call 0 .disableAll, .call 0 .enableReading, .remove 0, .destroy 0, .create 1 7,
    .call 1 .enableReading, .poll [(7, {.EPOLLIN})]]

theorem kernel_agrees_reused_descriptor :
    let s := ((machine ℕ).run {} reusedDescriptor).1
    ∃ c, s.channels.lookup 1 = some c ∧
      s.poller.epollfd_.lookup c.fd_ = if c.index_ = kAdded then some (c.events_, 1) else none := by
  intro s
  have hsome : (s.channels.lookup 1).isSome = true := by decide +kernel
  obtain ⟨c, hc⟩ := Option.isSome_iff_exists.mp hsome
  exact ⟨c, hc, ((kernel_agrees (by decide +kernel)).2.1 1 c hc).1⟩

end PolledChannels

end ArenaGame
