import ArenaGame.Muduo.Equiv.EPollPoller
import ArenaGame.Muduo.TcpServer

/-!
# Channels and connections of a running server

`Wired` is the invariant of the channels: every poller watches what the connections of its loop ask
for, the descriptors are distinct, and what a loop still has to handle are channels that exist and
that its poller knows.  It is kept by each access to a channel.
-/

namespace ArenaGame

open ChannelIndex

namespace ServerConnection

variable (conn : ServerConnection)

/-! ### The channel of a connection -/

theorem channel_connectEstablished (hreading : conn.isReading = false)
    (hwriting : conn.isWriting = false) :
    channel_ { conn with toTcpConnection := conn.toTcpConnection.connectEstablished } =
      conn.channel_.enableReading := by
  simp [channel_, events_, Channel.enableReading, TcpConnection.connectEstablished, hreading,
    hwriting]

theorem channel_handleClose :
    channel_ { conn with toTcpConnection := conn.toTcpConnection.handleClose } =
      conn.channel_.disableAll := by
  simp [channel_, events_, Channel.disableAll, Channel.kNoneEvent, TcpConnection.handleClose]

theorem isNoneEvent_channel :
    conn.channel_.isNoneEvent = true ↔ conn.isReading = false ∧ conn.isWriting = false := by
  cases hr : conn.isReading <;> cases hw : conn.isWriting <;>
    simp [channel_, events_, Channel.isNoneEvent, Channel.kNoneEvent, Channel.kReadEvent,
      Channel.kWriteEvent, hr, hw]

/-- The connection after `updateChannel`. -/
def updated : ServerConnection := { conn with index_ := conn.channel_.updatedIndex }

/-- The connection after `goDown`. -/
def wentDown : ServerConnection :=
  updated { conn with toTcpConnection := conn.toTcpConnection.handleClose }

theorem index_wentDown : conn.wentDown.index_ ≠ kNew := Channel.updatedIndex_ne_new _

/-- A channel that the kernel watches is taken out of the interest list. -/
theorem index_wentDown_of_added (hadded : conn.index_ = kAdded) :
    conn.wentDown.index_ = kDeleted := by
  apply if_pos
  exact ⟨hadded, (isNoneEvent_channel _).mpr ⟨rfl, rfl⟩⟩

end ServerConnection

namespace TcpServer

variable {server : TcpServer}

/-- The channels of a loop. -/
def channels (server : TcpServer) (l : ℕ) : ChannelPtr → Option Channel
  | .acceptChannel_ => if l = 0 then some server.acceptChannel_ else none
  | .connection id =>
    (server.objects id).bind fun conn => if conn.loop_ = l then some conn.channel_ else none

/-- The poller of a loop knows the channel. -/
def Registered (server : TcpServer) (l : ℕ) : ChannelPtr → Prop
  | .acceptChannel_ => l = 0
  | .connection id => ∃ conn, server.objects id = some conn ∧ conn.loop_ = l ∧ conn.index_ ≠ kNew

structure Wired (server : TcpServer) : Prop where
  fds : KeysDistinct server.objects ServerConnection.fd_
  acceptFd : ∀ {id conn}, server.objects id = some conn → conn.fd_ ≠ server.acceptChannel_.fd_
  watches : ∀ l, (server.loops l).poller_.Watches (server.channels l)
  active : ∀ l, ∀ channel ∈ (server.loops l).activeChannels_, server.Registered l channel.1
  callbacks : ∀ l, ∀ callback ∈ (server.loops l).callbacks, server.Registered l callback.1

/-! ### Fields -/

section Fields

variable (server : TcpServer) (id l : ℕ) (conn : ServerConnection) (loop : IoLoop)

@[simp] theorem objects_setLoop : (server.setLoop l loop).objects = server.objects := rfl

@[simp] theorem acceptChannel_setLoop :
    (server.setLoop l loop).acceptChannel_ = server.acceptChannel_ := rfl

@[simp] theorem channels_setLoop : (server.setLoop l loop).channels = server.channels := rfl

@[simp] theorem registered_setLoop : (server.setLoop l loop).Registered = server.Registered := rfl

@[simp] theorem loops_setLoop_self : (server.setLoop l loop).loops l = loop :=
  Function.update_self _ _ _

theorem loops_setLoop (l' : ℕ) :
    (server.setLoop l loop).loops l' = if l' = l then loop else server.loops l' :=
  Function.update_apply _ _ _ _

@[simp] theorem loops_store : (server.store id conn).loops = server.loops := rfl

@[simp] theorem objects_store_self : (server.store id conn).objects id = some conn :=
  Function.update_self _ _ _

theorem objects_store_of_ne {id' : ℕ} (h : id' ≠ id) :
    (server.store id conn).objects id' = server.objects id' :=
  Function.update_of_ne h _ _

end Fields

theorem channels_connection {id : ℕ} {conn : ServerConnection}
    (hconn : server.objects id = some conn) (l : ℕ) :
    server.channels l (.connection id) = if conn.loop_ = l then some conn.channel_ else none := by
  simp [channels, hconn]

theorem channels_eq_some {l : ℕ} {ptr : ChannelPtr} {channel : Channel}
    (h : server.channels l ptr = some channel) :
    ptr = .acceptChannel_ ∧ channel = server.acceptChannel_ ∨
      ∃ id conn, ptr = .connection id ∧ server.objects id = some conn ∧ conn.loop_ = l ∧
        channel = conn.channel_ := by
  cases ptr with
  | acceptChannel_ =>
    left
    show _ ∧ channel = server.acceptChannel_
    have h' : (if l = 0 then some server.acceptChannel_ else none) = some channel := h
    split at h'
    · exact ⟨rfl, (Option.some.inj h').symm⟩
    · cases h'
  | connection id =>
    right
    obtain ⟨conn, hconn, hchannel⟩ := Option.bind_eq_some_iff.mp h
    split at hchannel
    · rename_i hloop
      exact ⟨id, conn, rfl, hconn, hloop, (Option.some.inj hchannel).symm⟩
    · cases hchannel

/-- Storing a connection changes its channel in its loop. -/
theorem channels_store_self (id : ℕ) (conn : ServerConnection) :
    (server.store id conn).channels conn.loop_ =
      Function.update (server.channels conn.loop_) (.connection id) (some conn.channel_) := by
  funext ptr
  cases ptr with
  | acceptChannel_ =>
    rw [Function.update_of_ne (by simp)]
    rfl
  | connection id' =>
    by_cases hid : id' = id
    · subst hid
      rw [Function.update_self, channels_connection (objects_store_self _ _ _), if_pos rfl]
    · rw [Function.update_of_ne (by simp [hid])]
      simp [channels, objects_store_of_ne _ _ _ hid]

theorem channels_store_of_ne {id : ℕ} {conn : ServerConnection} {l : ℕ} (hl : l ≠ conn.loop_)
    (hnone : server.channels l (.connection id) = none) :
    (server.store id conn).channels l = server.channels l := by
  funext ptr
  cases ptr with
  | acceptChannel_ => rfl
  | connection id' =>
    by_cases hid : id' = id
    · subst hid
      rw [channels_connection (objects_store_self _ _ _), if_neg (Ne.symm hl), hnone]
    · simp [channels, objects_store_of_ne _ _ _ hid]

/-- Accesses to a channel keep the others registered. -/
theorem Registered.store {id : ℕ} {conn conn' : ServerConnection}
    (hconn : server.objects id = some conn) (hloop : conn'.loop_ = conn.loop_) {l : ℕ}
    {ptr : ChannelPtr} (hnew : ptr = .connection id → conn'.index_ ≠ kNew)
    (h : server.Registered l ptr) : (server.store id conn').Registered l ptr := by
  cases ptr with
  | acceptChannel_ => exact h
  | connection id' =>
    obtain ⟨conn₀, hconn₀, hloop₀, hindex₀⟩ := h
    by_cases hid : id' = id
    · subst hid
      obtain rfl := Option.some.inj (hconn₀.symm.trans hconn)
      exact ⟨conn', objects_store_self _ _ _, hloop.trans hloop₀, hnew rfl⟩
    · exact ⟨conn₀, by rwa [objects_store_of_ne _ _ _ hid], hloop₀, hindex₀⟩

/-! ### Accesses to the channels -/

/-- The lists of a loop change, but not its poller. -/
theorem Wired.setLoop (h : server.Wired) {l : ℕ} {loop : IoLoop}
    (hpoller : loop.poller_ = (server.loops l).poller_)
    (hactive : ∀ channel ∈ loop.activeChannels_, server.Registered l channel.1)
    (hcallbacks : ∀ callback ∈ loop.callbacks, server.Registered l callback.1) :
    (server.setLoop l loop).Wired where
  fds := h.fds
  acceptFd := h.acceptFd
  watches l' := by
    rw [loops_setLoop]
    split
    · rename_i heq
      rw [heq, hpoller]
      exact h.watches l
    · exact h.watches l'
  active l' := by
    rw [loops_setLoop]
    split
    · rename_i heq
      rw [heq]
      exact hactive
    · exact h.active l'
  callbacks l' := by
    rw [loops_setLoop]
    split
    · rename_i heq
      rw [heq]
      exact hcallbacks
    · exact h.callbacks l'

/-- A connection changes, and the poller of its loop with it. -/
theorem Wired.change (h : server.Wired) {id : ℕ} {conn conn' : ServerConnection}
    (hconn : server.objects id = some conn) (hloop : conn'.loop_ = conn.loop_)
    (hfd : conn'.fd_ = conn.fd_) {poller : EPollPoller ChannelPtr}
    (hwatches : poller.Watches
      (Function.update (server.channels conn.loop_) (.connection id) (some conn'.channel_)))
    (hactive : ∀ channel ∈ (server.loops conn.loop_).activeChannels_,
      channel.1 = .connection id → conn'.index_ ≠ kNew)
    (hcallbacks : ∀ callback ∈ (server.loops conn.loop_).callbacks,
      callback.1 = .connection id → conn'.index_ ≠ kNew) :
    ((server.store id conn').setLoop conn.loop_
      { server.loops conn.loop_ with poller_ := poller }).Wired := by
  -- Only the loop of the connection has its channel among those that it still has to handle.
  have hregistered : ∀ l ptr, (l = conn.loop_ → ptr = .connection id → conn'.index_ ≠ kNew) →
      server.Registered l ptr → (server.store id conn').Registered l ptr := by
    intro l ptr hnew hreg
    refine hreg.store hconn hloop fun heq => hnew ?_ heq
    subst heq
    obtain ⟨conn₀, hconn₀, hloop₀, -⟩ := hreg
    obtain rfl := Option.some.inj (hconn₀.symm.trans hconn)
    exact hloop₀.symm
  constructor
  case fds => exact h.fds.change hconn hfd
  case acceptFd =>
    intro id' conn₀ hconn₀
    by_cases hid : id' = id
    · subst hid
      obtain rfl := Option.some.inj ((objects_store_self _ _ _).symm.trans hconn₀)
      rw [hfd]
      exact h.acceptFd hconn
    · exact h.acceptFd ((objects_store_of_ne _ _ _ hid).symm.trans hconn₀)
  case watches =>
    intro l
    rw [loops_setLoop, channels_setLoop]
    split
    · rename_i heq
      rw [heq, ← hloop, channels_store_self, hloop]
      exact hwatches
    · rename_i hne
      rw [loops_store, channels_store_of_ne (hloop ▸ hne)
        (by rw [channels_connection hconn, if_neg (Ne.symm hne)])]
      exact h.watches l
  case active =>
    intro l
    rw [loops_setLoop, registered_setLoop]
    split
    · rename_i heq
      rw [heq]
      exact fun channel hmem =>
        hregistered _ _ (fun _ => hactive channel hmem) (h.active _ channel hmem)
    · rename_i hne
      exact fun channel hmem =>
        hregistered _ _ (fun heq => absurd heq hne) (h.active _ channel hmem)
  case callbacks =>
    intro l
    rw [loops_setLoop, registered_setLoop]
    split
    · rename_i heq
      rw [heq]
      exact fun callback hmem =>
        hregistered _ _ (fun _ => hcallbacks callback hmem) (h.callbacks _ callback hmem)
    · rename_i hne
      exact fun callback hmem =>
        hregistered _ _ (fun heq => absurd heq hne) (h.callbacks _ callback hmem)

/-- The connection of a channel that changes is updated in the poller, which does not fail. -/
theorem Wired.updateChannel (h : server.Wired) {id : ℕ} {conn conn' : ServerConnection}
    (hconn : server.objects id = some conn) (hloop : conn'.loop_ = conn.loop_)
    (hfd : conn'.fd_ = conn.fd_) (hindex : conn'.index_ = conn.index_) :
    (server.updateChannel id conn').2 = [] ∧ (server.updateChannel id conn').1.Wired ∧
      ∃ poller, (server.updateChannel id conn').1 =
        (server.store id conn'.updated).setLoop conn.loop_
          { server.loops conn.loop_ with poller_ := poller } := by
  have hc : server.channels conn.loop_ (.connection id) = some conn.channel_ := by
    rw [channels_connection hconn, if_pos rfl]
  have hupdated := (h.watches conn.loop_).updateChannel hc
    (show conn'.channel_.fd_ = conn.channel_.fd_ from hfd) hindex
  have heq : server.updateChannel id conn' =
      ((server.store id conn'.updated).setLoop conn.loop_
        { server.loops conn.loop_ with
          poller_ := ((server.loops conn.loop_).poller_.updateChannel (.connection id)
            conn'.channel_).1 }, []) := by
    rw [← hloop] at hupdated ⊢
    unfold TcpServer.updateChannel
    simp only [hupdated.1]
    rfl
  rw [heq]
  refine ⟨rfl, h.change hconn (show conn'.updated.loop_ = conn.loop_ from hloop) hfd hupdated.2
    ?_ ?_, _, rfl⟩
  · exact fun _ _ _ => conn'.channel_.updatedIndex_ne_new
  · exact fun _ _ _ => conn'.channel_.updatedIndex_ne_new

/-- A channel is removed when its loop has nothing to handle. -/
theorem Wired.removeChannel (h : server.Wired) {id : ℕ} {conn : ServerConnection}
    (hconn : server.objects id = some conn)
    (hactive : (server.loops conn.loop_).activeChannels_ = [])
    (hcallbacks : (server.loops conn.loop_).callbacks = []) :
    (server.removeChannel id conn).2 = [] ∧ (server.removeChannel id conn).1.Wired ∧
      ∃ poller, (server.removeChannel id conn).1 =
        (server.store id { conn with index_ := kNew }).setLoop conn.loop_
          { server.loops conn.loop_ with poller_ := poller } := by
  have hc : server.channels conn.loop_ (.connection id) = some conn.channel_ := by
    rw [channels_connection hconn, if_pos rfl]
  have hremoved := (h.watches conn.loop_).removeChannel hc
  have heq : server.removeChannel id conn =
      ((server.store id { conn with index_ := kNew }).setLoop conn.loop_
        { server.loops conn.loop_ with
          poller_ := ((server.loops conn.loop_).poller_.removeChannel (.connection id)
            conn.channel_).1 }, []) := by
    unfold TcpServer.removeChannel
    simp only [hremoved.1]
    rfl
  rw [heq]
  refine ⟨rfl, h.change hconn (show ({ conn with index_ := kNew } : ServerConnection).loop_ = _ from
    rfl) rfl hremoved.2 ?_ ?_, _, rfl⟩
  · simp [hactive]
  · simp [hcallbacks]

/-- The channels that the kernel reports are registered. -/
theorem Wired.poll (h : server.Wired) {l : ℕ} {ready : List (ℕ × EpollEvents)}
    (hready : (server.loops l).poller_.Ready ready) (hcallbacks : (server.loops l).callbacks = []) :
    (server.setLoop l { server.loops l with
      phase := .handling
      poller_ := ((server.loops l).poller_.poll ready).1
      activeChannels_ := ((server.loops l).poller_.poll ready).2 }).Wired where
  fds := h.fds
  acceptFd := h.acceptFd
  watches l' := by
    rw [loops_setLoop]
    split
    · rename_i heq
      rw [heq]
      exact (h.watches l).poll ready
    · exact h.watches l'
  active l' := by
    rw [loops_setLoop]
    split
    · rename_i heq
      rw [heq]
      intro channel hmem
      obtain ⟨c, hc, hadded, -⟩ := ((h.watches l).active hready).2 channel hmem
      rcases channels_eq_some hc with ⟨hptr, rfl⟩ | ⟨id, conn, hptr, hconn, hloop, rfl⟩
      · rw [hptr] at hc ⊢
        by_contra hl
        rw [show server.channels l .acceptChannel_ = none from if_neg hl] at hc
        cases hc
      · rw [hptr]
        refine ⟨conn, hconn, hloop, fun hnew => ?_⟩
        rw [show conn.index_ = kAdded from hadded] at hnew
        cases hnew
    · exact h.active l'
  callbacks l' := by
    rw [loops_setLoop]
    split
    · rename_i heq
      rw [heq]
      show ∀ callback ∈ (server.loops l).callbacks, _
      rw [hcallbacks]
      exact fun _ hmem => absurd hmem List.not_mem_nil
    · exact h.callbacks l'

/-- What is not about its channel may change freely in a connection. -/
theorem Wired.store (h : server.Wired) {id : ℕ} {conn conn' : ServerConnection}
    (hconn : server.objects id = some conn) (hloop : conn'.loop_ = conn.loop_)
    (hchannel : conn'.channel_ = conn.channel_) : (server.store id conn').Wired := by
  have hfd : conn'.fd_ = conn.fd_ := congrArg Channel.fd_ hchannel
  have hindex : conn'.index_ = conn.index_ := congrArg Channel.index_ hchannel
  have hregistered : ∀ l ptr, server.Registered l ptr → (server.store id conn').Registered l ptr := by
    intro l ptr hreg
    refine hreg.store hconn hloop fun heq => ?_
    subst heq
    obtain ⟨conn₀, hconn₀, -, hnew⟩ := hreg
    obtain rfl := Option.some.inj (hconn₀.symm.trans hconn)
    rwa [hindex]
  have hchannels : (server.store id conn').channels = server.channels := by
    funext l
    by_cases hl : l = conn'.loop_
    · subst hl
      rw [channels_store_self, hchannel, Function.update_eq_self_iff,
        channels_connection hconn, if_pos hloop.symm]
    · exact channels_store_of_ne hl
        (by rw [channels_connection hconn, if_neg (by rw [← hloop]; exact Ne.symm hl)])
  constructor
  case fds => exact h.fds.change hconn hfd
  case acceptFd =>
    intro id' conn₀ hconn₀
    by_cases hid : id' = id
    · subst hid
      obtain rfl := Option.some.inj ((objects_store_self _ _ _).symm.trans hconn₀)
      rw [hfd]
      exact h.acceptFd hconn
    · exact h.acceptFd ((objects_store_of_ne _ _ _ hid).symm.trans hconn₀)
  case watches =>
    rw [hchannels]
    exact h.watches
  case active => exact fun l channel hmem => hregistered _ _ (h.active l channel hmem)
  case callbacks => exact fun l callback hmem => hregistered _ _ (h.callbacks l callback hmem)

/-- A new connection has a descriptor that no other channel has. -/
theorem Wired.create (h : server.Wired) {id : ℕ} {conn : ServerConnection}
    (hnone : server.objects id = none) (hindex : conn.index_ = kNew)
    (haccept : server.acceptChannel_.fd_ ≠ conn.fd_)
    (hfresh : ∀ id' conn', server.objects id' = some conn' → conn'.fd_ ≠ conn.fd_) :
    (server.store id conn).Wired := by
  have hchannel : ∀ l, server.channels l (.connection id) = none := by
    intro l
    simp [channels, hnone]
  have hregistered : ∀ l ptr, server.Registered l ptr → (server.store id conn).Registered l ptr := by
    intro l ptr hreg
    cases ptr with
    | acceptChannel_ => exact hreg
    | connection id' =>
      obtain ⟨conn₀, hconn₀, hrest⟩ := hreg
      have hid : id' ≠ id := by
        rintro rfl
        rw [hnone] at hconn₀
        cases hconn₀
      exact ⟨conn₀, by rwa [objects_store_of_ne _ _ _ hid], hrest⟩
  constructor
  case fds => exact h.fds.insert hfresh
  case acceptFd =>
    intro id' conn₀ hconn₀
    by_cases hid : id' = id
    · subst hid
      obtain rfl := Option.some.inj ((objects_store_self _ _ _).symm.trans hconn₀)
      exact Ne.symm haccept
    · exact h.acceptFd ((objects_store_of_ne _ _ _ hid).symm.trans hconn₀)
  case watches =>
    intro l
    by_cases hl : l = conn.loop_
    · subst hl
      rw [channels_store_self]
      refine (h.watches _).create (hchannel _) hindex fun ptr channel hptr => ?_
      rcases channels_eq_some hptr with ⟨-, rfl⟩ | ⟨id', conn₀, -, hconn₀, -, rfl⟩
      · exact haccept
      · exact hfresh id' conn₀ hconn₀
    · rw [channels_store_of_ne hl (hchannel l)]
      exact h.watches l
  case active => exact fun l channel hmem => hregistered _ _ (h.active l channel hmem)
  case callbacks => exact fun l callback hmem => hregistered _ _ (h.callbacks l callback hmem)

/-- A connection whose channel was removed is destroyed, and its descriptor closed. -/
theorem Wired.destroy (h : server.Wired) {id : ℕ} {conn : ServerConnection}
    (hconn : server.objects id = some conn) (hindex : conn.index_ = kNew) :
    ({ server with objects := Function.update server.objects id none }.setLoop conn.loop_
      { server.loops conn.loop_ with
        poller_ := (server.loops conn.loop_).poller_.close conn.fd_ }).Wired := by
  have hobjects : ∀ {id'}, id' ≠ id →
      Function.update server.objects id none id' = server.objects id' :=
    fun hne => Function.update_of_ne hne _ _
  -- A channel that is still to be handled is registered, so it is not the one that goes.
  have hregistered : ∀ l ptr, server.Registered l ptr →
      TcpServer.Registered { server with objects := Function.update server.objects id none } l
        ptr := by
    intro l ptr hreg
    cases ptr with
    | acceptChannel_ => exact hreg
    | connection id' =>
      obtain ⟨conn₀, hconn₀, hloop, hnew⟩ := hreg
      have hid : id' ≠ id := by
        rintro rfl
        obtain rfl := Option.some.inj (hconn₀.symm.trans hconn)
        exact hnew hindex
      exact ⟨conn₀, by rwa [← hobjects hid] at hconn₀, hloop, hnew⟩
  have hchannels : ∀ l, TcpServer.channels
      { server with objects := Function.update server.objects id none } l =
        Function.update (server.channels l) (.connection id) none := by
    intro l
    funext ptr
    cases ptr with
    | acceptChannel_ =>
      rw [Function.update_of_ne (by simp)]
      rfl
    | connection id' =>
      by_cases hid : id' = id
      · subst hid
        simp [channels]
      · rw [Function.update_of_ne (by simp [hid])]
        simp [channels, hobjects hid]
  constructor
  case fds => exact h.fds.erase
  case acceptFd =>
    intro id' conn₀ hconn₀
    by_cases hid : id' = id
    · subst hid
      exact absurd ((Function.update_self _ _ _).symm.trans hconn₀) (by simp)
    · exact h.acceptFd ((hobjects hid).symm.trans hconn₀)
  case watches =>
    intro l
    rw [loops_setLoop, channels_setLoop, hchannels]
    split
    · rename_i heq
      rw [heq]
      exact (h.watches _).close (by rw [channels_connection hconn, if_pos rfl]) hindex
    · rename_i hne
      have hnone : server.channels l (.connection id) = none := by
        rw [channels_connection hconn, if_neg (Ne.symm hne)]
      have hsame : Function.update (server.channels l) (.connection id) none = server.channels l :=
        Function.update_eq_self_iff.mpr hnone.symm
      rw [hsame]
      exact h.watches l
  case active =>
    intro l
    rw [loops_setLoop]
    split
    · rename_i heq
      rw [heq]
      exact fun channel hmem => hregistered _ _ (h.active _ channel hmem)
    · exact fun channel hmem => hregistered _ _ (h.active _ channel hmem)
  case callbacks =>
    intro l
    rw [loops_setLoop]
    split
    · rename_i heq
      rw [heq]
      exact fun callback hmem => hregistered _ _ (h.callbacks _ callback hmem)
    · exact fun callback hmem => hregistered _ _ (h.callbacks _ callback hmem)

section Started

variable (name ipPort : StdString) (acceptSocket_ numThreads : ℕ) (writeCompleteCallback_ : Bool)

theorem loops_started (l : ℕ) :
    (started name ipPort acceptSocket_ numThreads writeCompleteCallback_).loops l =
      if l = 0 then
        { poller_ := (EPollPoller.updateChannel {} ChannelPtr.acceptChannel_
            (Channel.enableReading { fd_ := acceptSocket_ })).1 }
      else {} := by
  show Function.update (fun _ => ({} : IoLoop)) 0 _ l = _
  rw [Function.update_apply]
  rfl

theorem channels_started (l : ℕ) :
    (started name ipPort acceptSocket_ numThreads writeCompleteCallback_).channels l =
      if l = 0 then
        Function.update (fun _ => none) .acceptChannel_
          (some { Channel.enableReading { fd_ := acceptSocket_ } with
            index_ := (Channel.enableReading { fd_ := acceptSocket_ }).updatedIndex })
      else fun _ => none := by
  funext ptr
  cases ptr with
  | acceptChannel_ =>
    show (if l = 0 then _ else none) = _
    split
    · rw [Function.update_self]
      rfl
    · rfl
  | connection id =>
    show none = _
    split
    · rw [Function.update_of_ne (by simp)]
    · rfl

/-- A server that has just been started watches its listening socket. -/
theorem Wired.started :
    (TcpServer.started name ipPort acceptSocket_ numThreads writeCompleteCallback_).Wired where
  fds _ _ _ _ h := nomatch h
  acceptFd h := nomatch h
  watches l := by
    rw [loops_started, channels_started]
    split
    · have hwatches : EPollPoller.Watches {} (Function.update (fun _ : ChannelPtr => none)
          .acceptChannel_ (some { fd_ := acceptSocket_ })) :=
        EPollPoller.Watches.empty.create rfl rfl fun _ _ h => (nomatch h)
      have hupdated := hwatches.updateChannel (Function.update_self _ _ _)
        (show (Channel.enableReading { fd_ := acceptSocket_ }).fd_ = _ from rfl) rfl
      rw [Function.update_idem] at hupdated
      exact hupdated.2
    · exact EPollPoller.Watches.empty
  active l := by
    rw [loops_started]
    split <;> simp
  callbacks l := by
    rw [loops_started]
    split <;> simp

end Started

end TcpServer

end ArenaGame
