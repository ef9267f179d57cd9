import ArenaGame.Muduo.Equiv.TcpServer

/-!
# The life of a connection

What the server and its loops know of one connection is its `View`: the object, the entry in
`connections_` and the functors that are queued for it.  A connection goes through the `Stage`s in
their order; each fixes what a view looks like.  A step of the server changes the view of one
connection at most (`Touches`), and takes that one to the same or the next stage.
-/

namespace ArenaGame

open ChannelIndex

/-- The functors of a loop that are bound to a connection, in the order of their calls. -/
def IoLoop.calls (loop : IoLoop) (id : ℕ) : List BoundCall :=
  ((loop.functors ++ loop.pendingFunctors_).filter fun functor => functor.conn = id).map
    BoundFunctor.call

/-- A loop handles channels only between `poll` and the swap, and has a batch only behind it. -/
structure IoLoop.Phased (loop : IoLoop) : Prop where
  handling : loop.phase ≠ .handling → loop.activeChannels_ = [] ∧ loop.callbacks = []
  executing : loop.phase ≠ .executing → loop.functors = []

/-- The functors that only call the user back. -/
def BoundCall.IsCallback : BoundCall → Prop
  | writeCompleteCallback_ => True
  | highWaterMarkCallback_ _ => True
  | _ => False

/-- The loops `l` where the functors of a connection of the loop `loop_` may wait once it is
down. -/
def BoundCall.DownAt (loop_ l : ℕ) : BoundCall → Prop
  | connectEstablished => False
  | removeConnectionInLoop => l = 0
  | _ => l = loop_

theorem BoundCall.IsCallback.downAt {call : BoundCall} (h : call.IsCallback) (loop_ : ℕ) :
    call.DownAt loop_ loop_ := by
  cases call <;> first | exact h.elim | rfl

/-- What is known of a connection. -/
structure View where
  created : Prop
  object : Option ServerConnection
  mapped : Option ℕ
  calls : ℕ → List BoundCall

def View.queue (view : View) (l : ℕ) (call : BoundCall) : View :=
  { view with calls := Function.update view.calls l (view.calls l ++ [call]) }

theorem View.calls_queue (view : View) (l : ℕ) (call : BoundCall) (l' : ℕ) :
    (view.queue l call).calls l' =
      if l' = l then view.calls l ++ [call] else view.calls l' := Function.update_apply _ _ _ _

theorem View.mem_calls_queue {view : View} {l l' : ℕ} {call call' : BoundCall} :
    call' ∈ (view.queue l call).calls l' ↔ call' ∈ view.calls l' ∨ l' = l ∧ call' = call := by
  rw [calls_queue]
  split
  · rename_i heq
    simp [heq]
  · rename_i hne
    simp [hne]

theorem View.mem_calls_queueAll {view : View} {l l' : ℕ} {call : BoundCall}
    {functors : List BoundFunctor}
    (h : call ∈ (functors.foldl (fun view functor => view.queue l functor.call) view).calls l') :
    call ∈ view.calls l' ∨ l' = l ∧ ∃ functor ∈ functors, functor.call = call := by
  induction functors generalizing view with
  | nil => exact Or.inl h
  | cons functor functors ih =>
    rcases ih h with hmem | ⟨hl, functor', hmem, heq⟩
    · rcases View.mem_calls_queue.mp hmem with hmem | ⟨hl, heq⟩
      · exact Or.inl hmem
      · exact Or.inr ⟨hl, functor, List.mem_cons_self, heq.symm⟩
    · exact Or.inr ⟨hl, functor', List.mem_cons_of_mem _ hmem, heq⟩

theorem View.object_queueAll (view : View) (l : ℕ) (functors : List BoundFunctor) :
    (functors.foldl (fun view functor => view.queue l functor.call) view).object = view.object ∧
      (functors.foldl (fun view functor => view.queue l functor.call) view).mapped =
        view.mapped ∧
      (functors.foldl (fun view functor => view.queue l functor.call) view).created =
        view.created := by
  induction functors generalizing view with
  | nil => exact ⟨rfl, rfl, rfl⟩
  | cons functor functors ih => exact ih (view.queue l functor.call)

/-- The view of a connection after `handleClose` on the loop `l`. -/
def View.handleClose (view : View) (l : ℕ) (conn : ServerConnection) : View :=
  let view := { view with object := some conn.wentDown }
  if l = 0 then View.queue { view with mapped := none } conn.loop_ .connectDestroyed
  else view.queue 0 .removeConnectionInLoop

theorem View.object_handleClose (view : View) (l : ℕ) (conn : ServerConnection) :
    (view.handleClose l conn).object = some conn.wentDown := by
  unfold View.handleClose
  dsimp only
  split <;> rfl

theorem View.created_handleClose (view : View) (l : ℕ) (conn : ServerConnection) :
    (view.handleClose l conn).created = view.created := by
  unfold View.handleClose
  dsimp only
  split <;> rfl

inductive Stage
  | unborn
  /-- `connectEstablished` is queued. -/
  | connecting
  | established
  /-- `handleClose` has been called. -/
  | closed
  /-- The channel was removed by `connectDestroyed`. -/
  | removed
  | destroyed
deriving DecidableEq

namespace View

variable (id : ℕ) (view : View)

/-- Nothing refers to the connection. -/
structure Absent : Prop where
  object : view.object = none
  mapped : view.mapped = none
  calls : ∀ l, view.calls l = []

structure Connecting (conn : ServerConnection) : Prop where
  object : view.object = some conn
  state : conn.state_ = .kConnecting
  reading : conn.isReading = false
  writing : conn.isWriting = false
  index : conn.index_ = kNew
  mapped : view.mapped = some id
  queued : view.calls conn.loop_ = [.connectEstablished]
  calls : ∀ l ≠ conn.loop_, view.calls l = []

structure Established (conn : ServerConnection) : Prop where
  object : view.object = some conn
  state : conn.state_ = .kConnected ∨ conn.state_ = .kDisconnecting
  reading : conn.isReading = true
  index : conn.index_ = kAdded
  mapped : view.mapped = some id
  calls : ∀ l, ∀ call ∈ view.calls l, call.IsCallback ∧ l = conn.loop_

/-- Connections that are down. -/
structure Down (conn : ServerConnection) : Prop where
  object : view.object = some conn
  state : conn.state_ = .kDisconnected
  reading : conn.isReading = false
  writing : conn.isWriting = false
  calls : ∀ l, ∀ call ∈ view.calls l, call.DownAt conn.loop_ l

structure Closed (conn : ServerConnection) : Prop extends view.Down conn where
  index : conn.index_ ≠ kNew
  /-- The server will take it out of its map, or its loop will remove the channel. -/
  pending : view.mapped = some id ∧ .removeConnectionInLoop ∈ view.calls 0 ∧
      (∀ l, .connectDestroyed ∉ view.calls l) ∨
    view.mapped = none ∧ .connectDestroyed ∈ view.calls conn.loop_

structure Removed (conn : ServerConnection) : Prop extends view.Down conn where
  index : conn.index_ = kNew
  mapped : view.mapped = none

def At : Stage → Prop
  | .unborn => ¬ view.created ∧ view.Absent
  | .connecting => view.created ∧ ∃ conn, view.Connecting id conn
  | .established => view.created ∧ ∃ conn, view.Established id conn
  | .closed => view.created ∧ ∃ conn, view.Closed id conn
  | .removed => view.created ∧ ∃ conn, view.Removed conn
  | .destroyed => view.created ∧ view.Absent

end View

namespace TcpServer

variable {server server' server'' : TcpServer} {id : ℕ}

def view (server : TcpServer) (id : ℕ) : View where
  created := 0 < id ∧ id < server.nextConnId_
  object := server.objects id
  mapped := server.connections_.lookup (server.connName id)
  calls l := (server.loops l).calls id

/-- Connections have names of their own. -/
theorem connName_injective (server : TcpServer) : Function.Injective server.connName := by
  intro id id' heq
  unfold connName at heq
  have htext := List.append_cancel_left (List.append_cancel_left heq)
  rw [← Decimal.ofBytes_toBytes id, htext, Decimal.ofBytes_toBytes]

/-! ### Steps that touch one connection -/

/-- The step has to do with one connection only; it accepts none. -/
structure Touches (server server' : TcpServer) (id : ℕ) : Prop where
  views : ∀ id' ≠ id, server'.view id' = server.view id'
  names : ∀ name id', server'.connections_.lookup name = some id' →
    server.connections_.lookup name = some id'
  nextConnId_ : server'.nextConnId_ = server.nextConnId_
  threadPool_ : server'.threadPool_ = server.threadPool_
  connName : server'.connName = server.connName
  phased : ∀ l, (server.loops l).Phased → (server'.loops l).Phased
  activeChannels_ : ∀ l, (server'.loops l).activeChannels_ = (server.loops l).activeChannels_
  callbacks : ∀ l, (server'.loops l).callbacks = (server.loops l).callbacks

theorem Touches.refl (server : TcpServer) (id : ℕ) : Touches server server id :=
  ⟨fun _ _ => rfl, fun _ _ h => h, rfl, rfl, rfl, fun _ h => h, fun _ => rfl, fun _ => rfl⟩

theorem Touches.trans (h : Touches server server' id) (h' : Touches server' server'' id) :
    Touches server server'' id where
  views id' hne := (h'.views id' hne).trans (h.views id' hne)
  names name id' hlookup := h.names name id' (h'.names name id' hlookup)
  nextConnId_ := h'.nextConnId_.trans h.nextConnId_
  threadPool_ := h'.threadPool_.trans h.threadPool_
  connName := h'.connName.trans h.connName
  phased l hphased := h'.phased l (h.phased l hphased)
  activeChannels_ l := (h'.activeChannels_ l).trans (h.activeChannels_ l)
  callbacks l := (h'.callbacks l).trans (h.callbacks l)

theorem Touches.store (server : TcpServer) (id : ℕ) (conn : ServerConnection) :
    Touches server (server.store id conn) id where
  views id' hne := by
    unfold view
    rw [objects_store_of_ne _ _ _ hne]
    rfl
  names _ _ h := h
  nextConnId_ := rfl
  threadPool_ := rfl
  connName := rfl
  phased _ h := h
  activeChannels_ _ := rfl
  callbacks _ := rfl

theorem view_store (server : TcpServer) (id : ℕ) (conn : ServerConnection) :
    (server.store id conn).view id = { server.view id with object := some conn } := by
  unfold view
  rw [objects_store_self]
  rfl

/-- A loop changes, but not what it says of other connections. -/
theorem Touches.setLoop (server : TcpServer) {l : ℕ} {loop : IoLoop}
    (hcalls : ∀ id' ≠ id, loop.calls id' = (server.loops l).calls id')
    (hphased : (server.loops l).Phased → loop.Phased)
    (hactive : loop.activeChannels_ = (server.loops l).activeChannels_)
    (hcallbacks : loop.callbacks = (server.loops l).callbacks) :
    Touches server (server.setLoop l loop) id where
  views id' hne := by
    have hloops : ∀ l', ((server.setLoop l loop).loops l').calls id' =
        (server.loops l').calls id' := by
      intro l'
      rw [loops_setLoop]
      split
      · rename_i heq
        rw [heq]
        exact hcalls id' hne
      · rfl
    unfold view
    simp only [hloops]
    rfl
  names _ _ h := h
  nextConnId_ := rfl
  threadPool_ := rfl
  connName := rfl
  phased l' h := by
    rw [loops_setLoop]
    split
    · rename_i heq
      exact hphased (heq ▸ h)
    · exact h
  activeChannels_ l' := by
    rw [loops_setLoop]
    split
    · rename_i heq
      rw [heq, hactive]
    · rfl
  callbacks l' := by
    rw [loops_setLoop]
    split
    · rename_i heq
      rw [heq, hcallbacks]
    · rfl

theorem view_setLoop (server : TcpServer) (l : ℕ) (loop : IoLoop) (id : ℕ) :
    (server.setLoop l loop).view id =
      { server.view id with
        calls := Function.update (server.view id).calls l (loop.calls id) } := by
  have hcalls : (fun l' => ((server.setLoop l loop).loops l').calls id) =
      Function.update (fun l' => (server.loops l').calls id) l (loop.calls id) := by
    funext l'
    rw [loops_setLoop, Function.update_apply]
    split <;> rfl
  unfold view
  rw [hcalls]
  rfl

/-- A poller changes. -/
theorem Touches.setPoller (server : TcpServer) (id l : ℕ) (poller : EPollPoller ChannelPtr) :
    Touches server (server.setLoop l { server.loops l with poller_ := poller }) id :=
  Touches.setLoop server (fun _ _ => rfl) (fun h => ⟨h.handling, h.executing⟩) rfl rfl

theorem view_setPoller (server : TcpServer) (id l : ℕ) (poller : EPollPoller ChannelPtr) :
    (server.setLoop l { server.loops l with poller_ := poller }).view id = server.view id := by
  rw [view_setLoop]
  have hself : Function.update (server.view id).calls l ((server.loops l).calls id) =
      (server.view id).calls := Function.update_eq_self _ _
  show { server.view id with
    calls := Function.update (server.view id).calls l ((server.loops l).calls id) } = _
  rw [hself]

theorem Touches.queueInLoop (server : TcpServer) (l : ℕ) (functor : BoundFunctor) :
    Touches server (server.queueInLoop l functor) functor.conn := by
  refine Touches.setLoop server (fun id' hne => ?_) (fun h => ⟨h.handling, h.executing⟩) rfl rfl
  simp [IoLoop.calls, ← List.append_assoc, Ne.symm hne]

theorem view_queueInLoop (server : TcpServer) (l : ℕ) (functor : BoundFunctor) :
    (server.queueInLoop l functor).view functor.conn =
      (server.view functor.conn).queue l functor.call := by
  unfold TcpServer.queueInLoop
  rw [view_setLoop]
  have hcalls : IoLoop.calls { server.loops l with
      pendingFunctors_ := (server.loops l).pendingFunctors_ ++ [functor] } functor.conn =
        (server.loops l).calls functor.conn ++ [functor.call] := by
    simp [IoLoop.calls, ← List.append_assoc]
  rw [hcalls]
  rfl

/-- The server forgets the name of a connection. -/
theorem Touches.forget (server : TcpServer) (id : ℕ) :
    Touches server
      { server with connections_ := server.connections_.erase (server.connName id) } id where
  views id' hne := by
    have hlookup : (server.connections_.erase (server.connName id)).lookup (server.connName id') =
        server.connections_.lookup (server.connName id') := by
      rw [UnorderedMap.lookup_erase, if_neg fun heq => hne (server.connName_injective heq)]
    exact congrArg (fun mapped => { server.view id' with mapped := mapped }) hlookup
  names name id' h := by
    rw [UnorderedMap.lookup_erase] at h
    split at h
    · cases h
    · exact h
  nextConnId_ := rfl
  threadPool_ := rfl
  connName := rfl
  phased _ h := h
  activeChannels_ _ := rfl
  callbacks _ := rfl

theorem view_forget (server : TcpServer) (id : ℕ) :
    TcpServer.view
      { server with connections_ := server.connections_.erase (server.connName id) } id =
        { server.view id with mapped := none } := by
  have hlookup : (server.connections_.erase (server.connName id)).lookup (server.connName id) =
      none := by
    rw [UnorderedMap.lookup_erase, if_pos rfl]
  exact congrArg (fun mapped => { server.view id with mapped := mapped }) hlookup

/-! ### What the operations do to the view of a connection -/

/-- Only the view of one connection has changed, to this one. -/
structure Became (server : TcpServer) (id : ℕ) (view : View) (server' : TcpServer) : Prop where
  wired : server'.Wired
  touches : Touches server server' id
  view : server'.view id = view

theorem Became.trans {view view' : View} (h : Became server id view server')
    (h' : Became server' id view' server'') : Became server id view' server'' :=
  ⟨h'.wired, h.touches.trans h'.touches, h'.view⟩

section Operations

variable {conn conn' : ServerConnection} (h : server.Wired) (hconn : server.objects id = some conn)

include h

theorem Wired.queueInLoop (l : ℕ) (functor : BoundFunctor) :
    Became server functor.conn ((server.view functor.conn).queue l functor.call)
      (server.queueInLoop l functor) :=
  ⟨h.setLoop rfl (h.active l) (h.callbacks l), .queueInLoop server l functor,
    view_queueInLoop server l functor⟩

/-- The taking out of a connection. -/
theorem Wired.removeConnectionInLoop (hname : conn.name_ = server.connName id) :
    Became server id
      (View.queue { server.view id with mapped := none } conn.loop_ .connectDestroyed)
      (server.removeConnectionInLoop id conn) := by
  unfold TcpServer.removeConnectionInLoop
  rw [hname]
  have hforget : Became server id { server.view id with mapped := none }
      { server with connections_ := server.connections_.erase (server.connName id) } :=
    ⟨⟨h.fds, h.acceptFd, h.watches, h.active, h.callbacks⟩, .forget server id,
      view_forget server id⟩
  rw [← hforget.view]
  exact hforget.trans
    (hforget.wired.queueInLoop conn.loop_ { conn := id, call := .connectDestroyed })

theorem Wired.removeConnection (hname : conn.name_ = server.connName id) (l : ℕ) :
    Became server id
      (if l = 0 then View.queue { server.view id with mapped := none } conn.loop_ .connectDestroyed
        else (server.view id).queue 0 .removeConnectionInLoop)
      (server.removeConnection l id conn) := by
  unfold TcpServer.removeConnection
  split
  · exact h.removeConnectionInLoop hname
  · exact h.queueInLoop 0 { conn := id, call := .removeConnectionInLoop }

include hconn

theorem Wired.became_updateChannel (hloop : conn'.loop_ = conn.loop_) (hfd : conn'.fd_ = conn.fd_)
    (hindex : conn'.index_ = conn.index_) :
    (server.updateChannel id conn').2 = [] ∧
      Became server id { server.view id with object := some conn'.updated }
        (server.updateChannel id conn').1 := by
  obtain ⟨hevents, hwired, poller, heq⟩ := h.updateChannel hconn hloop hfd hindex
  refine ⟨hevents, hwired, ?_, ?_⟩
  · rw [heq]
    exact (Touches.store server id _).trans (Touches.setPoller _ id _ poller)
  · rw [heq]
    exact (view_setPoller (server.store id conn'.updated) id _ poller).trans
      (view_store server id _)

theorem Wired.connectEstablished :
    (server.connectEstablished id conn).2 = [.connectionCallback_ id true] ∧
      Became server id
        { server.view id with object := some { conn with
          toTcpConnection := conn.toTcpConnection.connectEstablished, index_ := kAdded } }
        (server.connectEstablished id conn).1 := by
  have hupdated := h.became_updateChannel hconn
    (show ({ conn with toTcpConnection := conn.toTcpConnection.connectEstablished } :
      ServerConnection).loop_ = _ from rfl) rfl rfl
  unfold TcpServer.connectEstablished
  simp only [hupdated.1]
  refine ⟨rfl, ?_⟩
  have hindex : ServerConnection.updated
      { conn with toTcpConnection := conn.toTcpConnection.connectEstablished } =
        { conn with
          toTcpConnection := conn.toTcpConnection.connectEstablished, index_ := kAdded } := by
    unfold ServerConnection.updated Channel.updatedIndex
    rw [if_neg fun hboth => by
      have hnone := (ServerConnection.isNoneEvent_channel _).mp hboth.2
      cases hnone.1]
  rw [← hindex]
  exact hupdated.2

theorem Wired.goDown :
    (server.goDown id conn).2 = [.connectionCallback_ id false] ∧
      Became server id
        { server.view id with object := some conn.wentDown } (server.goDown id conn).1 := by
  have hupdated := h.became_updateChannel hconn
    (show ({ conn with toTcpConnection := conn.toTcpConnection.handleClose } :
      ServerConnection).loop_ = _ from rfl) rfl rfl
  unfold TcpServer.goDown
  simp only [hupdated.1]
  exact ⟨rfl, hupdated.2⟩

theorem Wired.handleClose (hname : conn.name_ = server.connName id) (l : ℕ) :
    (server.handleClose l id conn).2 = [.connectionCallback_ id false] ∧
      Became server id ((server.view id).handleClose l conn) (server.handleClose l id conn).1 := by
  obtain ⟨hevents, hdown⟩ := h.goDown hconn
  unfold TcpServer.handleClose
  refine ⟨hevents, ?_⟩
  have hremoved := hdown.wired.removeConnection
    (hname.trans (congrFun hdown.touches.connName id).symm) l
  rw [hdown.view] at hremoved
  exact hdown.trans hremoved

/-- A connection that is not connected any more only has its channel removed. -/
theorem Wired.connectDestroyed (hstate : conn.state_ ≠ .kConnected)
    (hactive : (server.loops conn.loop_).activeChannels_ = [])
    (hcallbacks : (server.loops conn.loop_).callbacks = []) :
    (server.connectDestroyed id conn).2 = [] ∧
      Became server id { server.view id with object := some { conn with index_ := kNew } }
        (server.connectDestroyed id conn).1 := by
  obtain ⟨hevents, hwired, poller, heq⟩ := h.removeChannel hconn hactive hcallbacks
  unfold TcpServer.connectDestroyed deref
  simp only [if_neg hstate, hconn]
  refine ⟨hevents, hwired, ?_, ?_⟩
  · rw [heq]
    exact (Touches.store server id _).trans (Touches.setPoller _ id _ poller)
  · rw [heq]
    exact (view_setPoller (server.store id { conn with index_ := kNew }) id _ poller).trans
      (view_store server id _)

end Operations

/-! ### Sending -/

/-- The functors of one connection are queued in their order. -/
theorem Wired.queueAll (h : server.Wired) (l : ℕ) {functors : List BoundFunctor}
    (hid : ∀ functor ∈ functors, functor.conn = id) :
    Became server id (functors.foldl (fun view functor => view.queue l functor.call)
        (server.view id))
      (functors.foldl (fun server functor => server.queueInLoop l functor) server) := by
  induction functors generalizing server with
  | nil => exact ⟨h, .refl server id, rfl⟩
  | cons functor functors ih =>
    rw [List.forall_mem_cons] at hid
    obtain ⟨rfl, hid⟩ := hid
    have hqueued := h.queueInLoop l functor
    have hrest := ih hqueued.wired hid
    rw [hqueued.view] at hrest
    exact hqueued.trans hrest

theorem conn_boundCalls (id : ℕ) (events : List SendEvent) :
    ∀ functor ∈ boundCalls id events, functor.conn = id ∧ functor.call.IsCallback := by
  intro functor hmem
  obtain ⟨event, -, hevent⟩ := List.mem_filterMap.mp hmem
  cases event <;> simp only [reduceCtorEq, Option.some.injEq] at hevent <;>
    exact ⟨by rw [← hevent], by rw [← hevent]; trivial⟩

/-- The sending side of a connection moves on, and its channel with it. -/
theorem Wired.sent (h : server.Wired) {conn : ServerConnection}
    (hconn : server.objects id = some conn) {sending : SendingConnection × List SendEvent}
    (hreading : sending.1.isReading = conn.isReading) :
    (server.sent id conn sending).2 = sending.2.map (.sending id) ∧
      ∃ conn' : ServerConnection, conn'.toSendingConnection = sending.1 ∧
        conn'.loop_ = conn.loop_ ∧ conn'.name_ = conn.name_ ∧ conn'.fd_ = conn.fd_ ∧
        (conn.isReading = true → conn.index_ = kAdded → conn'.index_ = kAdded) ∧
        (sending.1.isWriting = conn.isWriting → conn'.index_ = conn.index_) ∧
        Became server id ((boundCalls id sending.2).foldl
            (fun view functor => view.queue conn.loop_ functor.call)
            { server.view id with object := some conn' })
          (server.sent id conn sending).1 := by
  unfold TcpServer.sent
  by_cases hwriting : sending.1.isWriting = conn.isWriting
  · simp only [hwriting, ne_eq, not_true_eq_false, if_false, List.append_nil]
    refine ⟨trivial, { conn with toSendingConnection := sending.1 }, rfl, rfl, rfl, rfl,
      fun _ h => h, fun _ => rfl, ?_⟩
    have hchannel : ServerConnection.channel_ { conn with toSendingConnection := sending.1 } =
        conn.channel_ := by
      simp [ServerConnection.channel_, ServerConnection.events_, hreading, hwriting]
    have hstored : Became server id
        { server.view id with object := some { conn with toSendingConnection := sending.1 } }
        (server.store id { conn with toSendingConnection := sending.1 }) :=
      ⟨h.store hconn rfl hchannel, .store server id _, view_store server id _⟩
    have hqueued := hstored.wired.queueAll conn.loop_
      fun functor hmem => (conn_boundCalls id sending.2 functor hmem).1
    rw [hstored.view] at hqueued
    exact hstored.trans hqueued
  · have hupdated := h.became_updateChannel hconn
      (show ({ conn with toSendingConnection := sending.1 } : ServerConnection).loop_ = _ from rfl)
      rfl rfl
    simp only [ne_eq, hwriting, not_false_eq_true, if_true, hupdated.1, List.append_nil]
    refine ⟨trivial, ServerConnection.updated { conn with toSendingConnection := sending.1 }, rfl,
      rfl, rfl, rfl, ?_, fun heq => heq.elim, ?_⟩
    · intro hread _
      unfold ServerConnection.updated Channel.updatedIndex
      rw [if_neg fun hboth => by
        have hnone := (ServerConnection.isNoneEvent_channel _).mp hboth.2
        exact Bool.false_ne_true (hnone.1.symm.trans (hreading.trans hread))]
    · have hqueued := hupdated.2.wired.queueAll conn.loop_
        fun functor hmem => (conn_boundCalls id sending.2 functor hmem).1
      rw [hupdated.2.view] at hqueued
      exact hupdated.2.trans hqueued

end TcpServer

end ArenaGame
