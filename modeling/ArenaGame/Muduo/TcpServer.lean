import ArenaGame.Common.BinaryStream
import ArenaGame.Muduo.EPollPoller
import ArenaGame.Muduo.SendingConnection
import ArenaGame.Util.Decimal

/-!
# The server and its loops (`muduo/TcpServer.cc`, `muduo/Acceptor.cc`, `muduo/TcpConnection.cc`)

The base loop, number 0, accepts connections and deals them out to the loops of the thread pool, or
keeps them if the pool is empty.  Each loop waits in `poll`, calls the active channels back and runs
its queued functors; a step is one callback or one functor of one loop.  The loops take their steps
in any order.

A connection object is known by its `id_`.  A functor is bound to a shared pointer, and
`handleEvent` holds one while it makes the callbacks of a channel; a connection is destroyed when
no pointer is left.  An access to an object that does not exist any more is put out as `dangling`.

What system calls return is an input.  The channels of the wakeup descriptors and of the timers
have descriptors of their own and are left out; so is what the message callback does with the input
buffer.  `send` and `shutdown` are called by the loop of the connection.
-/

namespace ArenaGame

/-! ### The thread pool -/

/-- `EventLoopThreadPool`, with loops of any kind. -/
structure EventLoopThreadPool (L : Type) where
  baseLoop_ : L
  loops_ : List L := []
  next_ : ℕ := 0
  next_lt : next_ < loops_.length ∨ loops_ = [] := by simp

namespace EventLoopThreadPool

variable {L : Type} (pool : EventLoopThreadPool L)

/-- `getNextLoop`; the index goes round. -/
def getNextLoop : L × EventLoopThreadPool L :=
  if h : pool.loops_ = [] then (pool.baseLoop_, pool)
  else
    have hlt : pool.next_ < pool.loops_.length := pool.next_lt.resolve_right h
    (pool.loops_[pool.next_],
      { pool with
        next_ := if pool.next_ + 1 ≥ pool.loops_.length then 0 else pool.next_ + 1
        next_lt := by
          left
          split <;> omega })

/-- The pool has been started, which gave it these loops. -/
def started (baseLoop_ : L) (loops_ : List L) : EventLoopThreadPool L where
  baseLoop_ := baseLoop_
  loops_ := loops_
  next_lt := by
    cases loops_ <;> simp

end EventLoopThreadPool

/-! ### Connections -/

structure ServerConnection extends SendingConnection where
  /-- The number of its loop. -/
  loop_ : ℕ
  name_ : StdString
  fd_ : ℕ
  index_ : ChannelIndex := .kNew

namespace ServerConnection

variable (conn : ServerConnection)

/-- What the channel of the connection is watched for. -/
def events_ : EpollEvents :=
  (if conn.isReading then Channel.kReadEvent else ∅) ∪
    if conn.isWriting then Channel.kWriteEvent else ∅

def channel_ : Channel := { fd_ := conn.fd_, events_ := conn.events_, index_ := conn.index_ }

def connected : Bool := conn.state_ = .kConnected

end ServerConnection

/-! ### Loops -/

/-- A `Channel*` of the server. -/
inductive ChannelPtr
  | acceptChannel_
  | connection (id : ℕ)
deriving DecidableEq

/-- What is bound in a functor, together with a connection. -/
inductive BoundCall
  | connectEstablished
  | removeConnectionInLoop
  | connectDestroyed
  | writeCompleteCallback_
  | highWaterMarkCallback_ (len : ℕ)
deriving DecidableEq

structure BoundFunctor where
  conn : ℕ
  call : BoundCall
deriving DecidableEq

inductive IoPhase
  | polling
  /-- In the loop over the active channels. -/
  | handling
  /-- In `doPendingFunctors`, behind the swap. -/
  | executing
deriving DecidableEq

structure IoLoop where
  phase : IoPhase := .polling
  poller_ : EPollPoller ChannelPtr := {}
  /-- The active channels that are left, with their `revents_`. -/
  activeChannels_ : List (ChannelPtr × EpollEvents) := []
  /-- The callbacks that `handleEventWithGuard` still makes for the current channel. -/
  callbacks : List (ChannelPtr × Channel.Callback) := []
  pendingFunctors_ : List BoundFunctor := []
  /-- What is left of the swapped batch. -/
  functors : List BoundFunctor := []

/-! ### The server -/

inductive ServerEvent
  | connectionCallback_ (conn : ℕ) (connected : Bool)
  | messageCallback_ (conn : ℕ) (data : List UInt8)
  /-- `newConnection` has given a new connection to a loop. -/
  | newConnection (conn loop : ℕ)
  /-- What a connection does to its socket and its loop. -/
  | sending (conn : ℕ) (event : SendEvent)
  | calledBack (functor : BoundFunctor)
  | poller (event : PollerEvent)
  | logError
  | dangling
deriving DecidableEq

structure TcpServer where
  ipPort_ : StdString
  name_ : StdString
  acceptChannel_ : Channel
  threadPool_ : EventLoopThreadPool ℕ
  writeCompleteCallback_ : Bool := false
  nextConnId_ : ℕ := 1
  connections_ : UnorderedMap StdString ℕ := ∅
  /-- The connection objects that exist. -/
  objects : ℕ → Option ServerConnection := fun _ => none
  loops : ℕ → IoLoop := fun _ => {}

namespace TcpServer

variable (server : TcpServer)

/-- `name_ + buf`, with `"-%s#%d"` in `buf`. -/
def connName (id : ℕ) : StdString :=
  server.name_ ++ (StdString.ofLiteral "-" ++ server.ipPort_ ++ StdString.ofLiteral "#" ++
    Decimal.toBytes id)

def store (id : ℕ) (conn : ServerConnection) : TcpServer :=
  { server with objects := Function.update server.objects id (some conn) }

def setLoop (l : ℕ) (loop : IoLoop) : TcpServer :=
  { server with loops := Function.update server.loops l loop }

/-- `channel_->update()`, for a connection whose events have changed. -/
def updateChannel (id : ℕ) (conn : ServerConnection) : TcpServer × List ServerEvent :=
  let loop := server.loops conn.loop_
  let (poller, index, events) := loop.poller_.updateChannel (.connection id) conn.channel_
  ((server.store id { conn with index_ := index }).setLoop conn.loop_
    { loop with poller_ := poller }, events.map .poller)

/-- `channel_->remove()` -/
def removeChannel (id : ℕ) (conn : ServerConnection) : TcpServer × List ServerEvent :=
  let loop := server.loops conn.loop_
  let (poller, events) := loop.poller_.removeChannel (.connection id) conn.channel_
  ((server.store id { conn with index_ := .kNew }).setLoop conn.loop_
    { loop with poller_ := poller }, events.map .poller)

def queueInLoop (l : ℕ) (functor : BoundFunctor) : TcpServer :=
  server.setLoop l
    { server.loops l with pendingFunctors_ := (server.loops l).pendingFunctors_ ++ [functor] }

/-- An access through a pointer to a connection. -/
def deref (id : ℕ) (access : ServerConnection → TcpServer × List ServerEvent) :
    TcpServer × List ServerEvent :=
  match server.objects id with
  | none => (server, [.dangling])
  | some conn => access conn

/-! #### Up and down -/

def connectEstablished (id : ℕ) (conn : ServerConnection) : TcpServer × List ServerEvent :=
  let conn := { conn with toTcpConnection := conn.toTcpConnection.connectEstablished }
  let (server, events) := server.updateChannel id conn
  (server, events ++ [.connectionCallback_ id conn.connected])

def removeConnectionInLoop (id : ℕ) (conn : ServerConnection) : TcpServer :=
  { server with connections_ := server.connections_.erase conn.name_ }.queueInLoop conn.loop_
    { conn := id, call := .connectDestroyed }

/-- `removeConnection`, called on the loop `l`. -/
def removeConnection (l id : ℕ) (conn : ServerConnection) : TcpServer :=
  if l = 0 then server.removeConnectionInLoop id conn
  else server.queueInLoop 0 { conn := id, call := .removeConnectionInLoop }

/-- `handleClose` without `closeCallback_`. -/
def goDown (id : ℕ) (conn : ServerConnection) : TcpServer × List ServerEvent :=
  let conn := { conn with toTcpConnection := conn.toTcpConnection.handleClose }
  let (server, events) := server.updateChannel id conn
  (server, events ++ [.connectionCallback_ id conn.connected])

/-- `handleClose`, called on the loop `l`. -/
def handleClose (l id : ℕ) (conn : ServerConnection) : TcpServer × List ServerEvent :=
  let (server, events) := server.goDown id conn
  (server.removeConnection l id conn, events)

def connectDestroyed (id : ℕ) (conn : ServerConnection) : TcpServer × List ServerEvent :=
  let (server, events) := if conn.state_ = .kConnected then server.goDown id conn else (server, [])
  let (server, events') := server.deref id fun conn => server.removeChannel id conn
  (server, events ++ events')

/-! #### Reading and writing -/

/-- What `readFd` returns: the bytes that it has read, none at the end of the stream. -/
inductive ReadResult
  | read (data : List UInt8)
  | failed
deriving DecidableEq

/-- `handleRead`, called on the loop `l`. -/
def handleRead (l id : ℕ) (conn : ServerConnection) : ReadResult → TcpServer × List ServerEvent
  | .read data =>
    if data.length > 0 then (server, [.messageCallback_ id data]) else server.handleClose l id conn
  | .failed => (server, [.logError, .logError])

/-- The functors that a connection queues for its callbacks. -/
def boundCalls (id : ℕ) (events : List SendEvent) : List BoundFunctor :=
  events.filterMap fun
    | .queueWriteComplete => some { conn := id, call := .writeCompleteCallback_ }
    | .queueHighWaterMark len => some { conn := id, call := .highWaterMarkCallback_ len }
    | _ => none

/-- The sending side of a connection has gone from `conn.toSendingConnection` to `sending`. -/
def sent (id : ℕ) (conn : ServerConnection) (sending : SendingConnection × List SendEvent) :
    TcpServer × List ServerEvent :=
  let conn' := { conn with toSendingConnection := sending.1 }
  let (server, events) :=
    if sending.1.isWriting ≠ conn.isWriting then server.updateChannel id conn'
    else (server.store id conn', [])
  ((boundCalls id sending.2).foldl (fun server functor => server.queueInLoop conn.loop_ functor)
    server, sending.2.map (.sending id) ++ events)

def send (id : ℕ) (conn : ServerConnection) (data : List UInt8) (result : WriteResult) :
    TcpServer × List ServerEvent :=
  server.sent id conn (conn.toSendingConnection.send data result)

def shutdown (id : ℕ) (conn : ServerConnection) : TcpServer × List ServerEvent :=
  server.sent id conn conn.toSendingConnection.shutdown

def handleWrite (id : ℕ) (conn : ServerConnection) (result : WriteResult) :
    TcpServer × List ServerEvent :=
  server.sent id conn (conn.toSendingConnection.handleWrite result)

/-! #### Accepting -/

/-- `newConnection` for the descriptor `sockfd`; it runs on the base loop. -/
def newConnection (sockfd : ℕ) : TcpServer × List ServerEvent :=
  let (ioLoop, threadPool) := server.threadPool_.getNextLoop
  let id := server.nextConnId_
  let connName := server.connName id
  let conn : ServerConnection :=
    { loop_ := ioLoop
      name_ := connName
      fd_ := sockfd
      writeCompleteCallback_ := server.writeCompleteCallback_ }
  let server :=
    { server with
      threadPool_ := threadPool
      nextConnId_ := id + 1
      connections_ := server.connections_.insert connName id }.store id conn
  if ioLoop = 0 then
    let (server, events) := server.connectEstablished id conn
    (server, .newConnection id ioLoop :: events)
  else
    (server.queueInLoop ioLoop { conn := id, call := .connectEstablished },
      [.newConnection id ioLoop])

/-- `Acceptor::handleRead`; `connfd` is what `accept` returns. -/
def accept : Option ℕ → TcpServer × List ServerEvent
  | some connfd => server.newConnection connfd
  | none => (server, [.logError])

/-! #### The steps of a loop -/

/-- What the system calls in a callback return. -/
structure SystemCalls where
  accept : Option ℕ := none
  readFd : ReadResult := .failed
  write : WriteResult := .failed .EWOULDBLOCK
deriving DecidableEq

/-- A callback of a channel, on the loop `l`. -/
def callBack (l : ℕ) (calls : SystemCalls) :
    ChannelPtr × Channel.Callback → TcpServer × List ServerEvent
  | (.acceptChannel_, .readCallback_) => server.accept calls.accept
  | (.acceptChannel_, _) => (server, [])
  | (.connection id, callback) =>
    server.deref id fun conn =>
      match callback with
      | .closeCallback_ => server.handleClose l id conn
      | .errorCallback_ => (server, [.logError])
      | .readCallback_ => server.handleRead l id conn calls.readFd
      | .writeCallback_ => server.handleWrite id conn calls.write

/-- The call of a functor. -/
def callFunctor (functor : BoundFunctor) : TcpServer × List ServerEvent :=
  server.deref functor.conn fun conn =>
    match functor.call with
    | .connectEstablished => server.connectEstablished functor.conn conn
    | .removeConnectionInLoop => (server.removeConnectionInLoop functor.conn conn, [])
    | .connectDestroyed => server.connectDestroyed functor.conn conn
    | _ => (server, [.calledBack functor])

/-- `channel->handleEvent`, up to its callbacks. -/
def handleEvent (l : ℕ) (channel : ChannelPtr × EpollEvents) : TcpServer × List ServerEvent :=
  let callbacks := (Channel.handleEventWithGuard channel.2).map fun callback => (channel.1, callback)
  let guarded := server.setLoop l { server.loops l with callbacks := callbacks }
  match channel.1 with
  | .acceptChannel_ => (guarded, [])
  | .connection id => server.deref id fun _ => (guarded, [])

inductive Input
  /-- `epoll_wait` returns. -/
  | poll (l : ℕ) (ready : List (ℕ × EpollEvents))
  | handleEvent (l : ℕ)
  | callBack (l : ℕ) (calls : SystemCalls)
  /-- The swap in `doPendingFunctors`. -/
  | doPendingFunctors (l : ℕ)
  | callFunctor (l : ℕ)
  /-- `doPendingFunctors` returns. -/
  | pollAgain (l : ℕ)
  | send (id : ℕ) (data : List UInt8) (result : WriteResult)
  | shutdown (id : ℕ)
  /-- The last pointer to a connection is gone. -/
  | destroy (id : ℕ)
deriving DecidableEq

def step : Input → TcpServer × List ServerEvent
  | .poll l ready =>
    let loop := server.loops l
    let (poller, active) := loop.poller_.poll ready
    (server.setLoop l
      { loop with phase := .handling, poller_ := poller, activeChannels_ := active }, [])
  | .handleEvent l =>
    let loop := server.loops l
    match loop.activeChannels_ with
    | [] => (server, [])
    | channel :: channels =>
      (server.setLoop l { loop with activeChannels_ := channels }).handleEvent l channel
  | .callBack l calls =>
    let loop := server.loops l
    match loop.callbacks with
    | [] => (server, [])
    | callback :: callbacks =>
      (server.setLoop l { loop with callbacks := callbacks }).callBack l calls callback
  | .doPendingFunctors l =>
    let loop := server.loops l
    (server.setLoop l
      { loop with phase := .executing, functors := loop.pendingFunctors_, pendingFunctors_ := [] },
      [])
  | .callFunctor l =>
    let loop := server.loops l
    match loop.functors with
    | [] => (server, [])
    | functor :: functors =>
      (server.setLoop l { loop with functors := functors }).callFunctor functor
  | .pollAgain l => (server.setLoop l { server.loops l with phase := .polling }, [])
  | .send id data result => server.deref id fun conn => server.send id conn data result
  | .shutdown id => server.deref id fun conn => server.shutdown id conn
  | .destroy id =>
    server.deref id fun conn =>
      let loop := server.loops conn.loop_
      ({ server with objects := Function.update server.objects id none }.setLoop conn.loop_
        { loop with poller_ := loop.poller_.close conn.fd_ }, [])

/-! #### Runs -/

/-- The server has been constructed and started: it listens on `acceptSocket_`, and the thread pool
has `numThreads` loops. -/
def started (name ipPort : StdString) (acceptSocket_ numThreads : ℕ)
    (writeCompleteCallback_ : Bool) : TcpServer :=
  let acceptChannel_ := Channel.enableReading { fd_ := acceptSocket_ }
  let (poller, index, _) := EPollPoller.updateChannel {} ChannelPtr.acceptChannel_ acceptChannel_
  { ipPort_ := ipPort
    name_ := name
    acceptChannel_ := { acceptChannel_ with index_ := index }
    threadPool_ := .started 0 (List.range' 1 numThreads)
    writeCompleteCallback_ := writeCompleteCallback_
    loops := Function.update (fun _ => {}) 0 { poller_ := poller } }

/-- The loops are the base loop and those of the thread pool. -/
def IsLoop (l : ℕ) : Prop := l ≤ server.threadPool_.loops_.length

/-- No shared pointer to a connection is left. -/
def Unreferenced (id : ℕ) : Prop :=
  id ∉ UnorderedMap.values server.connections_ ∧
    ∀ l ≤ server.threadPool_.loops_.length,
      (∀ functor ∈ (server.loops l).functors ++ (server.loops l).pendingFunctors_,
        functor.conn ≠ id) ∧
      ∀ callback ∈ (server.loops l).callbacks, callback.1 ≠ .connection id

/-- A descriptor that is not open. -/
def Unused (fd : ℕ) : Prop :=
  server.acceptChannel_.fd_ ≠ fd ∧
    ∀ id < server.nextConnId_, (server.objects id).map ServerConnection.fd_ ≠ some fd

/-- `accept` returns a new descriptor, and `nextConnId_`, an `int`, has not reached its end. -/
def Accepts (connfd : Option ℕ) : Prop :=
  match connfd with
  | none => True
  | some fd => server.Unused fd ∧ server.nextConnId_ < 2147483647

instance (l : ℕ) : Decidable (server.IsLoop l) :=
  inferInstanceAs (Decidable (l ≤ server.threadPool_.loops_.length))

instance (id : ℕ) : Decidable (server.Unreferenced id) := by
  unfold Unreferenced
  infer_instance

instance (fd : ℕ) : Decidable (server.Unused fd) := by
  unfold Unused
  infer_instance

instance (connfd : Option ℕ) : Decidable (server.Accepts connfd) := by
  unfold Accepts
  split <;> infer_instance

def Possible : Input → Prop
  | .poll l ready =>
    server.IsLoop l ∧ (server.loops l).phase = .polling ∧ (server.loops l).poller_.Ready ready
  | .handleEvent l =>
    server.IsLoop l ∧ (server.loops l).phase = .handling ∧ (server.loops l).callbacks = [] ∧
      (server.loops l).activeChannels_ ≠ []
  | .callBack l calls =>
    server.IsLoop l ∧ (server.loops l).phase = .handling ∧ (server.loops l).callbacks ≠ [] ∧
      server.Accepts calls.accept
  | .doPendingFunctors l =>
    server.IsLoop l ∧ (server.loops l).phase = .handling ∧ (server.loops l).callbacks = [] ∧
      (server.loops l).activeChannels_ = []
  | .callFunctor l =>
    server.IsLoop l ∧ (server.loops l).phase = .executing ∧ (server.loops l).functors ≠ []
  | .pollAgain l =>
    server.IsLoop l ∧ (server.loops l).phase = .executing ∧ (server.loops l).functors = []
  | .send id _ _ => (server.objects id).isSome = true
  | .shutdown id => (server.objects id).isSome = true
  | .destroy id => (server.objects id).isSome = true ∧ server.Unreferenced id

instance (input : Input) : Decidable (server.Possible input) := by
  cases input <;> unfold Possible <;> infer_instance

/-- A step of a loop, or the end of a connection; `send` and `shutdown` are calls of the user. -/
def Input.FromLoop : Input → Prop
  | send _ _ _ => False
  | shutdown _ => False
  | _ => True

instance : (input : Input) → Decidable input.FromLoop
  | .poll _ _ => isTrue trivial
  | .handleEvent _ => isTrue trivial
  | .callBack _ _ => isTrue trivial
  | .doPendingFunctors _ => isTrue trivial
  | .callFunctor _ => isTrue trivial
  | .pollAgain _ => isTrue trivial
  | .send _ _ _ => isFalse not_false
  | .shutdown _ => isFalse not_false
  | .destroy _ => isTrue trivial

def machine : Machine TcpServer Input ServerEvent where
  step server input := server.step input
  Enabled server input := server.Possible input

instance (input : Input) : Decidable (machine.Enabled server input) :=
  inferInstanceAs (Decidable (server.Possible input))

end TcpServer

end ArenaGame
