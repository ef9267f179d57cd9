import ArenaGame.Muduo.TcpServer
import ArenaGame.Server.GameServer
import ArenaGame.Server.OnMessage

/-!
# The whole server (`GameServer` on its `TcpServer`)

`GameServer::init` registers its callbacks at a `TcpServer` that has no loop but the main loop, so
`onConnection` and `onMessage` run in the middle of the steps of that loop, and what they send goes
out over connections of the same server.  The matchmaking tick runs on the main loop as well.

`connections_` maps the id of a connection to the pointer to it; here the id stands for the pointer.
The effects of a handler are performed when it returns.  `send` and `shutdown` call nothing back,
so a handler does not see the difference.
-/

namespace ArenaGame

/-- What the handlers get from outside: the time, what a call of `save` meets and what `::write`
returns, at the first, the second, the third time that something is asked for. -/
structure Outside where
  now : ℕ → MatchTimePoint
  io : ℕ → SaveIO
  write : ℕ → List UInt8 → WriteResult

structure ArenaServer where
  server_ : TcpServer
  game : GameServer
  /-- The `inputBuffer_` of each connection. -/
  inputBuffers : ℕ → Buffer := fun _ => .ofSize kInitialSize
  /-- How often something has been asked for. -/
  asked : ℕ := 0

inductive ArenaEvent
  | server (event : ServerEvent)
  /-- A handler of the game is called. -/
  | called (event : GameServer.Event)
  | effect (effect : Effect)

def ArenaEvent.onServer : ArenaEvent → Option ServerEvent
  | server event => some event
  | _ => none

def ArenaEvent.onGame : ArenaEvent → Option GameServer.Event
  | called event => some event
  | _ => none

def ArenaEvent.onEffect : ArenaEvent → Option Effect
  | effect e => some e
  | _ => none

/-- `id()` of a connection. -/
def connId (id : ℕ) : UInt64 := UInt64.ofNat id

namespace ArenaServer

variable (outside : Outside)

/-- One thing is done after the other. -/
def andThen (done : ArenaServer × List ArenaEvent)
    (next : ArenaServer → ArenaServer × List ArenaEvent) : ArenaServer × List ArenaEvent :=
  ((next done.1).1, done.2 ++ (next done.1).2)

/-! ### What the game does to its connections -/

/-- The server takes an input, without what it calls back. -/
def onServer (input : TcpServer.Input) (s : ArenaServer) : ArenaServer × List ArenaEvent :=
  ({ s with server_ := (s.server_.step input).1 }, (s.server_.step input).2.map .server)

def perform (effect : Effect) (s : ArenaServer) : ArenaServer × List ArenaEvent :=
  andThen ({ s with asked := s.asked + 1 }, [.effect effect]) <|
    match effect with
    | .send c frame =>
      onServer (.send c.toNat (frameBytes frame) (outside.write s.asked (frameBytes frame)))
    | .shutdown c => onServer (.shutdown c.toNat)
    | _ => fun s => (s, [])

def performAll : List Effect → ArenaServer → ArenaServer × List ArenaEvent
  | [], s => (s, [])
  | effect :: effects, s => andThen (perform outside effect s) (performAll effects)

/-- A handler of the game is called and comes to `next`. -/
def handle (event : GameServer.Event) (next : GameServer × List Effect) (s : ArenaServer) :
    ArenaServer × List ArenaEvent :=
  andThen ({ s with game := next.1, asked := s.asked + 1 }, [.called event])
    (performAll outside next.2)

/-! ### The callbacks -/

def onConnection (id : ℕ) (connected : Bool) (s : ArenaServer) : ArenaServer × List ArenaEvent :=
  if connected then s.handle outside (.opened (connId id)) (s.game.onConnected (connId id))
  else
    let io := outside.io s.asked
    s.handle outside (.closed (connId id) io) (s.game.onDisconnected io (connId id))

/-- One call of the handler switch. -/
def dispatch (id : ℕ) (msgType : UInt16) (reader : BinaryReader) (s : ArenaServer) :
    ArenaServer × List ArenaEvent :=
  let now := outside.now s.asked
  let io := outside.io s.asked
  s.handle outside (.message (connId id) (msgType, reader.remaining) now io)
    (s.game.dispatch now io (connId id) msgType reader)

/-- `onMessage`, when `readFd` has read `data`. -/
def onMessage (id : ℕ) (data : List UInt8) (s : ArenaServer) : ArenaServer × List ArenaEvent :=
  let (buf, done) := ArenaGame.onMessage
    (fun msgType reader done => andThen done (dispatch outside id msgType reader))
    (fun done => andThen done (onServer (.shutdown id)))
    ((s.inputBuffers id).readFd data) (s, [])
  ({ done.1 with inputBuffers := Function.update done.1.inputBuffers id buf }, done.2)

def callback : ServerEvent → ArenaServer → ArenaServer × List ArenaEvent
  | .connectionCallback_ id connected => onConnection outside id connected
  | .messageCallback_ id data => onMessage outside id data
  | _ => fun s => (s, [])

def callbacks : List ServerEvent → ArenaServer → ArenaServer × List ArenaEvent
  | [], s => (s, [])
  | event :: events, s => andThen (callback outside event s) (callbacks events)

/-! ### The main loop -/

inductive Input
  /-- A step of the main loop. -/
  | loop (input : TcpServer.Input)
  | processMatchmakingTick

variable (range : MatchTicket → MatchTimePoint → ℚ)

def step (s : ArenaServer) : Input → ArenaServer × List ArenaEvent
  | .loop input => andThen (s.onServer input) (callbacks outside (s.server_.step input).2)
  | .processMatchmakingTick =>
    let now := outside.now s.asked
    s.handle outside (.tick now) (s.game.processMatchmakingTick range now)

def Possible (s : ArenaServer) : Input → Prop
  | .loop input => s.server_.Possible input ∧ input.FromLoop
  | .processMatchmakingTick => True

instance (s : ArenaServer) : (input : Input) → Decidable (s.Possible input)
  | .loop input => inferInstanceAs (Decidable (s.server_.Possible input ∧ input.FromLoop))
  | .processMatchmakingTick => isTrue trivial

def machine : Machine ArenaServer Input ArenaEvent where
  step s := s.step outside range
  Enabled s input := s.Possible input

instance (s : ArenaServer) (input : Input) : Decidable ((machine outside range).Enabled s input) :=
  inferInstanceAs (Decidable (s.Possible input))

/-- `init` has set the server up, and `start` has started it; it listens on `acceptSocket_`. -/
def started (ipPort : StdString) (acceptSocket_ : ℕ) (game : GameServer) : ArenaServer where
  server_ := .started (.ofLiteral "GameServer") ipPort acceptSocket_ 0 false
  game := game

/-! ### What a run shows -/

/-- What the `TcpServer` has done. -/
def serverEvents (o : List ArenaEvent) : List ServerEvent := o.filterMap ArenaEvent.onServer

/-- The calls of the handlers. -/
def gameEvents (o : List ArenaEvent) : List GameServer.Event := o.filterMap ArenaEvent.onGame

/-- What the handlers have done. -/
def effects (o : List ArenaEvent) : List Effect := o.filterMap ArenaEvent.onEffect

end ArenaServer

end ArenaGame
