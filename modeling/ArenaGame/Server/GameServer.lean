import ArenaGame.Common.FrameWriter
import ArenaGame.Common.GameMessages
import ArenaGame.Server.AccountRepository
import ArenaGame.Server.BattleService
import ArenaGame.Server.MatchmakingService
import ArenaGame.Util.Machine

/-!
# The game server (`server/game/GameServer.h`, `server/game/GameServer.cc`)

The state of the server is what its services hold; a `TcpConnectionPtr` is its id.  A handler
returns the next state with a list of effects: the frames that it sends, the connections that it
shuts down and, as a record for the reader of a run, the matches that a tick finds and the calls
that start and settle battles.

The main loop turns one event at a time into one call of a callback: `machine`.
-/

namespace ArenaGame

open GameProtocol GameMessages

structure GameServer extends MatchmakingService where
  connections_ : Finset UInt64
  accountRepository_ : AccountRepository
  battleService_ : BattleService

inductive Effect
  /-- `conn->send` of one frame. -/
  | send (connId : UInt64) (frame : Frame)
  | shutdown (connId : UInt64)
  /-- A tick has created a room for a pair. -/
  | matchFound (event : MatchFoundEvent)
  /-- `battleService_.start(room)` has returned `true`. -/
  | startBattle (room : Room)
  /-- `finishBattle(state)` is called on `server`; `io` is what its call of `save` meets. -/
  | finishBattle (server : GameServer) (io : SaveIO) (state : BattleState)

def toErrorCode : AccountResult → ErrorCode
  | .kOk => .kNone
  | .kDuplicateUser => .kDuplicateUserName
  | .kInvalidCredentials => .kInvalidCredentials
  | .kInvalidInput => .kInvalidCommand
  | .kStorageError => .kInternalError

def accountResultMessage : AccountResult → StdString
  | .kDuplicateUser => .ofLiteral "Username already exists"
  | .kInvalidCredentials => .ofLiteral "Invalid username or password"
  | .kInvalidInput => .ofLiteral "Invalid username or password format"
  | .kStorageError => .ofLiteral "Account service temporarily unavailable"
  | .kOk => []

namespace GameServer

/-- `init`: the server before its first event, unless the account file cannot be loaded.  Port,
event loop and timer are those of `machine`. -/
def init (accountFile : Option (List UInt8)) : Option GameServer :=
  let loaded := AccountRepository.load { file_ := accountFile }
  if !loaded.1 then none
  else
    some
      { matchQueue_ := .empty
        roomService_ := .empty
        sessionService_ := .empty
        connections_ := ∅
        accountRepository_ := loaded.2
        battleService_ := .empty }

variable (srv : GameServer)

/-! ### Sending -/

def sendToConnection (connId : UInt64) (msgType : UInt16) (payload : List UInt8) : List Effect :=
  if connId ∉ srv.connections_ then []
  else
    let maxPayloadSize := MAX_FRAME - HEADER_SIZE
    if payload.length > maxPayloadSize then [.shutdown connId]
    else [.send connId (msgType, payload)]

/-- `BinaryWriter writer; if(encode(writer, value)) sendToConnection(connId, msgType, writer);` -/
def encodeAndSend (connId : UInt64) (msgType : UInt16) (t : MessageType) (value : t.Value) :
    List Effect :=
  match t.encoded value with
  | none => []
  | some writer => srv.sendToConnection connId msgType writer

/-- The same for an answer whose connection is shut down when it cannot be encoded. -/
def encodeAndSendOrShutdown (connId : UInt64) (msgType : UInt16) (t : MessageType)
    (value : t.Value) : List Effect :=
  match t.encoded value with
  | none => [.shutdown connId]
  | some writer => srv.sendToConnection connId msgType writer

/-! ### Accounts -/

/-- `handleLogin` up to its answer. -/
def loginResponse (conn : UInt64) (reader : BinaryReader) : LoginResponse × GameServer :=
  match (LoginRequest.decode {} reader).1 with
  | none =>
    ({ errorCode_ := .kMalformedPayload
       errorMessage_ := .ofLiteral "Malformed login request" }, srv)
  | some request =>
    if srv.sessionService_.findByConnection conn ≠ none then
      ({ errorCode_ := .kInvalidState
         errorMessage_ := .ofLiteral "Connection is already authenticated" }, srv)
    else
      let verified := srv.accountRepository_.Verify request.userName_ request.password_ {}
      let result := verified.1
      let account := verified.2
      if result ≠ .kOk then
        ({ errorCode_ := toErrorCode result, errorMessage_ := accountResultMessage result }, srv)
      else
        let session : PlayerSession :=
          { userId_ := account.userId_, userName_ := account.userName_, elo_ := account.elo_ }
        let bound := srv.sessionService_.bind conn session
        if !bound.1 then
          ({ errorCode_ := .kInvalidState
             errorMessage_ := .ofLiteral "Account is already online" },
            { srv with sessionService_ := bound.2 })
        else
          ({ success_ := true, userId_ := account.userId_, elo_ := account.elo_,
             userName_ := account.userName_ },
            { srv with sessionService_ := bound.2 })

def handleLogin (conn : UInt64) (reader : BinaryReader) : GameServer × List Effect :=
  let answered := srv.loginResponse conn reader
  (answered.2,
    answered.2.encodeAndSendOrShutdown conn MSG_LOGIN_RSP .loginResponse answered.1)

/-- `handleRegister` up to its answer. -/
def registerResponse (io : SaveIO) (reader : BinaryReader) : RegisterResponse × GameServer :=
  match (RegisterRequest.decode {} reader).1 with
  | none =>
    ({ errorCode_ := .kMalformedPayload
       errorMessage_ := .ofLiteral "Malformed register request" }, srv)
  | some request =>
    let registered := srv.accountRepository_.Register io request.userName_ request.password_ {}
    let result := registered.1
    let account := registered.2.1
    let srv := { srv with accountRepository_ := registered.2.2 }
    if result ≠ .kOk then
      ({ errorCode_ := toErrorCode result, errorMessage_ := accountResultMessage result }, srv)
    else ({ success_ := true, userId_ := account.userId_, userName_ := account.userName_ }, srv)

def handleRegister (io : SaveIO) (conn : UInt64) (reader : BinaryReader) :
    GameServer × List Effect :=
  let answered := srv.registerResponse io reader
  (answered.2,
    answered.2.encodeAndSendOrShutdown conn MSG_REGISTER_RSP .registerResponse answered.1)

/-! ### Matchmaking -/

/-- `handleMatchJoin` up to its answer; `now` is `MatchClock::now()`. -/
def matchJoinResponse (now : MatchTimePoint) (conn : UInt64) (reader : BinaryReader) :
    MatchJoinResponse × GameServer :=
  match (MatchJoinRequest.decode {} reader).1 with
  | none =>
    ({ errorCode_ := .kMalformedPayload
       errorMessage_ := .ofLiteral "Malformed match join payload" }, srv)
  | some _ =>
    match srv.sessionService_.findByConnection conn with
    | none =>
      ({ errorCode_ := .kNotAuthenticated
         errorMessage_ := .ofLiteral "Login is required before matchmaking" }, srv)
    | some session =>
      if session.roomId_ ≠ 0 then
        ({ errorCode_ := .kInvalidState, errorMessage_ := .ofLiteral "Already in a room" }, srv)
      else
        let ticket : MatchTicket :=
          { userId_ := session.userId_, elo_ := session.elo_, joinedAt_ := now }
        let joined := srv.join ticket
        let srv := { srv with toMatchmakingService := joined.2 }
        if !joined.1 then
          ({ errorCode_ := .kInvalidState
             errorMessage_ := .ofLiteral "Already in matchmaking queue" }, srv)
        else ({ accepted_ := true }, srv)

def handleMatchJoin (now : MatchTimePoint) (conn : UInt64) (reader : BinaryReader) :
    GameServer × List Effect :=
  let answered := srv.matchJoinResponse now conn reader
  (answered.2, answered.2.encodeAndSend conn MSG_MATCH_JOIN_RSP .matchJoinResponse answered.1)

/-- `handleMatchCancel` up to its answer. -/
def matchCancelResponse (conn : UInt64) (reader : BinaryReader) :
    MatchCancelResponse × GameServer :=
  match (MatchCancelRequest.decode {} reader).1 with
  | none =>
    ({ errorCode_ := .kMalformedPayload
       errorMessage_ := .ofLiteral "Malformed match cancel payload" }, srv)
  | some _ =>
    match srv.sessionService_.findByConnection conn with
    | none =>
      ({ errorCode_ := .kNotAuthenticated
         errorMessage_ := .ofLiteral "Login is required before cancelling matchmaking" }, srv)
    | some session =>
      if session.roomId_ ≠ 0 then
        ({ errorCode_ := .kInvalidState, errorMessage_ := .ofLiteral "Already in a room" }, srv)
      else
        let cancelled := srv.cancel session.userId_
        let srv := { srv with toMatchmakingService := cancelled.2 }
        if !cancelled.1 then
          ({ errorCode_ := .kInvalidState
             errorMessage_ := .ofLiteral "Not in matchmaking queue" }, srv)
        else ({ accepted_ := true }, srv)

def handleMatchCancel (conn : UInt64) (reader : BinaryReader) : GameServer × List Effect :=
  let answered := srv.matchCancelResponse conn reader
  (answered.2, answered.2.encodeAndSend conn MSG_MATCH_CANCEL_RSP .matchCancelResponse answered.1)

/-- The body of the loop of `processMatchmakingTick`. -/
def notifyMatchFound (event : MatchFoundEvent) : List Effect :=
  let firstConnectionId := srv.sessionService_.findConnectionByUserId event.pair_.first_.userId_
  let secondConnectionId := srv.sessionService_.findConnectionByUserId event.pair_.second_.userId_
  match srv.sessionService_.findByConnection firstConnectionId,
      srv.sessionService_.findByConnection secondConnectionId with
  | some firstSession, some secondSession =>
    let firstNotification : MatchFoundNotification :=
      { roomId_ := event.roomId_, opponentUserId_ := secondSession.userId_,
        opponentUserName_ := secondSession.userName_, opponentElo_ := secondSession.elo_ }
    let secondNotification : MatchFoundNotification :=
      { roomId_ := event.roomId_, opponentUserId_ := firstSession.userId_,
        opponentUserName_ := firstSession.userName_, opponentElo_ := firstSession.elo_ }
    srv.encodeAndSend firstConnectionId MSG_MATCH_FOUND_NTF .matchFoundNotification
        firstNotification ++
      srv.encodeAndSend secondConnectionId MSG_MATCH_FOUND_NTF .matchFoundNotification
        secondNotification
  | _, _ => []

/-- `processMatchmakingTick`, generic in the function in the place of `allowedEloRange`. -/
def processMatchmakingTick (range : MatchTicket → MatchTimePoint → ℚ) (now : MatchTimePoint) :
    GameServer × List Effect :=
  let ticked := srv.tick range now
  let srv := { srv with toMatchmakingService := ticked.2 }
  (srv, ticked.1.flatMap fun event => .matchFound event :: srv.notifyMatchFound event)

/-! ### Battles -/

def sendBattleStartNotification (room : Room) : List Effect :=
  let firstConnectionId := srv.sessionService_.findConnectionByUserId room.firstUserId_
  let secondConnectionId := srv.sessionService_.findConnectionByUserId room.secondUserId_
  let firstNotification : BattleStartNotification :=
    { roomId_ := room.roomId_, playerHero_ := room.firstHero_, opponentHero_ := room.secondHero_ }
  let secondNotification : BattleStartNotification :=
    { roomId_ := room.roomId_, playerHero_ := room.secondHero_, opponentHero_ := room.firstHero_ }
  srv.encodeAndSend firstConnectionId MSG_BATTLE_START_NTF .battleStartNotification
      firstNotification ++
    srv.encodeAndSend secondConnectionId MSG_BATTLE_START_NTF .battleStartNotification
      secondNotification

def sendBattleStateNotification (state : BattleState) : List Effect :=
  let firstConnectionId := srv.sessionService_.findConnectionByUserId state.firstUserId_
  let secondConnectionId := srv.sessionService_.findConnectionByUserId state.secondUserId_
  let firstNotification : BattleStateNotification :=
    { roomId_ := state.roomId_, playerHealth_ := state.firstHealth_,
      opponentHealth_ := state.secondHealth_,
      playerTurn_ := state.activeUserId_ = state.firstUserId_ }
  let secondNotification : BattleStateNotification :=
    { roomId_ := state.roomId_, playerHealth_ := state.secondHealth_,
      opponentHealth_ := state.firstHealth_,
      playerTurn_ := state.activeUserId_ = state.secondUserId_ }
  srv.encodeAndSend firstConnectionId MSG_BATTLE_STATE_NTF .battleStateNotification
      firstNotification ++
    srv.encodeAndSend secondConnectionId MSG_BATTLE_STATE_NTF .battleStateNotification
      secondNotification

/-- One half of `sendBattleResultNotification`. -/
def sendBattleResult (state : BattleState) (connectionId : UInt64) (userId : UInt32) :
    List Effect :=
  match srv.sessionService_.findByConnection connectionId with
  | none => []
  | some session =>
    let notification : BattleResultNotification :=
      { roomId_ := state.roomId_, won_ := state.winnerUserId_ = userId, playerElo_ := session.elo_ }
    srv.encodeAndSend connectionId MSG_BATTLE_RESULT_NTF .battleResultNotification notification

def sendBattleResultNotification (state : BattleState) : List Effect :=
  let firstConnectionId := srv.sessionService_.findConnectionByUserId state.firstUserId_
  let secondConnectionId := srv.sessionService_.findConnectionByUserId state.secondUserId_
  srv.sendBattleResult state firstConnectionId state.firstUserId_ ++
    srv.sendBattleResult state secondConnectionId state.secondUserId_

/-- The first half of `finishBattle`: the ELO of both players, stored and in their sessions. -/
def settleElo (io : SaveIO) (state : BattleState) : GameServer :=
  let firstConnectionId := srv.sessionService_.findConnectionByUserId state.firstUserId_
  let secondConnectionId := srv.sessionService_.findConnectionByUserId state.secondUserId_
  match srv.sessionService_.findByConnection firstConnectionId,
      srv.sessionService_.findByConnection secondConnectionId with
  | some firstSession, some secondSession =>
    let eloResult := BattleService.calculateElo state firstSession.elo_ secondSession.elo_
    let updated := srv.accountRepository_.updateEloPair io firstSession.userId_
      eloResult.firstElo_ secondSession.userId_ eloResult.secondElo_
    let srv := { srv with accountRepository_ := updated.2 }
    if updated.1 then
      { srv with
        sessionService_ :=
          (srv.sessionService_.setElo firstConnectionId eloResult.firstElo_).setElo
            secondConnectionId eloResult.secondElo_ }
    else srv
  | _, _ => srv

def finishBattle (io : SaveIO) (state : BattleState) : GameServer × List Effect :=
  let srv := srv.settleElo io state
  let notifications := srv.sendBattleResultNotification state
  ({ srv with
      sessionService_ :=
        (srv.sessionService_.clearRoom state.firstUserId_).clearRoom state.secondUserId_
      roomService_ := srv.roomService_.remove state.roomId_
      battleService_ := srv.battleService_.remove state.roomId_ },
    notifications)

/-- A call of `finishBattle` with its record. -/
def callFinishBattle (io : SaveIO) (state : BattleState) : GameServer × List Effect :=
  let finished := srv.finishBattle io state
  (finished.1, .finishBattle srv io state :: finished.2)

/-- `handleHeroSelect` up to its answer. -/
def heroSelectResponse (conn : UInt64) (reader : BinaryReader) : HeroSelectResponse × GameServer :=
  match (HeroSelectRequest.decode {} reader).1 with
  | none =>
    ({ errorCode_ := .kMalformedPayload
       errorMessage_ := .ofLiteral "Malformed hero selection payload" }, srv)
  | some request =>
    match srv.sessionService_.findByConnection conn with
    | none =>
      ({ errorCode_ := .kNotAuthenticated
         errorMessage_ := .ofLiteral "Login is required before selecting a hero" }, srv)
    | some session =>
      if session.roomId_ = 0 then
        ({ errorCode_ := .kInvalidState
           errorMessage_ := .ofLiteral "Matchmaking is required before selecting a hero" }, srv)
      else
        let selected := srv.roomService_.selectHero session.roomId_ session.userId_
          request.heroType_
        let srv := { srv with roomService_ := selected.2 }
        if !selected.1 then
          ({ errorCode_ := .kInvalidState
             errorMessage_ := .ofLiteral "Hero selection is invalid or already confirmed" }, srv)
        else ({ accepted_ := true }, srv)

/-- The rest of `handleHeroSelect`, behind an accepting answer. -/
def startSelectedBattle (conn : UInt64) : GameServer × List Effect :=
  match srv.sessionService_.findByConnection conn with
  | none => (srv, [])
  | some session =>
    if !srv.roomService_.bothHeroesSelected session.roomId_ then (srv, [])
    else
      match srv.roomService_.find session.roomId_ with
      | none => (srv, [])
      | some room =>
        let started := srv.battleService_.start room
        let srv := { srv with battleService_ := started.2 }
        if !started.1 then (srv, [])
        else
          match srv.battleService_.find room.roomId_ with
          | none => (srv, [.startBattle room])
          | some battleState =>
            (srv, .startBattle room :: (srv.sendBattleStartNotification room ++
              srv.sendBattleStateNotification battleState))

def handleHeroSelect (conn : UInt64) (reader : BinaryReader) : GameServer × List Effect :=
  let answered := srv.heroSelectResponse conn reader
  let srv := answered.2
  match MessageType.encoded .heroSelectResponse answered.1 with
  | none => (srv, [])
  | some writer =>
    let answer := srv.sendToConnection conn MSG_HERO_SELECT_RSP writer
    if !answered.1.accepted_ then (srv, answer)
    else
      let started := srv.startSelectedBattle conn
      (started.1, answer ++ started.2)

def handleBattleAttack (io : SaveIO) (conn : UInt64) (reader : BinaryReader) :
    GameServer × List Effect :=
  match (BattleAttackRequest.decode {} reader).1 with
  | none => (srv, [])
  | some _ =>
    match srv.sessionService_.findByConnection conn with
    | none => (srv, [])
    | some session =>
      if session.roomId_ = 0 then (srv, [])
      else
        let attacked := srv.battleService_.attack session.roomId_ session.userId_
        let result := attacked.1
        let srv := { srv with battleService_ := attacked.2 }
        if !result.accepted_ then (srv, [])
        else
          let notifications := srv.sendBattleStateNotification result.state_
          if !result.finished_ then (srv, notifications)
          else
            let finished := srv.callFinishBattle io result.state_
            (finished.1, notifications ++ finished.2)

/-! ### Connections and messages -/

/-- The part of `onConnection` that deals with the room of a session whose connection is down. -/
def leaveRoom (io : SaveIO) (userId : UInt32) (roomId : UInt64) : GameServer × List Effect :=
  if roomId = 0 then (srv, [])
  else
    match srv.battleService_.find roomId with
    | some _ =>
      let forfeited := srv.battleService_.forfeit roomId userId
      let result := forfeited.1
      let srv := { srv with battleService_ := forfeited.2 }
      if result.accepted_ then srv.callFinishBattle io result.state_ else (srv, [])
    | none =>
      match srv.roomService_.find roomId with
      | none => (srv, [])
      | some room =>
        let opponentUserId :=
          if room.firstUserId_ = userId then room.secondUserId_ else room.firstUserId_
        let opponentConnectionId := srv.sessionService_.findConnectionByUserId opponentUserId
        let notification : RoomClosedNotification :=
          { roomId_ := roomId, reason_ := .ofLiteral "Opponent disconnected" }
        ({ srv with
            sessionService_ := srv.sessionService_.clearRoom opponentUserId
            roomService_ := srv.roomService_.remove roomId },
          srv.encodeAndSend opponentConnectionId MSG_ROOM_CLOSED_NTF .roomClosedNotification
            notification)

/-- `onConnection` for a connection that is up. -/
def onConnected (conn : UInt64) : GameServer × List Effect :=
  ({ srv with connections_ := insert conn srv.connections_ }, [])

/-- `onConnection` for a connection that is down. -/
def onDisconnected (io : SaveIO) (conn : UInt64) : GameServer × List Effect :=
  let left :=
    match srv.sessionService_.findByConnection conn with
    | none => (srv, [])
    | some session =>
      let srv := { srv with toMatchmakingService := (srv.cancel session.userId_).2 }
      srv.leaveRoom io session.userId_ session.roomId_
  ({ left.1 with
      sessionService_ := left.1.sessionService_.remove conn
      connections_ := left.1.connections_.erase conn },
    left.2)

/-- The switch of `onMessage`. -/
def dispatch (now : MatchTimePoint) (io : SaveIO) (conn : UInt64) (msgType : UInt16)
    (reader : BinaryReader) : GameServer × List Effect :=
  if msgType = MSG_HEARTBEAT_REQ then (srv, [])
  else if msgType = MSG_LOGIN_REQ then srv.handleLogin conn reader
  else if msgType = MSG_REGISTER_REQ then srv.handleRegister io conn reader
  else if msgType = MSG_MATCH_JOIN_REQ then srv.handleMatchJoin now conn reader
  else if msgType = MSG_HERO_SELECT_REQ then srv.handleHeroSelect conn reader
  else if msgType = MSG_BATTLE_ATTACK_REQ then srv.handleBattleAttack io conn reader
  else if msgType = MSG_MATCH_CANCEL_REQ then srv.handleMatchCancel conn reader
  else (srv, [])

/-! ### The main loop -/

/-- The frames that are handed to a connection, in order. -/
def framesTo (c : UInt64) : List Effect → List Frame
  | [] => []
  | .send c' frame :: o => if c' = c then frame :: framesTo c o else framesTo c o
  | _ :: o => framesTo c o

/-- The bytes that are passed to `send` of a connection, in order. -/
def bytesTo (c : UInt64) (o : List Effect) : List UInt8 := (framesTo c o).flatMap frameBytes

/-- An event of the main loop; `now` is the time and `io` what a call of `save` would meet.  A
message is one frame that `onMessage` has cut off. -/
inductive Event
  | opened (conn : UInt64)
  | message (conn : UInt64) (frame : Frame) (now : MatchTimePoint) (io : SaveIO)
  | tick (now : MatchTimePoint)
  | closed (conn : UInt64) (io : SaveIO)

/-- The connection that an event is about. -/
def Event.connection : Event → Option UInt64
  | opened conn => some conn
  | message conn _ _ _ => some conn
  | tick _ => none
  | closed conn _ => some conn

/-- Connections are opened with a fresh nonzero id; messages come from open connections. -/
def Event.Possible : Event → Prop
  | opened conn => conn ≠ 0 ∧ conn ∉ srv.connections_
  | message conn _ _ _ => conn ∈ srv.connections_
  | tick _ => True
  | closed conn _ => conn ∈ srv.connections_

instance (event : Event) : Decidable (event.Possible srv) := by
  cases event <;> unfold Event.Possible <;> infer_instance

variable (range : MatchTicket → MatchTimePoint → ℚ)

def step : Event → GameServer × List Effect
  | .opened conn => srv.onConnected conn
  | .message conn frame now io => srv.dispatch now io conn frame.1 (.ofBytes frame.2)
  | .tick now => srv.processMatchmakingTick range now
  | .closed conn io => srv.onDisconnected io conn

def machine : Machine GameServer Event Effect where
  step srv := srv.step range
  Enabled srv event := event.Possible srv

instance (event : Event) : Decidable ((machine range).Enabled srv event) :=
  inferInstanceAs (Decidable (event.Possible srv))

end GameServer

end ArenaGame
