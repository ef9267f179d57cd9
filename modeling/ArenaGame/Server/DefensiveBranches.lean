import ArenaGame.Server.GameServer

/-!
# The defensive branches of the server

Some branches of the source guard against a state that is not meant to occur: a message that cannot
be encoded, a session, a room or a battle that is gone, a refusal by a service that was asked for
something it should grant.  Most of them write a line to the log and give up.

For every function with such a branch there is one here that lists the defensive branches it goes
through.  It takes the branches of the function itself and leaves out everything else.
-/

namespace ArenaGame

open GameProtocol GameMessages

inductive DefensiveBranch
  /-- `GameMessages::encode` returns `false`. -/
  | encodeFailed (t : MessageType)
  /-- `payload.size() > maxPayloadSize` in `sendToConnection`. -/
  | payloadTooLarge (connId : UInt64)
  /-- `tick` discards a pair whose users are not both online and in no room. -/
  | pairDiscarded (pair : MatchPair)
  /-- `create` returns 0 to `tick`. -/
  | roomNotCreated (pair : MatchPair)
  /-- "Matched session disappeared before notification" -/
  | matchedSessionMissing (event : MatchFoundEvent)
  /-- "Selected room disappeared before battle start" -/
  | selectedRoomMissing (roomId : UInt64)
  /-- "Failed to start battle" -/
  | battleNotStarted (room : Room)
  /-- "Started battle disappeared" -/
  | startedBattleMissing (room : Room)
  /-- `forfeit` refuses in `onConnection`. -/
  | forfeitRefused (roomId : UInt64) (userId : UInt32)
  /-- `finishBattle` finds only one session or none. -/
  | playerSessionMissing (state : BattleState)

namespace MatchmakingService

variable (s : MatchmakingService)

def placePairBranches (pair : MatchPair) : List DefensiveBranch :=
  let firstConnectionId := s.sessionService_.findConnectionByUserId pair.first_.userId_
  let secondConnectionId := s.sessionService_.findConnectionByUserId pair.second_.userId_
  match s.sessionService_.findByConnection firstConnectionId,
      s.sessionService_.findByConnection secondConnectionId with
  | some firstSession, some secondSession =>
    if firstSession.roomId_ ≠ 0 ∨ secondSession.roomId_ ≠ 0 then [.pairDiscarded pair]
    else if (s.roomService_.create pair.first_.userId_ pair.second_.userId_).1 = 0 then
      [.roomNotCreated pair]
    else []
  | _, _ => [.pairDiscarded pair]

variable (range : MatchTicket → MatchTimePoint → ℚ) (now : MatchTimePoint)

def tickLoopBranches : ℕ → MatchmakingService → List DefensiveBranch
  | 0, _ => []
  | fuel + 1, s =>
    match s.matchQueue_.tryMatch range now with
    | (none, _) => []
    | (some pair, matchQueue_) =>
      { s with matchQueue_ }.placePairBranches pair ++
        tickLoopBranches fuel ({ s with matchQueue_ }.placePair pair).2

def tickBranches : List DefensiveBranch := tickLoopBranches range now (s.matchQueue_.size + 1) s

end MatchmakingService

namespace GameServer

variable (srv : GameServer)

/-! ### Sending -/

def sendToConnectionBranches (connId : UInt64) (payload : List UInt8) : List DefensiveBranch :=
  if connId ∉ srv.connections_ then []
  else if payload.length > MAX_FRAME - HEADER_SIZE then [.payloadTooLarge connId]
  else []

/-- Those of `encodeAndSend` and of `encodeAndSendOrShutdown`. -/
def encodeAndSendBranches (connId : UInt64) (t : MessageType) (value : t.Value) :
    List DefensiveBranch :=
  match t.encoded value with
  | none => [.encodeFailed t]
  | some writer => srv.sendToConnectionBranches connId writer

/-! ### Handlers -/

def handleLoginBranches (conn : UInt64) (reader : BinaryReader) : List DefensiveBranch :=
  let answered := srv.loginResponse conn reader
  answered.2.encodeAndSendBranches conn .loginResponse answered.1

def handleRegisterBranches (io : SaveIO) (conn : UInt64) (reader : BinaryReader) :
    List DefensiveBranch :=
  let answered := srv.registerResponse io reader
  answered.2.encodeAndSendBranches conn .registerResponse answered.1

def handleMatchJoinBranches (now : MatchTimePoint) (conn : UInt64) (reader : BinaryReader) :
    List DefensiveBranch :=
  let answered := srv.matchJoinResponse now conn reader
  answered.2.encodeAndSendBranches conn .matchJoinResponse answered.1

def handleMatchCancelBranches (conn : UInt64) (reader : BinaryReader) : List DefensiveBranch :=
  let answered := srv.matchCancelResponse conn reader
  answered.2.encodeAndSendBranches conn .matchCancelResponse answered.1

def notifyMatchFoundBranches (event : MatchFoundEvent) : List DefensiveBranch :=
  let firstConnectionId := srv.sessionService_.findConnectionByUserId event.pair_.first_.userId_
  let secondConnectionId := srv.sessionService_.findConnectionByUserId event.pair_.second_.userId_
  match srv.sessionService_.findByConnection firstConnectionId,
      srv.sessionService_.findByConnection secondConnectionId with
  | some firstSession, some secondSession =>
    srv.encodeAndSendBranches firstConnectionId .matchFoundNotification
        { roomId_ := event.roomId_, opponentUserId_ := secondSession.userId_,
          opponentUserName_ := secondSession.userName_, opponentElo_ := secondSession.elo_ } ++
      srv.encodeAndSendBranches secondConnectionId .matchFoundNotification
        { roomId_ := event.roomId_, opponentUserId_ := firstSession.userId_,
          opponentUserName_ := firstSession.userName_, opponentElo_ := firstSession.elo_ }
  | _, _ => [.matchedSessionMissing event]

def processMatchmakingTickBranches (range : MatchTicket → MatchTimePoint → ℚ)
    (now : MatchTimePoint) : List DefensiveBranch :=
  let ticked := srv.tick range now
  srv.tickBranches range now ++
    ticked.1.flatMap { srv with toMatchmakingService := ticked.2 }.notifyMatchFoundBranches

def sendBattleStartNotificationBranches (room : Room) : List DefensiveBranch :=
  srv.encodeAndSendBranches (srv.sessionService_.findConnectionByUserId room.firstUserId_)
      .battleStartNotification
      { roomId_ := room.roomId_, playerHero_ := room.firstHero_,
        opponentHero_ := room.secondHero_ } ++
    srv.encodeAndSendBranches (srv.sessionService_.findConnectionByUserId room.secondUserId_)
      .battleStartNotification
      { roomId_ := room.roomId_, playerHero_ := room.secondHero_,
        opponentHero_ := room.firstHero_ }

def sendBattleStateNotificationBranches (state : BattleState) : List DefensiveBranch :=
  srv.encodeAndSendBranches (srv.sessionService_.findConnectionByUserId state.firstUserId_)
      .battleStateNotification
      { roomId_ := state.roomId_, playerHealth_ := state.firstHealth_,
        opponentHealth_ := state.secondHealth_,
        playerTurn_ := state.activeUserId_ = state.firstUserId_ } ++
    srv.encodeAndSendBranches (srv.sessionService_.findConnectionByUserId state.secondUserId_)
      .battleStateNotification
      { roomId_ := state.roomId_, playerHealth_ := state.secondHealth_,
        opponentHealth_ := state.firstHealth_,
        playerTurn_ := state.activeUserId_ = state.secondUserId_ }

def sendBattleResultBranches (state : BattleState) (userId : UInt32) : List DefensiveBranch :=
  let connectionId := srv.sessionService_.findConnectionByUserId userId
  match srv.sessionService_.findByConnection connectionId with
  | none => []
  | some session =>
    srv.encodeAndSendBranches connectionId .battleResultNotification
      { roomId_ := state.roomId_, won_ := state.winnerUserId_ = userId, playerElo_ := session.elo_ }

def finishBattleBranches (io : SaveIO) (state : BattleState) : List DefensiveBranch :=
  let firstConnectionId := srv.sessionService_.findConnectionByUserId state.firstUserId_
  let secondConnectionId := srv.sessionService_.findConnectionByUserId state.secondUserId_
  let missing : List DefensiveBranch :=
    match srv.sessionService_.findByConnection firstConnectionId,
        srv.sessionService_.findByConnection secondConnectionId with
    | some _, some _ => []
    | _, _ => [.playerSessionMissing state]
  let srv := srv.settleElo io state
  missing ++ srv.sendBattleResultBranches state state.firstUserId_ ++
    srv.sendBattleResultBranches state state.secondUserId_

def startSelectedBattleBranches (conn : UInt64) : List DefensiveBranch :=
  match srv.sessionService_.findByConnection conn with
  | none => []
  | some session =>
    if !srv.roomService_.bothHeroesSelected session.roomId_ then []
    else
      match srv.roomService_.find session.roomId_ with
      | none => [.selectedRoomMissing session.roomId_]
      | some room =>
        let started := srv.battleService_.start room
        let srv := { srv with battleService_ := started.2 }
        if !started.1 then [.battleNotStarted room]
        else
          match srv.battleService_.find room.roomId_ with
          | none => [.startedBattleMissing room]
          | some battleState =>
            srv.sendBattleStartNotificationBranches room ++
              srv.sendBattleStateNotificationBranches battleState

def handleHeroSelectBranches (conn : UInt64) (reader : BinaryReader) : List DefensiveBranch :=
  let answered := srv.heroSelectResponse conn reader
  let srv := answered.2
  match MessageType.encoded .heroSelectResponse answered.1 with
  | none => [.encodeFailed .heroSelectResponse]
  | some writer =>
    srv.sendToConnectionBranches conn writer ++
      if !answered.1.accepted_ then [] else srv.startSelectedBattleBranches conn

def handleBattleAttackBranches (io : SaveIO) (conn : UInt64) (reader : BinaryReader) :
    List DefensiveBranch :=
  match (BattleAttackRequest.decode {} reader).1 with
  | none => []
  | some _ =>
    match srv.sessionService_.findByConnection conn with
    | none => []
    | some session =>
      if session.roomId_ = 0 then []
      else
        let attacked := srv.battleService_.attack session.roomId_ session.userId_
        let result := attacked.1
        let srv := { srv with battleService_ := attacked.2 }
        if !result.accepted_ then []
        else
          srv.sendBattleStateNotificationBranches result.state_ ++
            if !result.finished_ then [] else srv.finishBattleBranches io result.state_

/-! ### Connections and events -/

def leaveRoomBranches (io : SaveIO) (userId : UInt32) (roomId : UInt64) : List DefensiveBranch :=
  if roomId = 0 then []
  else
    match srv.battleService_.find roomId with
    | some _ =>
      let forfeited := srv.battleService_.forfeit roomId userId
      let result := forfeited.1
      let srv := { srv with battleService_ := forfeited.2 }
      if result.accepted_ then srv.finishBattleBranches io result.state_
      else [.forfeitRefused roomId userId]
    | none =>
      match srv.roomService_.find roomId with
      | none => []
      | some room =>
        let opponentUserId :=
          if room.firstUserId_ = userId then room.secondUserId_ else room.firstUserId_
        srv.encodeAndSendBranches (srv.sessionService_.findConnectionByUserId opponentUserId)
          .roomClosedNotification
          { roomId_ := roomId, reason_ := .ofLiteral "Opponent disconnected" }

def onDisconnectedBranches (io : SaveIO) (conn : UInt64) : List DefensiveBranch :=
  match srv.sessionService_.findByConnection conn with
  | none => []
  | some session =>
    let srv := { srv with toMatchmakingService := (srv.cancel session.userId_).2 }
    srv.leaveRoomBranches io session.userId_ session.roomId_

def dispatchBranches (now : MatchTimePoint) (io : SaveIO) (conn : UInt64) (msgType : UInt16)
    (reader : BinaryReader) : List DefensiveBranch :=
  if msgType = MSG_HEARTBEAT_REQ then []
  else if msgType = MSG_LOGIN_REQ then srv.handleLoginBranches conn reader
  else if msgType = MSG_REGISTER_REQ then srv.handleRegisterBranches io conn reader
  else if msgType = MSG_MATCH_JOIN_REQ then srv.handleMatchJoinBranches now conn reader
  else if msgType = MSG_HERO_SELECT_REQ then srv.handleHeroSelectBranches conn reader
  else if msgType = MSG_BATTLE_ATTACK_REQ then srv.handleBattleAttackBranches io conn reader
  else if msgType = MSG_MATCH_CANCEL_REQ then srv.handleMatchCancelBranches conn reader
  else []

variable (range : MatchTicket → MatchTimePoint → ℚ)

def stepBranches : Event → List DefensiveBranch
  | .opened _ => []
  | .message conn frame now io => srv.dispatchBranches now io conn frame.1 (.ofBytes frame.2)
  | .tick now => srv.processMatchmakingTickBranches range now
  | .closed conn io => srv.onDisconnectedBranches io conn

/-- The defensive branches that a run of the server goes through. -/
def runBranches (srv : GameServer) : List Event → List DefensiveBranch
  | [] => []
  | event :: events =>
    srv.stepBranches range event ++ runBranches (srv.step range event).1 events

end GameServer

end ArenaGame
