import ArenaGame.Client.GameClient
import ArenaGame.Client.Scenes
import ArenaGame.Common.Framing

/-!
# The main window of the client (`ArenaClient/mainwindow.cpp`, `scenes/LoginScene.cc`)

`stack_` is the scene on display.  The handlers of the main window and of the login scene are in
`handlers_`; what a click on a button leads to is in `click`, with the frames that it hands to
`GameClient::sendMessage`.  The socket is connected throughout, so the pending action of the login
scene is not modelled.

A `QString` is the UTF-8 that it is made from or turned into.
-/

namespace ArenaGame

open GameProtocol GameMessages

inductive Scene
  | SCENE_LOGIN
  | SCENE_LOBBY
  | SCENE_BATTLE
  | SCENE_RESULT
  | SCENE_HERO_SELECT
deriving DecidableEq

structure MainWindow where
  stack_ : Scene := .SCENE_LOGIN
  lobbyScene_ : LobbyScene := {}
  battleScene_ : BattleScene := {}
  heroSelectScene_ : HeroSelectScene := {}
  userId_ : UInt32 := 0
  userName_ : StdString := []
  elo_ : UInt32 := 0
  matchedRoomId_ : UInt64 := 0
  matchedOpponentName_ : StdString := []
  matchedOpponentElo_ : UInt32 := 0
deriving DecidableEq

namespace MainWindow

variable (window : MainWindow)

def switchTo : Scene → MainWindow
  | .SCENE_RESULT => window
  | scene => { window with stack_ := scene }

def setUserInfo (userId : UInt32) (userName : StdString) (elo : UInt32) : MainWindow :=
  { window with userId_ := userId, userName_ := userName, elo_ := elo }

def enterLobby (userId : UInt32) (userName : StdString) (elo : UInt32) : MainWindow :=
  (window.setUserInfo userId userName elo).switchTo .SCENE_LOBBY

def enterHeroSelect (roomId : UInt64) (opponentUserName : StdString) (opponentElo : UInt32) :
    MainWindow :=
  { window with
    matchedRoomId_ := roomId
    matchedOpponentName_ := opponentUserName
    matchedOpponentElo_ := opponentElo
    heroSelectScene_ := window.heroSelectScene_.resetSelection }.switchTo .SCENE_HERO_SELECT

/-- `startBattle`; its arguments only go to labels. -/
def startBattle : MainWindow :=
  { window with battleScene_ := window.battleScene_.setMatchInfo }.switchTo .SCENE_BATTLE

/-! ### Messages of the server -/

def onLoginResponse (reader : BinaryReader) : MainWindow :=
  match (LoginResponse.decode {} reader).1 with
  | none => window
  | some response =>
    if !response.success_ then window
    else window.enterLobby response.userId_ response.userName_ response.elo_

def onMatchJoinResponse (reader : BinaryReader) : MainWindow :=
  match (MatchJoinResponse.decode {} reader).1 with
  | none =>
    { window with
      lobbyScene_ := window.lobbyScene_.showMatchJoinRejected
        (.ofLiteral "Malformed match join response") }
  | some response =>
    if !response.accepted_ then
      { window with
        lobbyScene_ := window.lobbyScene_.showMatchJoinRejected response.errorMessage_ }
    else { window with lobbyScene_ := window.lobbyScene_.showMatchmakingQueued }

def onMatchFound (reader : BinaryReader) : MainWindow :=
  match (MatchFoundNotification.decode {} reader).1 with
  | none => window
  | some notification =>
    window.enterHeroSelect notification.roomId_ notification.opponentUserName_
      notification.opponentElo_

def onHeroSelectResponse (reader : BinaryReader) : MainWindow :=
  match (HeroSelectResponse.decode {} reader).1 with
  | none =>
    { window with
      heroSelectScene_ := window.heroSelectScene_.showSelectionRejected
        (.ofLiteral "Malformed hero selection response") }
  | some response =>
    if !response.accepted_ then
      { window with
        heroSelectScene_ := window.heroSelectScene_.showSelectionRejected
          response.errorMessage_ }
    else { window with heroSelectScene_ := window.heroSelectScene_.showSelectionAccepted }

def onRoomClosed (reader : BinaryReader) : MainWindow :=
  match (RoomClosedNotification.decode {} reader).1 with
  | none => window
  | some notification =>
    if notification.roomId_ ≠ window.matchedRoomId_ then window
    else
      { window with
        matchedRoomId_ := 0
        matchedOpponentName_ := []
        matchedOpponentElo_ := 0
        lobbyScene_ := window.lobbyScene_.showRoomClosed notification.reason_ }.switchTo .SCENE_LOBBY

def onBattleStart (reader : BinaryReader) : MainWindow :=
  match (BattleStartNotification.decode {} reader).1 with
  | none => window
  | some notification =>
    if notification.roomId_ ≠ window.matchedRoomId_ then window
    else window.startBattle

def onBattleState (reader : BinaryReader) : MainWindow :=
  match (BattleStateNotification.decode {} reader).1 with
  | none => window
  | some notification =>
    if notification.roomId_ ≠ window.matchedRoomId_ then window
    else
      { window with
        battleScene_ := window.battleScene_.showBattleState notification.playerHealth_
          notification.opponentHealth_ notification.playerTurn_ }

def onBattleResult (reader : BinaryReader) : MainWindow :=
  match (BattleResultNotification.decode {} reader).1 with
  | none => window
  | some notification =>
    if notification.roomId_ ≠ window.matchedRoomId_ then window
    else
      let window := window.setUserInfo window.userId_ window.userName_ notification.playerElo_
      { window with
        battleScene_ := window.battleScene_.setMatchInfo.showBattleResult notification.won_ }

/-- Whatever the answer is, the lobby is reset if it is on display. -/
def onMatchCancelResponse (reader : BinaryReader) : MainWindow :=
  match (MatchCancelResponse.decode {} reader).1 with
  | none =>
    if window.stack_ = .SCENE_LOBBY then
      { window with lobbyScene_ := window.lobbyScene_.showMatchmakingReady }
    else window
  | some _ =>
    if window.stack_ ≠ .SCENE_LOBBY then window
    else { window with lobbyScene_ := window.lobbyScene_.showMatchmakingReady }

/-- The handlers that `registerHandler` has stored; the one for `MSG_REGISTER_RSP` only sets a
status text. -/
def handlers_ (msgType : UInt16) : Option (BinaryReader → MainWindow → MainWindow) :=
  if msgType = MSG_LOGIN_RSP then some fun reader window => window.onLoginResponse reader
  else if msgType = MSG_REGISTER_RSP then some fun _ window => window
  else if msgType = MSG_MATCH_JOIN_RSP then
    some fun reader window => window.onMatchJoinResponse reader
  else if msgType = MSG_MATCH_FOUND_NTF then some fun reader window => window.onMatchFound reader
  else if msgType = MSG_HERO_SELECT_RSP then
    some fun reader window => window.onHeroSelectResponse reader
  else if msgType = MSG_ROOM_CLOSED_NTF then some fun reader window => window.onRoomClosed reader
  else if msgType = MSG_BATTLE_START_NTF then some fun reader window => window.onBattleStart reader
  else if msgType = MSG_BATTLE_STATE_NTF then some fun reader window => window.onBattleState reader
  else if msgType = MSG_BATTLE_RESULT_NTF then
    some fun reader window => window.onBattleResult reader
  else if msgType = MSG_MATCH_CANCEL_RSP then
    some fun reader window => window.onMatchCancelResponse reader
  else none

/-- One frame that `processBuffer` has cut off. -/
def receive (frame : Frame) : MainWindow :=
  GameClient.dispatch handlers_ frame.1 (.ofBytes frame.2) window

/-! ### Clicks -/

/-- A button of a scene; the two of the login scene come with the texts of its line edits, the user
name trimmed. -/
inductive Button
  | loginButton_ (userName password : StdString)
  | registerButton_ (userName password passwordConfirm : StdString)
  | matchButton_
  | heroButton (button : HeroSelectScene.HeroButton)
  | confirmButton_
  | attackButton_
  | returnLobbyButton_

/-- `BinaryWriter payload; if(encode(payload, request)) client_->sendMessage(msgType, payload);`
with the frame that is written to the socket. -/
def send (msgType : UInt16) (t : MessageType) (request : t.Value) : List Frame :=
  match t.encoded request with
  | none => []
  | some payload => [(msgType, payload)]

def sendLogin (userName password : StdString) : List Frame :=
  send MSG_LOGIN_REQ .loginRequest { userName_ := userName, password_ := password }

def sendRegister (userName password : StdString) : List Frame :=
  send MSG_REGISTER_REQ .registerRequest { userName_ := userName, password_ := password }

def onLoginClicked (userName password : StdString) : List Frame :=
  if userName = [] ∨ password = [] then [] else sendLogin userName password

def onRegisterClicked (userName password passwordConfirm : StdString) : List Frame :=
  if userName = [] ∨ password = [] then []
  else if password ≠ passwordConfirm then []
  else sendRegister userName password

/-- What is connected to `matchRequested`. -/
def onMatchRequested : MainWindow × List Frame :=
  match MessageType.encoded .matchJoinRequest {} with
  | none =>
    ({ window with
        lobbyScene_ := window.lobbyScene_.showMatchJoinRejected
          (.ofLiteral "Failed to encode match request") }, [])
  | some payload => (window, [(MSG_MATCH_JOIN_REQ, payload)])

/-- What is connected to `heroConfirmed`. -/
def onHeroConfirmed (heroType : HeroType) : MainWindow × List Frame :=
  match MessageType.encoded .heroSelectRequest { heroType_ := heroType } with
  | none =>
    ({ window with
        heroSelectScene_ := window.heroSelectScene_.showSelectionRejected
          (.ofLiteral "Failed to encode hero selection") }, [])
  | some payload => (window, [(MSG_HERO_SELECT_REQ, payload)])

def click : Button → MainWindow × List Frame
  | .loginButton_ userName password => (window, onLoginClicked userName password)
  | .registerButton_ userName password passwordConfirm =>
    (window, onRegisterClicked userName password passwordConfirm)
  | .matchButton_ =>
    let clicked := window.lobbyScene_.onMatchButtonClicked
    let window := { window with lobbyScene_ := clicked.1 }
    match clicked.2 with
    | .matchRequested => window.onMatchRequested
    | .matchCancelRequested => (window, send MSG_MATCH_CANCEL_REQ .matchCancelRequest {})
  | .heroButton button =>
    ({ window with heroSelectScene_ := window.heroSelectScene_.selectHero button.hero }, [])
  | .confirmButton_ =>
    let clicked := window.heroSelectScene_.onConfirmButtonClicked
    let window := { window with heroSelectScene_ := clicked.1 }
    match clicked.2 with
    | none => (window, [])
    | some heroType => window.onHeroConfirmed heroType
  | .attackButton_ =>
    ({ window with battleScene_ := window.battleScene_.onAttackButtonClicked },
      send MSG_BATTLE_ATTACK_REQ .battleAttackRequest {})
  | .returnLobbyButton_ =>
    ({ window with
        battleScene_ := window.battleScene_.onReturnLobbyButtonClicked
        lobbyScene_ := window.lobbyScene_.showMatchmakingReady }.switchTo .SCENE_LOBBY, [])

/-- A click needs a button that is enabled, in the scene on display. -/
def Clickable : Button → Prop
  | .loginButton_ _ _ => window.stack_ = .SCENE_LOGIN
  | .registerButton_ _ _ _ => window.stack_ = .SCENE_LOGIN
  | .matchButton_ => window.stack_ = .SCENE_LOBBY ∧ window.lobbyScene_.matchButton_ = true
  | .heroButton button =>
    window.stack_ = .SCENE_HERO_SELECT ∧ window.heroSelectScene_.isEnabled button = true
  | .confirmButton_ =>
    window.stack_ = .SCENE_HERO_SELECT ∧ window.heroSelectScene_.confirmButton_ = true
  | .attackButton_ => window.stack_ = .SCENE_BATTLE ∧ window.battleScene_.attackButton_ = true
  | .returnLobbyButton_ =>
    window.stack_ = .SCENE_BATTLE ∧ window.battleScene_.returnLobbyButton_ = true

instance (button : Button) : Decidable (window.Clickable button) := by
  cases button <;> unfold Clickable <;> infer_instance

end MainWindow

end ArenaGame
