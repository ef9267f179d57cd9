import ArenaGame.Client.MainWindow
import ArenaGame.Common.Messages

/-!
# What messages and clicks do to the main window

`hear` is what a handler does with a message that the server has encoded.
-/

namespace ArenaGame.MainWindow

open GameProtocol GameMessages

variable (window : MainWindow)

/-! ### Messages -/

def hear : ServerMessage → MainWindow
  | .loginRsp response =>
    if response.success_ then
      window.enterLobby response.userId_ response.userName_ response.elo_
    else window
  | .registerRsp _ => window
  | .matchJoinRsp response =>
    { window with
      lobbyScene_ :=
        if response.accepted_ then window.lobbyScene_.showMatchmakingQueued
        else window.lobbyScene_.showMatchJoinRejected response.errorMessage_ }
  | .matchFoundNtf notification =>
    window.enterHeroSelect notification.roomId_ notification.opponentUserName_
      notification.opponentElo_
  | .matchCancelRsp _ =>
    if window.stack_ = .SCENE_LOBBY then
      { window with lobbyScene_ := window.lobbyScene_.showMatchmakingReady }
    else window
  | .heroSelectRsp response =>
    { window with
      heroSelectScene_ :=
        if response.accepted_ then window.heroSelectScene_.showSelectionAccepted
        else window.heroSelectScene_.showSelectionRejected response.errorMessage_ }
  | .battleStartNtf notification =>
    if notification.roomId_ = window.matchedRoomId_ then window.startBattle else window
  | .roomClosedNtf notification =>
    if notification.roomId_ = window.matchedRoomId_ then
      { window with
        stack_ := .SCENE_LOBBY
        matchedRoomId_ := 0
        matchedOpponentName_ := []
        matchedOpponentElo_ := 0
        lobbyScene_ := window.lobbyScene_.showRoomClosed notification.reason_ }
    else window
  | .battleStateNtf notification =>
    if notification.roomId_ = window.matchedRoomId_ then
      { window with
        battleScene_ := window.battleScene_.showBattleState notification.playerHealth_
          notification.opponentHealth_ notification.playerTurn_ }
    else window
  | .battleResultNtf notification =>
    if notification.roomId_ = window.matchedRoomId_ then
      { window with
        elo_ := notification.playerElo_
        battleScene_ := window.battleScene_.setMatchInfo.showBattleResult notification.won_ }
    else window

variable {window}

theorem receive_frame {m : ServerMessage} (h : m.Fits) : window.receive m.frame = window.hear m := by
  have hdecoded : m.type.decoded m.frame.2 = some (m.type.reset m.value) := decoded_bytes h
  -- one handler for each type; every one of them starts by decoding what `hdecoded` is about
  cases m with
  | loginRsp response =>
    show window.onLoginResponse _ = _
    change (LoginResponse.decode {} _).1 = some (MessageType.reset .loginResponse response)
      at hdecoded
    unfold onLoginResponse
    rw [hdecoded]
    cases hs : response.success_ <;> simp [MessageType.reset, hear, hs]
  | registerRsp => rfl
  | matchJoinRsp response =>
    show window.onMatchJoinResponse _ = _
    change (MatchJoinResponse.decode {} _).1 =
      some (MessageType.reset .matchJoinResponse response) at hdecoded
    unfold onMatchJoinResponse
    rw [hdecoded]
    cases hs : response.accepted_ <;> simp [MessageType.reset, hear, hs]
  | matchFoundNtf notification =>
    show window.onMatchFound _ = _
    change (MatchFoundNotification.decode {} _).1 = some notification at hdecoded
    unfold onMatchFound
    rw [hdecoded]
    rfl
  | matchCancelRsp response =>
    show window.onMatchCancelResponse _ = _
    change (MatchCancelResponse.decode {} _).1 =
      some (MessageType.reset .matchCancelResponse response) at hdecoded
    unfold onMatchCancelResponse
    rw [hdecoded]
    simp [hear, ite_not]
  | heroSelectRsp response =>
    show window.onHeroSelectResponse _ = _
    change (HeroSelectResponse.decode {} _).1 =
      some (MessageType.reset .heroSelectResponse response) at hdecoded
    unfold onHeroSelectResponse
    rw [hdecoded]
    cases hs : response.accepted_ <;> simp [MessageType.reset, hear, hs]
  | battleStartNtf notification =>
    show window.onBattleStart (.ofBytes (ServerMessage.battleStartNtf notification).frame.2) = _
    change (BattleStartNotification.decode {} _).1 = some notification at hdecoded
    unfold onBattleStart
    rw [hdecoded]
    exact ite_not ..
  | roomClosedNtf notification =>
    show window.onRoomClosed _ = _
    change (RoomClosedNotification.decode {} _).1 = some notification at hdecoded
    unfold onRoomClosed
    rw [hdecoded]
    exact ite_not ..
  | battleStateNtf notification =>
    show window.onBattleState _ = _
    change (BattleStateNotification.decode {} _).1 = some notification at hdecoded
    unfold onBattleState
    rw [hdecoded]
    exact ite_not ..
  | battleResultNtf notification =>
    show window.onBattleResult _ = _
    change (BattleResultNotification.decode {} _).1 = some notification at hdecoded
    unfold onBattleResult
    rw [hdecoded]
    exact ite_not ..

/-! ### Clicks -/

/-- A request is sent exactly when it can be encoded. -/
theorem send_eq (q : ClientRequest) :
    send q.msgType q.type q.value = [] ∨ q.Fits ∧ send q.msgType q.type q.value = [q.frame] := by
  unfold send
  cases hq : q.type.encoded q.value with
  | none => exact Or.inl rfl
  | some payload =>
    obtain ⟨hfits, rfl⟩ := encoded_eq_some_iff.mp hq
    exact Or.inr ⟨hfits, rfl⟩

theorem onLoginClicked_eq (userName password : StdString) :
    onLoginClicked userName password = [] ∨ ∃ request, (ClientRequest.loginReq request).Fits ∧
      onLoginClicked userName password = [(ClientRequest.loginReq request).frame] := by
  unfold onLoginClicked
  split_ifs
  · exact Or.inl rfl
  · exact (send_eq (.loginReq { userName_ := userName, password_ := password })).imp_right
      fun h => ⟨_, h⟩

theorem onRegisterClicked_eq (userName password passwordConfirm : StdString) :
    onRegisterClicked userName password passwordConfirm = [] ∨
      ∃ request, (ClientRequest.registerReq request).Fits ∧
        onRegisterClicked userName password passwordConfirm =
          [(ClientRequest.registerReq request).frame] := by
  unfold onRegisterClicked
  split_ifs
  · exact Or.inl rfl
  · exact Or.inl rfl
  · exact (send_eq (.registerReq { userName_ := userName, password_ := password })).imp_right
      fun h => ⟨_, h⟩

end ArenaGame.MainWindow
