import ArenaGame.Client.Equiv.MainWindow

/-!
# What the client knows about its user

A `Profile` is what a main window shows about its user and about the room that he was last put
into.  What a message does to it depends on nothing else (`profile_hear`), and no click changes it
(`profile_click`), so clicks and messages commute as far as the profile goes.
-/

namespace ArenaGame

open GameMessages

structure Profile where
  /-- The login scene is on display. -/
  inLogin : Bool
  userId : UInt32
  userName : StdString
  elo : UInt32
  roomId : UInt64
  opponentName : StdString
  opponentElo : UInt32
deriving DecidableEq

namespace Profile

/-- The profile after one message. -/
def hear (p : Profile) : ServerMessage → Profile
  | .loginRsp response =>
    if response.success_ then
      { p with
        inLogin := false
        userId := response.userId_
        userName := response.userName_
        elo := response.elo_ }
    else p
  | .matchFoundNtf notification =>
    { p with
      inLogin := false
      roomId := notification.roomId_
      opponentName := notification.opponentUserName_
      opponentElo := notification.opponentElo_ }
  | .battleStartNtf notification =>
    if notification.roomId_ = p.roomId then { p with inLogin := false } else p
  | .roomClosedNtf notification =>
    if notification.roomId_ = p.roomId then
      { p with inLogin := false, roomId := 0, opponentName := [], opponentElo := 0 }
    else p
  | .battleResultNtf notification =>
    if notification.roomId_ = p.roomId then { p with elo := notification.playerElo_ } else p
  | _ => p

theorem foldl_hear_of_silent {p : Profile} {ms : List ServerMessage}
    (h : ∀ m ∈ ms, p.hear m = p) : ms.foldl hear p = p := by
  induction ms with
  | nil => rfl
  | cons m ms ih =>
    rw [List.foldl_cons, h m List.mem_cons_self]
    exact ih fun m' hm' => h m' (List.mem_cons_of_mem m hm')

end Profile

namespace MainWindow

variable (window : MainWindow)

def profile : Profile where
  inLogin := window.stack_ = .SCENE_LOGIN
  userId := window.userId_
  userName := window.userName_
  elo := window.elo_
  roomId := window.matchedRoomId_
  opponentName := window.matchedOpponentName_
  opponentElo := window.matchedOpponentElo_

theorem profile_hear (m : ServerMessage) : (window.hear m).profile = window.profile.hear m := by
  cases m with
  | loginRsp response =>
    show (if _ then _ else _ : MainWindow).profile = if _ then _ else _
    rw [apply_ite profile]
    rfl
  | matchCancelRsp response =>
    show (if _ then _ else _ : MainWindow).profile = _
    rw [apply_ite profile]
    exact ite_self _
  | battleStartNtf notification =>
    show (if _ then _ else _ : MainWindow).profile = if _ then _ else _
    rw [apply_ite profile]
    rfl
  | roomClosedNtf notification =>
    show (if _ then _ else _ : MainWindow).profile = if _ then _ else _
    rw [apply_ite profile]
    rfl
  | battleStateNtf notification =>
    show (if _ then _ else _ : MainWindow).profile = _
    rw [apply_ite profile]
    exact ite_self _
  | battleResultNtf notification =>
    show (if _ then _ else _ : MainWindow).profile = if _ then _ else _
    rw [apply_ite profile]
    rfl
  | _ => rfl

theorem profile_onMatchRequested : window.onMatchRequested.1.profile = window.profile := by
  unfold onMatchRequested
  split <;> rfl

theorem profile_onHeroConfirmed (heroType : HeroType) :
    (window.onHeroConfirmed heroType).1.profile = window.profile := by
  unfold onHeroConfirmed
  split <;> rfl

variable {window}

theorem profile_click {button : Button} (hclick : window.Clickable button) :
    (window.click button).1.profile = window.profile := by
  cases button with
  | matchButton_ =>
    cases hsignal : window.lobbyScene_.onMatchButtonClicked.2 with
    | matchRequested =>
      simp only [click, hsignal]
      exact profile_onMatchRequested _
    | matchCancelRequested =>
      simp only [click, hsignal]
      rfl
  | confirmButton_ =>
    cases hsignal : window.heroSelectScene_.onConfirmButtonClicked.2 with
    | none =>
      simp only [click, hsignal]
      rfl
    | some heroType =>
      simp only [click, hsignal]
      exact profile_onHeroConfirmed _ heroType
  | returnLobbyButton_ =>
    -- the battle is on display, and after it the lobby
    have hstack : window.stack_ = .SCENE_BATTLE := hclick.1
    simp [click, switchTo, profile, hstack]
  | _ => rfl

end MainWindow

end ArenaGame
