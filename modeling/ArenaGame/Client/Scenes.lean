import ArenaGame.Common.GameMessages
import ArenaGame.Util.Decimal

/-!
# The scenes of the client (`ArenaClient/scenes`)

Of a button there is whether it is enabled, of a label its text.  The labels that only repeat
names, heroes and room numbers are left out, with the calls that set them (`setPlayerInfo`,
`setMatchInfo` up to its status text, `setHeroInfo`).

A slot that emits a signal returns the signal; `MainWindow` says what is connected to it.
-/

namespace ArenaGame

open GameMessages (HeroType)

/-! ### The lobby -/

structure LobbyScene where
  matchButton_ : Bool := true
  matchButtonText_ : StdString := .ofLiteral "START MATCHMAKING"
  matchStatusLabel_ : StdString := .ofLiteral "READY // AWAITING COMMAND"
  matchmakingQueued_ : Bool := false
deriving DecidableEq

namespace LobbyScene

variable (scene : LobbyScene)

def showMatchmakingReady (_ : LobbyScene) : LobbyScene :=
  { matchmakingQueued_ := false
    matchButton_ := true
    matchButtonText_ := .ofLiteral "START MATCHMAKING"
    matchStatusLabel_ := .ofLiteral "READY // AWAITING COMMAND" }

def showMatchmakingQueued (_ : LobbyScene) : LobbyScene :=
  { matchmakingQueued_ := true
    matchButton_ := true
    matchButtonText_ := .ofLiteral "CANCEL MATCHMAKING"
    matchStatusLabel_ := .ofLiteral "SEARCHING FOR OPPONENT..." }

def showMatchJoinRejected (_ : LobbyScene) (errorMessage : StdString) : LobbyScene :=
  { matchmakingQueued_ := false
    matchButton_ := true
    matchButtonText_ := .ofLiteral "START MATCHMAKING"
    matchStatusLabel_ := .ofLiteral "MATCH REQUEST FAILED: " ++ errorMessage }

def showRoomClosed (_ : LobbyScene) (reason : StdString) : LobbyScene :=
  { matchmakingQueued_ := false
    matchButton_ := true
    matchButtonText_ := .ofLiteral "START MATCHMAKING"
    matchStatusLabel_ := .ofLiteral "MATCH CANCELLED: " ++ reason }

inductive Signal
  | matchRequested
  | matchCancelRequested

def onMatchButtonClicked : LobbyScene × Signal :=
  if scene.matchmakingQueued_ then
    ({ scene with
        matchButton_ := false
        matchButtonText_ := .ofLiteral "CANCELLING MATCHMAKING..."
        matchStatusLabel_ := .ofLiteral "CANCELLING MATCHMAKING..." },
      .matchCancelRequested)
  else
    ({ scene with
        matchButton_ := false
        matchButtonText_ := .ofLiteral "REQUESTING..."
        matchStatusLabel_ := .ofLiteral "REQUESTING MATCH..." },
      .matchRequested)

end LobbyScene

/-! ### Hero selection -/

structure HeroSelectScene where
  selectedHero_ : HeroType := .kNone
  heroSelectStatusLabel_ : StdString := .ofLiteral "CHOOSE YOUR HERO"
  warriorButton_ : Bool := true
  mageButton_ : Bool := true
  archerButton_ : Bool := true
  confirmButton_ : Bool := false
deriving DecidableEq

namespace HeroSelectScene

variable (scene : HeroSelectScene)

def resetSelection (_ : HeroSelectScene) : HeroSelectScene :=
  { selectedHero_ := .kNone
    warriorButton_ := true
    mageButton_ := true
    archerButton_ := true
    confirmButton_ := false
    heroSelectStatusLabel_ := .ofLiteral "CHOOSE YOUR HERO" }

def showSelectionAccepted : HeroSelectScene :=
  { scene with
    warriorButton_ := false
    mageButton_ := false
    archerButton_ := false
    confirmButton_ := false
    heroSelectStatusLabel_ := .ofLiteral "HERO LOCKED // WAITING FOR OPPONENT" }

def showSelectionRejected (errorMessage : StdString) : HeroSelectScene :=
  { scene with
    warriorButton_ := true
    mageButton_ := true
    archerButton_ := true
    confirmButton_ := scene.selectedHero_ ≠ .kNone
    heroSelectStatusLabel_ := .ofLiteral "HERO SELECTION FAILED: " ++ errorMessage }

def selectHero (heroType : HeroType) : HeroSelectScene :=
  { scene with
    selectedHero_ := heroType
    confirmButton_ := true
    heroSelectStatusLabel_ :=
      if heroType = .kWarrior then .ofLiteral "SELECTED // WARRIOR"
      else if heroType = .kMage then .ofLiteral "SELECTED // MAGE"
      else if heroType = .kArcher then .ofLiteral "SELECTED // ARCHER"
      else scene.heroSelectStatusLabel_ }

/-- The hero buttons, each with the hero that a click on it selects. -/
inductive HeroButton
  | warriorButton_
  | mageButton_
  | archerButton_
deriving DecidableEq

def HeroButton.hero : HeroButton → HeroType
  | warriorButton_ => .kWarrior
  | mageButton_ => .kMage
  | archerButton_ => .kArcher

def isEnabled : HeroButton → Bool
  | .warriorButton_ => scene.warriorButton_
  | .mageButton_ => scene.mageButton_
  | .archerButton_ => scene.archerButton_

/-- A click on `confirmButton_`; the signal is `heroConfirmed`. -/
def onConfirmButtonClicked : HeroSelectScene × Option HeroType :=
  if scene.selectedHero_ ≠ .kNone then
    ({ scene with
        warriorButton_ := false
        mageButton_ := false
        archerButton_ := false
        confirmButton_ := false
        heroSelectStatusLabel_ := .ofLiteral "HERO SELECTED // WAITING FOR SERVER" },
      some scene.selectedHero_)
  else (scene, none)

end HeroSelectScene

/-! ### The battle -/

/-- `QString("YOUR HP // %1").arg(playerHealth)`. -/
def playerHealthText (playerHealth : UInt16) : StdString :=
  .ofLiteral "YOUR HP // " ++ Decimal.toBytes playerHealth.toNat

/-- `QString("OPPONENT HP // %1").arg(opponentHealth)`. -/
def opponentHealthText (opponentHealth : UInt16) : StdString :=
  .ofLiteral "OPPONENT HP // " ++ Decimal.toBytes opponentHealth.toNat

structure BattleScene where
  playerHealthLabel_ : StdString := .ofLiteral "YOUR HP // 0"
  opponentHealthLabel_ : StdString := .ofLiteral "OPPONENT HP // 0"
  battleStatusLabel_ : StdString := .ofLiteral "BATTLE READY"
  attackButton_ : Bool := false
  returnLobbyButton_ : Bool := false
deriving DecidableEq

namespace BattleScene

variable (scene : BattleScene)

def setMatchInfo : BattleScene := { scene with battleStatusLabel_ := .ofLiteral "BATTLE READY" }

def showBattleState (playerHealth opponentHealth : UInt16) (playerTurn : Bool) : BattleScene :=
  { scene with
    playerHealthLabel_ := playerHealthText playerHealth
    opponentHealthLabel_ := opponentHealthText opponentHealth
    attackButton_ := playerTurn
    battleStatusLabel_ :=
      if playerTurn then .ofLiteral "YOUR TURN // ATTACK NOW"
      else .ofLiteral "OPPONENT TURN // WAITING" }

def showBattleResult (won : Bool) : BattleScene :=
  { scene with
    attackButton_ := false
    returnLobbyButton_ := true
    battleStatusLabel_ :=
      if won then .ofLiteral "VICTORY // BATTLE COMPLETE"
      else .ofLiteral "DEFEAT // BATTLE COMPLETE" }

/-- A click on `attackButton_`; the signal is `attackRequested`. -/
def onAttackButtonClicked : BattleScene := { scene with attackButton_ := false }

/-- A click on `returnLobbyButton_`; the signal is `returnToLobbyRequested`. -/
def onReturnLobbyButtonClicked : BattleScene := { scene with returnLobbyButton_ := false }

end BattleScene

end ArenaGame
