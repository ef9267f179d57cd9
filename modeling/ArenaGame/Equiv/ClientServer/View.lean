import ArenaGame.Client.Equiv.MainWindow
import ArenaGame.Equiv.ClientServer.Phases

/-!
# What the client shows in each phase

`Shows` says, for a phase and the requests that are on the way, which scene is on display and which
of its buttons are enabled.  `View` is kept by every message that the server has for the phase, and
by every click, as long as no second join request is sent.
-/

namespace ArenaGame

open GameMessages Phase HeroSelectScene

def JoinFree (g : List RoomRequest) : Prop := ∀ q ∈ g, q.1 ≠ .matchJoinReq

def HeroFree (g : List RoomRequest) : Prop := ∀ q ∈ g, ∀ request, q.1 ≠ .heroSelectReq request

namespace MainWindow

variable {window : MainWindow}

/-! ### Scenes -/

section Scenes

variable (window : MainWindow)

/-- No button of the battle scene can be clicked. -/
structure Resting (scene : BattleScene) : Prop where
  attack : scene.attackButton_ = false
  returnLobby : scene.returnLobbyButton_ = false

structure InLogin : Prop extends Resting window.battleScene_ where
  stack : window.stack_ = .SCENE_LOGIN
  notQueued : window.lobbyScene_.matchmakingQueued_ = false
  ready : window.lobbyScene_.matchButton_ = true

structure InLobby (g : List RoomRequest) : Prop extends Resting window.battleScene_ where
  stack : window.stack_ = .SCENE_LOBBY
  notQueued : window.lobbyScene_.matchmakingQueued_ = false
  ready : JoinFree g → window.lobbyScene_.matchButton_ = true

structure AfterBattle (g : List RoomRequest) : Prop where
  stack : window.stack_ = .SCENE_BATTLE
  attack : window.battleScene_.attackButton_ = false
  returnLobby : window.battleScene_.returnLobbyButton_ = true
  joinFree : JoinFree g

structure Searching (g : List RoomRequest) : Prop extends Resting window.battleScene_ where
  stack : window.stack_ = .SCENE_LOBBY
  queued : window.lobbyScene_.matchmakingQueued_ = true
  ready : window.lobbyScene_.matchButton_ = true ↔ g = []

structure Choosing (r : UInt64) (g : List RoomRequest) : Prop extends Resting window.battleScene_ where
  stack : window.stack_ = .SCENE_HERO_SELECT
  room : window.matchedRoomId_ = r
  heroes : ∀ button, window.heroSelectScene_.isEnabled button = true ↔ HeroFree g
  confirm : window.heroSelectScene_.confirmButton_ = true ↔
    HeroFree g ∧ window.heroSelectScene_.selectedHero_ ≠ .kNone

structure Chosen (r : UInt64) : Prop extends Resting window.battleScene_ where
  stack : window.stack_ = .SCENE_HERO_SELECT
  room : window.matchedRoomId_ = r
  heroes : ∀ button, window.heroSelectScene_.isEnabled button = false
  confirm : window.heroSelectScene_.confirmButton_ = false

structure Starting (r : UInt64) : Prop extends Resting window.battleScene_ where
  stack : window.stack_ = .SCENE_BATTLE
  room : window.matchedRoomId_ = r

structure Fighting (n : BattleStateNotification) (g : List RoomRequest) : Prop where
  stack : window.stack_ = .SCENE_BATTLE
  room : window.matchedRoomId_ = n.roomId_
  playerHealth : window.battleScene_.playerHealthLabel_ = playerHealthText n.playerHealth_
  opponentHealth : window.battleScene_.opponentHealthLabel_ = opponentHealthText n.opponentHealth_
  attack : window.battleScene_.attackButton_ = true ↔ n.playerTurn_ = true ∧ g = []
  returnLobby : window.battleScene_.returnLobbyButton_ = false

def Shows : Phase → List RoomRequest → Prop
  | .out, _ => window.InLogin
  | .idle, g => window.InLobby g ∨ window.AfterBattle g
  | .queued, g => window.Searching g
  | .room r false, g => window.Choosing r g
  | .room r true, _ => window.Chosen r
  | .started r, _ => window.Starting r
  | .battle n, g => window.Fighting n g

/-- What the client shows fits the phase and the requests on the way, which fit the phase too. -/
structure View (k : Phase) (o : List RoomRequest) : Prop where
  standing : k.Standing (gameRequests o)
  shows : window.Shows k (gameRequests o)

end Scenes

theorem view_initial : View {} .out [] := ⟨rfl, ⟨rfl, rfl⟩, rfl, rfl, rfl⟩

/-! ### Messages -/

/-- The lobby does not mind requests that are none for a match. -/
theorem Shows.idle_cons {q : RoomRequest} {g : List RoomRequest} (hq : q.1 ≠ .matchJoinReq)
    (h : window.Shows .idle (q :: g)) : window.Shows .idle g := by
  rcases h with h | h
  · exact Or.inl { h with ready := fun hg => h.ready (List.forall_mem_cons.mpr ⟨hq, hg⟩) }
  · exact Or.inr { h with joinFree := (List.forall_mem_cons.mp h.joinFree).2 }

theorem View.ignored {k k₁ : Phase} {q : RoomRequest} {o : List RoomRequest}
    (hq : dialogue.Answers k q none k₁) (h : window.View k (q :: o)) : window.View k₁ o := by
  refine ⟨h.standing.answers hq, ?_⟩
  cases hq with
  | attackIgnored hturn =>
    rcases h.standing.attack with ⟨rfl, -⟩ | ⟨n, rfl, hn, -⟩
    · exact h.shows.idle_cons (by simp)
    · cases (hturn n rfl).symm.trans hn

theorem View.news {k k₁ : Phase} {m : ServerMessage} {o : List RoomRequest}
    (hm : dialogue.News k m k₁) (h : window.View k o) : (window.hear m).View k₁ o := by
  refine ⟨h.standing.news hm, ?_⟩
  obtain ⟨hstanding, hshows⟩ := h
  cases hm with
  | found =>
    -- no hero was sent before the room was known, so every button can be pressed
    have hfree : HeroFree (gameRequests o) := by
      rcases hstanding with hg | ⟨r, hg⟩ <;> rw [hg] <;> simp [HeroFree]
    refine ⟨hshows.toResting, rfl, rfl, fun button => ?_, ?_⟩
    · cases button <;> exact iff_of_true rfl hfree
    · exact iff_of_false Bool.false_ne_true fun hconfirm => hconfirm.2 rfl
  | @closed n chosen =>
    -- the room that closes is the one on display, whether the hero is confirmed or not
    have hroom : window.matchedRoomId_ = n.roomId_ ∧ Resting window.battleScene_ := by
      cases chosen
      · exact ⟨hshows.room, hshows.toResting⟩
      · exact ⟨hshows.room, hshows.toResting⟩
    rw [hear, if_pos hroom.1.symm]
    exact Or.inl ⟨hroom.2, rfl, rfl, fun _ => rfl⟩
  | started =>
    rw [hear, if_pos hshows.room.symm]
    exact ⟨⟨hshows.attack, hshows.returnLobby⟩, rfl, hshows.room⟩
  | first =>
    have hg : gameRequests o = [] := hstanding
    rw [hear, if_pos hshows.room.symm]
    exact ⟨hshows.stack, hshows.room, rfl, rfl, by simp [BattleScene.showBattleState, hg],
      hshows.returnLobby⟩
  | struck hturn hr =>
    have hg : gameRequests o = [] := by
      rcases hstanding with hg | ⟨hturn', -⟩
      · exact hg
      · cases hturn.symm.trans hturn'
    have hroom := hr.trans hshows.room.symm
    rw [hear, if_pos hroom]
    exact ⟨hshows.stack, hroom.symm, rfl, rfl, by simp [BattleScene.showBattleState, hg],
      hshows.returnLobby⟩
  | result hr =>
    rw [hear, if_pos (hr.trans hshows.room.symm)]
    refine Or.inr ⟨hshows.stack, rfl, rfl, ?_⟩
    rcases hstanding with hg | ⟨-, hg⟩ <;> rw [hg] <;> simp [JoinFree]

theorem View.answered {k k₁ : Phase} {q : RoomRequest} {m : ServerMessage} {o : List RoomRequest}
    (hq : dialogue.Answers k q (some m) k₁) (h : window.View k (q :: o)) :
    (window.hear m).View k₁ o := by
  refine ⟨h.standing.answers hq, ?_⟩
  obtain ⟨hstanding, hshows⟩ := h
  cases hq with
  | login hsuccess =>
    simp only [hear, hsuccess, if_true]
    exact Or.inl ⟨hshows.toResting, rfl, hshows.notQueued, fun _ => hshows.ready⟩
  | loginRefused hno =>
    simp only [hear, hno, Bool.false_eq_true, if_false]
    exact hshows
  | register => exact hshows
  | join haccepted =>
    have ho := (Standing.join hstanding).2
    simp only [hear, haccepted, if_true]
    rcases hshows with hshows | hshows
    · exact ⟨hshows.toResting, hshows.stack, rfl, iff_of_true rfl ho⟩
    · exact absurd rfl (hshows.joinFree _ List.mem_cons_self)
  | joinRefused hno =>
    obtain ⟨rfl, -⟩ := Standing.join hstanding
    simp only [hear, hno, Bool.false_eq_true, if_false]
    rcases hshows with hshows | hshows
    · exact Or.inl ⟨hshows.toResting, hshows.stack, rfl, fun _ => rfl⟩
    · exact absurd rfl (hshows.joinFree _ List.mem_cons_self)
  | cancel =>
    rw [hear, if_pos hshows.stack]
    exact Or.inl ⟨hshows.toResting, hshows.stack, rfl, fun _ => rfl⟩
  | @cancelRefused k r response hk hno =>
    -- in the lobby this resets the button, with or without a pending join request
    cases k with
    | idle =>
      rcases hshows.idle_cons (by simp) with hshows | hshows
      · rw [hear, if_pos hshows.stack]
        exact Or.inl ⟨hshows.toResting, hshows.stack, rfl, fun _ => rfl⟩
      · rw [hear, if_neg (by rw [hshows.stack]; decide)]
        exact Or.inr hshows
    | queued => exact absurd rfl hk
    | room r chosen =>
      cases chosen with
      | true => cases hstanding
      | false =>
        have hstack : window.stack_ = .SCENE_HERO_SELECT := hshows.stack
        rw [hear, if_neg (by rw [hstack]; decide)]
        have hfree : ∀ r', HeroFree (gameRequests ((.matchCancelReq, r') :: o)) ↔
            HeroFree (gameRequests o) := by
          intro r'
          rw [gameRequests_game rfl]
          simp [HeroFree]
        exact ⟨hshows.toResting, hstack, hshows.room, fun button => (hshows.heroes button).trans
          (hfree _), hshows.confirm.trans (and_congr_left fun _ => hfree _)⟩
    | out => cases hstanding
    | started => cases hstanding
    | battle => exact absurd hstanding (by rw [gameRequests_game rfl]; simp [Standing])
  | hero haccepted =>
    simp only [hear, haccepted, if_true]
    exact ⟨hshows.toResting, hshows.stack, hshows.room, fun button => by cases button <;> rfl, rfl⟩
  | @heroRefused k r request response hno =>
    simp only [hear, hno, Bool.false_eq_true, if_false]
    rcases Standing.hero hstanding with ⟨rfl, -⟩ | ⟨rfl, ho⟩
    · rcases hshows.idle_cons (q := (.heroSelectReq request, r)) (by simp) with hshows | hshows
      · exact Or.inl ⟨hshows.toResting, hshows.stack, hshows.notQueued, hshows.ready⟩
      · exact Or.inr ⟨hshows.stack, hshows.attack, hshows.returnLobby, hshows.joinFree⟩
    · have hfree : HeroFree (gameRequests o) := by
        have ho' : gameRequests o = [] := ho
        rw [ho']
        exact List.forall_mem_nil _
      refine ⟨hshows.toResting, hshows.stack, hshows.room, fun button => ?_, ?_⟩
      · cases button <;> exact iff_of_true rfl hfree
      · simp [HeroSelectScene.showSelectionRejected, hfree]
  | @attack n n' r hturn hr hturn' =>
    rcases Standing.attack hstanding with ⟨hk, -⟩ | ⟨_, -, -, -, ho⟩
    · cases hk
    · have hroom := hr.trans hshows.room.symm
      rw [hear, if_pos hroom]
      exact ⟨hshows.stack, hroom.symm, rfl, rfl, by simp [BattleScene.showBattleState, hturn'],
        hshows.returnLobby⟩

/-! ### Clicks -/

/-- A request about the account changes nothing else. -/
theorem View.account {k : Phase} {o : List RoomRequest} (h : window.View k o) {q : RoomRequest}
    (hq : q.1.isGame = false) : window.View k (o ++ [q]) := by
  have hsame : gameRequests (o ++ [q]) = gameRequests o := by
    rw [gameRequests_append, gameRequests_account hq]
    exact List.append_nil _
  exact ⟨hsame ▸ h.standing, hsame ▸ h.shows⟩

theorem JoinFree.game {o : List RoomRequest} (h : JoinFree o) : JoinFree (gameRequests o) :=
  fun q hq => h q (List.mem_of_mem_filter hq)

/-- A search is started or cancelled. -/
theorem View.click_match {k : Phase} {o : List RoomRequest} (h : window.View k o)
    (hclick : window.Clickable .matchButton_)
    (hjoin : window.lobbyScene_.matchmakingQueued_ = false → JoinFree o) :
    ∃ q : ClientRequest, (window.click .matchButton_).2 = [q.frame] ∧ q.Fits ∧
      (window.click .matchButton_).1.View k (o ++ [(q, window.matchedRoomId_)]) := by
  obtain ⟨hstanding, hshows⟩ := h
  obtain ⟨hstack, hbutton⟩ := hclick
  cases k with
  | idle =>
    rcases hshows with hshows | hshows
    · have hfree := JoinFree.game (hjoin hshows.notQueued)
      refine ⟨.matchJoinReq, ?_, ClientRequest.fits_of_isGame rfl, ?_⟩
      · simp only [click, LobbyScene.onMatchButtonClicked, hshows.notQueued, Bool.false_eq_true,
          if_false]
        rfl
      · simp only [click, LobbyScene.onMatchButtonClicked, hshows.notQueued, Bool.false_eq_true,
          if_false]
        refine ⟨?_, Or.inl ⟨hshows.toResting, hstack, rfl, fun hg => ?_⟩⟩
        · rw [gameRequests_snoc rfl]
          exact List.pairwise_append.mpr ⟨hstanding, List.pairwise_singleton _ _,
            fun q hq _ _ => hfree q hq⟩
        · rw [gameRequests_snoc rfl] at hg
          exact absurd rfl (hg _ (List.mem_append_right _ List.mem_cons_self))
    · -- the result of a battle is still on display
      cases hstack.symm.trans hshows.stack
  | queued =>
    have hg := hshows.ready.mp hbutton
    refine ⟨.matchCancelReq, ?_, ClientRequest.fits_of_isGame rfl, ?_⟩
    · simp only [click, LobbyScene.onMatchButtonClicked, hshows.queued, if_true]
      rfl
    · simp only [click, LobbyScene.onMatchButtonClicked, hshows.queued, if_true]
      refine ⟨?_, hshows.toResting, hstack, rfl, iff_of_false Bool.false_ne_true ?_⟩
      · rw [gameRequests_snoc rfl, hg]
        exact Or.inr ⟨_, rfl⟩
      · rw [gameRequests_snoc rfl]
        simp
  | out => cases hstack.symm.trans hshows.stack
  | room r chosen => cases chosen <;> cases hstack.symm.trans hshows.stack
  | started => cases hstack.symm.trans hshows.stack
  | battle => cases hstack.symm.trans hshows.stack

/-- A hero is selected, but not confirmed yet. -/
theorem View.click_hero {k : Phase} {o : List RoomRequest} (h : window.View k o)
    {button : HeroButton} (hclick : window.Clickable (.heroButton button)) :
    (window.click (.heroButton button)).1.View k o := by
  obtain ⟨hstanding, hshows⟩ := h
  obtain ⟨hstack, henabled⟩ := hclick
  cases k with
  | room r chosen =>
    cases chosen with
    | true => cases henabled.symm.trans (hshows.heroes button)
    | false =>
      have hfree := (hshows.heroes button).mp henabled
      refine ⟨hstanding, hshows.toResting, hstack, hshows.room, hshows.heroes, ?_⟩
      refine iff_of_true rfl ⟨hfree, ?_⟩
      show button.hero ≠ .kNone
      cases button <;> decide
  | idle => rcases hshows with hshows | hshows <;> cases hstack.symm.trans hshows.stack
  | _ => cases hstack.symm.trans hshows.stack

/-- The hero is sent for the room on display. -/
theorem View.click_confirm {k : Phase} {o : List RoomRequest} (h : window.View k o)
    (hclick : window.Clickable .confirmButton_) :
    ∃ q : ClientRequest, (window.click .confirmButton_).2 = [q.frame] ∧ q.Fits ∧
      (window.click .confirmButton_).1.View k (o ++ [(q, window.matchedRoomId_)]) := by
  obtain ⟨hstanding, hshows⟩ := h
  obtain ⟨hstack, henabled⟩ := hclick
  cases k with
  | room r chosen =>
    cases chosen with
    | true => cases henabled.symm.trans hshows.confirm
    | false =>
      obtain ⟨hfree, hhero⟩ := hshows.confirm.mp henabled
      refine ⟨.heroSelectReq { heroType_ := window.heroSelectScene_.selectedHero_ }, ?_,
        ClientRequest.fits_of_isGame rfl, ?_⟩
      · simp only [click, onConfirmButtonClicked, ne_eq, hhero, not_false_eq_true, if_true]
        rfl
      · simp only [click, onConfirmButtonClicked, ne_eq, hhero, not_false_eq_true, if_true]
        have hstay : ¬ HeroFree (gameRequests (o ++
            [(.heroSelectReq { heroType_ := window.heroSelectScene_.selectedHero_ },
              window.matchedRoomId_)])) := by
          rw [gameRequests_snoc rfl]
          exact fun hg => hg _ (List.mem_append_right _ List.mem_cons_self) _ rfl
        refine ⟨?_, hshows.toResting, hstack, hshows.room, fun button => ?_,
          iff_of_false Bool.false_ne_true fun hconfirm => hstay hconfirm.1⟩
        · -- a second hero is not sent, as the button is disabled by the first
          obtain ⟨cancels, heroes, hg, hcancels, rfl | ⟨request, rfl⟩⟩ := hstanding
          · rw [gameRequests_snoc rfl, hg, List.append_nil, hshows.room]
            exact ⟨cancels, _, rfl, hcancels, Or.inr ⟨_, rfl⟩⟩
          · rw [hg] at hfree
            exact absurd rfl (hfree _ (List.mem_append_right _ List.mem_cons_self) request)
        · cases button <;> exact iff_of_false Bool.false_ne_true hstay
  | idle => rcases hshows with hshows | hshows <;> cases hstack.symm.trans hshows.stack
  | _ => cases hstack.symm.trans hshows.stack

/-- The attack is sent for the battle on display. -/
theorem View.click_attack {k : Phase} {o : List RoomRequest} (h : window.View k o)
    (hclick : window.Clickable .attackButton_) :
    (window.click .attackButton_).1.View k
      (o ++ [(ClientRequest.battleAttackReq, window.matchedRoomId_)]) := by
  obtain ⟨hstanding, hshows⟩ := h
  obtain ⟨hstack, henabled⟩ := hclick
  cases k with
  | battle n =>
    obtain ⟨hturn, hg⟩ := hshows.attack.mp henabled
    refine ⟨?_, hstack, hshows.room, hshows.playerHealth, hshows.opponentHealth,
      iff_of_false Bool.false_ne_true fun hattack => ?_, hshows.returnLobby⟩
    · rw [gameRequests_snoc rfl, hg, hshows.room]
      exact Or.inr ⟨hturn, rfl⟩
    · rw [gameRequests_snoc rfl] at hattack
      simp at hattack
  | idle =>
    rcases hshows with hshows | hshows
    · cases hstack.symm.trans hshows.stack
    · cases henabled.symm.trans hshows.attack
  | started => cases henabled.symm.trans hshows.attack
  | room r chosen => cases chosen <;> cases hstack.symm.trans hshows.stack
  | out => cases hstack.symm.trans hshows.stack
  | queued => cases hstack.symm.trans hshows.stack

theorem View.click_return {k : Phase} {o : List RoomRequest} (h : window.View k o)
    (hclick : window.Clickable .returnLobbyButton_) :
    (window.click .returnLobbyButton_).1.View k o := by
  obtain ⟨hstanding, hshows⟩ := h
  obtain ⟨hstack, henabled⟩ := hclick
  cases k with
  | idle =>
    rcases hshows with hshows | hshows
    · cases hstack.symm.trans hshows.stack
    · exact ⟨hstanding, Or.inl ⟨⟨hshows.attack, rfl⟩, rfl, rfl, fun _ => rfl⟩⟩
  | battle n => cases henabled.symm.trans hshows.returnLobby
  | started => cases henabled.symm.trans hshows.returnLobby
  | room r chosen => cases chosen <;> cases hstack.symm.trans hshows.stack
  | out => cases hstack.symm.trans hshows.stack
  | queued => cases hstack.symm.trans hshows.stack

/-- A click sends at most one request, and only one that may be sent now. -/
theorem View.click {k : Phase} {o : List RoomRequest} (h : window.View k o) {button : Button}
    (hclick : window.Clickable button)
    (hjoin : button = .matchButton_ → window.lobbyScene_.matchmakingQueued_ = false → JoinFree o) :
    ∃ qs : List ClientRequest, (window.click button).2 = qs.map ClientRequest.frame ∧
      (∀ q ∈ qs, q.Fits) ∧
      (window.click button).1.View k (o ++ qs.map fun q => (q, window.matchedRoomId_)) := by
  -- a click that sends nothing, and one that sends one request
  have hnone : ∀ {window' : MainWindow}, window'.View k o → ∃ qs : List ClientRequest,
      ([] : List Frame) = qs.map ClientRequest.frame ∧ (∀ q ∈ qs, q.Fits) ∧
        window'.View k (o ++ qs.map fun q => (q, window.matchedRoomId_)) := by
    intro window' hview
    exact ⟨[], rfl, nofun, by rwa [List.map_nil, List.append_nil]⟩
  have hone : ∀ {window' : MainWindow} {q : ClientRequest}, q.Fits →
      window'.View k (o ++ [(q, window.matchedRoomId_)]) → ∃ qs : List ClientRequest,
        [q.frame] = qs.map ClientRequest.frame ∧ (∀ q ∈ qs, q.Fits) ∧
          window'.View k (o ++ qs.map fun q => (q, window.matchedRoomId_)) := by
    intro window' q hfits hview
    exact ⟨[q], rfl, by simpa using hfits, hview⟩
  cases button with
  | loginButton_ userName password =>
    simp only [MainWindow.click]
    rcases onLoginClicked_eq userName password with hsend | ⟨request, hfits, hsend⟩ <;> rw [hsend]
    · exact hnone h
    · exact hone hfits (h.account rfl)
  | registerButton_ userName password passwordConfirm =>
    simp only [MainWindow.click]
    rcases onRegisterClicked_eq userName password passwordConfirm with
      hsend | ⟨request, hfits, hsend⟩ <;> rw [hsend]
    · exact hnone h
    · exact hone hfits (h.account rfl)
  | matchButton_ =>
    obtain ⟨q, hframes, hfits, hview⟩ := h.click_match hclick (hjoin rfl)
    exact hframes ▸ hone hfits hview
  | heroButton button => exact hnone (h.click_hero hclick)
  | confirmButton_ =>
    obtain ⟨q, hframes, hfits, hview⟩ := h.click_confirm hclick
    exact hframes ▸ hone hfits hview
  | attackButton_ => exact hone (ClientRequest.fits_of_isGame rfl) (h.click_attack hclick)
  | returnLobbyButton_ => exact hnone (h.click_return hclick)

end MainWindow

end ArenaGame
