import ArenaGame.Server.Equiv.Outcomes

/-!
# The outcomes of the events that start, continue and end battles

Hero selection, attacks and disconnects, followed through on a server whose stores agree.
-/

namespace ArenaGame.GameServer

open GameProtocol GameMessages SessionService

variable {srv : GameServer} {c : UInt64} {payload : List UInt8}

/-! ### Hero selection -/

inductive HeroOutcome (srv : GameServer) (c : UInt64) (payload : List UInt8) :
    GameServer × List Effect → Prop
  | refused {response : HeroSelectResponse} : response.accepted_ = false →
      (ServerMessage.heroSelectRsp response).Fits →
      (∀ t request room, srv.sessionService_.findByConnection c = some t → t.roomId_ ≠ 0 →
        MessageType.decoded .heroSelectRequest payload = some request →
        isSelectableHero request.heroType_ = true →
        srv.roomService_.find t.roomId_ = some room → t.userId_ ∈ room.users →
        room.heroOf t.userId_ ≠ .kNone) →
      HeroOutcome srv c payload (srv, [.send c (ServerMessage.heroSelectRsp response).frame])
  /-- The other hero is still missing. -/
  | waiting {t : PlayerSession} {request : HeroSelectRequest} {room room' : Room}
      {rs : RoomService} :
      srv.sessionService_.findByConnection c = some t → t.roomId_ ≠ 0 →
      MessageType.decoded .heroSelectRequest payload = some request →
      isSelectableHero request.heroType_ = true →
      srv.roomService_.find t.roomId_ = some room →
      room.Chosen t.userId_ request.heroType_ room' → rs.nextRoomId_ = srv.roomService_.nextRoomId_ →
      (∀ r', rs.find r' = if r' = t.roomId_ then some room' else srv.roomService_.find r') →
      ¬ room'.Selected →
      HeroOutcome srv c payload
        ({ srv with roomService_ := rs },
          [.send c (ServerMessage.heroSelectRsp { accepted_ := true }).frame])
  /-- Both heroes are there and the battle starts. -/
  | started {t : PlayerSession} {request : HeroSelectRequest} {room room' : Room}
      {rs : RoomService} {bs : BattleService} :
      srv.sessionService_.findByConnection c = some t → t.roomId_ ≠ 0 →
      MessageType.decoded .heroSelectRequest payload = some request →
      isSelectableHero request.heroType_ = true →
      srv.roomService_.find t.roomId_ = some room →
      room.Chosen t.userId_ request.heroType_ room' → rs.nextRoomId_ = srv.roomService_.nextRoomId_ →
      (∀ r', rs.find r' = if r' = t.roomId_ then some room' else srv.roomService_.find r') →
      room'.Selected → srv.battleService_.find t.roomId_ = none →
      (∀ r', bs.find r' = if r' = t.roomId_ then some (BattleService.initialState room')
        else srv.battleService_.find r') →
      HeroOutcome srv c payload
        ({ srv with roomService_ := rs, battleService_ := bs },
          .send c (ServerMessage.heroSelectRsp { accepted_ := true }).frame ::
            .startBattle room' ::
              (srv.tellBoth room'.firstUserId_ room'.secondUserId_
                  (fun u => .battleStartNtf (room'.startFor u)) ++
                srv.tellBoth room'.firstUserId_ room'.secondUserId_
                  fun u => .battleStateNtf ((BattleService.initialState room').stateFor u)))

variable (srv) in
theorem startSelectedBattle_of_not_selected {t : PlayerSession} {room : Room}
    (ht : srv.sessionService_.findByConnection c = some t)
    (hroom : srv.roomService_.find t.roomId_ = some room) (hsel : ¬ room.Selected) :
    srv.startSelectedBattle c = (srv, []) := by
  have hnot : srv.roomService_.bothHeroesSelected t.roomId_ = false := by
    rw [← Bool.not_eq_true, RoomService.bothHeroesSelected_iff]
    rintro ⟨room', hroom', hboth⟩
    obtain rfl : room = room' := Option.some.inj (hroom.symm.trans hroom')
    exact hsel hboth
  simp only [startSelectedBattle, ht, hnot, Bool.not_false, if_true]

variable (srv) in
theorem startSelectedBattle_of_selected {t : PlayerSession} {room : Room}
    (ht : srv.sessionService_.findByConnection c = some t) (h0 : t.roomId_ ≠ 0)
    (hroom : srv.roomService_.find t.roomId_ = some room) (hsel : room.Selected)
    (hok : room.Selectable) (hnone : srv.battleService_.find t.roomId_ = none)
    (hopen : ∀ u ∈ room.users,
      srv.sessionService_.findConnectionByUserId u ∈ srv.connections_) :
    srv.startSelectedBattle c =
      ({ srv with battleService_ := (srv.battleService_.start room).2 },
        .startBattle room ::
          (srv.tellBoth room.firstUserId_ room.secondUserId_
              (fun u => .battleStartNtf (room.startFor u)) ++
            srv.tellBoth room.firstUserId_ room.secondUserId_
              fun u => .battleStateNtf ((BattleService.initialState room).stateFor u))) := by
  have hid := RoomService.find_roomId hroom
  have hm := RoomService.find_members hroom
  have hboth : srv.roomService_.bothHeroesSelected t.roomId_ = true :=
    RoomService.bothHeroesSelected_iff.mpr ⟨room, hroom, hsel⟩
  obtain ⟨hstart, hfind⟩ := BattleService.start_spec (s := srv.battleService_)
    (by rw [hid]; exact h0) hm hsel hok (by rw [hid]; exact hnone)
  have hstate := hfind room.roomId_
  rw [if_pos rfl] at hstate
  -- both players are connected, so both hear of the start
  have hopen₁ := hopen _ (Room.mem_users.mpr (Or.inl rfl))
  have hopen₂ := hopen _ (Room.mem_users.mpr (Or.inr rfl))
  simp only [startSelectedBattle, ht, hboth, Bool.not_true, Bool.false_eq_true, if_false, hroom,
    hstart, hstate]
  let srv' : GameServer := { srv with battleService_ := (srv.battleService_.start room).2 }
  have hstartNtf := sendBattleStartNotification_eq srv' hm.first_ne_second hopen₁ hopen₂
  have hstateNtf := sendBattleStateNotification_eq srv'
    (BattleService.initialState room) hm.first_ne_second hopen₁ hopen₂
  rw [hstartNtf, hstateNtf]
  rfl

/-- The answer to a hero selection, by cases. -/
inductive HeroSelectResponseCases (srv : GameServer) (c : UInt64) (payload : List UInt8) :
    HeroSelectResponse × GameServer → Prop
  | refused {response} : response.accepted_ = false →
      response.errorMessage_.length ≤ kMaxStringBytes →
      (∀ t request room, srv.sessionService_.findByConnection c = some t → t.roomId_ ≠ 0 →
        MessageType.decoded .heroSelectRequest payload = some request →
        isSelectableHero request.heroType_ = true →
        srv.roomService_.find t.roomId_ = some room → t.userId_ ∈ room.users →
        room.heroOf t.userId_ ≠ .kNone) →
      HeroSelectResponseCases srv c payload (response, srv)
  | accepted {t request room room' rs} : srv.sessionService_.findByConnection c = some t →
      t.roomId_ ≠ 0 → MessageType.decoded .heroSelectRequest payload = some request →
      isSelectableHero request.heroType_ = true →
      srv.roomService_.find t.roomId_ = some room →
      room.Chosen t.userId_ request.heroType_ room' →
      rs.nextRoomId_ = srv.roomService_.nextRoomId_ →
      (∀ r', rs.find r' = if r' = t.roomId_ then some room' else srv.roomService_.find r') →
      HeroSelectResponseCases srv c payload
        ({ accepted_ := true }, { srv with roomService_ := rs })

variable (srv c payload) in
theorem heroSelectResponse_cases :
    HeroSelectResponseCases srv c payload (srv.heroSelectResponse c (.ofBytes payload)) := by
  unfold heroSelectResponse
  split
  · rename_i hdecode
    exact .refused rfl (by dsimp only; decide) fun _ _ _ _ _ hd => by cases hd.symm.trans hdecode
  · rename_i request hdecode
    split
    · rename_i hsession
      exact .refused rfl (by dsimp only; decide) fun t _ _ ht => by cases ht.symm.trans hsession
    · rename_i t ht
      split
      · rename_i hroom
        refine .refused rfl (by dsimp only; decide) fun t' _ _ ht' h0 => absurd ?_ h0
        exact Option.some.inj (ht.symm.trans ht') ▸ hroom
      · rename_i h0
        have hselect := RoomService.selectHero_cases (s := srv.roomService_) t.roomId_ t.userId_
          request.heroType_
        generalize srv.roomService_.selectHero t.roomId_ t.userId_ request.heroType_ = selected
          at hselect ⊢
        cases hselect with
        | refused hwhy =>
          refine .refused rfl (by dsimp only; decide) fun t' request' room ht' _ hd hsel => ?_
          obtain rfl : t = t' := Option.some.inj (ht.symm.trans ht')
          obtain rfl : request = request' := Option.some.inj (hdecode.symm.trans hd)
          exact hwhy hsel room
        | accepted hroom hsel hchosen hnext hfind =>
          exact .accepted ht h0 hdecode hsel hroom hchosen hnext hfind

/-- The answer is sent before the battle is started. -/
theorem handleHeroSelect_eq {reader : BinaryReader} {response : HeroSelectResponse}
    {srv' : GameServer} (heq : srv.heroSelectResponse c reader = (response, srv'))
    (hfits : (ServerMessage.heroSelectRsp response).Fits) (hc : c ∈ srv'.connections_) :
    srv.handleHeroSelect c reader =
      if response.accepted_ then
        ((srv'.startSelectedBattle c).1,
          .send c (ServerMessage.heroSelectRsp response).frame :: (srv'.startSelectedBattle c).2)
      else (srv', [.send c (ServerMessage.heroSelectRsp response).frame]) := by
  have hencoded : MessageType.encoded .heroSelectResponse response = _ := encoded_of_fits hfits
  have hsend : srv'.encodeAndSend c MSG_HERO_SELECT_RSP .heroSelectResponse response =
      [.send c (ServerMessage.heroSelectRsp response).frame] :=
    encodeAndSend_eq srv' (.heroSelectRsp response) hfits hc
  simp only [encodeAndSend, hencoded] at hsend
  unfold handleHeroSelect
  simp only [heq, hencoded, hsend]
  cases response.accepted_ <;> rfl

/-- There is no battle yet in a room where a hero can be chosen. -/
theorem Coherent.battle_eq_none (h : Coherent srv) {r : UInt64} {u : UInt32} {hero : HeroType}
    {room room' : Room} (hroom : srv.roomService_.find r = some room)
    (hchosen : room.Chosen u hero room') : srv.battleService_.find r = none := by
  cases hstate : srv.battleService_.find r with
  | none => rfl
  | some state =>
    obtain ⟨room₀, hroom₀, hhosts⟩ := h.hosts hstate
    obtain rfl : room = room₀ := Option.some.inj (hroom.symm.trans hroom₀)
    exact absurd hhosts.selected hchosen.not_selected

variable (payload) in
theorem handleHeroSelect_outcome (h : Coherent srv) (hc : c ∈ srv.connections_) :
    HeroOutcome srv c payload (srv.handleHeroSelect c (.ofBytes payload)) := by
  have hcases := heroSelectResponse_cases srv c payload
  cases heq : srv.heroSelectResponse c (.ofBytes payload) with
  | mk response srv' =>
    rw [heq] at hcases
    cases hcases with
    | refused hno htext hwhy =>
      have hfits := ServerMessage.fits_heroSelectRsp htext
      rw [handleHeroSelect_eq heq hfits hc, hno]
      exact .refused hno hfits hwhy
    | @accepted t request room room' rs ht h0 hdecode hsel hroom hchosen hnext hfind =>
      have hroom' : rs.find t.roomId_ = some room' := by rw [hfind, if_pos rfl]
      rw [handleHeroSelect_eq heq (ServerMessage.fits_heroSelectRsp (Nat.zero_le _)) hc]
      by_cases hboth : room'.Selected
      · -- a coherent server starts the battle: none is open, both users are online
        have hnone := h.battle_eq_none hroom hchosen
        have hok := hchosen.selectable (h.selectable hroom) hsel
        have hopen : ∀ u ∈ room'.users,
            srv.sessionService_.findConnectionByUserId u ∈ srv.connections_ := by
          intro u hu
          rw [hchosen.users_eq] at hu
          obtain ⟨s, hs, -⟩ := h.inRoom h0 hroom u hu
          exact h.online hs
        have hstart := startSelectedBattle_of_selected { srv with roomService_ := rs }
          ht h0 hroom' hboth hok hnone hopen
        have hid := RoomService.find_roomId hroom'
        obtain ⟨-, hbattles⟩ := BattleService.start_spec (s := srv.battleService_)
          (by rw [hid]; exact h0) (RoomService.find_members hroom') hboth hok
          (by rw [hid]; exact hnone)
        rw [hid] at hbattles
        rw [hstart]
        exact .started ht h0 hdecode hsel hroom hchosen hnext hfind hboth hnone hbattles
      · have hwait := startSelectedBattle_of_not_selected { srv with roomService_ := rs }
          ht hroom' hboth
        rw [hwait]
        exact .waiting ht h0 hdecode hsel hroom hchosen hnext hfind hboth

/-! ### Attacks -/

/-- The results that both players are told, at the ELO `e₁` and `e₂`. -/
def resultsFor (state : BattleState) (e₁ e₂ : UInt32) (u : UInt32) : ServerMessage :=
  .battleResultNtf (state.resultFor u (if u = state.firstUserId_ then e₁ else e₂))

variable (srv) in
/-- A battle that two players who are online have ended. -/
theorem callFinishBattle_spec (io : SaveIO) {state : BattleState} {t₁ t₂ : PlayerSession}
    (h₁ : srv.sessionService_.sessionOf state.firstUserId_ = some t₁)
    (h₂ : srv.sessionService_.sessionOf state.secondUserId_ = some t₂)
    (hne : state.firstUserId_ ≠ state.secondUserId_)
    (hopen : ∀ u ∈ state.users,
      srv.sessionService_.findConnectionByUserId u ∈ srv.connections_) :
    ∃ ok e₁ e₂ srv', Finished srv io state t₁ t₂ ok e₁ e₂ srv' ∧
      srv.callFinishBattle io state =
        (srv', .finishBattle srv io state ::
          srv.tellBoth state.firstUserId_ state.secondUserId_ (resultsFor state e₁ e₂)) := by
  obtain ⟨ok, e₁, e₂, hfinished, heffects⟩ := finishBattle_spec _ io h₁ h₂ hne
    (hopen _ (BattleState.mem_users.mpr (Or.inl rfl)))
    (hopen _ (BattleState.mem_users.mpr (Or.inr rfl)))
  refine ⟨ok, e₁, e₂, _, hfinished, ?_⟩
  simp only [callFinishBattle, heffects, tellBoth, resultsFor, if_true, if_neg hne.symm]

inductive AttackOutcome (srv : GameServer) (io : SaveIO) (c : UInt64) (payload : List UInt8) :
    GameServer × List Effect → Prop
  | refused :
      (∀ t state, srv.sessionService_.findByConnection c = some t →
        srv.battleService_.find t.roomId_ = some state →
        MessageType.decoded .battleAttackRequest payload ≠ none →
        state.attack t.userId_ = none) →
      AttackOutcome srv io c payload (srv, [])
  | hit {t : PlayerSession} {state state' : BattleState} {bs : BattleService} :
      srv.sessionService_.findByConnection c = some t →
      srv.battleService_.find t.roomId_ = some state → state.attack t.userId_ = some state' →
      state'.finished_ = false →
      (∀ r', bs.find r' = if r' = t.roomId_ then some state' else srv.battleService_.find r') →
      AttackOutcome srv io c payload
        ({ srv with battleService_ := bs },
          srv.tellBoth state'.firstUserId_ state'.secondUserId_
            fun u => .battleStateNtf (state'.stateFor u))
  | felled {t t₁ t₂ : PlayerSession} {state state' : BattleState} {bs : BattleService}
      {ok : Bool} {e₁ e₂ : UInt32} {srv' : GameServer} :
      srv.sessionService_.findByConnection c = some t →
      srv.battleService_.find t.roomId_ = some state → state.attack t.userId_ = some state' →
      state'.finished_ = true →
      (∀ r', bs.find r' = if r' = t.roomId_ then some state' else srv.battleService_.find r') →
      srv.sessionService_.sessionOf state'.firstUserId_ = some t₁ →
      srv.sessionService_.sessionOf state'.secondUserId_ = some t₂ →
      Finished { srv with battleService_ := bs } io state' t₁ t₂ ok e₁ e₂ srv' →
      AttackOutcome srv io c payload
        (srv',
          srv.tellBoth state'.firstUserId_ state'.secondUserId_
              (fun u => .battleStateNtf (state'.stateFor u)) ++
            .finishBattle { srv with battleService_ := bs } io state' ::
              srv.tellBoth state'.firstUserId_ state'.secondUserId_ (resultsFor state' e₁ e₂))

variable (c payload) in
theorem handleBattleAttack_outcome (io : SaveIO) (h : Coherent srv) :
    AttackOutcome srv io c payload (srv.handleBattleAttack io c (.ofBytes payload)) := by
  unfold handleBattleAttack
  split
  · rename_i hdecode
    exact .refused fun _ _ _ _ hd => absurd hdecode hd
  · split
    · rename_i hsession
      exact .refused fun t _ ht => by cases ht.symm.trans hsession
    · rename_i t ht
      split
      · rename_i h0
        refine .refused fun t' state ht' hstate => absurd ?_ (battle_ne_zero hstate)
        exact Option.some.inj (ht.symm.trans ht') ▸ h0
      · have hcases := BattleService.attack_cases (s := srv.battleService_) t.roomId_ t.userId_
        generalize srv.battleService_.attack t.roomId_ t.userId_ = attacked at hcases ⊢
        cases hcases with
        | refused hwhy =>
          refine .refused fun t' state ht' hstate _ => ?_
          obtain rfl : t = t' := Option.some.inj (ht.symm.trans ht')
          exact hwhy state hstate
        | @accepted state state' bs hstate hattack hfind =>
          have hattacked := BattleState.attack_spec (BattleService.find_valid hstate) hattack
          obtain ⟨room, t₁, t₂, -, -, h₁, -, h₂, -⟩ := h.battle hstate
          rw [← hattacked.first] at h₁
          rw [← hattacked.second] at h₂
          have hne : state'.firstUserId_ ≠ state'.secondUserId_ := by
            rw [hattacked.first, hattacked.second]
            exact (BattleService.find_valid hstate).first_ne_second
          have hopen : ∀ u ∈ state'.users,
              srv.sessionService_.findConnectionByUserId u ∈ srv.connections_ := by
            intro u hu
            rcases BattleState.mem_users.mp hu with rfl | rfl
            · exact h.online h₁
            · exact h.online h₂
          have hnotify := sendBattleStateNotification_eq { srv with battleService_ := bs } _
            hne (hopen _ (BattleState.mem_users.mpr (Or.inl rfl)))
            (hopen _ (BattleState.mem_users.mpr (Or.inr rfl)))
          -- both are told of the blow, and of the result if it has felled one of them
          cases hfin : state'.finished_ with
          | false =>
            simp only [Bool.not_true, Bool.not_false, Bool.false_eq_true, if_false, if_true,
              hnotify]
            exact .hit ht hstate hattack hfin hfind
          | true =>
            obtain ⟨ok, e₁, e₂, srv', hfinished, hcall⟩ := callFinishBattle_spec
              { srv with battleService_ := bs } io h₁ h₂ hne hopen
            simp only [Bool.not_true, Bool.false_eq_true, if_false, hnotify, hcall]
            exact .felled ht hstate hattack hfin hfind h₁ h₂ hfinished

/-! ### Disconnects -/

/-- The server once the user of a connection has been taken off the queue. -/
def dequeue (srv : GameServer) (c : UInt64) : GameServer :=
  match srv.sessionService_.findByConnection c with
  | none => srv
  | some t => { srv with toMatchmakingService := (srv.cancel t.userId_).2 }

/-- The server once the connection and its session are forgotten. -/
def logout (srv : GameServer) (c : UInt64) : GameServer :=
  { srv with
    sessionService_ := srv.sessionService_.remove c
    connections_ := srv.connections_.erase c }

section Dequeue

variable (srv c)

@[simp] theorem sessionService_dequeue : (srv.dequeue c).sessionService_ = srv.sessionService_ := by
  unfold dequeue
  split <;> rfl

@[simp] theorem roomService_dequeue : (srv.dequeue c).roomService_ = srv.roomService_ := by
  unfold dequeue
  split <;> rfl

@[simp] theorem battleService_dequeue : (srv.dequeue c).battleService_ = srv.battleService_ := by
  unfold dequeue
  split <;> rfl

@[simp] theorem connections_dequeue : (srv.dequeue c).connections_ = srv.connections_ := by
  unfold dequeue
  split <;> rfl

@[simp] theorem accountRepository_dequeue :
    (srv.dequeue c).accountRepository_ = srv.accountRepository_ := by
  unfold dequeue
  split <;> rfl

theorem find_dequeue (u : UInt32) :
    (srv.dequeue c).matchQueue_.find u =
      if ∃ t, srv.sessionService_.findByConnection c = some t ∧ t.userId_ = u then none
      else srv.matchQueue_.find u := by
  unfold dequeue
  split
  · rename_i hnone
    rw [if_neg]
    rintro ⟨t, ht, -⟩
    cases ht.symm.trans hnone
  · rename_i t ht
    show (srv.matchQueue_.cancel t.userId_).2.find u = _
    rw [(MatchQueue.cancel_eq t.userId_).2]
    by_cases hu : u = t.userId_
    · rw [if_pos hu, if_pos ⟨t, ht, hu.symm⟩]
    · rw [if_neg hu, if_neg]
      rintro ⟨t', ht', rfl⟩
      exact hu (Option.some.inj (ht.symm.trans ht') ▸ rfl)

end Dequeue

theorem Coherent.dequeue (h : Coherent srv) (c : UInt64) : Coherent (srv.dequeue c) := by
  have hq : ∀ u ticket, (srv.dequeue c).matchQueue_.find u = some ticket →
      srv.matchQueue_.find u = some ticket := by
    intro u ticket hu
    rw [find_dequeue] at hu
    split at hu
    · cases hu
    · exact hu
  have hsame : srv.dequeue c = { srv with matchQueue_ := (srv.dequeue c).matchQueue_ } := by
    unfold GameServer.dequeue
    split <;> rfl
  rw [hsame]
  exact h.withQueue fun u ticket hu => Or.inl (hq u ticket hu)

/-- The opponent of a member. -/
def opponentOf (room : Room) (u : UInt32) : UInt32 :=
  if room.firstUserId_ = u then room.secondUserId_ else room.firstUserId_

inductive CloseOutcome (srv : GameServer) (io : SaveIO) (c : UInt64) :
    GameServer × List Effect → Prop
  /-- The user, if there is one, is in no room. -/
  | free :
      (∀ t, srv.sessionService_.findByConnection c = some t → ∀ r room, r ≠ 0 →
        srv.roomService_.find r = some room → t.userId_ ∉ room.users) →
      CloseOutcome srv io c ((srv.dequeue c).logout c, [])
  /-- The room has no battle: it is closed for the opponent. -/
  | left {t : PlayerSession} {room : Room} {srv₁ : GameServer} :
      srv.sessionService_.findByConnection c = some t → t.roomId_ ≠ 0 →
      srv.battleService_.find t.roomId_ = none →
      srv.roomService_.find t.roomId_ = some room →
      opponentOf room t.userId_ ∈ room.users → opponentOf room t.userId_ ≠ t.userId_ →
      RoomEnded (srv.dequeue c) t.roomId_ (inRoom (opponentOf room t.userId_) 0) srv₁ →
      srv₁.accountRepository_ = srv.accountRepository_ →
      CloseOutcome srv io c
        (srv₁.logout c,
          [srv.tell (opponentOf room t.userId_) (.roomClosedNtf
            { roomId_ := t.roomId_, reason_ := .ofLiteral "Opponent disconnected" })])
  /-- The user gives up the battle. -/
  | forfeited {t t₁ t₂ : PlayerSession} {state state' : BattleState} {bs : BattleService}
      {ok : Bool} {e₁ e₂ : UInt32} {srv₁ : GameServer} :
      srv.sessionService_.findByConnection c = some t →
      srv.battleService_.find t.roomId_ = some state → state.forfeit t.userId_ = some state' →
      (∀ r', bs.find r' = if r' = t.roomId_ then some state' else srv.battleService_.find r') →
      srv.sessionService_.sessionOf state'.firstUserId_ = some t₁ →
      srv.sessionService_.sessionOf state'.secondUserId_ = some t₂ →
      Finished { srv.dequeue c with battleService_ := bs } io state' t₁ t₂ ok e₁ e₂ srv₁ →
      CloseOutcome srv io c
        (srv₁.logout c,
          .finishBattle { srv.dequeue c with battleService_ := bs } io state' ::
            srv.tellBoth state'.firstUserId_ state'.secondUserId_ (resultsFor state' e₁ e₂))

theorem onDisconnected_eq (io : SaveIO) (c : UInt64) :
    srv.onDisconnected io c =
      match srv.sessionService_.findByConnection c with
      | none => ((srv.dequeue c).logout c, [])
      | some t =>
        (((srv.dequeue c).leaveRoom io t.userId_ t.roomId_).1.logout c,
          ((srv.dequeue c).leaveRoom io t.userId_ t.roomId_).2) := by
  cases ht : srv.sessionService_.findByConnection c with
  | none =>
    simp only [onDisconnected, dequeue, ht]
    rfl
  | some t =>
    simp only [onDisconnected, dequeue, ht]
    rfl

variable (c) in
theorem onDisconnected_outcome (io : SaveIO) (h : Coherent srv) :
    CloseOutcome srv io c (srv.onDisconnected io c) := by
  rw [onDisconnected_eq]
  split
  · rename_i hnone
    exact .free fun t ht => by cases ht.symm.trans hnone
  · rename_i t ht
    have hown := sessionOf_of_session ht
    -- a member of a room is in that room and in no other
    have hmember : ∀ {r room}, r ≠ 0 → srv.roomService_.find r = some room →
        t.userId_ ∈ room.users → t.roomId_ = r := by
      intro r room h0 hroom hu
      obtain ⟨t', ht', hr⟩ := h.inRoom h0 hroom _ hu
      obtain rfl : t = t' := Option.some.inj (hown.symm.trans ht')
      exact hr
    have hfree : ∀ {srv₁}, srv₁ = srv.dequeue c →
        (∀ room, t.roomId_ ≠ 0 → srv.roomService_.find t.roomId_ = some room →
          t.userId_ ∉ room.users) →
        CloseOutcome srv io c (srv₁.logout c, []) := by
      rintro srv₁ rfl hout
      refine .free fun t' ht' r room h0 hroom hu => ?_
      obtain rfl : t = t' := Option.some.inj (ht.symm.trans ht')
      obtain rfl := hmember h0 hroom hu
      exact hout room h0 hroom hu
    unfold leaveRoom
    split
    · rename_i h0
      exact hfree rfl fun _ hne => absurd h0 hne
    · rename_i h0
      rw [battleService_dequeue, roomService_dequeue]
      split
      · rename_i state hstate
        have hcases := BattleService.forfeit_cases (s := srv.battleService_) t.roomId_ t.userId_
        generalize srv.battleService_.forfeit t.roomId_ t.userId_ = forfeited at hcases ⊢
        obtain ⟨room, t₁, t₂, hroom, hhosts, h₁, -, h₂, -⟩ := h.battle hstate
        cases hcases with
        | refused hwhy =>
          simp only [Bool.false_eq_true, if_false]
          refine hfree ?_ fun room' _ hroom' => ?_
          · rw [← battleService_dequeue srv c]
          · obtain rfl : room = room' := Option.some.inj (hroom.symm.trans hroom')
            rw [← BattleState.mem_users_of_hosts hhosts]
            rcases BattleState.forfeit_eq_none (hwhy state hstate) with hfin | hout
            · cases hhosts.unfinished.symm.trans hfin
            · exact hout
        | @accepted state₀ state' bs hstate₀ hforfeit hfind =>
          obtain rfl : state = state₀ := Option.some.inj (hstate.symm.trans hstate₀)
          have hf := BattleState.forfeit_spec (BattleService.find_valid hstate) hforfeit
          rw [← hf.first] at h₁
          rw [← hf.second] at h₂
          have hne : state'.firstUserId_ ≠ state'.secondUserId_ := by
            rw [hf.first, hf.second]
            exact (BattleService.find_valid hstate).first_ne_second
          rw [← sessionService_dequeue srv c] at h₁ h₂
          obtain ⟨ok, e₁, e₂, srv', hfinished, hcall⟩ := callFinishBattle_spec
            { srv.dequeue c with battleService_ := bs } io h₁ h₂ hne fun u hu => by
              rcases BattleState.mem_users.mp hu with rfl | rfl
              · exact (h.dequeue c).online h₁
              · exact (h.dequeue c).online h₂
          rw [sessionService_dequeue] at h₁ h₂
          have houtcome := CloseOutcome.forfeited ht hstate hforfeit hfind h₁ h₂ hfinished
          simp only [if_true, hcall, tellBoth, tell, sessionService_dequeue] at houtcome ⊢
          exact houtcome
      · rename_i hnobattle
        split
        · rename_i hnoroom
          exact hfree rfl fun room _ hroom => by cases hroom.symm.trans hnoroom
        · rename_i room hroom
          have hm := RoomService.find_members hroom
          have hopp : opponentOf room t.userId_ ∈ room.users ∧
              opponentOf room t.userId_ ≠ t.userId_ := by
            unfold opponentOf
            split
            · rename_i hu
              exact ⟨Room.mem_users.mpr (Or.inr rfl), by rw [← hu]; exact hm.first_ne_second.symm⟩
            · rename_i hu
              exact ⟨Room.mem_users.mpr (Or.inl rfl), hu⟩
          obtain ⟨s, hs, hsroom⟩ := h.inRoom h0 hroom _ hopp.1
          let srv₁ : GameServer := { srv.dequeue c with
            sessionService_ := srv.sessionService_.clearRoom (opponentOf room t.userId_)
            roomService_ := srv.roomService_.remove t.roomId_
            battleService_ := srv.battleService_ }
          have hended : RoomEnded (srv.dequeue c) t.roomId_
              (inRoom (opponentOf room t.userId_) 0) srv₁ := by
            refine ⟨rfl, rfl, ?_, fun r' => ?_, fun r' => ?_, ?_, fun t' => ?_,
              fun {c' t'} hc' hne => ?_⟩
            · simp [srv₁]
            · rw [roomService_dequeue]
              exact RoomService.find_remove _ _
            · rw [battleService_dequeue]
              split
              · rename_i hr
                rw [hr, hnobattle]
              · rfl
            · rw [sessionService_dequeue]
              exact mapped_markInRoom _ 0
            · unfold inRoom
              split <;> rfl
            · refine inRoom_of_ne _ fun hu => hne ?_
              rw [sessionService_dequeue] at hc'
              have hs' := sessionOf_of_session hc'
              rw [hu, hs] at hs'
              exact Option.some.inj hs' ▸ hsroom
          have houtcome : CloseOutcome srv io c (srv₁.logout c,
              [srv.tell (opponentOf room t.userId_) (.roomClosedNtf
                { roomId_ := t.roomId_, reason_ := .ofLiteral "Opponent disconnected" })]) :=
            .left ht h0 hnobattle hroom hopp.1 hopp.2 hended
              (accountRepository_dequeue srv c)
          have hsend := encodeAndSend_eq (srv.dequeue c) (.roomClosedNtf
            { roomId_ := t.roomId_, reason_ := .ofLiteral "Opponent disconnected" })
            (ServerMessage.fits_roomClosedNtf (by dsimp only; decide))
            (by rw [connections_dequeue]; exact h.online hs)
          unfold tell at houtcome
          rw [← hsend] at houtcome
          rw [sessionService_dequeue]
          exact houtcome

end ArenaGame.GameServer
