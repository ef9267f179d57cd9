import ArenaGame.Server.DefensiveBranches
import ArenaGame.Server.Equiv.Consistency

/-!
# No run goes through a defensive branch

Every handler is followed on a server whose services agree (`Accounted`).  Nothing is sent that does
not fit, because texts and account names are short; what is looked up is there, because sessions,
queue, rooms and battles agree; and the services grant what they are asked for.
-/

namespace ArenaGame.GameServer

open GameProtocol GameMessages SessionService

variable {range : MatchTicket → MatchTimePoint → ℚ} {srv : GameServer} {c : UInt64}
  {payload : List UInt8}

/-! ### Sending -/

variable (srv c) in
theorem sendToConnectionBranches_eq_nil {t : MessageType} {value : t.Value} (h : t.Fits value) :
    srv.sendToConnectionBranches c (t.bytes value) = [] := by
  have hlen := length_bytes_le h
  unfold sendToConnectionBranches
  split
  · rfl
  · rw [if_neg (by omega)]

variable (srv c) in
/-- A message that fits is sent without trouble. -/
theorem encodeAndSendBranches_eq_nil {t : MessageType} {value : t.Value} (h : t.Fits value) :
    srv.encodeAndSendBranches c t value = [] := by
  unfold encodeAndSendBranches
  rw [encoded_of_fits h]
  exact sendToConnectionBranches_eq_nil srv c h

theorem sendBattleStartNotificationBranches_eq_nil (room : Room) :
    srv.sendBattleStartNotificationBranches room = [] := by
  have hsend : ∀ c notification,
      srv.encodeAndSendBranches c .battleStartNotification notification = [] :=
    fun c notification =>
      encodeAndSendBranches_eq_nil srv c (ServerMessage.fits_battleStartNtf notification)
  rw [sendBattleStartNotificationBranches, hsend, hsend, List.nil_append]

theorem sendBattleStateNotificationBranches_eq_nil (state : BattleState) :
    srv.sendBattleStateNotificationBranches state = [] := by
  have hsend : ∀ c notification,
      srv.encodeAndSendBranches c .battleStateNotification notification = [] :=
    fun c notification =>
      encodeAndSendBranches_eq_nil srv c (ServerMessage.fits_battleStateNtf notification)
  rw [sendBattleStateNotificationBranches, hsend, hsend, List.nil_append]

theorem sendBattleResultBranches_eq_nil (state : BattleState) (u : UInt32) :
    srv.sendBattleResultBranches state u = [] := by
  unfold sendBattleResultBranches
  simp only
  split
  · rfl
  · exact encodeAndSendBranches_eq_nil _ _ (ServerMessage.fits_battleResultNtf _)

/-! ### Answers -/

theorem handleLoginBranches_eq_nil (reader : BinaryReader) :
    srv.handleLoginBranches c reader = [] :=
  encodeAndSendBranches_eq_nil _ _ (loginResponse_cases srv c reader).fits

theorem handleRegisterBranches_eq_nil (io : SaveIO) (reader : BinaryReader) :
    srv.handleRegisterBranches io c reader = [] :=
  encodeAndSendBranches_eq_nil _ _ (registerResponse_cases srv io reader).fits

theorem handleMatchJoinBranches_eq_nil (now : MatchTimePoint) (reader : BinaryReader) :
    srv.handleMatchJoinBranches now c reader = [] := by
  have htext : (srv.matchJoinResponse now c reader).1.errorMessage_.length ≤ kMaxStringBytes := by
    unfold matchJoinResponse
    split
    · dsimp only
      decide
    · split
      · dsimp only
        decide
      · simp only
        split_ifs <;> (dsimp only; decide)
  exact encodeAndSendBranches_eq_nil _ _ (ServerMessage.fits_matchJoinRsp htext)

theorem handleMatchCancelBranches_eq_nil (reader : BinaryReader) :
    srv.handleMatchCancelBranches c reader = [] := by
  have htext : (srv.matchCancelResponse c reader).1.errorMessage_.length ≤ kMaxStringBytes := by
    unfold matchCancelResponse
    split
    · dsimp only
      decide
    · split
      · dsimp only
        decide
      · simp only
        split_ifs <;> (dsimp only; decide)
  exact encodeAndSendBranches_eq_nil _ _ (ServerMessage.fits_matchCancelRsp htext)

/-! ### Ticks -/

section Tick

open MatchmakingService

variable {now : MatchTimePoint}

/-- A pair that gets its room. -/
theorem placePairBranches_eq_nil {s : MatchmakingService} {pair : MatchPair}
    (h : (s.placePair pair).1 ≠ none) : s.placePairBranches pair = [] := by
  unfold placePair at h
  simp only at h
  split at h
  · rename_i t₁ t₂ h₁ h₂
    split_ifs at h with hroom h0
    · exact absurd rfl h
    · exact absurd rfl h
    · simp only [placePairBranches, h₁, h₂]
      exact (if_neg hroom).trans (if_neg h0)
  · exact absurd rfl h

theorem tickLoopBranches_eq_nil {s s' : MatchmakingService} {outcomes : Outcomes}
    (hrounds : Rounds range now s outcomes s') (hfound : ∀ o ∈ outcomes, o.2 ≠ none) (fuel : ℕ) :
    tickLoopBranches range now fuel s = [] := by
  induction hrounds generalizing fuel with
  | done hdraw =>
    cases fuel with
    | zero => rfl
    | succ fuel => simp only [tickLoopBranches, hdraw]
  | @round s pair q' outcomes s' hdraw hrounds ih =>
    cases fuel with
    | zero => rfl
    | succ fuel =>
      have hplaced := placePairBranches_eq_nil (hfound _ List.mem_cons_self)
      have hrest := ih (fun o ho => hfound o (List.mem_cons_of_mem _ ho)) fuel
      simp only [tickLoopBranches, hdraw, hplaced, hrest, List.nil_append]

/-- Whoever is drawn is online and in no room, so that every pair of a tick gets a room. -/
theorem Accounted.all_found {o : List Effect} (h : Accounted o srv) {outcomes : Outcomes}
    {s' : MatchmakingService} (hrounds : Rounds range now srv.toMatchmakingService outcomes s')
    (hrooms : roomsCreated o + outcomes.events.length < 2 ^ 64 - 1) :
    ∀ o ∈ outcomes, o.2 ≠ none := by
  obtain ⟨hprocessed, -⟩ := hrounds.processed h.lodged.numbered hrooms
  have hfree : ∀ u ∈ outcomes.users,
      ∃ t, srv.sessionService_.sessionOf u = some t ∧ t.roomId_ = 0 := by
    intro u hu
    obtain ⟨ticket, hticket⟩ := hrounds.queued hu
    obtain ⟨t, ht, h0, -⟩ := h.coherent.queued hticket
    exact ⟨t, ht, h0⟩
  intro o ho
  obtain ⟨roomId, hroomId⟩ := hprocessed.all_found hrounds.users_nodup hfree o ho
  rw [hroomId]
  exact Option.some_ne_none _

/-- The players of a match are still online when they are told. -/
theorem notifyMatchFoundBranches_eq_nil (h : Coherent srv) {event : MatchFoundEvent}
    (honline : ∀ u ∈ event.pair_.users, ∃ t, srv.sessionService_.sessionOf u = some t) :
    srv.notifyMatchFoundBranches event = [] := by
  obtain ⟨t₁, h₁⟩ := honline _ (mem_users.mpr (Or.inl rfl))
  obtain ⟨t₂, h₂⟩ := honline _ (mem_users.mpr (Or.inr rfl))
  have hsend : ∀ {u t} (c), srv.sessionService_.sessionOf u = some t →
      srv.encodeAndSendBranches c .matchFoundNotification
        { roomId_ := event.roomId_, opponentUserId_ := t.userId_,
          opponentUserName_ := t.userName_, opponentElo_ := t.elo_ } = [] := fun c ht =>
    encodeAndSendBranches_eq_nil srv c
      (ServerMessage.fits_matchFoundNtf ((h.name_le ht).trans (by decide)))
  have hsend₁ := hsend (srv.sessionService_.findConnectionByUserId event.pair_.second_.userId_) h₁
  have hsend₂ := hsend (srv.sessionService_.findConnectionByUserId event.pair_.first_.userId_) h₂
  unfold sessionOf at h₁ h₂
  simp only [notifyMatchFoundBranches, h₁, h₂, hsend₁, hsend₂, List.nil_append]

theorem Accounted.tickBranches_eq_nil {o : List Effect} (h : Accounted o srv)
    (hrooms : roomsCreated (o ++ (srv.step range (.tick now)).2) < 2 ^ 64 - 1) :
    srv.processMatchmakingTickBranches range now = [] := by
  obtain ⟨outcomes, hrounds, hevents⟩ := tick_rounds range now srv.toMatchmakingService
  have heffects := congrArg Prod.snd (processMatchmakingTick_eq h.coherent hrounds hevents)
  change (srv.step range (.tick now)).2 = _ at heffects
  rw [heffects, roomsCreated_append, roomsCreated_events] at hrooms
  have hloop := tickLoopBranches_eq_nil hrounds (h.all_found hrounds hrooms)
    (srv.matchQueue_.size + 1)
  have hnotify : ∀ event ∈ (srv.tick range now).1,
      { srv with toMatchmakingService := (srv.tick range now).2 }.notifyMatchFoundBranches event =
        [] := by
    intro event he
    rw [hevents] at he
    obtain ⟨f, hmapped, -⟩ := rounds_mapped hrounds
    refine notifyMatchFoundBranches_eq_nil (Coherent.rounds hrounds h.coherent) fun u hu => ?_
    obtain ⟨ticket, hticket⟩ := hrounds.queued (mem_users_of_mem_events hrounds he hu)
    obtain ⟨t, ht, -⟩ := h.coherent.queued hticket
    exact ⟨f t, by rw [hmapped.sessionOf, ht, Option.map_some]⟩
  unfold processMatchmakingTickBranches tickBranches
  simp only [hloop, List.nil_append, List.flatMap_eq_nil_iff]
  exact hnotify

end Tick

/-! ### Battles -/

variable (srv) in
/-- Both players of a battle that ends are online. -/
theorem finishBattleBranches_eq_nil (io : SaveIO) {state : BattleState} {t₁ t₂ : PlayerSession}
    (h₁ : srv.sessionService_.sessionOf state.firstUserId_ = some t₁)
    (h₂ : srv.sessionService_.sessionOf state.secondUserId_ = some t₂) :
    srv.finishBattleBranches io state = [] := by
  unfold sessionOf at h₁ h₂
  simp only [finishBattleBranches, h₁, h₂, sendBattleResultBranches_eq_nil, List.nil_append]

variable (srv) in
/-- The second hero starts the battle. -/
theorem startSelectedBattleBranches_eq_nil {t : PlayerSession} {room : Room}
    (ht : srv.sessionService_.findByConnection c = some t) (h0 : t.roomId_ ≠ 0)
    (hroom : srv.roomService_.find t.roomId_ = some room) (hok : room.Selectable)
    (hnone : srv.battleService_.find t.roomId_ = none) :
    srv.startSelectedBattleBranches c = [] := by
  simp only [startSelectedBattleBranches, ht]
  cases hboth : srv.roomService_.bothHeroesSelected t.roomId_ with
  | false => rfl
  | true =>
    obtain ⟨room', hroom', hsel⟩ := RoomService.bothHeroesSelected_iff.mp hboth
    obtain rfl : room = room' := Option.some.inj (hroom.symm.trans hroom')
    have hid := RoomService.find_roomId hroom
    obtain ⟨hstart, hfind⟩ := BattleService.start_spec (s := srv.battleService_)
      (by rw [hid]; exact h0) (RoomService.find_members hroom) hsel hok (by rw [hid]; exact hnone)
    have hstate := hfind room.roomId_
    rw [if_pos rfl] at hstate
    simp only [hroom, hstart, hstate, Bool.not_true, Bool.false_eq_true, if_false,
      sendBattleStartNotificationBranches_eq_nil, sendBattleStateNotificationBranches_eq_nil,
      List.nil_append]

theorem handleHeroSelectBranches_eq_nil (h : Coherent srv) :
    srv.handleHeroSelectBranches c (.ofBytes payload) = [] := by
  have hcases := heroSelectResponse_cases srv c payload
  unfold handleHeroSelectBranches
  generalize srv.heroSelectResponse c (.ofBytes payload) = answered at hcases ⊢
  cases hcases with
  | @refused response hno htext =>
    have hfits : MessageType.Fits .heroSelectResponse response :=
      ServerMessage.fits_heroSelectRsp htext
    simp only [encoded_of_fits hfits, sendToConnectionBranches_eq_nil _ _ hfits, hno,
      Bool.not_false, if_true, List.append_nil]
  | @accepted t request room room' rs ht h0 hdecode hsel hroom hchosen hnext hfind =>
    have hfits : MessageType.Fits .heroSelectResponse { accepted_ := true } :=
      ServerMessage.fits_heroSelectRsp (Nat.zero_le _)
    have hroom' := hfind t.roomId_
    rw [if_pos rfl] at hroom'
    have hstart := startSelectedBattleBranches_eq_nil { srv with roomService_ := rs }
      ht h0 hroom' (hchosen.selectable (h.selectable hroom) hsel) (h.battle_eq_none hroom hchosen)
    simp only [encoded_of_fits hfits, sendToConnectionBranches_eq_nil _ _ hfits, hstart,
      Bool.not_true, Bool.false_eq_true, if_false, List.append_nil]

theorem handleBattleAttackBranches_eq_nil (io : SaveIO) (h : Coherent srv) :
    srv.handleBattleAttackBranches io c (.ofBytes payload) = [] := by
  unfold handleBattleAttackBranches
  split
  · rfl
  · split
    · rfl
    · rename_i t ht
      split
      · rfl
      · have hcases := BattleService.attack_cases (s := srv.battleService_) t.roomId_ t.userId_
        generalize srv.battleService_.attack t.roomId_ t.userId_ = attacked at hcases ⊢
        cases hcases with
        | refused => rfl
        | @accepted state state' bs hstate hattack hfind =>
          have hattacked := BattleState.attack_spec (BattleService.find_valid hstate) hattack
          obtain ⟨room, t₁, t₂, -, -, h₁, -, h₂, -⟩ := h.battle hstate
          rw [← hattacked.first] at h₁
          rw [← hattacked.second] at h₂
          have hfinish := finishBattleBranches_eq_nil
            { srv with battleService_ := bs } io h₁ h₂
          simp only [sendBattleStateNotificationBranches_eq_nil, hfinish, ite_self,
            List.append_nil]

/-! ### Disconnects -/

/-- Whoever is in a room with a battle can give it up. -/
theorem Lodged.forfeit_ne_none {n : ℕ} (h : Lodged n srv) (hco : Coherent srv) {t : PlayerSession}
    (ht : srv.sessionService_.findByConnection c = some t) {state : BattleState}
    (hstate : srv.battleService_.find t.roomId_ = some state) :
    state.forfeit t.userId_ ≠ none := by
  intro hnone
  obtain ⟨room, hroom, hhosts⟩ := hco.hosts hstate
  rcases BattleState.forfeit_eq_none hnone with hfin | hout
  · cases hhosts.unfinished.symm.trans hfin
  · exact hout (h.mem_users hco hstate (sessionOf_of_session ht) rfl)

theorem onDisconnectedBranches_eq_nil {n : ℕ} (h : Lodged n srv) (hco : Coherent srv)
    (io : SaveIO) : srv.onDisconnectedBranches io c = [] := by
  unfold onDisconnectedBranches
  split
  · rfl
  · rename_i t ht
    simp only [leaveRoomBranches, MatchmakingService.cancel]
    split
    · rfl
    · split
      · rename_i state hstate
        have hcases := BattleService.forfeit_cases (s := srv.battleService_) t.roomId_ t.userId_
        generalize srv.battleService_.forfeit t.roomId_ t.userId_ = forfeited at hcases ⊢
        cases hcases with
        | refused hwhy => exact absurd (hwhy state hstate) (h.forfeit_ne_none hco ht hstate)
        | @accepted state₀ state' bs hstate₀ hforfeit hfind =>
          have hf := BattleState.forfeit_spec (BattleService.find_valid hstate₀) hforfeit
          obtain ⟨room, t₁, t₂, -, -, h₁, -, h₂, -⟩ := hco.battle hstate₀
          rw [← hf.first] at h₁
          rw [← hf.second] at h₂
          exact finishBattleBranches_eq_nil { srv with
            matchQueue_ := (srv.matchQueue_.cancel t.userId_).2, battleService_ := bs } io h₁ h₂
      · split
        · rfl
        · exact encodeAndSendBranches_eq_nil _ _
            (ServerMessage.fits_roomClosedNtf (by dsimp only; decide))

/-! ### Every event -/

theorem dispatchBranches_eq_nil (h : Coherent srv) (now : MatchTimePoint) (io : SaveIO)
    (msgType : UInt16) : srv.dispatchBranches now io c msgType (.ofBytes payload) = [] := by
  unfold dispatchBranches
  rw [handleLoginBranches_eq_nil, handleRegisterBranches_eq_nil, handleMatchJoinBranches_eq_nil,
    handleHeroSelectBranches_eq_nil h, handleBattleAttackBranches_eq_nil io h,
    handleMatchCancelBranches_eq_nil]
  simp only [ite_self]

theorem Accounted.stepBranches_eq_nil {o : List Effect} (h : Accounted o srv) {event : Event}
    (hrooms : roomsCreated (o ++ (srv.step range event).2) < 2 ^ 64 - 1) :
    srv.stepBranches range event = [] := by
  cases event with
  | opened => rfl
  | message c frame now io => exact dispatchBranches_eq_nil h.coherent now io frame.1
  | tick now => exact h.tickBranches_eq_nil hrooms
  | closed c io => exact onDisconnectedBranches_eq_nil h.lodged h.coherent io

theorem Accounted.branches_eq_nil {o : List Effect} (h : Accounted o srv) {events : List Event}
    (hrun : (machine range).CanRun srv events)
    (hrooms : roomsCreated (o ++ ((machine range).run srv events).2) < 2 ^ 64 - 1) :
    runBranches range srv events = [] := by
  induction events generalizing srv o with
  | nil => rfl
  | cons event events ih =>
    rw [Machine.run_cons, ← List.append_assoc] at hrooms
    have hnext : roomsCreated (o ++ (srv.step range event).2) < 2 ^ 64 - 1 := by
      rw [roomsCreated_append] at hrooms
      exact lt_of_le_of_lt (Nat.le_add_right _ _) hrooms
    have hstep := h.stepBranches_eq_nil hnext
    have hrest := ih (h.step hrun.1 hnext) hrun.2 hrooms
    rw [runBranches, hstep, hrest, List.nil_append]

/-- **The defensive branches are dead**: no run from a repository that could be loaded goes through
one of them, as long as fewer than 2^64 - 1 rooms are created. -/
theorem runBranches_eq_nil {file : Option (List UInt8)} (h : init file = some srv)
    {events : List Event} (hrun : (machine range).CanRun srv events)
    (hrooms : roomsCreated ((machine range).run srv events).2 < 2 ^ 64 - 1) :
    runBranches range srv events = [] :=
  (accounted_init h).branches_eq_nil hrun hrooms

/-- Two players are matched, the battle starts, and one of them gives it up. -/
theorem runBranches_eq_nil_two_players :
    let choice := (ClientRequest.heroSelectReq { heroType_ := .kMage }).frame
    let events := Wraparound.arrival ++ Wraparound.search ++
      [.tick 0, .message 1 choice 0 Wraparound.reliable, .message 2 choice 0 Wraparound.reliable,
        .closed 2 Wraparound.reliable]
    let outcome := (machine allowedEloRange).run Wraparound.freshServer events
    roomsCreated outcome.2 = 1 ∧ runBranches allowedEloRange Wraparound.freshServer events = [] := by
  intro choice events outcome
  have hrun : (machine allowedEloRange).CanRun Wraparound.freshServer events := by
    refine ⟨⟨by decide, by decide⟩, ⟨by decide, by decide⟩, ?_, ?_, ?_, ?_, ?_, ?_, trivial, ?_,
      ?_, ?_, trivial⟩ <;> show _ ∈ _ <;> decide +kernel
  have hrooms : roomsCreated outcome.2 = 1 := by decide +kernel
  exact ⟨hrooms, runBranches_eq_nil (rfl : init none = _) hrun (hrooms.trans_lt (by decide))⟩

end ArenaGame.GameServer
