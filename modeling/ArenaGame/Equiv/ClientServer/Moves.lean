import ArenaGame.Equiv.ClientServer.Server

/-!
# Every event moves a client along the dialogue

For each outcome of an event it is shown where it takes a client that is in a given phase: events of
other connections in `Outcome.moves`, requests of the client itself in `message_moves`.
-/

namespace ArenaGame.GameServer

open GameProtocol GameMessages SessionService MatchmakingService Phase

variable {range : MatchTicket → MatchTimePoint → ℚ} {srv : GameServer} {c c' : UInt64} {k : Phase}
  {o : List Effect} {os : List RoomRequest} {next : GameServer × List Effect}

/-! ### Members -/

theorem Accounted.mem_room_iff (h : Accounted o srv) {t : PlayerSession}
    (ht : srv.sessionService_.findByConnection c = some t) {r : UInt64} (h0 : r ≠ 0) {room : Room}
    (hroom : srv.roomService_.find r = some room) : t.userId_ ∈ room.users ↔ t.roomId_ = r := by
  constructor
  · intro hu
    obtain ⟨s, hs, hr⟩ := h.coherent.inRoom h0 hroom _ hu
    obtain rfl := Option.some.inj ((sessionOf_of_session ht).symm.trans hs)
    exact hr
  · rintro rfl
    obtain ⟨room', hroom', hu⟩ := h.lodged.housed _ t (sessionOf_of_session ht) h0
    obtain rfl := Option.some.inj (hroom.symm.trans hroom')
    exact hu

theorem Accounted.mem_battle_iff (h : Accounted o srv) {t : PlayerSession}
    (ht : srv.sessionService_.findByConnection c = some t) {r : UInt64} {state : BattleState}
    (hstate : srv.battleService_.find r = some state) : t.userId_ ∈ state.users ↔ t.roomId_ = r := by
  obtain ⟨room, hroom, hhosts⟩ := h.coherent.hosts hstate
  rw [BattleState.mem_users_of_hosts hhosts]
  exact h.mem_room_iff ht (battle_ne_zero hstate) hroom

/-- What both players of the battle of the room `r` are told, seen by one client. -/
theorem Accounted.framesTo_players (h : Accounted o srv) {r : UInt64} {state state' : BattleState}
    (hstate : srv.battleService_.find r = some state)
    (hfirst : state'.firstUserId_ = state.firstUserId_)
    (hsecond : state'.secondUserId_ = state.secondUserId_) (m : UInt32 → ServerMessage) :
    (∀ t, srv.sessionService_.findByConnection c = some t → t.roomId_ = r →
      framesTo c (srv.tellBoth state'.firstUserId_ state'.secondUserId_ m) =
        [(m t.userId_).frame]) ∧
    ((∀ t, srv.sessionService_.findByConnection c = some t → t.roomId_ ≠ r) →
      framesTo c (srv.tellBoth state'.firstUserId_ state'.secondUserId_ m) = []) := by
  have h0 := battle_ne_zero hstate
  obtain ⟨room, hroom, hhosts⟩ := h.coherent.hosts hstate
  have husers : [state'.firstUserId_, state'.secondUserId_] = room.users := by
    rw [hfirst, hsecond, hhosts.first, hhosts.second, Room.users]
  obtain ⟨htold, huntold⟩ := h.coherent.framesTo_members (c := c) h0 hroom husers m
  constructor
  · intro t ht hr
    exact htold t ht ((h.mem_room_iff ht h0 hroom).mpr hr)
  · intro hout
    exact huntold fun t ht hmem => hout t ht ((h.mem_room_iff ht h0 hroom).mp hmem)

/-! ### Closed connections -/

theorem CloseOutcome.moves (h : Accounted o srv) (hk : InPhase srv c k) {io : SaveIO}
    (hne : c ≠ c') (hnext : CloseOutcome srv io c' next) : Moves c k os next os := by
  have hgone : ∀ {srv₁ : GameServer} {r : UInt64} {f : PlayerSession → PlayerSession},
      RoomEnded (srv.dequeue c') r f srv₁ →
      (∀ t, srv.sessionService_.findByConnection c = some t → t.roomId_ ≠ r) →
      InPhase (srv₁.logout c') c k := by
    intro srv₁ r f hend hout
    refine hk.untouched (((untouched_dequeue hne).trans (hend.untouched ?_)).trans
      (untouched_logout hne))
    rwa [sessionService_dequeue]
  have hidle : ∀ {srv₁ : GameServer} {r : UInt64} {f : PlayerSession → PlayerSession}
      {t : PlayerSession}, RoomEnded (srv.dequeue c') r f srv₁ →
      srv.sessionService_.findByConnection c = some t → t.roomId_ ≠ 0 → (f t).roomId_ = 0 →
      InPhase (srv₁.logout c') c .idle := by
    intro srv₁ r f t hend ht h0 hf
    have ht' : (srv.dequeue c').sessionService_.findByConnection c = some t := by
      rwa [sessionService_dequeue]
    exact (hend.idle ht' hf ((h.coherent.dequeue c').not_queued ht' h0)).untouched
      (untouched_logout hne)
  cases hnext with
  | free => exact .stay (hk.untouched ((untouched_dequeue hne).trans (untouched_logout hne))) rfl
  | @left t' room srv₁ ht' h0 hnobattle hroom hmem hopp hend _ =>
    obtain ⟨s, hs, hsr⟩ := h.coherent.inRoom h0 hroom _ hmem
    by_cases hown : ∃ t, srv.sessionService_.findByConnection c = some t ∧ t.roomId_ = t'.roomId_
    · -- the client is the opponent
      obtain ⟨t, ht, hr⟩ := hown
      have hu : t.userId_ = opponentOf room t'.userId_ :=
        eq_opponentOf ((h.mem_room_iff ht h0 hroom).mpr hr) ((h.mem_room_iff ht' h0 hroom).mpr rfl)
          fun hu => hne (connection_unique ht ht' hu)
      obtain ⟨-, chosen, rfl, -⟩ := hk.eq_room ht (by rwa [hr]) (by rwa [hr])
      have hc := findConnectionByUserId_of_session ht
      rw [hu] at hc
      refine .told (?_ : dialogue.News _ _ .idle) (by rw [tell, framesTo_send, if_pos hc, framesTo_nil])
        (ServerMessage.fits_roomClosedNtf (by dsimp only; decide)) ?_
      · rw [hr]
        exact .closed (n := { roomId_ := t'.roomId_, reason_ := _ })
      · apply hidle hend ht (by rwa [hr])
        rw [inRoom, if_pos hu]
    · push Not at hown
      refine .stay (hgone hend hown) ?_
      rw [tell, framesTo_send, if_neg, framesTo_nil]
      rintro rfl
      exact hown s hs hsr
  | @forfeited t' t₁ t₂ state state' bs ok e₁ e₂ srv₁ ht' hstate hforfeit hbs h₁ h₂ hfinished =>
    have hf := BattleState.forfeit_spec (BattleService.find_valid hstate) hforfeit
    have hend := (h.coherent.dequeue c').roomEnded (by simpa using hstate) hf.roomId hf.first
      hf.second (by simpa using hbs) (by simpa using h₁) (by simpa using h₂) hfinished
    obtain ⟨htold, huntold⟩ := h.framesTo_players (c := c) hstate hf.first hf.second
      (resultsFor state' e₁ e₂)
    by_cases hown : ∃ t, srv.sessionService_.findByConnection c = some t ∧ t.roomId_ = t'.roomId_
    · obtain ⟨t, ht, hr⟩ := hown
      obtain ⟨rfl, hmem⟩ := hk.eq_battle ht (by rwa [hr])
      refine .told (m := resultsFor state' e₁ e₂ t.userId_) (.result ?_) (htold t ht hr)
        (ServerMessage.fits_battleResultNtf _) ?_
      · show state'.roomId_ = _
        rw [BattleState.stateFor_roomId, hf.roomId]
      · apply hidle hend ht (by rw [hr]; exact battle_ne_zero hstate)
        apply settled_roomId (sessionOf_of_session ht)
        rwa [BattleState.mem_users, hf.first, hf.second, ← BattleState.mem_users]
    · push Not at hown
      exact .stay (hgone hend hown) (huntold hown)

/-! ### Ticks -/

/-- A user who is drawn hears of the room that he is in. -/
theorem Accounted.drawn_moves (h : Accounted o srv) (hk : InPhase srv c k) {now : MatchTimePoint}
    {outcomes : Outcomes} {s' : MatchmakingService}
    (hrounds : Rounds range now srv.toMatchmakingService outcomes s')
    (hrooms : roomsCreated o + outcomes.events.length < 2 ^ 64 - 1) {t : PlayerSession}
    (ht : srv.sessionService_.findByConnection c = some t) (hu : t.userId_ ∈ outcomes.users) :
    Moves c k os ({ srv with toMatchmakingService := s' },
      outcomes.events.flatMap fun event => .matchFound event :: srv.tellFound event) os := by
  obtain ⟨f, hmapped, -⟩ := rounds_mapped hrounds
  obtain ⟨-, hnumbered⟩ := hrounds.processed h.lodged.numbered hrooms
  obtain ⟨ticket, hticket⟩ := hrounds.queued hu
  obtain ⟨s, hs, h0, -⟩ := h.coherent.queued hticket
  have hsession := sessionOf_of_session ht
  obtain rfl := Option.some.inj (hsession.symm.trans hs)
  obtain rfl := hk.eq_queued ht h0 hticket
  obtain ⟨found, t₁, t₂, hmem, hintro⟩ := h.introduced hrounds hrooms hu
  have h0' : found.roomId_ ≠ 0 := by
    intro h0'
    have := (hnumbered.range hintro.stored).1
    simp [h0'] at this
  -- the number of the room was not in use, and every battle has a room
  have hnobattle : srv.battleService_.find found.roomId_ = none := by
    cases hstate : srv.battleService_.find found.roomId_ with
    | none => rfl
    | some state =>
      obtain ⟨room, hroom, -⟩ := h.coherent.hosts hstate
      cases hroom.symm.trans hintro.fresh
  have hc := findConnectionByUserId_of_session ht
  have htold : ∀ {opponent : PlayerSession},
      s'.sessionService_.sessionOf t.userId_ = some { t with roomId_ := found.roomId_ } →
      framesTo (srv.sessionService_.findConnectionByUserId t.userId_)
        (outcomes.events.flatMap fun event => .matchFound event :: srv.tellFound event) =
          [(foundFor found.roomId_ opponent).frame] → opponent.userName_.length ≤ 32 →
      Moves c .queued os ({ srv with toMatchmakingService := s' },
        outcomes.events.flatMap fun event => .matchFound event :: srv.tellFound event) os := by
    intro opponent hin hframes hname
    rw [hc] at hframes
    refine .told .found hframes
      (ServerMessage.fits_matchFoundNtf (hname.trans (by decide))) ?_
    refine .room (t := { t with roomId_ := found.roomId_ }) ?_ h0' hintro.stored hmem hnobattle ?_
    · rw [sessionOf, hmapped.connection hsession, hc] at hin
      exact hin
    · simp [Room.heroOf]
  -- each player is told about the other one
  rcases mem_users.mp hmem with hfirst | hsecond
  · obtain rfl := Option.some.inj (hsession.symm.trans (hfirst ▸ hintro.first))
    exact htold (hfirst ▸ hintro.firstInRoom) (hfirst ▸ hintro.firstTold)
      (h.coherent.name_le hintro.second)
  · obtain rfl := Option.some.inj (hsession.symm.trans (hsecond ▸ hintro.second))
    exact htold (hsecond ▸ hintro.secondInRoom) (hsecond ▸ hintro.secondTold)
      (h.coherent.name_le hintro.first)

theorem TickOutcome.moves (h : Accounted o srv) (hk : InPhase srv c k) {now : MatchTimePoint}
    (hnext : TickOutcome range now srv next)
    (hrooms : roomsCreated (o ++ next.2) < 2 ^ 64 - 1) : Moves c k os next os := by
  obtain @⟨outcomes, s', hrounds⟩ := hnext
  rw [roomsCreated_append, roomsCreated_events] at hrooms
  by_cases hown : ∃ t, srv.sessionService_.findByConnection c = some t ∧ t.userId_ ∈ outcomes.users
  · obtain ⟨t, ht, hu⟩ := hown
    exact h.drawn_moves hk hrounds hrooms ht hu
  · push Not at hown
    obtain ⟨f, hmapped, -⟩ := rounds_mapped hrounds
    obtain ⟨hprocessed, -⟩ := hrounds.processed h.lodged.numbered hrooms
    obtain ⟨hsame, hkept⟩ := hprocessed.frame
    refine .stay (hk.untouched ⟨?_, fun {t} ht => ?_, fun {t} ht h0 => ?_, fun _ => rfl⟩)
      (framesTo_events_of_ne fun e he v hv t ht => ?_)
    · show s'.sessionService_.findByConnection c = _
      rw [hmapped.find]
      cases ht : srv.sessionService_.findByConnection c with
      | none => rfl
      | some t =>
        have hu := hsame _ (hown t ht)
        rw [hmapped.sessionOf, sessionOf_of_session ht] at hu
        exact hu
    · exact (hrounds.find t.userId_).trans (if_neg (hown t ht))
    · obtain ⟨room, hroom, -⟩ := h.lodged.housed _ t (sessionOf_of_session ht) h0
      rw [hroom]
      exact hkept _ _ hroom
    · -- whoever is in an event was drawn
      rintro rfl
      have hv' := mem_users_of_mem_events hrounds he hv
      rw [← sessionOf_userId ht] at hv'
      exact hown t ht hv'

/-! ### Heroes -/

/-- In a room that still lacks a hero there is no battle. -/
theorem Coherent.no_battle (h : Coherent srv) {r : UInt64} {room : Room}
    (hroom : srv.roomService_.find r = some room) (hsel : ¬ room.Selected) :
    srv.battleService_.find r = none := by
  cases hstate : srv.battleService_.find r with
  | none => rfl
  | some state =>
    obtain ⟨room', hroom', hhosts⟩ := h.hosts hstate
    obtain rfl := Option.some.inj (hroom.symm.trans hroom')
    exact absurd hhosts.selected hsel

/-- A member of the room hears of the start of the battle. -/
theorem Coherent.started_moves (h : Coherent srv) (os : List RoomRequest)
    (rs : RoomService) {t : PlayerSession}
    (ht : srv.sessionService_.findByConnection c = some t) (h0 : t.roomId_ ≠ 0) {room room' : Room}
    (hroom : srv.roomService_.find t.roomId_ = some room) (husers : room'.users = room.users)
    (hid : room'.roomId_ = t.roomId_) (hmem : t.userId_ ∈ room.users)
    {bs : BattleService}
    (hbs : ∀ r', bs.find r' = if r' = t.roomId_ then some (BattleService.initialState room')
      else srv.battleService_.find r') :
    ∃ ms n, dialogue.Lag (.room t.roomId_ true) os ms (.battle n) os ∧
      framesTo c (srv.tellBoth room'.firstUserId_ room'.secondUserId_
          (fun u => .battleStartNtf (room'.startFor u)) ++
        srv.tellBoth room'.firstUserId_ room'.secondUserId_
          fun u => .battleStateNtf ((BattleService.initialState room').stateFor u)) =
        ms.map ServerMessage.frame ∧ (∀ m ∈ ms, m.Fits) ∧
      InPhase { srv with roomService_ := rs, battleService_ := bs } c (.battle n) := by
  have htold := fun m => (h.framesTo_members h0 hroom husers m).1 t ht hmem
  refine ⟨[.battleStartNtf (room'.startFor t.userId_),
      .battleStateNtf ((BattleService.initialState room').stateFor t.userId_)],
    (BattleService.initialState room').stateFor t.userId_, ?_, ?_, ?_, ?_⟩
  · have hstart : (room'.startFor t.userId_).roomId_ = t.roomId_ := by
      rw [Room.startFor_roomId, hid]
    have hstate : ((BattleService.initialState room').stateFor t.userId_).roomId_ = t.roomId_ := by
      rw [BattleState.stateFor_roomId]
      exact hid
    -- the two notifications bring the client from the room into the battle
    refine .news (?_ : dialogue.News _ _ (.started t.roomId_)) (.news ?_ (.current _ _))
    · rw [← hstart]
      exact .started
    · rw [← hstate]
      exact .first
  · rw [framesTo_append, htold, htold]
    rfl
  · intro m hmem'
    simp only [List.mem_cons, List.not_mem_nil, or_false] at hmem'
    rcases hmem' with rfl | rfl
    · exact ServerMessage.fits_battleStartNtf _
    · exact ServerMessage.fits_battleStateNtf _
  · refine .battle ht ((hbs _).trans (if_pos rfl)) ?_
    rw [← husers] at hmem
    exact hmem

theorem HeroOutcome.moves (h : Accounted o srv) (hk : InPhase srv c k) {payload : List UInt8}
    (hne : c ≠ c') (hnext : HeroOutcome srv c' payload next) : Moves c k os next os := by
  cases hnext with
  | refused => exact .stay hk (by rw [framesTo_send, if_neg hne.symm, framesTo_nil])
  | @waiting t' request room room' rs ht' h0 _ _ hroom hchosen _ hfind _ =>
    refine .stay ?_ (by rw [framesTo_send, if_neg hne.symm, framesTo_nil])
    by_cases hown : ∃ t, srv.sessionService_.findByConnection c = some t ∧ t.roomId_ = t'.roomId_
    · -- the opponent has chosen
      obtain ⟨t, ht, hr⟩ := hown
      have hnone := h.coherent.no_battle hroom hchosen.not_selected
      rw [← hr] at hroom hnone h0 hfind
      obtain ⟨room₁, chosen, rfl, hroom₁, hmem, hiff⟩ := hk.eq_room ht h0 hnone
      obtain rfl := Option.some.inj (hroom.symm.trans hroom₁)
      refine .room ht h0 ((hfind _).trans (if_pos rfl)) (by rwa [hchosen.users_eq]) hnone ?_
      rw [hiff, hchosen.heroOf_eq (RoomService.find_members hroom) _ hmem,
        if_neg fun hu => hne (connection_unique ht ht' hu)]
    · push Not at hown
      exact hk.untouched ⟨rfl, fun _ => rfl, fun ht _ => (hfind _).trans (if_neg (hown _ ht)),
        fun _ => rfl⟩
  | @started t' request room room' rs bs ht' h0 _ _ hroom hchosen _ hfind hsel hnone hbs =>
    by_cases hown : ∃ t, srv.sessionService_.findByConnection c = some t ∧ t.roomId_ = t'.roomId_
    · obtain ⟨t, ht, hr⟩ := hown
      rw [← hr] at hroom hnone h0 hfind hbs
      obtain ⟨room₁, chosen, rfl, hroom₁, hmem, hiff⟩ := hk.eq_room ht h0 hnone
      obtain rfl := Option.some.inj (hroom.symm.trans hroom₁)
      have hhero := hchosen.heroOf_eq (RoomService.find_members hroom) _ hmem
      rw [if_neg fun hu => hne (connection_unique ht ht' hu)] at hhero
      obtain rfl : chosen = true := hiff.mpr (hhero ▸ Room.heroOf_ne_none hsel)
      obtain ⟨ms, n, hlag, hframes, hfits, hphase⟩ := h.coherent.started_moves os rs
        ht h0 hroom hchosen.users_eq
        (hchosen.roomId_eq.trans (RoomService.find_roomId hroom)) hmem hbs
      refine ⟨ms, _, hlag, ?_, hfits, hphase⟩
      rw [framesTo_send, if_neg hne.symm]
      exact hframes
    · push Not at hown
      refine .stay (hk.untouched ⟨rfl, fun _ => rfl, fun ht _ => (hfind _).trans
        (if_neg (hown _ ht)), fun ht => (hbs _).trans (if_neg (hown _ ht))⟩) ?_
      have huntold := fun m =>
        (h.coherent.framesTo_members (c := c) h0 hroom hchosen.users_eq m).2 fun t ht hmem =>
          hown t ht ((h.mem_room_iff ht h0 hroom).mp hmem)
      rw [framesTo_send, if_neg hne.symm, framesTo_startBattle, framesTo_append, huntold, huntold]
      rfl

/-! ### Attacks -/

/-- A blow that decides the battle ends it for both players. -/
theorem Accounted.felled_idle (h : Accounted o srv) {t : PlayerSession}
    (ht : srv.sessionService_.findByConnection c = some t) {state state' : BattleState}
    {u : UInt32} {bs : BattleService} {io : SaveIO} {t₁ t₂ : PlayerSession} {ok : Bool}
    {e₁ e₂ : UInt32} {srv' : GameServer}
    (hstate : srv.battleService_.find t.roomId_ = some state) (hattack : state.attack u = some state')
    (hbs : ∀ r', bs.find r' = if r' = t.roomId_ then some state' else srv.battleService_.find r')
    (h₁ : srv.sessionService_.sessionOf state'.firstUserId_ = some t₁)
    (h₂ : srv.sessionService_.sessionOf state'.secondUserId_ = some t₂)
    (hfinished : Finished { srv with battleService_ := bs } io state' t₁ t₂ ok e₁ e₂ srv') :
    InPhase srv' c .idle := by
  have hattacked := BattleState.attack_spec (BattleService.find_valid hstate) hattack
  have hend := h.coherent.roomEnded hstate hattacked.roomId hattacked.first hattacked.second hbs h₁ h₂
    hfinished
  refine hend.idle ht ?_ (h.coherent.not_queued ht (battle_ne_zero hstate))
  have hmem := (h.mem_battle_iff ht hstate).mpr rfl
  rw [BattleState.mem_users, ← hattacked.first, ← hattacked.second, ← BattleState.mem_users] at hmem
  exact settled_roomId (sessionOf_of_session ht) hmem

theorem AttackOutcome.moves (h : Accounted o srv) (hk : InPhase srv c k) {payload : List UInt8}
    {io : SaveIO} (hne : c ≠ c') (hnext : AttackOutcome srv io c' payload next) :
    Moves c k os next os := by
  cases hnext with
  | refused => exact .stay hk rfl
  | @hit t' state state' bs ht' hstate hattack hfin hbs =>
    have hattacked := BattleState.attack_spec (BattleService.find_valid hstate) hattack
    obtain ⟨htold, huntold⟩ := h.framesTo_players (c := c) hstate hattacked.first hattacked.second
      fun u => .battleStateNtf (state'.stateFor u)
    by_cases hown : ∃ t, srv.sessionService_.findByConnection c = some t ∧ t.roomId_ = t'.roomId_
    · obtain ⟨t, ht, hr⟩ := hown
      obtain ⟨rfl, hmem⟩ := hk.eq_battle ht (by rwa [hr])
      -- the blow came from the other player
      refine .told (.struck ?_ ?_) (htold t ht hr) (ServerMessage.fits_battleStateNtf _) ?_
      · rw [BattleState.stateFor_playerTurn, hattacked.active, decide_eq_false_iff_not]
        exact fun hu => hne (connection_unique ht ht' hu.symm)
      · rw [BattleState.stateFor_roomId, BattleState.stateFor_roomId, hattacked.roomId]
      · refine .battle ht ((hbs _).trans (if_pos hr)) ?_
        rwa [BattleState.mem_users, hattacked.first, hattacked.second, ← BattleState.mem_users]
    · push Not at hown
      exact .stay (hk.untouched ⟨rfl, fun _ => rfl, fun _ _ => rfl,
        fun ht => (hbs _).trans (if_neg (hown _ ht))⟩) (huntold hown)
  | @felled t' t₁ t₂ state state' bs ok e₁ e₂ srv' ht' hstate hattack hfin hbs h₁ h₂ hfinished =>
    have hattacked := BattleState.attack_spec (BattleService.find_valid hstate) hattack
    obtain ⟨htold, huntold⟩ := h.framesTo_players (c := c) hstate hattacked.first hattacked.second
      fun u => .battleStateNtf (state'.stateFor u)
    obtain ⟨hresult, hnoresult⟩ := h.framesTo_players (c := c) hstate hattacked.first
      hattacked.second (resultsFor state' e₁ e₂)
    by_cases hown : ∃ t, srv.sessionService_.findByConnection c = some t ∧ t.roomId_ = t'.roomId_
    · obtain ⟨t, ht, hr⟩ := hown
      obtain ⟨rfl, hmem⟩ := hk.eq_battle ht (by rwa [hr])
      -- the last state, and then the result
      refine ⟨[.battleStateNtf (state'.stateFor t.userId_), resultsFor state' e₁ e₂ t.userId_], .idle,
        .news (.struck ?_ ?_) (.news (.result ?_) (.current _ _)), ?_, ?_, ?_⟩
      · rw [BattleState.stateFor_playerTurn, hattacked.active, decide_eq_false_iff_not]
        exact fun hu => hne (connection_unique ht ht' hu.symm)
      · rw [BattleState.stateFor_roomId, BattleState.stateFor_roomId, hattacked.roomId]
      · exact (BattleState.stateFor_roomId _ _).symm
      · rw [framesTo_append, htold t ht hr]
        exact congrArg (_ :: ·) (hresult t ht hr)
      · intro m hm
        simp only [List.mem_cons, List.not_mem_nil, or_false] at hm
        rcases hm with rfl | rfl
        · exact ServerMessage.fits_battleStateNtf _
        · exact ServerMessage.fits_battleResultNtf _
      · rw [← hr] at hstate hbs
        exact h.felled_idle ht hstate hattack hbs h₁ h₂ hfinished
    · push Not at hown
      have hend := h.coherent.roomEnded hstate hattacked.roomId hattacked.first hattacked.second hbs
        h₁ h₂ hfinished
      refine .stay (hk.untouched (hend.untouched hown)) ?_
      rw [framesTo_append, huntold hown]
      exact hnoresult hown

/-! ### Everything that happens elsewhere -/

theorem Outcome.moves (h : Accounted o srv) (hk : InPhase srv c k) {event : Event}
    (hne : event.connection ≠ some c) (hnext : Outcome range srv event next)
    (hrooms : roomsCreated (o ++ next.2) < 2 ^ 64 - 1) : Moves c k os next os := by
  have hother : ∀ {c'}, some c' ≠ some c → c ≠ c' := fun hne heq => hne (congrArg some heq.symm)
  -- an answer goes to the connection that asked
  have hquiet : ∀ {c' frame}, some c' ≠ some c → framesTo c [.send c' frame] = [] := by
    intro c' frame hne
    rw [framesTo_send, if_neg (hother hne).symm, framesTo_nil]
  cases hnext with
  | opened => exact .stay (hk.untouched ⟨rfl, fun _ => rfl, fun _ _ => rfl, fun _ => rfl⟩) rfl
  | ignored => exact .stay hk rfl
  | login hlogin =>
    cases hlogin with
    | refused => exact .stay hk (hquiet hne)
    | accepted _ hbound =>
      refine .stay (hk.untouched ⟨?_, fun _ => rfl, fun _ _ => rfl, fun _ => rfl⟩) (hquiet hne)
      exact (findByConnection_bind hbound c).trans (if_neg (hother hne))
  | register hregister =>
    cases hregister
    exact .stay (hk.untouched ⟨rfl, fun _ => rfl, fun _ _ => rfl, fun _ => rfl⟩) (hquiet hne)
  | join hjoin =>
    cases hjoin with
    | refused => exact .stay hk (hquiet hne)
    | accepted ht _ _ hq => exact .stay (hk.untouched (untouched_queue (hother hne) ht hq)) (hquiet hne)
  | cancel hcancel =>
    cases hcancel with
    | refused => exact .stay hk (hquiet hne)
    | accepted ht _ _ hq => exact .stay (hk.untouched (untouched_queue (hother hne) ht hq)) (hquiet hne)
  | hero hhero => exact hhero.moves h hk (hother hne)
  | attack hattack => exact hattack.moves h hk (hother hne)
  | tick htick => exact htick.moves h hk hrooms
  | closed hclose => exact hclose.moves h hk (hother hne)

/-! ### Requests of the client -/

theorem LoginOutcome.answers (h : Accounted o srv) (hk : InPhase srv c k) {request : LoginRequest}
    {r : UInt64} (hnext : LoginOutcome srv c next) :
    Moves c k ((.loginReq request, r) :: os) next os := by
  cases hnext with
  | refused hno hfits =>
    exact .answered (.loginRefused hno) (by rw [framesTo_send, if_pos rfl, framesTo_nil]) hfits hk
  | @accepted name record hrecord hbound =>
    obtain ⟨-, -, hnone, hoffline⟩ := bind_fst.mp hbound
    have hlen := AccountRepository.length_le_of_isValidInput record.valid
    have hout : k = .out := by
      cases hk with
      | out => rfl
      | idle ht => cases ht.symm.trans hnone
      | queued ht => cases ht.symm.trans hnone
      | room ht => cases ht.symm.trans hnone
      | battle ht => cases ht.symm.trans hnone
    subst hout
    refine .answered (.login rfl) (by rw [framesTo_send, if_pos rfl, framesTo_nil])
      (ServerMessage.fits_loginRsp (hlen.trans (by decide : 32 ≤ kMaxStringBytes))
        (Nat.zero_le _)) ?_
    refine .idle ((findByConnection_bind hbound c).trans (if_pos rfl)) rfl ?_
    cases hq : srv.matchQueue_.find (sessionFor record.account_).userId_ with
    | none => rfl
    | some ticket =>
      obtain ⟨t, ht, -⟩ := h.coherent.queued hq
      cases ht.symm.trans hoffline

theorem JoinOutcome.answers (hk : InPhase srv c k) {now : MatchTimePoint} {payload : List UInt8}
    {r : UInt64} (hnext : JoinOutcome srv now c payload next) :
    Moves c k ((.matchJoinReq, r) :: os) next os := by
  cases hnext with
  | refused hno hfits =>
    exact .answered (.joinRefused hno) (by rw [framesTo_send, if_pos rfl, framesTo_nil]) hfits hk
  | accepted ht h0 hnone hq =>
    obtain rfl := hk.eq_idle ht h0 hnone
    exact .answered (.join rfl) (by rw [framesTo_send, if_pos rfl, framesTo_nil])
      (ServerMessage.fits_matchJoinRsp (Nat.zero_le _))
      (.queued ht h0 ((hq _).trans (if_pos rfl)))

theorem CancelOutcome.answers (hk : InPhase srv c k) {payload : List UInt8}
    (hpayload : MessageType.decoded .matchCancelRequest payload ≠ none) {r : UInt64}
    (hnext : CancelOutcome srv c payload next) : Moves c k ((.matchCancelReq, r) :: os) next os := by
  cases hnext with
  | refused hno hfits hwhy =>
    refine .answered (.cancelRefused ?_ hno) (by rw [framesTo_send, if_pos rfl, framesTo_nil]) hfits
      hk
    -- a queued user is not refused
    rintro rfl
    cases hk with
    | queued ht h0 hq => cases hq.symm.trans (hwhy _ ht h0 hpayload)
  | accepted ht h0 hsome hq =>
    obtain rfl := hk.eq_queued ht h0 hsome
    exact .answered (.cancel rfl) (by rw [framesTo_send, if_pos rfl, framesTo_nil])
      (ServerMessage.fits_matchCancelRsp (Nat.zero_le _))
      (.idle ht h0 ((hq _).trans (if_pos rfl)))

/-- The client has no hero yet when one is accepted. -/
theorem InPhase.eq_choosing (h : Coherent srv) (hk : InPhase srv c k) {t : PlayerSession}
    (ht : srv.sessionService_.findByConnection c = some t) (h0 : t.roomId_ ≠ 0)
    {room room' : Room} {hero : HeroType} (hroom : srv.roomService_.find t.roomId_ = some room)
    (hchosen : room.Chosen t.userId_ hero room') : k = .room t.roomId_ false := by
  obtain ⟨room₁, chosen, rfl, hroom₁, hmem, hiff⟩ := hk.eq_room ht h0
    (h.no_battle hroom hchosen.not_selected)
  obtain rfl := Option.some.inj (hroom.symm.trans hroom₁)
  cases chosen with
  | false => rfl
  | true => exact absurd (hchosen.heroOf_none (RoomService.find_members hroom)) (hiff.mp rfl)

theorem HeroOutcome.answers (h : Accounted o srv) (hk : InPhase srv c k) {payload : List UInt8}
    {request : HeroSelectRequest} {r : UInt64} (hnext : HeroOutcome srv c payload next) :
    Moves c k ((.heroSelectReq request, r) :: os) next os := by
  cases hnext with
  | refused hno hfits =>
    exact .answered (.heroRefused hno) (by rw [framesTo_send, if_pos rfl, framesTo_nil]) hfits hk
  | @waiting t request' room room' rs ht h0 _ hsel hroom hchosen _ hfind _ =>
    obtain rfl := hk.eq_choosing h.coherent ht h0 hroom hchosen
    refine .answered (.hero rfl) (by rw [framesTo_send, if_pos rfl, framesTo_nil])
      (ServerMessage.fits_heroSelectRsp (Nat.zero_le _)) ?_
    refine .room ht h0 ((hfind _).trans (if_pos rfl)) (hchosen.users_eq ▸ hchosen.mem)
      (h.coherent.no_battle hroom hchosen.not_selected) (iff_of_true rfl ?_)
    rw [hchosen.heroOf_eq (RoomService.find_members hroom) _ hchosen.mem, if_pos rfl]
    rintro hnone
    rw [hnone] at hsel
    exact absurd hsel (by decide)
  | @started t request' room room' rs bs ht h0 _ _ hroom hchosen _ hfind hsel hnone hbs =>
    obtain rfl := hk.eq_choosing h.coherent ht h0 hroom hchosen
    obtain ⟨ms, n, hlag, hframes, hfits, hphase⟩ := h.coherent.started_moves os rs
      ht h0 hroom hchosen.users_eq (hchosen.roomId_eq.trans (RoomService.find_roomId hroom))
      hchosen.mem hbs
    refine ⟨.heroSelectRsp { accepted_ := true } :: ms, _, .answered (.hero rfl) hlag, ?_, ?_, hphase⟩
    · rw [framesTo_send, if_pos rfl]
      exact congrArg (_ :: ·) hframes
    · exact List.forall_mem_cons.mpr ⟨ServerMessage.fits_heroSelectRsp (Nat.zero_le _), hfits⟩

theorem AttackOutcome.answers (h : Accounted o srv) (hk : InPhase srv c k) {payload : List UInt8}
    (hpayload : MessageType.decoded .battleAttackRequest payload ≠ none) {io : SaveIO} {r : UInt64}
    (hnext : AttackOutcome srv io c payload next) :
    Moves c k ((.battleAttackReq, r) :: os) next os := by
  cases hnext with
  | refused hwhy =>
    refine ⟨[], k, .ignored (.attackIgnored ?_) (.current _ _), rfl, nofun, hk⟩
    -- the attack of the active player is not refused
    rintro n rfl
    cases hk with
    | @battle t state ht hstate hmem =>
      obtain ⟨room, -, hhosts⟩ := h.coherent.hosts hstate
      rw [BattleState.stateFor_playerTurn, decide_eq_false_iff_not]
      rcases BattleState.attack_eq_none (BattleService.find_valid hstate)
        (hwhy t state ht hstate hpayload) with hfin | hactive
      · cases hhosts.unfinished.symm.trans hfin
      · exact hactive
  | @hit t state state' bs ht hstate hattack hfin hbs =>
    have hattacked := BattleState.attack_spec (BattleService.find_valid hstate) hattack
    obtain ⟨htold, -⟩ := h.framesTo_players (c := c) hstate hattacked.first hattacked.second
      fun u => .battleStateNtf (state'.stateFor u)
    obtain ⟨rfl, hmem⟩ := hk.eq_battle ht hstate
    refine .answered (.attack ?_ ?_ ?_) (htold t ht rfl) (ServerMessage.fits_battleStateNtf _) ?_
    · rw [BattleState.stateFor_playerTurn, hattacked.active, decide_eq_true_iff]
    · rw [BattleState.stateFor_roomId, BattleState.stateFor_roomId, hattacked.roomId]
    · rw [BattleState.stateFor_playerTurn, decide_eq_false_iff_not]
      rcases hattacked.turn with ⟨hfin', -⟩ | ⟨-, -, hactive⟩
      · cases hfin.symm.trans hfin'
      · exact hactive
    · refine .battle ht ((hbs _).trans (if_pos rfl)) ?_
      rwa [BattleState.mem_users, hattacked.first, hattacked.second, ← BattleState.mem_users]
  | @felled t t₁ t₂ state state' bs ok e₁ e₂ srv' ht hstate hattack hfin hbs h₁ h₂ hfinished =>
    have hattacked := BattleState.attack_spec (BattleService.find_valid hstate) hattack
    obtain ⟨htold, -⟩ := h.framesTo_players (c := c) hstate hattacked.first hattacked.second
      fun u => .battleStateNtf (state'.stateFor u)
    obtain ⟨hresult, -⟩ := h.framesTo_players (c := c) hstate hattacked.first
      hattacked.second (resultsFor state' e₁ e₂)
    obtain ⟨rfl, hmem⟩ := hk.eq_battle ht hstate
    refine ⟨[.battleStateNtf (state'.stateFor t.userId_), resultsFor state' e₁ e₂ t.userId_], .idle,
      .answered (.attack ?_ ?_ ?_) (.news (.result ?_) (.current _ _)), ?_, ?_,
      h.felled_idle ht hstate hattack hbs h₁ h₂ hfinished⟩
    · rw [BattleState.stateFor_playerTurn, hattacked.active, decide_eq_true_iff]
    · rw [BattleState.stateFor_roomId, BattleState.stateFor_roomId, hattacked.roomId]
    · rw [BattleState.stateFor_playerTurn, decide_eq_false_iff_not]
      rcases hattacked.turn with ⟨-, -, hactive⟩ | ⟨hfin', -⟩
      · rw [hactive]
        exact (ne_zero_of_sessionOf (sessionOf_of_session ht)).symm
      · cases hfin.symm.trans hfin'
    · exact (BattleState.stateFor_roomId _ _).symm
    · rw [framesTo_append, htold t ht rfl]
      exact congrArg (_ :: ·) (hresult t ht rfl)
    · intro m hm
      simp only [List.mem_cons, List.not_mem_nil, or_false] at hm
      rcases hm with rfl | rfl
      · exact ServerMessage.fits_battleStateNtf _
      · exact ServerMessage.fits_battleResultNtf _

theorem message_moves (h : Accounted o srv) (hk : InPhase srv c k) (hc : c ∈ srv.connections_)
    {q : ClientRequest} (hfits : q.Fits) (r : UInt64) (now : MatchTimePoint) (io : SaveIO) :
    Moves c k ((q, r) :: os) (srv.step range (.message c q.frame now io)) os := by
  have hdecoded : q.type.decoded q.frame.2 ≠ none := by
    have hdecoded := decoded_bytes hfits
    change q.type.decoded q.frame.2 = _ at hdecoded
    rw [hdecoded]
    exact nofun
  cases q with
  | loginReq request => exact LoginOutcome.answers h hk (handleLogin_outcome hc)
  | registerReq request =>
    have hregister := handleRegister_outcome (ClientRequest.registerReq request).frame.2 io hc
    change RegisterOutcome srv io c
      (srv.step range (.message c (ClientRequest.registerReq request).frame now io)) at hregister
    generalize srv.step range _ = next at hregister ⊢
    cases hregister with
    | answered hfits' =>
      exact .answered .register (by rw [framesTo_send, if_pos rfl, framesTo_nil]) hfits'
        (hk.untouched ⟨rfl, fun _ => rfl, fun _ _ => rfl, fun _ => rfl⟩)
  | matchJoinReq => exact JoinOutcome.answers hk (handleMatchJoin_outcome _ _ hc)
  | matchCancelReq => exact CancelOutcome.answers hk hdecoded (handleMatchCancel_outcome hc)
  | heroSelectReq request => exact HeroOutcome.answers h hk (handleHeroSelect_outcome _ h.coherent hc)
  | battleAttackReq =>
    exact AttackOutcome.answers h hk hdecoded (handleBattleAttack_outcome _ _ _ h.coherent)

end ArenaGame.GameServer
