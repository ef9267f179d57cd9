import ArenaGame.Client.Equiv.Profile
import ArenaGame.Equiv.ClientServer.Agreement

/-!
# The client knows its user

`Knows` says that a profile is that of the session of the connection, and that in a room it names
the opponent.  Every event at the server tells the client what changes in this respect
(`Outcome.informs`), so the profile that the client has once it has received everything on the way
is always right (`Informed`).  Nothing is assumed about the requests that are sent.
-/

namespace ArenaGame

open GameProtocol GameMessages SessionService MatchmakingService

namespace GameServer

variable {range : MatchTicket → MatchTimePoint → ℚ} {srv srv' : GameServer} {c c' : UInt64}
  {p : Profile} {o : List Effect} {next : GameServer × List Effect} {t : PlayerSession}

/-! ### Users and opponents -/

/-- `opponent` is the other member of the room that `t` is in. -/
def Faces (srv : GameServer) (t opponent : PlayerSession) : Prop :=
  ∃ room, srv.roomService_.find t.roomId_ = some room ∧
    srv.sessionService_.sessionOf (opponentOf room t.userId_) = some opponent

theorem opponentOf_mem (room : Room) (u : UInt32) : opponentOf room u ∈ room.users := by
  unfold opponentOf
  split
  · exact Room.mem_users.mpr (Or.inr rfl)
  · exact Room.mem_users.mpr (Or.inl rfl)

theorem opponentOf_congr {room room' : Room} (h : room'.users = room.users) (u : UInt32) :
    opponentOf room' u = opponentOf room u := by
  simp only [Room.users, List.cons.injEq, and_true] at h
  unfold opponentOf
  rw [h.1, h.2]

/-- Both are in the same room. -/
theorem Faces.roomId_eq {opponent : PlayerSession} (h : srv.Faces t opponent) (hco : Coherent srv)
    (h0 : t.roomId_ ≠ 0) : opponent.roomId_ = t.roomId_ := by
  obtain ⟨room, hroom, hopponent⟩ := h
  obtain ⟨s, hs, hr⟩ := hco.inRoom h0 hroom _ (opponentOf_mem room t.userId_)
  obtain rfl := Option.some.inj (hs.symm.trans hopponent)
  exact hr

end GameServer

/-- The profile is that of a session. -/
structure Profile.IsOf (p : Profile) (t : PlayerSession) : Prop where
  inLogin : p.inLogin = false
  userId : p.userId = t.userId_
  userName : p.userName = t.userName_
  elo : p.elo = t.elo_

namespace GameServer

variable {range : MatchTicket → MatchTimePoint → ℚ} {srv srv' : GameServer} {c c' : UInt64}
  {p : Profile} {o : List Effect} {next : GameServer × List Effect} {t : PlayerSession}

/-- The profile is right for the connection `c`. -/
structure Knows (srv : GameServer) (c : UInt64) (p : Profile) : Prop where
  out : srv.sessionService_.findByConnection c = none → p.inLogin = true
  user : ∀ {t}, srv.sessionService_.findByConnection c = some t → p.IsOf t
  room : ∀ {t}, srv.sessionService_.findByConnection c = some t → t.roomId_ ≠ 0 →
    p.roomId = t.roomId_ ∧ ∃ opponent, srv.Faces t opponent ∧
      p.opponentName = opponent.userName_ ∧ p.opponentElo = opponent.elo_

theorem Knows.of_session (ht : srv.sessionService_.findByConnection c = some t) (hp : p.IsOf t)
    (hroom : t.roomId_ ≠ 0 → p.roomId = t.roomId_ ∧ ∃ opponent, srv.Faces t opponent ∧
      p.opponentName = opponent.userName_ ∧ p.opponentElo = opponent.elo_) : Knows srv c p := by
  refine ⟨fun hnone => ?_, fun ht' => ?_, fun ht' h0 => ?_⟩
  · cases ht.symm.trans hnone
  · obtain rfl := Option.some.inj (ht.symm.trans ht')
    exact hp
  · obtain rfl := Option.some.inj (ht.symm.trans ht')
    exact hroom h0

/-! ### Events that change neither -/

/-- The session of `c` and, if its user is in a room, that of the opponent are left alone. -/
structure Stays (c : UInt64) (srv srv' : GameServer) : Prop where
  session : srv'.sessionService_.findByConnection c = srv.sessionService_.findByConnection c
  opponent : ∀ {t opponent}, srv.sessionService_.findByConnection c = some t → t.roomId_ ≠ 0 →
    srv.Faces t opponent → srv'.Faces t opponent

theorem Knows.stays (h : Knows srv c p) (hstays : Stays c srv srv') : Knows srv' c p := by
  refine ⟨fun hnone => h.out (hstays.session.symm.trans hnone),
    fun ht => h.user (hstays.session.symm.trans ht), fun ht h0 => ?_⟩
  have ht' := hstays.session.symm.trans ht
  obtain ⟨hroom, opponent, hfaces, hknown⟩ := h.room ht' h0
  exact ⟨hroom, opponent, hstays.opponent ht' h0 hfaces, hknown⟩

theorem Stays.of_rooms (hsessions : srv'.sessionService_ = srv.sessionService_)
    (hrooms : ∀ {r room}, srv.roomService_.find r = some room →
      ∃ room', srv'.roomService_.find r = some room' ∧ room'.users = room.users) :
    Stays c srv srv' := by
  refine ⟨by rw [hsessions], fun _ _ hfaces => ?_⟩
  obtain ⟨room, hroom, hopponent⟩ := hfaces
  obtain ⟨room', hroom', husers⟩ := hrooms hroom
  refine ⟨room', hroom', ?_⟩
  rw [hsessions, opponentOf_congr husers]
  exact hopponent

theorem Stays.of_eq (hsessions : srv'.sessionService_ = srv.sessionService_)
    (hrooms : srv'.roomService_ = srv.roomService_) : Stays c srv srv' :=
  .of_rooms hsessions fun {_ room} hroom => ⟨room, by rwa [hrooms], rfl⟩

theorem Stays.refl (c : UInt64) (srv : GameServer) : Stays c srv srv := .of_eq rfl rfl

/-- The room of other users ends. -/
theorem RoomEnded.stays {r : UInt64} {f : PlayerSession → PlayerSession}
    (h : RoomEnded srv r f srv') (hco : Coherent srv)
    (hout : ∀ t, srv.sessionService_.findByConnection c = some t → t.roomId_ ≠ r) :
    Stays c srv srv' := by
  refine ⟨?_, fun {t opponent} ht h0 hfaces => ?_⟩
  · rw [h.sessions.find]
    cases ht : srv.sessionService_.findByConnection c with
    | none => rfl
    | some t => rw [Option.map_some, h.outside ht (hout t ht)]
  · have hr := hfaces.roomId_eq hco h0
    obtain ⟨room, hroom, hopponent⟩ := hfaces
    refine ⟨room, by rw [h.rooms, if_neg (hout t ht), hroom], ?_⟩
    rw [h.sessions.sessionOf, hopponent, Option.map_some,
      h.outside hopponent (hr.trans_ne (hout t ht))]

/-- Somebody else is logged out. -/
theorem Stays.logout (h : Stays c srv srv') (hne : c ≠ c')
    (hother : ∀ {t opponent}, srv.sessionService_.findByConnection c = some t → t.roomId_ ≠ 0 →
      srv.Faces t opponent → srv'.sessionService_.findByConnection c' ≠ some opponent) :
    Stays c srv (srv'.logout c') := by
  have hkept : ∀ d, d ≠ c' → (srv'.logout c').sessionService_.findByConnection d =
      srv'.sessionService_.findByConnection d := fun d hd =>
    (findByConnection_remove c' d).trans (if_neg hd)
  refine ⟨(hkept c hne).trans h.session, fun {t opponent} ht h0 hfaces => ?_⟩
  obtain ⟨room, hroom, hopponent⟩ := h.opponent ht h0 hfaces
  obtain ⟨d, hd, hu⟩ := sessionOf_eq_some_iff.mp hopponent
  have hdc : d ≠ c' := by
    rintro rfl
    exact hother ht h0 hfaces hd
  exact ⟨room, hroom, sessionOf_eq_some_iff.mpr ⟨d, (hkept d hdc).trans hd, hu⟩⟩

/-! ### What the client is told -/

/-- The client is told what its profile lacks. -/
def Informs (c : UInt64) (p : Profile) (next : GameServer × List Effect) : Prop :=
  ∃ ms : List ServerMessage, framesTo c next.2 = ms.map ServerMessage.frame ∧ (∀ m ∈ ms, m.Fits) ∧
    Knows next.1 c (ms.foldl Profile.hear p)

theorem Informs.silent (h : Knows next.1 c p) (hframes : framesTo c next.2 = []) :
    Informs c p next := ⟨[], hframes, nofun, h⟩

theorem Informs.told {m : ServerMessage} (h : Knows next.1 c (p.hear m)) (hfits : m.Fits)
    (hframes : framesTo c next.2 = [m.frame]) : Informs c p next :=
  ⟨[m], hframes, by simpa using hfits, h⟩

/-- An answer that says nothing about the user. -/
theorem Informs.answer {m : ServerMessage} (h : Knows srv c p) (hsame : p.hear m = p)
    (hfits : m.Fits) : Informs c p (srv, [.send c' m.frame]) := by
  by_cases hc : c' = c
  · refine .told (m := m) ?_ hfits (by rw [framesTo_send, if_pos hc, framesTo_nil])
    rw [hsame]
    exact h
  · exact .silent h (by rw [framesTo_send, if_neg hc, framesTo_nil])

/-- Messages that say nothing about the user. -/
theorem Informs.quiet (ms : List ServerMessage) (h : Knows next.1 c p)
    (hsame : ∀ m ∈ ms, p.hear m = p) (hfits : ∀ m ∈ ms, m.Fits)
    (hframes : framesTo c next.2 = ms.map ServerMessage.frame) : Informs c p next := by
  refine ⟨ms, hframes, hfits, ?_⟩
  rw [Profile.foldl_hear_of_silent hsame]
  exact h

/-! ### Accounts and the queue -/

theorem LoginOutcome.informs (hk : Knows srv c p)
    (hnext : LoginOutcome srv c' next) : Informs c p next := by
  cases hnext with
  | refused hno hfits => exact .answer hk (by simp [Profile.hear, hno]) hfits
  | @accepted name record hrecord hbound =>
    obtain ⟨-, -, hnone, hoffline⟩ := bind_fst.mp hbound
    have hfind := findByConnection_bind hbound
    by_cases hc : c' = c
    · subst hc
      have hlen := AccountRepository.length_le_of_isValidInput record.valid
      refine .told (m := .loginRsp _) (.of_session ((hfind c').trans (if_pos rfl)) ?_ ?_)
        (ServerMessage.fits_loginRsp (hlen.trans (by decide : 32 ≤ kMaxStringBytes))
          (Nat.zero_le _)) (by rw [framesTo_send, if_pos rfl, framesTo_nil])
      · exact ⟨rfl, rfl, rfl, rfl⟩
      · exact fun h0 => absurd rfl h0
    · refine .silent (hk.stays ⟨(hfind c).trans (if_neg (Ne.symm hc)), fun _ _ hfaces => ?_⟩)
        (by rw [framesTo_send, if_neg hc, framesTo_nil])
      -- whoever logs in was not online before, so he is not the opponent
      obtain ⟨room, hroom, hopponent⟩ := hfaces
      refine ⟨room, hroom, (sessionOf_bind hbound _).trans ?_⟩
      rw [if_neg, hopponent]
      intro hu
      rw [hu, hoffline] at hopponent
      cases hopponent

/-! ### Rooms and battles -/

/-- A hero does not change who the members of a room are. -/
theorem kept_of_chosen {r : UInt64} {u : UInt32} {hero : HeroType} {room room' : Room}
    {rs : RoomService} (hroom : srv.roomService_.find r = some room)
    (hchosen : room.Chosen u hero room')
    (hfind : ∀ r', rs.find r' = if r' = r then some room' else srv.roomService_.find r')
    {r₁ : UInt64} {room₁ : Room} (hroom₁ : srv.roomService_.find r₁ = some room₁) :
    ∃ room₁', rs.find r₁ = some room₁' ∧ room₁'.users = room₁.users := by
  by_cases hr : r₁ = r
  · subst hr
    obtain rfl := Option.some.inj (hroom.symm.trans hroom₁)
    exact ⟨room', (hfind _).trans (if_pos rfl), hchosen.users_eq⟩
  · exact ⟨room₁, ((hfind _).trans (if_neg hr)).trans hroom₁, rfl⟩

theorem HeroOutcome.informs (h : Accounted o srv) (hk : Knows srv c p) {payload : List UInt8}
    (hnext : HeroOutcome srv c' payload next) : Informs c p next := by
  cases hnext with
  | refused hno hfits => exact .answer hk rfl hfits
  | @waiting t' request room room' rs ht' h0 _ _ hroom hchosen _ hfind _ =>
    exact .answer (hk.stays (.of_rooms rfl (kept_of_chosen hroom hchosen hfind))) rfl
      (ServerMessage.fits_heroSelectRsp (Nat.zero_le _))
  | @started t' request room room' rs bs ht' h0 _ _ hroom hchosen _ hfind hsel hnone hbs =>
    have hk' : Knows { srv with roomService_ := rs, battleService_ := bs } c p :=
      hk.stays (.of_rooms rfl (kept_of_chosen hroom hchosen hfind))
    have hmembers := fun m => h.coherent.framesTo_members (c := c) h0 hroom hchosen.users_eq m
    by_cases hown : ∃ t, srv.sessionService_.findByConnection c = some t ∧ t.userId_ ∈ room.users
    · obtain ⟨t, ht, hmem⟩ := hown
      have htold := fun m => (hmembers m).1 t ht hmem
      have hstart : p.hear (.battleStartNtf (room'.startFor t.userId_)) = p := by
        unfold Profile.hear
        rw [← (hk.user ht).inLogin]
        exact ite_self p
      by_cases hc : c' = c
      · refine .quiet [.heroSelectRsp { accepted_ := true },
          .battleStartNtf (room'.startFor t.userId_),
          .battleStateNtf ((BattleService.initialState room').stateFor t.userId_)] hk' ?_ ?_ ?_
        · simpa using ⟨rfl, hstart, rfl⟩
        · simpa using ⟨ServerMessage.fits_heroSelectRsp (Nat.zero_le _),
            ServerMessage.fits_battleStartNtf _, ServerMessage.fits_battleStateNtf _⟩
        · rw [framesTo_send, if_pos hc, framesTo_startBattle, framesTo_append, htold, htold]
          rfl
      · refine .quiet [.battleStartNtf (room'.startFor t.userId_),
          .battleStateNtf ((BattleService.initialState room').stateFor t.userId_)] hk' ?_ ?_ ?_
        · simpa using ⟨hstart, rfl⟩
        · simpa using ⟨ServerMessage.fits_battleStartNtf _, ServerMessage.fits_battleStateNtf _⟩
        · rw [framesTo_send, if_neg hc, framesTo_startBattle, framesTo_append, htold, htold]
          rfl
    · push Not at hown
      have huntold := fun m => (hmembers m).2 hown
      refine .silent hk' ?_
      rw [framesTo_send, if_neg, framesTo_startBattle, framesTo_append, huntold, huntold]
      · rfl
      · rintro rfl
        exact hown t' ht' hchosen.mem

/-- The battle of the user is over. -/
theorem Knows.settled (h : Knows srv c p) {state : BattleState} {e₁ e₂ : UInt32}
    (ht : srv.sessionService_.findByConnection c = some t) (h0 : t.roomId_ ≠ 0)
    (hr : state.roomId_ = t.roomId_) (hmem : t.userId_ ∈ state.users)
    (hend : RoomEnded srv t.roomId_ (settled state.firstUserId_ e₁ state.secondUserId_ e₂) srv') :
    Knows srv' c (p.hear (resultsFor state e₁ e₂ t.userId_)) := by
  obtain ⟨hroom, -⟩ := h.room ht h0
  have huser := h.user ht
  have hheard : p.hear (resultsFor state e₁ e₂ t.userId_) =
      { p with elo := if t.userId_ = state.firstUserId_ then e₁ else e₂ } :=
    if_pos (hr.trans hroom.symm)
  rw [hheard]
  refine .of_session (by rw [hend.sessions.find, ht]; rfl) ?_ fun h0' =>
    absurd (settled_roomId (sessionOf_of_session ht) hmem) h0'
  refine ⟨huser.inLogin, huser.userId.trans (settled_userId ..).symm,
    huser.userName.trans (settled_userName ..).symm, ?_⟩
  unfold GameServer.settled
  rcases BattleState.mem_users.mp hmem with hu | hu
  · simp [hu]
  · by_cases hfirst : state.secondUserId_ = state.firstUserId_ <;> simp [hu, hfirst]

theorem AttackOutcome.informs (h : Accounted o srv) (hk : Knows srv c p) {payload : List UInt8}
    {io : SaveIO} (hnext : AttackOutcome srv io c' payload next) : Informs c p next := by
  cases hnext with
  | refused => exact .silent hk rfl
  | @hit t' state state' bs ht' hstate hattack hfin hbs =>
    have hattacked := BattleState.attack_spec (BattleService.find_valid hstate) hattack
    obtain ⟨htold, huntold⟩ := h.framesTo_players (c := c) hstate hattacked.first hattacked.second
      fun u => .battleStateNtf (state'.stateFor u)
    have hk' : Knows { srv with battleService_ := bs } c p := hk.stays (.of_eq rfl rfl)
    by_cases hown : ∃ t, srv.sessionService_.findByConnection c = some t ∧ t.roomId_ = t'.roomId_
    · obtain ⟨t, ht, hr⟩ := hown
      exact .told (m := .battleStateNtf (state'.stateFor t.userId_)) hk'
        (ServerMessage.fits_battleStateNtf _) (htold t ht hr)
    · push Not at hown
      exact .silent hk' (huntold hown)
  | @felled t' t₁ t₂ state state' bs ok e₁ e₂ srv' ht' hstate hattack hfin hbs h₁ h₂ hfinished =>
    have hattacked := BattleState.attack_spec (BattleService.find_valid hstate) hattack
    obtain ⟨htold, huntold⟩ := h.framesTo_players (c := c) hstate hattacked.first hattacked.second
      fun u => .battleStateNtf (state'.stateFor u)
    obtain ⟨hresult, hnoresult⟩ := h.framesTo_players (c := c) hstate hattacked.first
      hattacked.second (resultsFor state' e₁ e₂)
    have hend := h.coherent.roomEnded hstate hattacked.roomId hattacked.first hattacked.second hbs
      h₁ h₂ hfinished
    by_cases hown : ∃ t, srv.sessionService_.findByConnection c = some t ∧ t.roomId_ = t'.roomId_
    · obtain ⟨t, ht, hr⟩ := hown
      have hmem := (h.mem_battle_iff ht hstate).mpr hr
      rw [BattleState.mem_users, ← hattacked.first, ← hattacked.second, ← BattleState.mem_users]
        at hmem
      refine ⟨[.battleStateNtf (state'.stateFor t.userId_), resultsFor state' e₁ e₂ t.userId_],
        ?_, ?_, ?_⟩
      · rw [framesTo_append, htold t ht hr]
        exact congrArg (_ :: ·) (hresult t ht hr)
      · simpa using ⟨ServerMessage.fits_battleStateNtf _, ServerMessage.fits_battleResultNtf _⟩
      · rw [← hr] at hend hstate
        exact hk.settled ht (battle_ne_zero hstate)
          (hattacked.roomId.trans (BattleService.find_roomId hstate)) hmem hend
    · push Not at hown
      refine .silent (hk.stays (hend.stays h.coherent hown)) ?_
      rw [framesTo_append, huntold hown]
      exact hnoresult hown

/-! ### Ticks -/

/-- A player who is drawn hears of his room and of the other player. -/
theorem Accounted.drawn_informs (h : Accounted o srv) (hk : Knows srv c p) {now : MatchTimePoint}
    {outcomes : Outcomes} {s' : MatchmakingService}
    (hrounds : Rounds range now srv.toMatchmakingService outcomes s')
    (hrooms : roomsCreated o + outcomes.events.length < 2 ^ 64 - 1)
    (ht : srv.sessionService_.findByConnection c = some t) (hu : t.userId_ ∈ outcomes.users) :
    Informs c p ({ srv with toMatchmakingService := s' },
      outcomes.events.flatMap fun event => .matchFound event :: srv.tellFound event) := by
  obtain ⟨f, hmapped, -⟩ := rounds_mapped hrounds
  have hsession := sessionOf_of_session ht
  have huser := hk.user ht
  obtain ⟨found, t₁, t₂, hmem, hintro⟩ := h.introduced hrounds hrooms hu
  have hc := findConnectionByUserId_of_session ht
  -- the two players are treated alike
  have htold : ∀ {opponent : PlayerSession} {v : UInt32},
      s'.sessionService_.sessionOf t.userId_ = some { t with roomId_ := found.roomId_ } →
      s'.sessionService_.sessionOf v = some { opponent with roomId_ := found.roomId_ } →
      opponentOf { roomId_ := found.roomId_, firstUserId_ := found.pair_.first_.userId_,
                   secondUserId_ := found.pair_.second_.userId_ } t.userId_ = v →
      framesTo (srv.sessionService_.findConnectionByUserId t.userId_)
        (outcomes.events.flatMap fun event => .matchFound event :: srv.tellFound event) =
          [(foundFor found.roomId_ opponent).frame] → opponent.userName_.length ≤ 32 →
      Informs c p ({ srv with toMatchmakingService := s' },
        outcomes.events.flatMap fun event => .matchFound event :: srv.tellFound event) := by
    intro opponent v hin hopponent hv hframes hname
    rw [hc] at hframes
    rw [sessionOf, hmapped.connection hsession, hc] at hin
    refine .told (m := foundFor found.roomId_ opponent) (.of_session hin ?_ fun _ => ⟨rfl, ?_⟩)
      (ServerMessage.fits_matchFoundNtf (hname.trans (by decide))) hframes
    · exact ⟨rfl, huser.userId, huser.userName, huser.elo⟩
    · exact ⟨{ opponent with roomId_ := found.roomId_ },
        ⟨_, hintro.stored, hv ▸ hopponent⟩, rfl, rfl⟩
  rcases mem_users.mp hmem with hfirst | hsecond
  · obtain rfl := Option.some.inj (hsession.symm.trans (hfirst ▸ hintro.first))
    exact htold (hfirst ▸ hintro.firstInRoom) hintro.secondInRoom (if_pos hfirst.symm)
      (hfirst ▸ hintro.firstTold) (h.coherent.name_le hintro.second)
  · obtain rfl := Option.some.inj (hsession.symm.trans (hsecond ▸ hintro.second))
    exact htold (hsecond ▸ hintro.secondInRoom) hintro.firstInRoom
      (if_neg fun hu => hintro.ne (hu.trans hsecond)) (hsecond ▸ hintro.secondTold)
      (h.coherent.name_le hintro.first)

theorem TickOutcome.informs (h : Accounted o srv) (hk : Knows srv c p) {now : MatchTimePoint}
    (hnext : TickOutcome range now srv next)
    (hrooms : roomsCreated (o ++ next.2) < 2 ^ 64 - 1) : Informs c p next := by
  obtain @⟨outcomes, s', hrounds⟩ := hnext
  rw [roomsCreated_append, roomsCreated_events] at hrooms
  by_cases hown : ∃ t, srv.sessionService_.findByConnection c = some t ∧ t.userId_ ∈ outcomes.users
  · obtain ⟨t, ht, hu⟩ := hown
    exact h.drawn_informs hk hrounds hrooms ht hu
  · push Not at hown
    obtain ⟨f, hmapped, -⟩ := rounds_mapped hrounds
    obtain ⟨hprocessed, -⟩ := hrounds.processed h.lodged.numbered hrooms
    obtain ⟨hsame, hkept⟩ := hprocessed.frame
    refine .silent (hk.stays ⟨?_, fun {t opponent} ht h0 hfaces => ?_⟩)
      (framesTo_events_of_ne fun e he v hv t ht => ?_)
    · show s'.sessionService_.findByConnection c = _
      rw [hmapped.find]
      cases ht : srv.sessionService_.findByConnection c with
      | none => rfl
      | some t =>
        have hu := hsame _ (hown t ht)
        rw [hmapped.sessionOf, sessionOf_of_session ht] at hu
        exact hu
    · -- nobody who is in a room is queued, so the opponent was not drawn either
      have hr := hfaces.roomId_eq h.coherent h0
      obtain ⟨room, hroom, hopponent⟩ := hfaces
      refine ⟨room, hkept _ _ hroom, (hsame _ fun hu => ?_).trans hopponent⟩
      obtain ⟨ticket, hticket⟩ := hrounds.queued hu
      obtain ⟨s, hs, hs0, -⟩ := h.coherent.queued hticket
      obtain rfl := Option.some.inj (hs.symm.trans hopponent)
      exact h0 (hr.symm.trans hs0)
    · rintro rfl
      have hv' := mem_users_of_mem_events hrounds he hv
      rw [← sessionOf_userId ht] at hv'
      exact hown t ht hv'

/-! ### Closed connections -/

theorem CloseOutcome.informs (h : Accounted o srv) (hk : Knows srv c p) {io : SaveIO}
    (hne : c ≠ c') (hnext : CloseOutcome srv io c' next) : Informs c p next := by
  have hdequeued : Knows (srv.dequeue c') c p :=
    hk.stays (.of_eq (sessionService_dequeue ..) (roomService_dequeue ..))
  -- the room that ends is not that of `c`, so whoever leaves is not the opponent either
  have hgone : ∀ {srv₁ : GameServer} {f : PlayerSession → PlayerSession} {t' : PlayerSession},
      srv.sessionService_.findByConnection c' = some t' →
      RoomEnded (srv.dequeue c') t'.roomId_ f srv₁ →
      (∀ t, srv.sessionService_.findByConnection c = some t → t.roomId_ ≠ t'.roomId_) →
      Knows (srv₁.logout c') c p := by
    intro srv₁ f t' ht' hend hout
    have hout' : ∀ t, (srv.dequeue c').sessionService_.findByConnection c = some t →
        t.roomId_ ≠ t'.roomId_ := by rwa [sessionService_dequeue]
    have hco := h.coherent.dequeue c'
    apply hdequeued.stays
    apply (hend.stays hco hout').logout hne
    intro t opponent ht h0 hfaces hc'
    have hr := hfaces.roomId_eq hco h0
    obtain ⟨room, -, hopponent⟩ := hfaces
    rw [hend.sessions.find, sessionService_dequeue, ht', Option.map_some, Option.some.injEq] at hc'
    have hu : t'.userId_ = opponent.userId_ := by rw [← hc', hend.sessions.userId_eq]
    rw [sessionService_dequeue] at hopponent
    rw [← sessionOf_userId hopponent, ← hu, sessionOf_of_session ht', Option.some.injEq]
      at hopponent
    exact hout' t ht (by rw [← hr, hopponent])
  -- with its own room `c` leaves, too
  have hstays : ∀ {srv₁ : GameServer} {q : Profile}, Knows srv₁ c q →
      (∀ t, srv₁.sessionService_.findByConnection c = some t → t.roomId_ = 0) →
      Knows (srv₁.logout c') c q := by
    intro srv₁ q hq hout
    exact hq.stays ((Stays.refl c srv₁).logout hne fun ht h0 => absurd (hout _ ht) h0)
  cases hnext with
  | free hfree =>
    refine .silent (hdequeued.stays ((Stays.refl c _).logout hne ?_)) rfl
    intro t opponent ht h0 hfaces hc'
    obtain ⟨room, hroom, hopponent⟩ := hfaces
    rw [sessionService_dequeue] at hc'
    rw [roomService_dequeue] at hroom
    refine hfree opponent hc' t.roomId_ room h0 hroom ?_
    rw [sessionOf_userId hopponent]
    exact opponentOf_mem room t.userId_
  | @left t' room srv₁ ht' h0 hnobattle hroom hmem hopp hend _ =>
    obtain ⟨s, hs, hsr⟩ := h.coherent.inRoom h0 hroom _ hmem
    by_cases hown : ∃ t, srv.sessionService_.findByConnection c = some t ∧ t.roomId_ = t'.roomId_
    · obtain ⟨t, ht, hr⟩ := hown
      have hu : t.userId_ = opponentOf room t'.userId_ :=
        eq_opponentOf ((h.mem_room_iff ht h0 hroom).mpr hr) ((h.mem_room_iff ht' h0 hroom).mpr rfl)
          fun hu => hne (connection_unique ht ht' hu)
      have hc := findConnectionByUserId_of_session ht
      rw [hu] at hc
      have hin : srv₁.sessionService_.findByConnection c = some { t with roomId_ := 0 } := by
        rw [hend.sessions.find, sessionService_dequeue, ht, Option.map_some, inRoom, if_pos hu]
      have huser := hk.user ht
      refine .told (m := .roomClosedNtf
        { roomId_ := t'.roomId_, reason_ := .ofLiteral "Opponent disconnected" })
        (hstays (.of_session hin ?_ fun h0' => absurd rfl h0') fun t₁ ht₁ => ?_)
        (ServerMessage.fits_roomClosedNtf (by dsimp only; decide))
        (by rw [tell, framesTo_send, if_pos hc, framesTo_nil])
      · obtain ⟨hroomId, -⟩ := hk.room ht (by rwa [hr])
        simp only [Profile.hear, hroomId.trans hr, if_true]
        exact ⟨rfl, huser.userId, huser.userName, huser.elo⟩
      · obtain rfl := Option.some.inj (hin.symm.trans ht₁)
        rfl
    · push Not at hown
      refine .silent (hgone ht' hend hown) ?_
      rw [tell, framesTo_send, if_neg, framesTo_nil]
      rintro rfl
      exact hown s hs hsr
  | @forfeited t' t₁ t₂ state state' bs ok e₁ e₂ srv₁ ht' hstate hforfeit hbs h₁ h₂ hfinished =>
    have hf := BattleState.forfeit_spec (BattleService.find_valid hstate) hforfeit
    have hend := (h.coherent.dequeue c').roomEnded (by simpa using hstate) hf.roomId hf.first
      hf.second (by simpa using hbs) (by simpa using h₁) (by simpa using h₂) hfinished
    obtain ⟨htold, huntold⟩ := h.framesTo_players (c := c) hstate hf.first hf.second
      (resultsFor state' e₁ e₂)
    by_cases hown : ∃ t, srv.sessionService_.findByConnection c = some t ∧ t.roomId_ = t'.roomId_
    · obtain ⟨t, ht, hr⟩ := hown
      have hmem := (h.mem_battle_iff ht hstate).mpr hr
      rw [BattleState.mem_users, ← hf.first, ← hf.second, ← BattleState.mem_users] at hmem
      have ht₀ : (srv.dequeue c').sessionService_.findByConnection c = some t := by
        rwa [sessionService_dequeue]
      rw [← hr] at hend hstate
      refine .told (m := resultsFor state' e₁ e₂ t.userId_) (hstays (hdequeued.settled ht₀
        (battle_ne_zero hstate) (hf.roomId.trans (BattleService.find_roomId hstate)) hmem hend)
        fun s hs => ?_) (ServerMessage.fits_battleResultNtf _) (htold t ht hr)
      rw [hend.sessions.find, ht₀, Option.map_some, Option.some.injEq] at hs
      rw [← hs]
      exact settled_roomId (sessionOf_of_session ht) hmem
    · push Not at hown
      exact .silent (hgone ht' hend hown) (huntold hown)

/-! ### Every event -/

theorem Outcome.informs (h : Accounted o srv) (hk : Knows srv c p) {event : Event}
    (hopen : ∀ io, event ≠ .closed c io) (hnext : Outcome range srv event next)
    (hrooms : roomsCreated (o ++ next.2) < 2 ^ 64 - 1) : Informs c p next := by
  cases hnext with
  | opened => exact .silent (hk.stays (.of_eq rfl rfl)) rfl
  | ignored => exact .silent hk rfl
  | login hlogin => exact hlogin.informs hk
  | register hregister =>
    cases hregister with
    | answered hfits =>
      exact .answer (hk.stays (.of_eq rfl rfl)) rfl hfits
  | join hjoin =>
    cases hjoin with
    | refused _ hfits => exact .answer hk rfl hfits
    | accepted =>
      exact .answer (hk.stays (.of_eq rfl rfl)) rfl
        (ServerMessage.fits_matchJoinRsp (Nat.zero_le _))
  | cancel hcancel =>
    cases hcancel with
    | refused _ hfits => exact .answer hk rfl hfits
    | accepted =>
      exact .answer (hk.stays (.of_eq rfl rfl)) rfl
        (ServerMessage.fits_matchCancelRsp (Nat.zero_le _))
  | hero hhero => exact hhero.informs h hk
  | attack hattack => exact hattack.informs h hk
  | tick htick => exact htick.informs h hk hrooms
  | @closed c' io _ hclose =>
    refine hclose.informs h hk ?_
    rintro rfl
    exact hopen io rfl

end GameServer

namespace ClientServer

open GameServer

variable {range : MatchTicket → MatchTimePoint → ℚ} {s : ClientServer} {c : UInt64}
  {o : List Effect}

/-! ### Runs -/

/-- The client knows its user once it has received what is on the way. -/
structure Informed (c : UInt64) (o : List Effect) (s : ClientServer) : Prop where
  accounted : Accounted o s.server
  connected : c ∈ s.server.connections_
  knows : ∃ ms : List ServerMessage, s.messages = ms.map ServerMessage.frame ∧
    (∀ m ∈ ms, m.Fits) ∧ Knows s.server c (ms.foldl Profile.hear s.client.profile)

theorem Informed.serve (h : Informed c o s) {event : Event} (hp : event.Possible s.server)
    (hopen : ∀ io, event ≠ .closed c io)
    (hrooms : roomsCreated (o ++ (s.server.step range event).2) < 2 ^ 64 - 1) :
    Informed c (o ++ (s.server.step range event).2) (s.serve c range event).1 := by
  obtain ⟨haccounted, hconnected, ms, hmessages, hfits, hknows⟩ := h
  have houtcome := step_outcome range haccounted.coherent hp
  obtain ⟨ms', hframes, hfits', hknows'⟩ := houtcome.informs haccounted hknows hopen hrooms
  refine ⟨haccounted.step hp hrooms, houtcome.connected hconnected hopen, ms ++ ms', ?_, ?_, ?_⟩
  · simp only [ClientServer.serve, hframes, hmessages, List.map_append]
  · intro m hm
    exact (List.mem_append.mp hm).elim (hfits m) (hfits' m)
  · rw [List.foldl_append]
    exact hknows'

theorem Informed.step (h : Informed c o s) {action : Action} (hp : action.Possible s c)
    (hrooms : roomsCreated (o ++ (s.step c range action).2) < 2 ^ 64 - 1) :
    Informed c (o ++ (s.step c range action).2) (s.step c range action).1 := by
  cases action with
  | click button =>
    obtain ⟨haccounted, hconnected, ms, hmessages, hfits, hknows⟩ := h
    rw [← MainWindow.profile_click hp] at hknows
    rw [show (s.step c range (.click button)).2 = [] from rfl, List.append_nil]
    exact ⟨haccounted, hconnected, ms, hmessages, hfits, hknows⟩
  | receive =>
    obtain ⟨haccounted, hconnected, ms, hmessages, hfits, hknows⟩ := h
    cases ms with
    | nil => exact absurd hmessages hp
    | cons m ms =>
      obtain ⟨hm, hms⟩ := List.forall_mem_cons.mp hfits
      have hstep : s.step c range .receive =
          ({ s with
              client := s.client.hear m
              messages := ms.map ServerMessage.frame }, []) := by
        simp only [ClientServer.step, hmessages, List.map_cons, MainWindow.receive_frame hm]
      rw [hstep, List.append_nil]
      refine ⟨haccounted, hconnected, ms, rfl, hms, ?_⟩
      rw [List.foldl_cons, ← MainWindow.profile_hear] at hknows
      exact hknows
  | deliver now io =>
    cases hrequests : s.requests with
    | nil => exact absurd hrequests hp
    | cons request requests =>
      have hstep : s.step c range (.deliver now io) =
          ({ s with requests := requests }).serve c range (.message c request.1 now io) := by
        simp only [ClientServer.step, hrequests]
      rw [hstep] at hrooms ⊢
      have h' : Informed c o { s with requests := requests } := ⟨h.accounted, h.connected, h.knows⟩
      refine h'.serve h.connected ?_ hrooms
      intro io hio
      cases hio
  | elsewhere event =>
    refine h.serve hp.1 ?_ hrooms
    rintro io rfl
    exact hp.2 rfl

/-- The client knows who its user is, and in a room whom he plays against. -/
structure UserKnown (c : UInt64) (s : ClientServer) : Prop where
  login_iff : s.client.stack_ = .SCENE_LOGIN ↔
    s.server.sessionService_.findByConnection c = none
  user : ∀ t, s.server.sessionService_.findByConnection c = some t →
    s.client.userId_ = t.userId_ ∧ s.client.userName_ = t.userName_ ∧ s.client.elo_ = t.elo_
  opponent : ∀ t, s.server.sessionService_.findByConnection c = some t → t.roomId_ ≠ 0 →
    s.client.matchedRoomId_ = t.roomId_ ∧
      ∃ room opponent, s.server.roomService_.find t.roomId_ = some room ∧
        s.server.sessionService_.sessionOf (opponentOf room t.userId_) = some opponent ∧
        s.client.matchedOpponentName_ = opponent.userName_ ∧
        s.client.matchedOpponentElo_ = opponent.elo_

theorem Informed.userKnown (h : Informed c o s) (hmessages : s.messages = []) :
    UserKnown c s := by
  obtain ⟨-, -, ms, hms, -, hknows⟩ := h
  obtain rfl : ms = [] := List.map_eq_nil_iff.mp (hms.symm.trans hmessages)
  refine ⟨⟨fun hstack => ?_, fun hnone => of_decide_eq_true (hknows.out hnone)⟩, fun t ht => ?_,
    fun t ht h0 => ?_⟩
  · cases ht : s.server.sessionService_.findByConnection c with
    | none => rfl
    | some t => exact absurd hstack (of_decide_eq_false (hknows.user ht).inLogin)
  · have huser := hknows.user ht
    exact ⟨huser.userId, huser.userName, huser.elo⟩
  · obtain ⟨hroom, opponent, ⟨room, hfind, hopponent⟩, hname, helo⟩ := hknows.room ht h0
    exact ⟨hroom, room, opponent, hfind, hopponent, hname, helo⟩

variable (range) in
theorem informed_start {srv : GameServer} (h : Accounted o srv)
    (hp : (Event.opened c).Possible srv) :
    Informed c (o ++ (srv.step range (.opened c)).2)
      { server := (srv.step range (.opened c)).1 } := by
  have hsynced := synced_start range h hp
  have hnone : srv.sessionService_.findByConnection c = none := by
    cases ht : srv.sessionService_.findByConnection c with
    | none => rfl
    | some t => exact absurd (h.coherent.connected ht) hp.2
  refine ⟨hsynced.accounted, hsynced.connected, [], rfl, nofun, fun _ => rfl, fun ht => ?_,
    fun ht => ?_⟩
  · cases hnone.symm.trans ht
  · cases hnone.symm.trans ht

/-- **The client knows its user and the opponent** whenever no message is on the way to it. -/
theorem user_known {file : Option (List UInt8)} {srv : GameServer} (h : init file = some srv)
    {events : List Event} (hevents : (GameServer.machine range).CanRun srv (events ++ [.opened c]))
    {actions : List Action} (hactions : (machine c range).CanRun (start c range srv events) actions)
    (hrooms : roomsCreated ((GameServer.machine range).run srv events).2 +
      roomsCreated ((machine c range).run (start c range srv events) actions).2 < 2 ^ 64 - 1)
    (hmessages : ((machine c range).run (start c range srv events) actions).1.messages = []) :
    UserKnown c ((machine c range).run (start c range srv events) actions).1 := by
  have hless : ∀ o o' : List Effect, roomsCreated (o ++ o') < 2 ^ 64 - 1 →
      roomsCreated o < 2 ^ 64 - 1 := by
    intro o o' hlt
    rw [roomsCreated_append] at hlt
    omega
  obtain ⟨hbefore, hopened, -⟩ := (Machine.canRun_append _ _ _ _).mp hevents
  have hstart := informed_start range (accounted_run h hbefore (by omega)) hopened
  have hserver : start c range srv events =
      { server := (((GameServer.machine range).run srv events).1.step range (.opened c)).1 } := by
    rw [start, Machine.run_append]
    rfl
  rw [← hserver] at hstart
  have hrun := Machine.run_induction_within (M := machine c range)
    (B := fun o => roomsCreated o < 2 ^ 64 - 1) (P := fun o s => Informed c o s) hless
    (fun _ _ _ h hp => h.step hp) hstart hactions
  refine (hrun ?_).userKnown hmessages
  show roomsCreated ((((GameServer.machine range).run srv events).2 ++ []) ++ _) < _
  rw [List.append_nil, roomsCreated_append]
  exact hrooms

open Wraparound in
theorem user_known_battle :
    let s := ((machine 1 allowedEloRange).run (start 1 allowedEloRange freshServer before)
      battle).1
    s.messages = [] ∧ s.client.userName_ = [97] ∧ UserKnown 1 s := by
  intro s
  exact ⟨by decide +kernel, by decide +kernel,
    user_known (rfl : init none = _) (by decide +kernel) (by decide +kernel) (by decide +kernel)
      (by decide +kernel)⟩

end ClientServer

end ArenaGame
