import ArenaGame.Server.Equiv.BattleOutcomes

/-!
# One event of the main loop

`Outcome` puts the outcomes of all handlers together, and `Coherent` is kept by each of them, so it
holds in every run (`coherent_run`).
-/

namespace ArenaGame.GameServer

open GameProtocol GameMessages SessionService

variable {range : MatchTicket → MatchTimePoint → ℚ} {srv : GameServer}

inductive Outcome (range : MatchTicket → MatchTimePoint → ℚ) (srv : GameServer) :
    Event → GameServer × List Effect → Prop
  | opened {c} : Outcome range srv (.opened c)
      ({ srv with connections_ := insert c srv.connections_ }, [])
  | ignored {c frame now io} :
      frame.1 ∉ [MSG_LOGIN_REQ, MSG_REGISTER_REQ, MSG_MATCH_JOIN_REQ, MSG_HERO_SELECT_REQ,
        MSG_BATTLE_ATTACK_REQ, MSG_MATCH_CANCEL_REQ] →
      Outcome range srv (.message c frame now io) (srv, [])
  | login {c payload now io next} : LoginOutcome srv c next →
      Outcome range srv (.message c (MSG_LOGIN_REQ, payload) now io) next
  | register {c payload now io next} : RegisterOutcome srv io c next →
      Outcome range srv (.message c (MSG_REGISTER_REQ, payload) now io) next
  | join {c payload now io next} : JoinOutcome srv now c payload next →
      Outcome range srv (.message c (MSG_MATCH_JOIN_REQ, payload) now io) next
  | cancel {c payload now io next} : CancelOutcome srv c payload next →
      Outcome range srv (.message c (MSG_MATCH_CANCEL_REQ, payload) now io) next
  | hero {c payload now io next} : HeroOutcome srv c payload next →
      Outcome range srv (.message c (MSG_HERO_SELECT_REQ, payload) now io) next
  | attack {c payload now io next} : AttackOutcome srv io c payload next →
      Outcome range srv (.message c (MSG_BATTLE_ATTACK_REQ, payload) now io) next
  | tick {now next} : TickOutcome range now srv next → Outcome range srv (.tick now) next
  | closed {c io next} : CloseOutcome srv io c next → Outcome range srv (.closed c io) next

theorem dispatch_outcome (h : Coherent srv) {c : UInt64} (hc : c ∈ srv.connections_)
    (frame : Frame) (now : MatchTimePoint) (io : SaveIO) :
    Outcome range srv (.message c frame now io)
      (srv.dispatch now io c frame.1 (.ofBytes frame.2)) := by
  obtain ⟨msgType, payload⟩ := frame
  unfold dispatch
  -- in the order of the `switch`
  by_cases hheartbeat : msgType = MSG_HEARTBEAT_REQ
  · rw [if_pos hheartbeat, hheartbeat]
    exact .ignored (by dsimp only; decide)
  rw [if_neg hheartbeat]
  by_cases hlogin : msgType = MSG_LOGIN_REQ
  · rw [if_pos hlogin, hlogin]
    exact .login (handleLogin_outcome hc)
  rw [if_neg hlogin]
  by_cases hregister : msgType = MSG_REGISTER_REQ
  · rw [if_pos hregister, hregister]
    exact .register (handleRegister_outcome _ io hc)
  rw [if_neg hregister]
  by_cases hjoin : msgType = MSG_MATCH_JOIN_REQ
  · rw [if_pos hjoin, hjoin]
    exact .join (handleMatchJoin_outcome _ now hc)
  rw [if_neg hjoin]
  by_cases hhero : msgType = MSG_HERO_SELECT_REQ
  · rw [if_pos hhero, hhero]
    exact .hero (handleHeroSelect_outcome _ h hc)
  rw [if_neg hhero]
  by_cases hattack : msgType = MSG_BATTLE_ATTACK_REQ
  · rw [if_pos hattack, hattack]
    exact .attack (handleBattleAttack_outcome c _ io h)
  rw [if_neg hattack]
  by_cases hcancel : msgType = MSG_MATCH_CANCEL_REQ
  · rw [if_pos hcancel, hcancel]
    exact .cancel (handleMatchCancel_outcome hc)
  rw [if_neg hcancel]
  exact .ignored (by simp [hlogin, hregister, hjoin, hhero, hattack, hcancel])

variable (range) in
theorem step_outcome (h : Coherent srv) {event : Event} (hp : event.Possible srv) :
    Outcome range srv event (srv.step range event) := by
  cases event with
  | opened c => exact .opened
  | message c frame now io => exact dispatch_outcome h hp frame now io
  | tick now => exact .tick (processMatchmakingTick_outcome range now h)
  | closed c io => exact .closed (onDisconnected_outcome c io h)

/-! ### The stores agree in every run -/

/-- A finished battle takes its room with it. -/
theorem Finished.roomEnded {srv' : GameServer} {bs : BattleService} {io : SaveIO}
    {state : BattleState} {t₁ t₂ : PlayerSession} {ok : Bool} {e₁ e₂ : UInt32} {r : UInt64}
    (h : Finished { srv with battleService_ := bs } io state t₁ t₂ ok e₁ e₂ srv')
    (hr : state.roomId_ = r)
    (hbs : ∀ r', bs.find r' = if r' = r then some state else srv.battleService_.find r')
    (h₁ : srv.sessionService_.sessionOf state.firstUserId_ = some t₁) (hr₁ : t₁.roomId_ = r)
    (h₂ : srv.sessionService_.sessionOf state.secondUserId_ = some t₂) (hr₂ : t₂.roomId_ = r) :
    RoomEnded srv r (settled state.firstUserId_ e₁ state.secondUserId_ e₂) srv' := by
  refine ⟨h.connections, h.queue, ?_, fun r' => ?_, fun r' => ?_, h.sessions,
    settled_userName _ _ _ _, fun {c t} hc hne => ?_⟩
  · rw [h.rooms]
    rfl
  · rw [h.rooms, hr]
    exact RoomService.find_remove _ _
  · rw [h.battles, hr, BattleService.find_remove]
    split
    · rfl
    · rename_i hne
      rw [hbs, if_neg hne]
  · have hown := sessionOf_of_session hc
    unfold settled
    rw [if_neg, if_neg]
    · intro hu
      rw [hu, h₂] at hown
      exact hne (Option.some.inj hown ▸ hr₂)
    · intro hu
      rw [hu, h₁] at hown
      exact hne (Option.some.inj hown ▸ hr₁)

/-- A blow or a forfeit that decides a battle ends its room. -/
theorem Coherent.roomEnded (h : Coherent srv) {srv' : GameServer} {bs : BattleService} {io : SaveIO}
    {state state' : BattleState} {t₁ t₂ : PlayerSession} {ok : Bool} {e₁ e₂ : UInt32} {r : UInt64}
    (hstate : srv.battleService_.find r = some state) (hr : state'.roomId_ = state.roomId_)
    (hfirst : state'.firstUserId_ = state.firstUserId_)
    (hsecond : state'.secondUserId_ = state.secondUserId_)
    (hbs : ∀ r', bs.find r' = if r' = r then some state' else srv.battleService_.find r')
    (h₁ : srv.sessionService_.sessionOf state'.firstUserId_ = some t₁)
    (h₂ : srv.sessionService_.sessionOf state'.secondUserId_ = some t₂)
    (hfinished : Finished { srv with battleService_ := bs } io state' t₁ t₂ ok e₁ e₂ srv') :
    RoomEnded srv r (settled state'.firstUserId_ e₁ state'.secondUserId_ e₂) srv' := by
  obtain ⟨-, s₁, s₂, -, -, hs₁, hr₁, hs₂, hr₂⟩ := h.battle hstate
  rw [← hfirst, h₁] at hs₁
  rw [← hsecond, h₂] at hs₂
  obtain rfl := Option.some.inj hs₁
  obtain rfl := Option.some.inj hs₂
  exact hfinished.roomEnded (hr.trans (BattleService.find_roomId hstate)) hbs h₁ hr₁ h₂ hr₂

/-- A user leaves, and with him goes the room that he was in. -/
theorem Coherent.leave (h : Coherent srv) {c : UInt64} {t : PlayerSession}
    (ht : srv.sessionService_.findByConnection c = some t) (h0 : t.roomId_ ≠ 0)
    {f : PlayerSession → PlayerSession} {srv₁ : GameServer}
    (hend : RoomEnded (srv.dequeue c) t.roomId_ f srv₁) : Coherent (srv₁.logout c) := by
  refine ((h.dequeue c).endRoom hend h0).logout fun t' ht' => ?_
  have hu : t'.userId_ = t.userId_ := by
    rw [hend.sessions.find, sessionService_dequeue, ht] at ht'
    obtain rfl := Option.some.inj ht'
    exact hend.sessions.userId_eq t
  rw [hu]
  refine ⟨?_, fun r room hr hroom hmem => ?_⟩
  · rw [hend.queue, find_dequeue, if_pos ⟨t, ht, rfl⟩]
  · rw [hend.rooms, roomService_dequeue] at hroom
    split at hroom
    · cases hroom
    · rename_i hne
      obtain ⟨s, hs, hsr⟩ := h.inRoom hr hroom _ hmem
      obtain rfl : t = s := Option.some.inj ((sessionOf_of_session ht).symm.trans hs)
      exact hne hsr.symm

theorem Outcome.coherent (h : Coherent srv) {event : Event} (hp : event.Possible srv)
    {next : GameServer × List Effect} (hnext : Outcome range srv event next) :
    Coherent next.1 := by
  cases hnext with
  | opened => exact h.connect _
  | ignored => exact h
  | login hlogin =>
    cases hlogin with
    | refused => exact h
    | @accepted name record hrecord hbound =>
      exact h.bind hp (AccountRepository.length_le_of_isValidInput record.valid) hbound
  | register hregister =>
    cases hregister
    exact h.withRepository _
  | join hjoin =>
    cases hjoin with
    | refused => exact h
    | @accepted t q ht h0 hnone hq =>
      refine h.withQueue fun u ticket hticket => ?_
      rw [hq] at hticket
      split at hticket
      -- the new ticket is for the user of the connection, who is in no room
      · rename_i hu
        obtain rfl := Option.some.inj hticket
        exact Or.inr ⟨t, hu ▸ sessionOf_of_session ht, h0, rfl⟩
      · exact Or.inl hticket
  | cancel hcancel =>
    cases hcancel with
    | refused => exact h
    | accepted ht h0 hsome hq =>
      refine h.withQueue fun u ticket hticket => ?_
      -- a cancel only takes tickets away
      rw [hq] at hticket
      split at hticket
      · cases hticket
      · exact Or.inl hticket
  | hero hhero =>
    cases hhero with
    | refused => exact h
    | waiting ht h0 hdecode hsel hroom hchosen hnext hrs hnot =>
      exact h.selectHero hroom hrs hchosen.users_eq (hchosen.selectable (h.selectable hroom) hsel)
        hnot hchosen.not_selected
    | started ht h0 hdecode hsel hroom hchosen hnext hrs hboth hnone hbs =>
      exact h.startBattle hroom hrs hbs hchosen.users_eq
        (hchosen.selectable (h.selectable hroom) hsel) (BattleService.hosts_initialState hboth)
  | attack hattack =>
    cases hattack with
    | refused => exact h
    | hit ht hstate hattack hfin hbs =>
      -- a blow changes neither the players of the battle nor their heroes
      have hattacked := BattleState.attack_spec (BattleService.find_valid hstate) hattack
      refine h.withBattle hstate hbs fun room hhosts => ⟨?_, ?_, ?_, ?_, hhosts.selected, hfin⟩
      · rw [hattacked.first, hhosts.first]
      · rw [hattacked.second, hhosts.second]
      · rw [hattacked.firstHero, hhosts.firstHero]
      · rw [hattacked.secondHero, hhosts.secondHero]
    | felled ht hstate hattack hfin hbs h₁ h₂ hfinished =>
      have hattacked := BattleState.attack_spec (BattleService.find_valid hstate) hattack
      exact h.endRoom (h.roomEnded hstate hattacked.roomId hattacked.first hattacked.second hbs h₁ h₂
        hfinished) (battle_ne_zero hstate)
  | tick htick =>
    obtain ⟨hrounds⟩ := htick
    exact Coherent.rounds hrounds h
  | closed hclose =>
    cases hclose with
    | free hfree =>
      -- once off the queue, a user in no room is referred to by nothing
      refine (h.dequeue _).logout fun t ht => ?_
      rw [sessionService_dequeue] at ht
      exact ⟨by rw [find_dequeue, if_pos ⟨t, ht, rfl⟩], by simpa using hfree t ht⟩
    | left ht h0 hnone hroom hmem hne hend => exact h.leave ht h0 hend
    | forfeited ht hstate hforfeit hbs h₁ h₂ hfinished =>
      have hf := BattleState.forfeit_spec (BattleService.find_valid hstate) hforfeit
      refine h.leave ht (battle_ne_zero hstate)
        ((h.dequeue _).roomEnded (by simpa using hstate) hf.roomId hf.first hf.second
          (by simpa using hbs) (by simpa using h₁) (by simpa using h₂) hfinished)

variable (range) in
theorem Coherent.step (h : Coherent srv) {event : Event} (hp : event.Possible srv) :
    Coherent (srv.step range event).1 := (step_outcome range h hp).coherent h hp

/-- A server starts with empty stores and the accounts of the file, if they can be loaded. -/
theorem eq_of_init {file : Option (List UInt8)} (h : init file = some srv) :
    (AccountRepository.load { file_ := file }).1 = true ∧
      srv =
        { matchQueue_ := .empty
          roomService_ := .empty
          sessionService_ := .empty
          connections_ := ∅
          accountRepository_ := (AccountRepository.load { file_ := file }).2
          battleService_ := .empty } := by
  simp only [init] at h
  split at h
  · cases h
  · rename_i hloaded
    exact ⟨by simpa using hloaded, (Option.some.inj h).symm⟩

theorem coherent_init {file : Option (List UInt8)} (h : init file = some srv) : Coherent srv := by
  obtain ⟨-, rfl⟩ := eq_of_init h
  exact ⟨nofun, nofun, nofun, nofun, nofun, nofun, nofun⟩

theorem Coherent.run (h : Coherent srv) {events : List Event}
    (hrun : (machine range).CanRun srv events) : Coherent ((machine range).run srv events).1 :=
  Machine.run_induction (P := fun _ srv => Coherent srv) (fun _ _ _ h hp => h.step range hp) h hrun

theorem Coherent.reaches (h : Coherent srv) {events : List Event} {srv' : GameServer}
    (hreach : (machine range).Reaches srv events srv') : Coherent srv' :=
  hreach.last ▸ h.run hreach.canRun

/-- The stores agree after every run. -/
theorem coherent_run {file : Option (List UInt8)} (h : init file = some srv) {events : List Event}
    (hrun : (machine range).CanRun srv events) : Coherent ((machine range).run srv events).1 :=
  (coherent_init h).run hrun

end ArenaGame.GameServer
