import ArenaGame.Equiv.ClientServer.Phases
import ArenaGame.Server.Equiv.Waiting

/-!
# The phase of a client at the server

`InPhase` reads the phase of the connection `c` off the stores.  Most events have nothing to do
with it (`Untouched`); what the others do is a path in the dialogue (`Moves`).
-/

namespace ArenaGame

open GameProtocol GameMessages SessionService MatchmakingService Phase

/-! ### The battle as a player sees it -/

@[simp] theorem BattleState.stateFor_roomId (state : BattleState) (u : UInt32) :
    (state.stateFor u).roomId_ = state.roomId_ := by
  unfold stateFor
  split <;> rfl

@[simp] theorem BattleState.stateFor_playerTurn (state : BattleState) (u : UInt32) :
    (state.stateFor u).playerTurn_ = decide (state.activeUserId_ = u) := by
  unfold stateFor
  split <;> rfl

@[simp] theorem Room.startFor_roomId (room : Room) (u : UInt32) :
    (room.startFor u).roomId_ = room.roomId_ := by
  unfold startFor
  split <;> rfl

theorem Room.heroOf_ne_none {room : Room} {u : UInt32} (h : room.Selected) :
    room.heroOf u ≠ .kNone := by
  unfold heroOf
  split
  · exact h.1
  · exact h.2

namespace GameServer

variable {range : MatchTicket → MatchTimePoint → ℚ} {srv srv' srv'' : GameServer} {c : UInt64}
  {k : Phase}

/-! ### Phases -/

inductive InPhase (srv : GameServer) (c : UInt64) : Phase → Prop
  | out : srv.sessionService_.findByConnection c = none → InPhase srv c .out
  | idle {t} : srv.sessionService_.findByConnection c = some t → t.roomId_ = 0 →
      srv.matchQueue_.find t.userId_ = none → InPhase srv c .idle
  | queued {t ticket} : srv.sessionService_.findByConnection c = some t → t.roomId_ = 0 →
      srv.matchQueue_.find t.userId_ = some ticket → InPhase srv c .queued
  | room {t room chosen} : srv.sessionService_.findByConnection c = some t → t.roomId_ ≠ 0 →
      srv.roomService_.find t.roomId_ = some room → t.userId_ ∈ room.users →
      srv.battleService_.find t.roomId_ = none →
      (chosen = true ↔ room.heroOf t.userId_ ≠ .kNone) → InPhase srv c (.room t.roomId_ chosen)
  | battle {t state} : srv.sessionService_.findByConnection c = some t →
      srv.battleService_.find t.roomId_ = some state → t.userId_ ∈ state.users →
      InPhase srv c (.battle (state.stateFor t.userId_))

section Inversion

variable {t : PlayerSession}

/-- A user who is in no room waits for a match or does nothing. -/
theorem InPhase.of_roomId_eq_zero (h : InPhase srv c k)
    (ht : srv.sessionService_.findByConnection c = some t) (h0 : t.roomId_ = 0) :
    k = .idle ∧ srv.matchQueue_.find t.userId_ = none ∨
      k = .queued ∧ ∃ ticket, srv.matchQueue_.find t.userId_ = some ticket := by
  cases h with
  | out hnone => cases ht.symm.trans hnone
  | idle ht' _ hq =>
    obtain rfl := Option.some.inj (ht.symm.trans ht')
    exact Or.inl ⟨rfl, hq⟩
  | queued ht' _ hq =>
    obtain rfl := Option.some.inj (ht.symm.trans ht')
    exact Or.inr ⟨rfl, _, hq⟩
  | room ht' h0' =>
    obtain rfl := Option.some.inj (ht.symm.trans ht')
    exact absurd h0 h0'
  | battle ht' hstate =>
    obtain rfl := Option.some.inj (ht.symm.trans ht')
    exact absurd h0 (battle_ne_zero hstate)

theorem InPhase.eq_idle (h : InPhase srv c k)
    (ht : srv.sessionService_.findByConnection c = some t) (h0 : t.roomId_ = 0)
    (hq : srv.matchQueue_.find t.userId_ = none) : k = .idle := by
  rcases h.of_roomId_eq_zero ht h0 with ⟨hk, -⟩ | ⟨-, ticket, hq'⟩
  · exact hk
  · cases hq.symm.trans hq'

theorem InPhase.eq_queued (h : InPhase srv c k)
    (ht : srv.sessionService_.findByConnection c = some t) (h0 : t.roomId_ = 0)
    {ticket : MatchTicket} (hq : srv.matchQueue_.find t.userId_ = some ticket) : k = .queued := by
  rcases h.of_roomId_eq_zero ht h0 with ⟨-, hq'⟩ | ⟨hk, -⟩
  · cases hq.symm.trans hq'
  · exact hk

theorem InPhase.eq_room (h : InPhase srv c k)
    (ht : srv.sessionService_.findByConnection c = some t) (h0 : t.roomId_ ≠ 0)
    (hnone : srv.battleService_.find t.roomId_ = none) :
    ∃ room chosen, k = .room t.roomId_ chosen ∧ srv.roomService_.find t.roomId_ = some room ∧
      t.userId_ ∈ room.users ∧ (chosen = true ↔ room.heroOf t.userId_ ≠ .kNone) := by
  cases h with
  | out hnone => cases ht.symm.trans hnone
  | idle ht' h0' =>
    obtain rfl := Option.some.inj (ht.symm.trans ht')
    exact absurd h0' h0
  | queued ht' h0' =>
    obtain rfl := Option.some.inj (ht.symm.trans ht')
    exact absurd h0' h0
  | @room t' room chosen ht' _ hroom hu _ hchosen =>
    obtain rfl := Option.some.inj (ht.symm.trans ht')
    exact ⟨room, chosen, rfl, hroom, hu, hchosen⟩
  | battle ht' hstate =>
    obtain rfl := Option.some.inj (ht.symm.trans ht')
    cases hnone.symm.trans hstate

theorem InPhase.eq_battle (h : InPhase srv c k)
    (ht : srv.sessionService_.findByConnection c = some t) {state : BattleState}
    (hstate : srv.battleService_.find t.roomId_ = some state) :
    k = .battle (state.stateFor t.userId_) ∧ t.userId_ ∈ state.users := by
  cases h with
  | out hnone => cases ht.symm.trans hnone
  | idle ht' h0 =>
    obtain rfl := Option.some.inj (ht.symm.trans ht')
    exact absurd h0 (battle_ne_zero hstate)
  | queued ht' h0 =>
    obtain rfl := Option.some.inj (ht.symm.trans ht')
    exact absurd h0 (battle_ne_zero hstate)
  | room ht' _ _ _ hnone =>
    obtain rfl := Option.some.inj (ht.symm.trans ht')
    cases hnone.symm.trans hstate
  | battle ht' hstate' hu =>
    obtain rfl := Option.some.inj (ht.symm.trans ht')
    obtain rfl := Option.some.inj (hstate.symm.trans hstate')
    exact ⟨rfl, hu⟩

end Inversion

/-! ### Events that are about others -/

/-- The connection and its user are left alone. -/
structure Untouched (c : UInt64) (srv srv' : GameServer) : Prop where
  session : srv'.sessionService_.findByConnection c = srv.sessionService_.findByConnection c
  queue : ∀ {t}, srv.sessionService_.findByConnection c = some t →
    srv'.matchQueue_.find t.userId_ = srv.matchQueue_.find t.userId_
  room : ∀ {t}, srv.sessionService_.findByConnection c = some t → t.roomId_ ≠ 0 →
    srv'.roomService_.find t.roomId_ = srv.roomService_.find t.roomId_
  battle : ∀ {t}, srv.sessionService_.findByConnection c = some t →
    srv'.battleService_.find t.roomId_ = srv.battleService_.find t.roomId_

theorem Untouched.trans (h : Untouched c srv srv') (h' : Untouched c srv' srv'') :
    Untouched c srv srv'' := by
  have ht' : ∀ {t}, srv.sessionService_.findByConnection c = some t →
      srv'.sessionService_.findByConnection c = some t := fun ht => h.session.trans ht
  exact ⟨h'.session.trans h.session, fun ht => (h'.queue (ht' ht)).trans (h.queue ht),
    fun ht h0 => (h'.room (ht' ht) h0).trans (h.room ht h0),
    fun ht => (h'.battle (ht' ht)).trans (h.battle ht)⟩

theorem InPhase.untouched (h : InPhase srv c k) (hu : Untouched c srv srv') :
    InPhase srv' c k := by
  cases h with
  | out hnone => exact .out (hu.session.trans hnone)
  | idle ht h0 hq => exact .idle (hu.session.trans ht) h0 ((hu.queue ht).trans hq)
  | queued ht h0 hq => exact .queued (hu.session.trans ht) h0 ((hu.queue ht).trans hq)
  | room ht h0 hroom hmem hnone hchosen =>
    exact .room (hu.session.trans ht) h0 ((hu.room ht h0).trans hroom) hmem
      ((hu.battle ht).trans hnone) hchosen
  | battle ht hstate hmem =>
    exact .battle (hu.session.trans ht) ((hu.battle ht).trans hstate) hmem

/-- Another connection is closed. -/
theorem untouched_logout {c' : UInt64} (hne : c ≠ c') : Untouched c srv (srv.logout c') :=
  ⟨(findByConnection_remove c' c).trans (if_neg hne), fun _ => rfl, fun _ _ => rfl, fun _ => rfl⟩

theorem untouched_dequeue {c' : UInt64} (hne : c ≠ c') : Untouched c srv (srv.dequeue c') := by
  refine ⟨by rw [sessionService_dequeue], fun {t} ht => ?_, fun _ _ => by rw [roomService_dequeue],
    fun _ => by rw [battleService_dequeue]⟩
  rw [find_dequeue, if_neg]
  rintro ⟨t', ht', hu⟩
  exact hne (connection_unique ht ht' hu.symm)

/-- Another user is queued or taken off the queue. -/
theorem untouched_queue {c' : UInt64} {t' : PlayerSession} {q : MatchQueue}
    {ticket : Option MatchTicket} (hne : c ≠ c')
    (ht' : srv.sessionService_.findByConnection c' = some t')
    (hq : ∀ u, q.find u = if u = t'.userId_ then ticket else srv.matchQueue_.find u) :
    Untouched c srv { srv with matchQueue_ := q } := by
  refine ⟨rfl, fun {t} ht => ?_, fun _ _ => rfl, fun _ => rfl⟩
  exact (hq t.userId_).trans (if_neg fun hu => hne (connection_unique ht ht' hu))

/-- Another room ends. -/
theorem RoomEnded.untouched {r : UInt64} {f : PlayerSession → PlayerSession}
    (h : RoomEnded srv r f srv')
    (hout : ∀ t, srv.sessionService_.findByConnection c = some t → t.roomId_ ≠ r) :
    Untouched c srv srv' := by
  refine ⟨?_, fun _ => by rw [h.queue], fun ht _ => by rw [h.rooms, if_neg (hout _ ht)],
    fun ht => by rw [h.battles, if_neg (hout _ ht)]⟩
  rw [h.sessions.find]
  cases ht : srv.sessionService_.findByConnection c with
  | none => rfl
  | some t => rw [Option.map_some, h.outside ht (hout t ht)]

/-- The room of the user ends. -/
theorem RoomEnded.idle {r : UInt64} {f : PlayerSession → PlayerSession} (h : RoomEnded srv r f srv')
    {t : PlayerSession} (ht : srv.sessionService_.findByConnection c = some t)
    (hr : (f t).roomId_ = 0) (hq : srv.matchQueue_.find t.userId_ = none) : InPhase srv' c .idle := by
  refine .idle (t := f t) (by rw [h.sessions.find, ht]; rfl) hr ?_
  rw [h.sessions.userId_eq, h.queue, hq]

/-- Whoever is in a room is not queued. -/
theorem Coherent.not_queued (h : Coherent srv) {t : PlayerSession}
    (ht : srv.sessionService_.findByConnection c = some t) (h0 : t.roomId_ ≠ 0) :
    srv.matchQueue_.find t.userId_ = none := by
  cases hq : srv.matchQueue_.find t.userId_ with
  | none => rfl
  | some ticket =>
    obtain ⟨s, hs, hs0, -⟩ := h.queued hq
    obtain rfl := Option.some.inj ((sessionOf_of_session ht).symm.trans hs)
    exact absurd hs0 h0

/-! ### What a client is told -/

/-- The client is moved from the phase `k` to another one, and hears of it. -/
def Moves (c : UInt64) (k : Phase) (o : List RoomRequest) (next : GameServer × List Effect)
    (o' : List RoomRequest) : Prop :=
  ∃ ms k', dialogue.Lag k o ms k' o' ∧ framesTo c next.2 = ms.map ServerMessage.frame ∧
    (∀ m ∈ ms, m.Fits) ∧ InPhase next.1 c k'

theorem Moves.stay {next : GameServer × List Effect} {o : List RoomRequest}
    (h : InPhase next.1 c k) (hframes : framesTo c next.2 = []) : Moves c k o next o :=
  ⟨[], k, .current k o, hframes, nofun, h⟩

theorem Moves.told {next : GameServer × List Effect} {o : List RoomRequest} {m : ServerMessage}
    {k' : Phase} (hm : News k m k') (hframes : framesTo c next.2 = [m.frame]) (hfits : m.Fits)
    (h : InPhase next.1 c k') : Moves c k o next o :=
  ⟨[m], k', .news hm (.current _ _), hframes, by simpa using hfits, h⟩

theorem Moves.answered {next : GameServer × List Effect} {q : RoomRequest} {o : List RoomRequest}
    {m : ServerMessage} {k' : Phase} (hq : Answers k q (some m) k')
    (hframes : framesTo c next.2 = [m.frame]) (hfits : m.Fits) (h : InPhase next.1 c k') :
    Moves c k (q :: o) next o :=
  ⟨[m], k', .answered hq (.current _ _), hframes, by simpa using hfits, h⟩

end GameServer

end ArenaGame
