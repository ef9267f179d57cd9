import ArenaGame.Common.Messages
import ArenaGame.Server.Equiv.Coherence

/-!
# What the handlers do

For every handler there is a type of its outcomes: the next state and the effects, with what the
handler has found out on the way.  The handlers are followed through once, here; everything else
about the server is derived from the outcomes.

A frame that the server sends to a player is written `srv.tell u m`.
-/

namespace ArenaGame

open GameProtocol GameMessages

/-! ### Notifications from the point of view of one player -/

/-- The start of the battle as one member of the room sees it. -/
def Room.startFor (room : Room) (u : UInt32) : BattleStartNotification :=
  if u = room.firstUserId_ then
    { roomId_ := room.roomId_, playerHero_ := room.firstHero_, opponentHero_ := room.secondHero_ }
  else
    { roomId_ := room.roomId_, playerHero_ := room.secondHero_, opponentHero_ := room.firstHero_ }

/-- The battle as one player sees it. -/
def BattleState.stateFor (state : BattleState) (u : UInt32) : BattleStateNotification :=
  if u = state.firstUserId_ then
    { roomId_ := state.roomId_, playerHealth_ := state.firstHealth_,
      opponentHealth_ := state.secondHealth_, playerTurn_ := state.activeUserId_ = u }
  else
    { roomId_ := state.roomId_, playerHealth_ := state.secondHealth_,
      opponentHealth_ := state.firstHealth_, playerTurn_ := state.activeUserId_ = u }

theorem Room.startFor_first (room : Room) : room.startFor room.firstUserId_ =
    { roomId_ := room.roomId_, playerHero_ := room.firstHero_,
      opponentHero_ := room.secondHero_ } := if_pos rfl

theorem Room.startFor_second {room : Room} (h : room.firstUserId_ ≠ room.secondUserId_) :
    room.startFor room.secondUserId_ =
      { roomId_ := room.roomId_, playerHero_ := room.secondHero_,
        opponentHero_ := room.firstHero_ } := if_neg h.symm

theorem Room.startFor_eq {room : Room} (hm : room.Members) {u v : UInt32} (hu : u ∈ room.users)
    (hv : v ∈ room.users) (hne : u ≠ v) : room.startFor u =
      { roomId_ := room.roomId_, playerHero_ := room.heroOf u,
        opponentHero_ := room.heroOf v } := by
  have hsecond := hm.first_ne_second
  rcases mem_users.mp hu with rfl | rfl <;> rcases mem_users.mp hv with rfl | rfl
  · exact absurd rfl hne
  · simp only [startFor, heroOf, if_true, if_neg hsecond.symm]
  · simp only [startFor, heroOf, if_true, if_neg hsecond.symm]
  · exact absurd rfl hne

theorem BattleState.stateFor_first (state : BattleState) : state.stateFor state.firstUserId_ =
    { roomId_ := state.roomId_, playerHealth_ := state.firstHealth_,
      opponentHealth_ := state.secondHealth_,
      playerTurn_ := state.activeUserId_ = state.firstUserId_ } := if_pos rfl

theorem BattleState.stateFor_second {state : BattleState}
    (h : state.firstUserId_ ≠ state.secondUserId_) : state.stateFor state.secondUserId_ =
      { roomId_ := state.roomId_, playerHealth_ := state.secondHealth_,
        opponentHealth_ := state.firstHealth_,
        playerTurn_ := state.activeUserId_ = state.secondUserId_ } := if_neg h.symm

theorem BattleState.stateFor_initialState (room : Room) (u : UInt32) :
    (BattleService.initialState room).stateFor u =
      { roomId_ := room.roomId_, playerHealth_ := 100, opponentHealth_ := 100,
        playerTurn_ := u = room.firstUserId_ } := by
  unfold stateFor BattleService.initialState
  split <;> simp only [eq_comm]

/-- The result as one player sees it. -/
def BattleState.resultFor (state : BattleState) (u : UInt32) (elo : UInt32) :
    BattleResultNotification :=
  { roomId_ := state.roomId_, won_ := state.winnerUserId_ = u, playerElo_ := elo }

namespace GameServer

variable {srv : GameServer}

/-! ### Sending -/

theorem framesTo_append (c : UInt64) (o o' : List Effect) :
    framesTo c (o ++ o') = framesTo c o ++ framesTo c o' := by
  induction o with
  | nil => rfl
  | cons effect o ih =>
    cases effect with
    | send c' frame =>
      simp only [List.cons_append, framesTo, ih]
      split <;> rfl
    | _ => exact ih

@[simp] theorem framesTo_nil (c : UInt64) : framesTo c [] = [] := rfl

@[simp] theorem framesTo_send (c c' : UInt64) (frame : Frame) (o : List Effect) :
    framesTo c (.send c' frame :: o) =
      if c' = c then frame :: framesTo c o else framesTo c o := rfl

@[simp] theorem framesTo_startBattle (c : UInt64) (room : Room) (o : List Effect) :
    framesTo c (.startBattle room :: o) = framesTo c o := rfl

/-- One message to a player who is online. -/
def tell (srv : GameServer) (u : UInt32) (m : ServerMessage) : Effect :=
  .send (srv.sessionService_.findConnectionByUserId u) m.frame

variable (srv) in
theorem encodeAndSend_eq (m : ServerMessage) (hm : m.Fits) {c : UInt64}
    (hc : c ∈ srv.connections_) :
    srv.encodeAndSend c m.msgType m.type m.value = [.send c m.frame] := by
  have hlen := length_bytes_le hm
  simp only [encodeAndSend, encoded_of_fits hm, sendToConnection]
  rw [if_neg (not_not.mpr hc), if_neg (by omega)]
  rfl

variable (srv) in
theorem encodeAndSendOrShutdown_eq (m : ServerMessage) (hm : m.Fits) {c : UInt64}
    (hc : c ∈ srv.connections_) :
    srv.encodeAndSendOrShutdown c m.msgType m.type m.value = [.send c m.frame] := by
  have hsend := encodeAndSend_eq srv m hm hc
  simp only [encodeAndSend, encodeAndSendOrShutdown, encoded_of_fits hm] at hsend ⊢
  exact hsend

/-- Both players are told. -/
def tellBoth (srv : GameServer) (u v : UInt32) (m : UInt32 → ServerMessage) : List Effect :=
  [srv.tell u (m u), srv.tell v (m v)]

section TellBoth

open SessionService

variable {c : UInt64}

/-- A player in a pair is told his part. -/
theorem framesTo_tellBoth_of_mem {u v w : UInt32} {m : UInt32 → ServerMessage}
    {t : PlayerSession} (ht : srv.sessionService_.findByConnection c = some t) (huv : u ≠ v)
    (hu : ∃ s, srv.sessionService_.sessionOf u = some s)
    (hv : ∃ s, srv.sessionService_.sessionOf v = some s) (hw : t.userId_ = w)
    (hmem : w = u ∨ w = v) : framesTo c (srv.tellBoth u v m) = [(m w).frame] := by
  obtain ⟨s, hs⟩ := hu
  obtain ⟨s', hs'⟩ := hv
  have hc := findConnectionByUserId_of_session ht
  rw [hw] at hc
  have hne := connection_ne hs hs' huv
  rcases hmem with rfl | rfl
  · rw [hc] at hne
    simp only [tellBoth, tell, framesTo_send, hc, if_true, if_neg hne.symm, framesTo_nil]
  · rw [hc] at hne
    simp only [tellBoth, tell, framesTo_send, hc, if_true, if_neg hne, framesTo_nil]

/-- Other clients are told something. -/
theorem framesTo_tellBoth_of_ne {u v : UInt32} {m : UInt32 → ServerMessage}
    (hu : ∃ s, srv.sessionService_.sessionOf u = some s)
    (hv : ∃ s, srv.sessionService_.sessionOf v = some s)
    (hne : ∀ t, srv.sessionService_.findByConnection c = some t → t.userId_ ≠ u ∧ t.userId_ ≠ v) :
    framesTo c (srv.tellBoth u v m) = [] := by
  have hother : ∀ {w}, (∃ s, srv.sessionService_.sessionOf w = some s) →
      (∀ t, srv.sessionService_.findByConnection c = some t → t.userId_ ≠ w) →
      srv.sessionService_.findConnectionByUserId w ≠ c := by
    rintro w ⟨s, hs⟩ hw rfl
    exact hw s hs (sessionOf_userId hs)
  simp only [tellBoth, tell, framesTo_send, if_neg (hother hu fun t ht => (hne t ht).1),
    if_neg (hother hv fun t ht => (hne t ht).2), framesTo_nil]

/-- The two members of a room are told something, seen by one client. -/
theorem Coherent.framesTo_members (h : Coherent srv) {r : UInt64} (h0 : r ≠ 0) {room : Room}
    (hroom : srv.roomService_.find r = some room) {u v : UInt32} (huv : [u, v] = room.users)
    (m : UInt32 → ServerMessage) :
    (∀ t, srv.sessionService_.findByConnection c = some t → t.userId_ ∈ room.users →
      framesTo c (srv.tellBoth u v m) = [(m t.userId_).frame]) ∧
    ((∀ t, srv.sessionService_.findByConnection c = some t → t.userId_ ∉ room.users) →
      framesTo c (srv.tellBoth u v m) = []) := by
  have honline : ∀ w ∈ room.users, ∃ s, srv.sessionService_.sessionOf w = some s := fun w hw =>
    (h.inRoom h0 hroom w hw).imp fun _ hs => hs.1
  simp only [Room.users, List.cons.injEq, and_true] at huv
  obtain ⟨rfl, rfl⟩ := huv
  have hfirst := honline _ (Room.mem_users.mpr (Or.inl rfl))
  have hsecond := honline _ (Room.mem_users.mpr (Or.inr rfl))
  constructor
  · intro t ht hmem
    exact framesTo_tellBoth_of_mem ht (RoomService.find_members hroom).first_ne_second hfirst
      hsecond rfl (Room.mem_users.mp hmem)
  · intro hout
    refine framesTo_tellBoth_of_ne hfirst hsecond fun t ht => ?_
    have hmem := hout t ht
    rw [Room.mem_users] at hmem
    exact not_or.mp hmem

end TellBoth

variable (srv) in
theorem sendBattleStartNotification_eq {room : Room} (hne : room.firstUserId_ ≠ room.secondUserId_)
    (h₁ : srv.sessionService_.findConnectionByUserId room.firstUserId_ ∈ srv.connections_)
    (h₂ : srv.sessionService_.findConnectionByUserId room.secondUserId_ ∈ srv.connections_) :
    srv.sendBattleStartNotification room =
      srv.tellBoth room.firstUserId_ room.secondUserId_ fun u =>
        .battleStartNtf (room.startFor u) := by
  simp only [sendBattleStartNotification, tellBoth, tell, Room.startFor_first,
    Room.startFor_second hne]
  exact congrArg₂ (· ++ ·)
    (encodeAndSend_eq srv (.battleStartNtf _) (ServerMessage.fits_battleStartNtf _) h₁)
    (encodeAndSend_eq srv (.battleStartNtf _) (ServerMessage.fits_battleStartNtf _) h₂)

variable (srv) in
theorem sendBattleStateNotification_eq (state : BattleState)
    (hne : state.firstUserId_ ≠ state.secondUserId_)
    (h₁ : srv.sessionService_.findConnectionByUserId state.firstUserId_ ∈ srv.connections_)
    (h₂ : srv.sessionService_.findConnectionByUserId state.secondUserId_ ∈ srv.connections_) :
    srv.sendBattleStateNotification state =
      srv.tellBoth state.firstUserId_ state.secondUserId_ fun u =>
        .battleStateNtf (state.stateFor u) := by
  simp only [sendBattleStateNotification, tellBoth, tell, BattleState.stateFor_first,
    BattleState.stateFor_second hne]
  exact congrArg₂ (· ++ ·)
    (encodeAndSend_eq srv (.battleStateNtf _) (ServerMessage.fits_battleStateNtf _) h₁)
    (encodeAndSend_eq srv (.battleStateNtf _) (ServerMessage.fits_battleStateNtf _) h₂)

/-! ### The end of a battle -/

/-- A session after the end of a battle between `u` and `v` that leaves them at `e` and `f`. -/
def settled (u e v f : UInt32) (t : PlayerSession) : PlayerSession :=
  if t.userId_ = u then { t with elo_ := e, roomId_ := 0 }
  else if t.userId_ = v then { t with elo_ := f, roomId_ := 0 }
  else t

theorem settled_userId (u e v f : UInt32) (t : PlayerSession) :
    (settled u e v f t).userId_ = t.userId_ := by
  unfold settled
  split_ifs <;> rfl

theorem settled_userName (u e v f : UInt32) (t : PlayerSession) :
    (settled u e v f t).userName_ = t.userName_ := by
  unfold settled
  split_ifs <;> rfl

/-- The outcome of `finishBattle`: `ok` says whether the new ELO was saved, and `e₁` and `e₂` are
what the two players end up with. -/
structure Finished (srv : GameServer) (io : SaveIO) (state : BattleState) (t₁ t₂ : PlayerSession)
    (ok : Bool) (e₁ e₂ : UInt32) (srv' : GameServer) : Prop where
  saved : srv.accountRepository_.updateEloPair io state.firstUserId_
      (BattleService.calculateElo state t₁.elo_ t₂.elo_).firstElo_ state.secondUserId_
      (BattleService.calculateElo state t₁.elo_ t₂.elo_).secondElo_ =
    (ok, srv'.accountRepository_)
  first : e₁ =
    if ok then (BattleService.calculateElo state t₁.elo_ t₂.elo_).firstElo_ else t₁.elo_
  second : e₂ =
    if ok then (BattleService.calculateElo state t₁.elo_ t₂.elo_).secondElo_ else t₂.elo_
  sessions : SessionService.Mapped (settled state.firstUserId_ e₁ state.secondUserId_ e₂)
    srv.sessionService_ srv'.sessionService_
  connections : srv'.connections_ = srv.connections_
  queue : srv'.matchQueue_ = srv.matchQueue_
  rooms : srv'.roomService_ = srv.roomService_.remove state.roomId_
  battles : srv'.battleService_ = srv.battleService_.remove state.roomId_

open SessionService in
theorem settleElo_spec (io : SaveIO) {state : BattleState} {t₁ t₂ : PlayerSession}
    (h₁ : srv.sessionService_.sessionOf state.firstUserId_ = some t₁)
    (h₂ : srv.sessionService_.sessionOf state.secondUserId_ = some t₂)
    (hne : state.firstUserId_ ≠ state.secondUserId_) :
    let eloResult := BattleService.calculateElo state t₁.elo_ t₂.elo_
    let updated := srv.accountRepository_.updateEloPair io state.firstUserId_
      eloResult.firstElo_ state.secondUserId_ eloResult.secondElo_
    let e₁ := if updated.1 then eloResult.firstElo_ else t₁.elo_
    let e₂ := if updated.1 then eloResult.secondElo_ else t₂.elo_
    srv.settleElo io state = { srv with
      accountRepository_ := updated.2
      sessionService_ := (srv.settleElo io state).sessionService_ } ∧
      Mapped (withElo state.secondUserId_ e₂ ∘ withElo state.firstUserId_ e₁) srv.sessionService_
        (srv.settleElo io state).sessionService_ := by
  intro eloResult updated e₁ e₂
  have hu₁ := sessionOf_userId h₁
  have hu₂ := sessionOf_userId h₂
  have hsettle : srv.settleElo io state =
      if updated.1 then
        { srv with
          accountRepository_ := updated.2
          sessionService_ :=
            (srv.sessionService_.setElo
              (srv.sessionService_.findConnectionByUserId state.firstUserId_)
              eloResult.firstElo_).setElo
                (srv.sessionService_.findConnectionByUserId state.secondUserId_)
                eloResult.secondElo_ }
      else { srv with accountRepository_ := updated.2 } := by
    simp only [sessionOf] at h₁ h₂
    simp only [settleElo, h₁, h₂, hu₁, hu₂]
    rfl
  rw [hsettle]
  cases hok : updated.1 with
  | true =>
    refine ⟨rfl, ?_⟩
    have hfirst := mapped_setElo h₁ eloResult.firstElo_
    have h₂' := hfirst.sessionOf state.secondUserId_
    rw [h₂, Option.map_some] at h₂'
    have hsecond := mapped_setElo h₂' eloResult.secondElo_
    rw [hfirst.connection h₂] at hsecond
    simp only [e₁, e₂, hok, if_true]
    exact hfirst.comp hsecond
  | false =>
    refine ⟨rfl, (Mapped.refl _).congr (fun t => ?_) fun c t ht => ?_⟩
    · simp only [Function.comp, withElo]
      split_ifs <;> rfl
    · -- each of the two has its own ELO written over
      simp only [e₁, e₂, hok, Bool.false_eq_true, if_false, id, Function.comp, withElo]
      have hone : ∀ {u s}, srv.sessionService_.sessionOf u = some s → t.userId_ = u → t = s := by
        rintro u s hs rfl
        exact Option.some.inj ((sessionOf_of_session ht).symm.trans hs)
      split_ifs with ha hb hb
      · exact absurd (ha.symm.trans hb) hne
      · rw [hone h₁ ha]
      · rw [hone h₂ hb]
      · rfl

open SessionService in
variable (srv) in
theorem finishBattle_spec (io : SaveIO) {state : BattleState} {t₁ t₂ : PlayerSession}
    (h₁ : srv.sessionService_.sessionOf state.firstUserId_ = some t₁)
    (h₂ : srv.sessionService_.sessionOf state.secondUserId_ = some t₂)
    (hne : state.firstUserId_ ≠ state.secondUserId_)
    (hc₁ : srv.sessionService_.findConnectionByUserId state.firstUserId_ ∈ srv.connections_)
    (hc₂ : srv.sessionService_.findConnectionByUserId state.secondUserId_ ∈ srv.connections_) :
    ∃ ok e₁ e₂, Finished srv io state t₁ t₂ ok e₁ e₂ (srv.finishBattle io state).1 ∧
      (srv.finishBattle io state).2 =
        [srv.tell state.firstUserId_
            (.battleResultNtf (state.resultFor state.firstUserId_ e₁)),
          srv.tell state.secondUserId_
            (.battleResultNtf (state.resultFor state.secondUserId_ e₂))] := by
  obtain ⟨hsettle, hmapped⟩ := settleElo_spec io h₁ h₂ hne
  set eloResult := BattleService.calculateElo state t₁.elo_ t₂.elo_
  set updated := srv.accountRepository_.updateEloPair io state.firstUserId_
    eloResult.firstElo_ state.secondUserId_ eloResult.secondElo_
  set e₁ := if updated.1 then eloResult.firstElo_ else t₁.elo_
  set e₂ := if updated.1 then eloResult.secondElo_ else t₂.elo_
  have hu₁ := sessionOf_userId h₁
  have hu₂ := sessionOf_userId h₂
  have hcleared := hmapped.comp
    ((mapped_markInRoom (s := (srv.settleElo io state).sessionService_) state.firstUserId_ 0).comp
      (mapped_markInRoom state.secondUserId_ 0))
  refine ⟨updated.1, e₁, e₂, ⟨?_, rfl, rfl, ?_, ?_, ?_, ?_, ?_⟩, ?_⟩
  · show updated = (updated.1, (srv.settleElo io state).accountRepository_)
    rw [hsettle]
  · refine hcleared.congr (settled_userId _ _ _ _) fun c t _ => ?_
    simp only [Function.comp, withElo, inRoom, settled]
    by_cases ha : t.userId_ = state.firstUserId_
    · have hb : t.userId_ ≠ state.secondUserId_ := by rw [ha]; exact hne
      simp only [if_pos ha, if_neg hb]
    · by_cases hb : t.userId_ = state.secondUserId_
      · simp only [if_neg ha, if_pos hb]
      · simp only [if_neg ha, if_neg hb]
  · show (srv.settleElo io state).connections_ = _
    rw [hsettle]
  · show (srv.settleElo io state).matchQueue_ = _
    rw [hsettle]
  · show (srv.settleElo io state).roomService_.remove _ = _
    rw [hsettle]
  · show (srv.settleElo io state).battleService_.remove _ = _
    rw [hsettle]
  · -- the notifications are sent from the settled sessions
    have hsend : ∀ {u t}, srv.sessionService_.sessionOf u = some t →
        srv.sessionService_.findConnectionByUserId u ∈ srv.connections_ →
        ∀ e, (withElo state.secondUserId_ e₂ (withElo state.firstUserId_ e₁ t)).elo_ = e →
        (srv.settleElo io state).sendBattleResult state
          ((srv.settleElo io state).sessionService_.findConnectionByUserId u) u =
            [srv.tell u (.battleResultNtf (state.resultFor u e))] := by
      intro u t ht hopen e he
      have hsession := hmapped.sessionOf u
      rw [ht, Option.map_some, sessionOf] at hsession
      simp only [sendBattleResult, hsession]
      rw [hmapped.connection ht]
      have hopen' : srv.sessionService_.findConnectionByUserId u ∈
          (srv.settleElo io state).connections_ := by
        rw [hsettle]
        exact hopen
      have heq := encodeAndSend_eq _ (.battleResultNtf (state.resultFor u e))
        (ServerMessage.fits_battleResultNtf _) hopen'
      rw [← he] at heq ⊢
      exact heq
    show (srv.settleElo io state).sendBattleResultNotification state = _
    simp only [sendBattleResultNotification]
    rw [hsend h₁ hc₁ e₁ ?_, hsend h₂ hc₂ e₂ ?_]
    · rfl
    · simp only [withElo, hu₂, if_neg hne.symm, if_true]
    · simp only [withElo, hu₁, if_true, if_neg hne]

end GameServer

end ArenaGame
