import ArenaGame.Server.Equiv.Wraparound

/-!
# Consistency of the services

`Coherent` leaves out what a session says about a room, because that is true only as long as the
room counter has not wrapped around: after 2^64 rooms a player may be put into a room that belongs
to others, or into none at all.  Before that, `Consistent` holds after every event of every run.
-/

namespace ArenaGame.GameServer

open SessionService MatchmakingService

variable {range : MatchTicket → MatchTimePoint → ℚ} {srv : GameServer}

/-- Whoever is in a room is a member of it. -/
def Housed (ss : SessionService) (rs : RoomService) : Prop :=
  ∀ u t, ss.sessionOf u = some t → t.roomId_ ≠ 0 →
    ∃ room, rs.find t.roomId_ = some room ∧ u ∈ room.users

/-- The number of rooms that were created for a pair. -/
def roomsCreated (effects : List Effect) : ℕ :=
  effects.countP fun
    | .matchFound _ => true
    | _ => false

theorem roomsCreated_append (o o' : List Effect) :
    roomsCreated (o ++ o') = roomsCreated o + roomsCreated o' := List.countP_append ..

theorem roomsCreated_events (events : List MatchFoundEvent) :
    roomsCreated (events.flatMap fun event => .matchFound event :: srv.tellFound event) =
      events.length := by
  induction events with
  | nil => rfl
  | cons event events ih =>
    have hone : roomsCreated (.matchFound event :: srv.tellFound event) = 1 := by
      unfold tellFound
      split <;> rfl
    rw [List.flatMap_cons, roomsCreated_append, hone, ih, List.length_cons, Nat.add_comm]

/-- Sessions and rooms fit together after `n` rooms were created. -/
structure Lodged (n : ℕ) (srv : GameServer) : Prop where
  housed : Housed srv.sessionService_ srv.roomService_
  numbered : RoomService.Numbered n srv.roomService_

/-- What holds after the effects `o` of a run in which few rooms were created. -/
structure Accounted (o : List Effect) (srv : GameServer) : Prop where
  coherent : Coherent srv
  lodged : Lodged (roomsCreated o) srv

/-! ### Who is in which room -/

/-- The same sessions up to rooms that are left, and the same members of rooms. -/
theorem Housed.of_rooms {ss : SessionService} {rs rs' : RoomService} (h : Housed ss rs)
    (hrs : ∀ {r room}, rs.find r = some room →
      ∃ room', rs'.find r = some room' ∧ room'.users = room.users) : Housed ss rs' := by
  intro u t ht h0
  obtain ⟨room, hroom, hu⟩ := h u t ht h0
  obtain ⟨room', hroom', husers⟩ := hrs hroom
  exact ⟨room', hroom', husers ▸ hu⟩

theorem Housed.bind {ss : SessionService} {rs : RoomService} (h : Housed ss rs) {c : UInt64}
    {t : PlayerSession} (hbound : (ss.bind c t).1 = true) (h0 : t.roomId_ = 0) :
    Housed (ss.bind c t).2 rs := by
  intro u s hs hne
  rw [sessionOf_bind hbound] at hs
  split at hs
  · obtain rfl := Option.some.inj hs
    exact absurd h0 hne
  · exact h u s hs hne

theorem Housed.remove {ss : SessionService} {rs : RoomService} {c : UInt64}
    (h : ∀ u t, (∀ s, ss.findByConnection c = some s → s.userId_ ≠ u) →
      ss.sessionOf u = some t → t.roomId_ ≠ 0 →
      ∃ room, rs.find t.roomId_ = some room ∧ u ∈ room.users) : Housed (ss.remove c) rs := by
  intro u t ht h0
  cases hs : ss.findByConnection c with
  | none =>
    rw [remove_of_none hs] at ht
    exact h u t (fun s hs' => by cases hs'.symm.trans hs) ht h0
  | some s =>
    rw [sessionOf_remove hs] at ht
    split at ht
    · cases ht
    · rename_i hne
      refine h u t (fun s' hs' hu => hne ?_) ht h0
      obtain rfl : s = s' := Option.some.inj (hs.symm.trans hs')
      exact hu.symm

theorem Placed.housed {ss ss' : SessionService} {rs rs' : RoomService} {pair : MatchPair}
    {event : Option MatchFoundEvent} (h : Housed ss rs) (hplaced : Placed ss rs pair event ss' rs') :
    Housed ss' rs' := by
  cases hplaced with
  | dropped => exact h
  | @found roomId _ _ hfound =>
    have hnew := hfound.rooms roomId
    rw [if_pos rfl] at hnew
    intro u t ht h0
    rw [hfound.sessions] at ht
    split at ht
    · rename_i hu
      obtain ⟨s, -, rfl⟩ := Option.map_eq_some_iff.mp ht
      exact ⟨_, hnew, hu⟩
    · obtain ⟨room, hroom, hmem⟩ := h u t ht h0
      refine ⟨room, ?_, hmem⟩
      rw [hfound.rooms, if_neg, hroom]
      rintro hr
      rw [hr, hfound.fresh] at hroom
      cases hroom

theorem Processed.housed {ss ss' : SessionService} {rs rs' : RoomService} {outcomes : Outcomes}
    (h : Housed ss rs) (hprocessed : Processed ss rs outcomes ss' rs') : Housed ss' rs' := by
  induction hprocessed with
  | nil => exact h
  | cons hplaced _ ih => exact ih (Placed.housed h hplaced)

/-! ### Every event -/

section Outcomes

variable {n : ℕ} {c : UInt64} {next : GameServer × List Effect}

theorem Lodged.numbered_of_find (h : Lodged n srv) {rs : RoomService}
    (hnext : rs.nextRoomId_ = srv.roomService_.nextRoomId_)
    (hfind : ∀ r, srv.roomService_.find r = none → rs.find r = none) :
    RoomService.Numbered n rs := by
  refine h.numbered.of_find hnext fun {r room} hr => ?_
  cases hroom : srv.roomService_.find r with
  | some room' => exact ⟨room', rfl⟩
  | none => cases hr.symm.trans (hfind r hroom)

/-- The room `r` has ended for all its members, but those who are about to leave keep it in their
sessions. -/
theorem Lodged.endRoom (h : Lodged n srv) {srv' : GameServer} {r : UInt64}
    {f : PlayerSession → PlayerSession} (hend : RoomEnded srv r f srv') (leaving : UInt32 → Prop)
    (hcleared : ∀ {u t}, srv.sessionService_.sessionOf u = some t → t.roomId_ = r →
      ¬ leaving u → (f t).roomId_ = 0) :
    (∀ u t, ¬ leaving u → srv'.sessionService_.sessionOf u = some t → t.roomId_ ≠ 0 →
      ∃ room, srv'.roomService_.find t.roomId_ = some room ∧ u ∈ room.users) ∧
      RoomService.Numbered n srv'.roomService_ := by
  refine ⟨fun u t hu ht h0 => ?_, h.numbered_of_find hend.next fun r' hr' => ?_⟩
  · rw [hend.sessions.sessionOf, Option.map_eq_some_iff] at ht
    obtain ⟨s, hs, rfl⟩ := ht
    by_cases hr : s.roomId_ = r
    · exact absurd (hcleared hs hr hu) h0
    · obtain ⟨c, hc, -⟩ := sessionOf_eq_some_iff.mp hs
      rw [hend.outside hc hr] at h0 ⊢
      obtain ⟨room, hroom, hmem⟩ := h.housed u s hs h0
      exact ⟨room, by rw [hend.rooms, if_neg hr, hroom], hmem⟩
  · rw [hend.rooms, hr', ite_self]

theorem Lodged.leave (h : Lodged n srv) {t : PlayerSession}
    (ht : srv.sessionService_.findByConnection c = some t) {f : PlayerSession → PlayerSession}
    {srv₁ : GameServer} (hend : RoomEnded (srv.dequeue c) t.roomId_ f srv₁)
    (hcleared : ∀ {u s}, srv.sessionService_.sessionOf u = some s → s.roomId_ = t.roomId_ →
      u ≠ t.userId_ → (f s).roomId_ = 0) : Lodged n (srv₁.logout c) := by
  have hdequeue : Lodged n (srv.dequeue c) :=
    ⟨by simpa using h.housed, by simpa using h.numbered⟩
  obtain ⟨hhoused, hnumbered⟩ := hdequeue.endRoom hend (· = t.userId_)
    fun {u s} hs => by
      rw [sessionService_dequeue] at hs
      exact hcleared hs
  refine ⟨Housed.remove fun u s hu hs h0 => ?_, hnumbered⟩
  refine hhoused u s (fun hut => ?_) hs h0
  have hgone := hend.sessions.find c
  rw [sessionService_dequeue, ht] at hgone
  exact hu _ hgone (by rw [hend.sessions.userId_eq, hut])

/-- Both players of a battle leave its room. -/
theorem settled_roomId {state : BattleState} {e₁ e₂ u : UInt32} {t : PlayerSession}
    (ht : srv.sessionService_.sessionOf u = some t) (hu : u ∈ state.users) :
    (settled state.firstUserId_ e₁ state.secondUserId_ e₂ t).roomId_ = 0 := by
  have huser := sessionOf_userId ht
  unfold settled
  rcases BattleState.mem_users.mp hu with h | h
  · rw [if_pos (huser.trans h)]
  · split
    · rfl
    · rw [if_pos (huser.trans h)]

/-- Whoever is in a room with a battle fights in it. -/
theorem Lodged.mem_users (h : Lodged n srv) (hco : Coherent srv) {r : UInt64} {state : BattleState}
    (hstate : srv.battleService_.find r = some state) {u : UInt32} {t : PlayerSession}
    (ht : srv.sessionService_.sessionOf u = some t) (hr : t.roomId_ = r) : u ∈ state.users := by
  obtain ⟨room, hroom, hmem⟩ := h.housed u t ht (by rw [hr]; exact battle_ne_zero hstate)
  obtain ⟨room', -, -, hroom', hhosts, -⟩ := hco.battle hstate
  rw [hr, hroom'] at hroom
  obtain rfl := Option.some.inj hroom
  exact (BattleState.mem_users_of_hosts hhosts).mpr hmem

theorem eq_opponentOf {room : Room} {u v : UInt32} (hu : u ∈ room.users) (hv : v ∈ room.users)
    (hne : u ≠ v) : u = opponentOf room v := by
  unfold opponentOf
  rcases Room.mem_users.mp hu with rfl | rfl <;> rcases Room.mem_users.mp hv with rfl | rfl
  · exact absurd rfl hne
  · rw [if_neg hne]
  · rw [if_pos rfl]
  · exact absurd rfl hne

theorem HeroOutcome.lodged (h : Lodged n srv) {payload : List UInt8}
    (hnext : HeroOutcome srv c payload next) : Lodged (n + roomsCreated next.2) next.1 := by
  have hchoose : ∀ {rs : RoomService} {r : UInt64} {u : UInt32} {hero} {room room' : Room},
      srv.roomService_.find r = some room → room.Chosen u hero room' →
      rs.nextRoomId_ = srv.roomService_.nextRoomId_ →
      (∀ r', rs.find r' = if r' = r then some room' else srv.roomService_.find r') →
      Housed srv.sessionService_ rs ∧ RoomService.Numbered n rs := by
    intro rs r u hero room room' hroom hchosen hrs hfind
    refine ⟨h.housed.of_rooms fun {r' room''} hr => ?_, h.numbered_of_find hrs fun r' hr => ?_⟩
    · rw [hfind]
      split
      · rename_i hrr
        obtain rfl : room = room'' := Option.some.inj (hroom.symm.trans (hrr ▸ hr))
        exact ⟨room', rfl, hchosen.users_eq⟩
      · exact ⟨room'', hr, rfl⟩
    · rw [hfind, if_neg, hr]
      rintro rfl
      cases hroom.symm.trans hr
  cases hnext with
  | refused => exact h
  | waiting _ _ _ _ hroom hchosen hrs hfind =>
    obtain ⟨hhoused, hnumbered⟩ := hchoose hroom hchosen hrs hfind
    exact ⟨hhoused, hnumbered⟩
  | started _ _ _ _ hroom hchosen hrs hfind =>
    obtain ⟨hhoused, hnumbered⟩ := hchoose hroom hchosen hrs hfind
    exact ⟨hhoused, hnumbered⟩

theorem AttackOutcome.lodged (h : Lodged n srv) (hco : Coherent srv) {io : SaveIO}
    {payload : List UInt8} (hnext : AttackOutcome srv io c payload next) :
    Lodged (n + roomsCreated next.2) next.1 := by
  cases hnext with
  | refused => exact h
  | hit => exact ⟨h.housed, h.numbered⟩
  | felled ht hstate hattack hfin hbs h₁ h₂ hfinished =>
    have hattacked := BattleState.attack_spec (BattleService.find_valid hstate) hattack
    have hend := hco.roomEnded hstate hattacked.roomId hattacked.first hattacked.second hbs h₁ h₂
      hfinished
    obtain ⟨hhoused, hnumbered⟩ := h.endRoom hend (fun _ => False) fun {u t} ht hr _ => by
      apply settled_roomId ht
      have hmem := h.mem_users hco hstate ht hr
      rwa [BattleState.mem_users, hattacked.first, hattacked.second, ← BattleState.mem_users]
    exact ⟨fun u t => hhoused u t id, hnumbered⟩

theorem CloseOutcome.lodged (h : Lodged n srv) (hco : Coherent srv) {io : SaveIO}
    (hnext : CloseOutcome srv io c next) : Lodged (n + roomsCreated next.2) next.1 := by
  cases hnext with
  | free =>
    refine ⟨Housed.remove fun u t _ ht h0 => ?_, ?_⟩
    · rw [sessionService_dequeue] at ht
      show ∃ room, (srv.dequeue c).roomService_.find _ = _ ∧ _
      rw [roomService_dequeue]
      exact h.housed u t ht h0
    · show RoomService.Numbered _ (srv.dequeue c).roomService_
      rw [roomService_dequeue]
      exact h.numbered
  | @left t room srv₁ ht h0 hnobattle hroom hmem hne hend hrepo =>
    refine h.leave ht hend fun {u s} hs hr hu => ?_
    -- the only other member is the opponent, whose room is cleared
    have hown := sessionOf_of_session ht
    obtain ⟨room₁, hroom₁, hu₁⟩ := h.housed u s hs (by rw [hr]; exact h0)
    obtain ⟨room₂, hroom₂, hu₂⟩ := h.housed _ t hown h0
    rw [hr, hroom] at hroom₁
    rw [hroom] at hroom₂
    obtain rfl := Option.some.inj hroom₁
    obtain rfl := Option.some.inj hroom₂
    unfold inRoom
    rw [if_pos ((sessionOf_userId hs).trans (eq_opponentOf hu₁ hu₂ hu))]
  | @forfeited t t₁ t₂ state state' bs ok e₁ e₂ srv₁ ht hstate hforfeit hbs h₁ h₂ hfinished =>
    have hf := BattleState.forfeit_spec (BattleService.find_valid hstate) hforfeit
    have hend := (hco.dequeue c).roomEnded (by simpa using hstate) hf.roomId hf.first hf.second
      (by simpa using hbs) (by simpa using h₁) (by simpa using h₂) hfinished
    refine h.leave ht hend fun {u s} hs hr _ => settled_roomId hs ?_
    have hmem := h.mem_users hco hstate hs hr
    rwa [BattleState.mem_users, hf.first, hf.second, ← BattleState.mem_users]

theorem Outcome.lodged (h : Lodged n srv) (hco : Coherent srv) {event : Event}
    (hnext : Outcome range srv event next) (hrooms : n + roomsCreated next.2 < 2 ^ 64 - 1) :
    Lodged (n + roomsCreated next.2) next.1 := by
  cases hnext with
  | opened => exact ⟨h.housed, h.numbered⟩
  | ignored => exact h
  | login hlogin =>
    cases hlogin with
    | refused => exact h
    | accepted hrecord hbound => exact ⟨h.housed.bind hbound rfl, h.numbered⟩
  | register hregister =>
    cases hregister
    exact ⟨h.housed, h.numbered⟩
  | join hjoin => cases hjoin <;> exact ⟨h.housed, h.numbered⟩
  | cancel hcancel => cases hcancel <;> exact ⟨h.housed, h.numbered⟩
  | hero hhero => exact hhero.lodged h
  | attack hattack => exact hattack.lodged h hco
  | tick htick =>
    obtain ⟨hrounds⟩ := htick
    rw [roomsCreated_events] at hrooms ⊢
    obtain ⟨hprocessed, hnumbered⟩ := hrounds.processed h.numbered hrooms
    exact ⟨Processed.housed h.housed hprocessed, hnumbered⟩
  | closed hclose => exact hclose.lodged h hco

end Outcomes

theorem Accounted.step {o : List Effect} (h : Accounted o srv) {event : Event}
    (hp : event.Possible srv)
    (hrooms : roomsCreated (o ++ (srv.step range event).2) < 2 ^ 64 - 1) :
    Accounted (o ++ (srv.step range event).2) (srv.step range event).1 := by
  refine ⟨h.coherent.step range hp, ?_⟩
  rw [roomsCreated_append] at hrooms ⊢
  exact (step_outcome range h.coherent hp).lodged h.lodged h.coherent hrooms

theorem accounted_init {file : Option (List UInt8)} (h : init file = some srv) :
    Accounted [] srv := by
  refine ⟨coherent_init h, ?_⟩
  obtain ⟨-, rfl⟩ := eq_of_init h
  refine ⟨fun u t ht => ?_, RoomService.numbered_empty⟩
  cases ht

theorem accounted_run {file : Option (List UInt8)} (h : init file = some srv) {events : List Event}
    (hrun : (machine range).CanRun srv events)
    (hrooms : roomsCreated ((machine range).run srv events).2 < 2 ^ 64 - 1) :
    Accounted ((machine range).run srv events).2 ((machine range).run srv events).1 := by
  have hless : ∀ o o', roomsCreated (o ++ o') < 2 ^ 64 - 1 → roomsCreated o < 2 ^ 64 - 1 := by
    intro o o' hlt
    rw [roomsCreated_append] at hlt
    omega
  exact Machine.run_induction_within (B := fun o => roomsCreated o < 2 ^ 64 - 1) (o := []) hless
    (fun _ _ _ h hp => h.step hp) (accounted_init h) hrun hrooms

/-! ### Consistency -/

/-- The five stores of the server agree with each other. -/
structure Consistent (srv : GameServer) : Prop where
  /-- The connection of a session is the one of its user. -/
  connection_of_session : ∀ {c t}, srv.sessionService_.sessionsByConnection_.lookup c = some t →
    srv.sessionService_.connectionByUserId_.lookup t.userId_ = some c
  session_of_connection : ∀ {u c}, srv.sessionService_.connectionByUserId_.lookup u = some c →
    ∃ t, srv.sessionService_.sessionsByConnection_.lookup c = some t ∧ t.userId_ = u
  /-- A session is in a room if and only if its user is a member of the room. -/
  inRoom_iff : ∀ {c t r}, srv.sessionService_.findByConnection c = some t → r ≠ 0 →
    (t.roomId_ = r ↔ ∃ room, srv.roomService_.find r = some room ∧ t.userId_ ∈ room.users)
  distinct : ∀ {r room}, srv.roomService_.find r = some room →
    room.roomId_ = r ∧ r ≠ 0 ∧ room.firstUserId_ ≠ room.secondUserId_
  /-- Both members of a room are online and carry its id. -/
  members : ∀ {r room}, srv.roomService_.find r = some room → ∀ u ∈ room.users,
    ∃ t, srv.sessionService_.sessionOf u = some t ∧ t.roomId_ = r
  one_room : ∀ {r r' room room' u}, srv.roomService_.find r = some room →
    srv.roomService_.find r' = some room' → u ∈ room.users → u ∈ room'.users → r = r'
  /-- A queued user is online, in no room, and queued with the current ELO. -/
  queued : ∀ {u ticket}, srv.matchQueue_.find u = some ticket →
    ∃ t, srv.sessionService_.sessionOf u = some t ∧ t.roomId_ = 0 ∧ ticket.elo_ = t.elo_
  /-- There is a battle if and only if there is a room whose members have chosen their heroes. -/
  battle_iff : ∀ {r}, (∃ state, srv.battleService_.find r = some state) ↔
    ∃ room, srv.roomService_.find r = some room ∧ room.Selected
  /-- The battle is between the members of the room, with their heroes, and it is the turn of one
  of them. -/
  hosts : ∀ {r state room}, srv.battleService_.find r = some state →
    srv.roomService_.find r = some room → room.Hosts state ∧ state.activeUserId_ ∈ room.users

theorem Accounted.agree {o : List Effect} (h : Accounted o srv) : Consistent srv := by
  have h0 : ∀ {r room}, srv.roomService_.find r = some room → r ≠ 0 := by
    rintro _ room hroom rfl
    have := (h.lodged.numbered.range hroom).1
    simp at this
  have hmembers : ∀ {r room}, srv.roomService_.find r = some room → ∀ u ∈ room.users,
      ∃ t, srv.sessionService_.sessionOf u = some t ∧ t.roomId_ = r :=
    fun hroom => h.coherent.inRoom (h0 hroom) hroom
  -- room and session point at each other, so a session is in one room only
  refine ⟨srv.sessionService_.connection_of_session, srv.sessionService_.session_of_connection,
    fun {c t r} ht hr => ⟨?_, ?_⟩, fun hroom => ?_, hmembers, ?_, h.coherent.queued,
    ⟨fun ⟨state, hstate⟩ => ?_, fun ⟨room, hroom, hsel⟩ => ?_⟩, fun hstate hroom => ?_⟩
  · rintro rfl
    exact h.lodged.housed _ t (sessionOf_of_session ht) hr
  · rintro ⟨room, hroom, hu⟩
    obtain ⟨t', ht', hr'⟩ := hmembers hroom _ hu
    obtain rfl : t = t' := Option.some.inj ((sessionOf_of_session ht).symm.trans ht')
    exact hr'
  · exact ⟨RoomService.find_roomId hroom, h0 hroom, (RoomService.find_members hroom).first_ne_second⟩
  · intro r r' room room' u hroom hroom' hu hu'
    obtain ⟨t, ht, hr⟩ := hmembers hroom u hu
    obtain ⟨t', ht', hr'⟩ := hmembers hroom' u hu'
    obtain rfl : t = t' := Option.some.inj (ht.symm.trans ht')
    exact hr.symm.trans hr'
  · obtain ⟨room, hroom, hhosts⟩ := h.coherent.hosts hstate
    exact ⟨room, hroom, hhosts.selected⟩
  · exact h.coherent.started (h0 hroom) hroom hsel
  · obtain ⟨room', hroom', hhosts⟩ := h.coherent.hosts hstate
    obtain rfl := Option.some.inj (hroom.symm.trans hroom')
    refine ⟨hhosts, ?_⟩
    rw [← BattleState.mem_users_of_hosts hhosts, BattleState.mem_users]
    exact (BattleService.find_valid hstate).active hhosts.unfinished

/-- **The services agree after every event**, whatever happens in the run and whichever saves fail,
as long as fewer than 2^64 - 1 rooms have been created. -/
theorem consistent {file : Option (List UInt8)} (h : init file = some srv) {events : List Event}
    (hrun : (machine range).CanRun srv events)
    (hrooms : roomsCreated ((machine range).run srv events).2 < 2 ^ 64 - 1) :
    Consistent ((machine range).run srv events).1 := (accounted_run h hrun hrooms).agree

/-- Two players who have been matched. -/
theorem consistent_two_players :
    let events := Wraparound.arrival ++ Wraparound.search ++ [.tick 0]
    let last := ((machine allowedEloRange).run Wraparound.freshServer events).1
    (last.roomService_.find 1).map Room.users = some [1, 2] ∧ Consistent last := by
  intro events last
  have hrun : (machine allowedEloRange).CanRun Wraparound.freshServer events := by
    refine ⟨⟨by decide, by decide⟩, ⟨by decide, by decide⟩, ?_, ?_, ?_, ?_, ?_, ?_, trivial,
      trivial⟩ <;> show _ ∈ _ <;> decide +kernel
  exact ⟨by decide +kernel, consistent (rfl : init none = _) hrun (by decide +kernel)⟩

/-- After 2^64 rooms the services disagree. -/
theorem not_consistent :
    ¬ ∀ (file : Option (List UInt8)) (srv : GameServer) (events : List Event),
      init file = some srv → (machine allowedEloRange).CanRun srv events →
      Consistent ((machine allowedEloRange).run srv events).1 := by
  intro h
  obtain ⟨events, srv, hreach, ⟨room, hroom, hu⟩, hoffline⟩ := Wraparound.exists_abandoned_room
  have hconsistent := h none Wraparound.freshServer events rfl hreach.canRun
  rw [hreach.last] at hconsistent
  obtain ⟨t, ht, -⟩ := hconsistent.members hroom _ hu
  cases ht.symm.trans hoffline

end ArenaGame.GameServer
