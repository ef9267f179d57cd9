import ArenaGame.Server.Equiv.BattleService
import ArenaGame.Server.Equiv.MatchmakingService
import ArenaGame.Server.GameServer

/-!
# The stores of the server agree

`Coherent` relates the five stores of the server to each other.  It holds in every run, even after
the room counter has wrapped around, and is what the handlers rely on when they look something up
in one store after another.

The lemmas of this module say which changes of the stores keep it; each is used for the handlers
that make this change.
-/

namespace ArenaGame.GameServer

open SessionService (Mapped)

structure Coherent (srv : GameServer) : Prop where
  connected : ∀ {c t}, srv.sessionService_.findByConnection c = some t → c ∈ srv.connections_
  name_le : ∀ {c t}, srv.sessionService_.findByConnection c = some t → t.userName_.length ≤ 32
  /-- A queued user is online, in no room, and queued with the current ELO. -/
  queued : ∀ {u ticket}, srv.matchQueue_.find u = some ticket →
    ∃ t, srv.sessionService_.sessionOf u = some t ∧ t.roomId_ = 0 ∧ ticket.elo_ = t.elo_
  /-- The members of a room are online and in it. -/
  inRoom : ∀ {r room}, r ≠ 0 → srv.roomService_.find r = some room →
    ∀ u ∈ room.users, ∃ t, srv.sessionService_.sessionOf u = some t ∧ t.roomId_ = r
  selectable : ∀ {r room}, srv.roomService_.find r = some room → room.Selectable
  hosts : ∀ {r state}, srv.battleService_.find r = some state →
    ∃ room, srv.roomService_.find r = some room ∧ room.Hosts state
  started : ∀ {r room}, r ≠ 0 → srv.roomService_.find r = some room → room.Selected →
    ∃ state, srv.battleService_.find r = some state

variable {srv : GameServer}

/-! ### Look-ups -/

theorem battle_ne_zero {r : UInt64} {state : BattleState}
    (h : srv.battleService_.find r = some state) : r ≠ 0 := by
  rw [← BattleService.find_roomId h]
  exact (BattleService.find_valid h).room_ne_zero

theorem Coherent.online (h : Coherent srv) {u : UInt32} {t : PlayerSession}
    (ht : srv.sessionService_.sessionOf u = some t) :
    srv.sessionService_.findConnectionByUserId u ∈ srv.connections_ := h.connected ht

/-- A battle is found together with its room and the sessions of its players. -/
theorem Coherent.battle (h : Coherent srv) {r : UInt64} {state : BattleState}
    (hstate : srv.battleService_.find r = some state) :
    ∃ room t₁ t₂, srv.roomService_.find r = some room ∧ room.Hosts state ∧
      srv.sessionService_.sessionOf state.firstUserId_ = some t₁ ∧ t₁.roomId_ = r ∧
      srv.sessionService_.sessionOf state.secondUserId_ = some t₂ ∧ t₂.roomId_ = r := by
  obtain ⟨room, hroom, hhosts⟩ := h.hosts hstate
  have hmembers := h.inRoom (battle_ne_zero hstate) hroom
  obtain ⟨t₁, h₁, hr₁⟩ := hmembers _ (Room.mem_users.mpr (Or.inl hhosts.first))
  obtain ⟨t₂, h₂, hr₂⟩ := hmembers _ (Room.mem_users.mpr (Or.inr hhosts.second))
  exact ⟨room, t₁, t₂, hroom, hhosts, h₁, hr₁, h₂, hr₂⟩

/-! ### Changes that keep the stores in agreement -/

theorem Coherent.connect (h : Coherent srv) (c : UInt64) :
    Coherent { srv with connections_ := insert c srv.connections_ } where
  connected ht := Finset.mem_insert_of_mem (h.connected ht)
  name_le := h.name_le
  queued := h.queued
  inRoom := h.inRoom
  selectable := h.selectable
  hosts := h.hosts
  started := h.started

theorem Coherent.withRepository (h : Coherent srv) (repo : AccountRepository) :
    Coherent { srv with accountRepository_ := repo } where
  connected := h.connected
  name_le := h.name_le
  queued := h.queued
  inRoom := h.inRoom
  selectable := h.selectable
  hosts := h.hosts
  started := h.started

/-- Tickets may go, and tickets of users who are online and in no room may come. -/
theorem Coherent.withQueue (h : Coherent srv) {q : MatchQueue}
    (hq : ∀ u ticket, q.find u = some ticket → srv.matchQueue_.find u = some ticket ∨
      ∃ t, srv.sessionService_.sessionOf u = some t ∧ t.roomId_ = 0 ∧ ticket.elo_ = t.elo_) :
    Coherent { srv with matchQueue_ := q } where
  connected := h.connected
  name_le := h.name_le
  queued ht := (hq _ _ ht).elim h.queued id
  inRoom := h.inRoom
  selectable := h.selectable
  hosts := h.hosts
  started := h.started

theorem Coherent.bind (h : Coherent srv) {c : UInt64} {t : PlayerSession}
    (hc : c ∈ srv.connections_) (hname : t.userName_.length ≤ 32)
    (hbound : (srv.sessionService_.bind c t).1 = true) :
    Coherent { srv with sessionService_ := (srv.sessionService_.bind c t).2 } := by
  have hfind := SessionService.findByConnection_bind hbound
  have hsession := SessionService.sessionOf_bind hbound
  obtain ⟨-, -, -, hoffline⟩ := SessionService.bind_fst.mp hbound
  -- a user who was online is another one
  have hkeep : ∀ {u s}, srv.sessionService_.sessionOf u = some s →
      (srv.sessionService_.bind c t).2.sessionOf u = some s := by
    intro u s hs
    rw [hsession, if_neg, hs]
    rintro rfl
    simp [hoffline] at hs
  refine ⟨fun {c' s} hs => ?_, fun {c' s} hs => ?_, fun ht => ?_, fun h0 hroom u hu => ?_,
    h.selectable, h.hosts, h.started⟩
  · rw [hfind] at hs
    split at hs
    · rename_i hcc
      exact hcc ▸ hc
    · exact h.connected hs
  · rw [hfind] at hs
    split at hs
    · exact Option.some.inj hs ▸ hname
    · exact h.name_le hs
  · obtain ⟨s, hs, hrest⟩ := h.queued ht
    exact ⟨s, hkeep hs, hrest⟩
  · obtain ⟨s, hs, hrest⟩ := h.inRoom h0 hroom u hu
    exact ⟨s, hkeep hs, hrest⟩

/-- The session of a user who is neither queued nor in a room is removed. -/
theorem Coherent.logout (h : Coherent srv) {c : UInt64}
    (hfree : ∀ t, srv.sessionService_.findByConnection c = some t →
      srv.matchQueue_.find t.userId_ = none ∧
        ∀ r room, r ≠ 0 → srv.roomService_.find r = some room → t.userId_ ∉ room.users) :
    Coherent { srv with
      sessionService_ := srv.sessionService_.remove c
      connections_ := srv.connections_.erase c } := by
  have hfind := SessionService.findByConnection_remove (s := srv.sessionService_) c
  have hkeep : ∀ {u s}, srv.sessionService_.sessionOf u = some s →
      (∀ t, srv.sessionService_.findByConnection c = some t → t.userId_ ≠ u) →
      (srv.sessionService_.remove c).sessionOf u = some s := by
    intro u s hs hu
    cases ht : srv.sessionService_.findByConnection c with
    | none => rw [SessionService.remove_of_none ht, hs]
    | some t => rw [SessionService.sessionOf_remove ht, if_neg (hu t ht).symm, hs]
  refine ⟨fun {c' s} hs => ?_, fun {c' s} hs => ?_, fun {u ticket} ht => ?_,
    fun h0 hroom u hu => ?_, h.selectable, h.hosts, h.started⟩
  · rw [hfind] at hs
    split at hs
    · cases hs
    · rename_i hcc
      exact Finset.mem_erase.mpr ⟨hcc, h.connected hs⟩
  · rw [hfind] at hs
    split at hs
    · cases hs
    · exact h.name_le hs
  · -- neither the queue nor a room has the user who leaves
    obtain ⟨s, hs, hrest⟩ := h.queued ht
    refine ⟨s, hkeep hs fun t htc hu => ?_, hrest⟩
    subst hu
    simp [(hfree t htc).1] at ht
  · obtain ⟨s, hs, hrest⟩ := h.inRoom h0 hroom u hu
    exact ⟨s, hkeep hs fun t htc hut => (hfree t htc).2 _ _ h0 hroom (hut ▸ hu), hrest⟩

/-- A hero is chosen in a room that still lacks the other. -/
theorem Coherent.selectHero (h : Coherent srv) {rs : RoomService} {r : UInt64} {room room' : Room}
    (hroom : srv.roomService_.find r = some room)
    (hrs : ∀ r', rs.find r' = if r' = r then some room' else srv.roomService_.find r')
    (husers : room'.users = room.users) (hok : room'.Selectable) (hnot : ¬ room'.Selected)
    (hold : ¬ room.Selected) : Coherent { srv with roomService_ := rs } := by
  have hback : ∀ {r' room''}, rs.find r' = some room'' →
      ∃ room₀, srv.roomService_.find r' = some room₀ ∧ room₀.users = room''.users := by
    intro r' room'' hr'
    rw [hrs] at hr'
    split at hr'
    · rename_i hrr
      obtain rfl := Option.some.inj hr'
      exact ⟨room, hrr ▸ hroom, husers.symm⟩
    · exact ⟨room'', hr', rfl⟩
  refine ⟨h.connected, h.name_le, h.queued, fun h0 hroom' => ?_, fun {r' room''} hr' => ?_,
    fun {r' state} hstate => ?_, fun {r' room''} h0 hr' hsel => ?_⟩
  · obtain ⟨room₀, h₀, hu₀⟩ := hback hroom'
    rw [← hu₀]
    exact h.inRoom h0 h₀
  · rw [hrs] at hr'
    split at hr'
    · exact Option.some.inj hr' ▸ hok
    · exact h.selectable hr'
  · -- there was no battle in this room
    obtain ⟨room₀, h₀, hhosts⟩ := h.hosts hstate
    refine ⟨room₀, ?_, hhosts⟩
    show rs.find r' = _
    rw [hrs, if_neg, h₀]
    rintro rfl
    obtain rfl : room = room₀ := Option.some.inj (hroom.symm.trans h₀)
    exact hold hhosts.selected
  · change rs.find r' = _ at hr'
    rw [hrs] at hr'
    split at hr'
    · exact absurd (Option.some.inj hr' ▸ hsel) hnot
    · exact h.started h0 hr' hsel

/-- The second hero is chosen and the battle starts. -/
theorem Coherent.startBattle (h : Coherent srv) {rs : RoomService} {bs : BattleService}
    {r : UInt64} {room room' : Room} {state : BattleState}
    (hroom : srv.roomService_.find r = some room)
    (hrs : ∀ r', rs.find r' = if r' = r then some room' else srv.roomService_.find r')
    (hbs : ∀ r', bs.find r' = if r' = r then some state else srv.battleService_.find r')
    (husers : room'.users = room.users) (hok : room'.Selectable) (hhosts : room'.Hosts state) :
    Coherent { srv with roomService_ := rs, battleService_ := bs } := by
  refine ⟨h.connected, h.name_le, h.queued, fun {r' room''} h0 hr' => ?_,
    fun {r' room''} hr' => ?_, fun {r' state'} hstate => ?_, fun {r' room''} h0 hr' hsel => ?_⟩
  · change rs.find r' = _ at hr'
    rw [hrs] at hr'
    split at hr'
    · rename_i hrr
      subst hrr
      obtain rfl := Option.some.inj hr'
      rw [husers]
      exact h.inRoom h0 hroom
    · exact h.inRoom h0 hr'
  · rw [hrs] at hr'
    split at hr'
    · exact Option.some.inj hr' ▸ hok
    · exact h.selectable hr'
  · -- the new battle is in the room that now has both heroes
    change bs.find r' = _ at hstate
    rw [hbs] at hstate
    show ∃ room, rs.find r' = some room ∧ _
    rw [hrs]
    split at hstate
    · rename_i hrr
      obtain rfl := Option.some.inj hstate
      exact ⟨room', if_pos hrr, hhosts⟩
    · rename_i hrr
      rw [if_neg hrr]
      exact h.hosts hstate
  · change rs.find r' = _ at hr'
    rw [hrs] at hr'
    show ∃ state, bs.find r' = some state
    rw [hbs]
    split at hr'
    · rename_i hrr
      exact ⟨state, if_pos hrr⟩
    · rename_i hrr
      rw [if_neg hrr]
      exact h.started h0 hr' hsel

/-- A blow that decides nothing. -/
theorem Coherent.withBattle (h : Coherent srv) {bs : BattleService} {r : UInt64}
    {state state' : BattleState} (hstate : srv.battleService_.find r = some state)
    (hbs : ∀ r', bs.find r' = if r' = r then some state' else srv.battleService_.find r')
    (hhosts : ∀ room : Room, room.Hosts state → room.Hosts state') :
    Coherent { srv with battleService_ := bs } := by
  refine ⟨h.connected, h.name_le, h.queued, h.inRoom, h.selectable, fun {r' state''} hr' => ?_,
    fun {r' room''} h0 hr' hsel => ?_⟩
  · change bs.find r' = _ at hr'
    rw [hbs] at hr'
    split at hr'
    · rename_i hrr
      subst hrr
      obtain rfl := Option.some.inj hr'
      obtain ⟨room, hroom, hroomState⟩ := h.hosts hstate
      exact ⟨room, hroom, hhosts room hroomState⟩
    · exact h.hosts hr'
  · show ∃ state, bs.find r' = some state
    rw [hbs]
    split
    · exact ⟨state', rfl⟩
    · exact h.started h0 hr' hsel

/-- A room is gone: its battle, if there was one, is gone too, and sessions are changed by `f`, but
only those that were in it. -/
structure RoomEnded (srv : GameServer) (r : UInt64) (f : PlayerSession → PlayerSession)
    (srv' : GameServer) : Prop where
  connections : srv'.connections_ = srv.connections_
  queue : srv'.matchQueue_ = srv.matchQueue_
  next : srv'.roomService_.nextRoomId_ = srv.roomService_.nextRoomId_
  rooms : ∀ r', srv'.roomService_.find r' = if r' = r then none else srv.roomService_.find r'
  battles : ∀ r', srv'.battleService_.find r' =
    if r' = r then none else srv.battleService_.find r'
  sessions : Mapped f srv.sessionService_ srv'.sessionService_
  name_eq : ∀ t, (f t).userName_ = t.userName_
  outside : ∀ {c t}, srv.sessionService_.findByConnection c = some t → t.roomId_ ≠ r → f t = t

theorem Coherent.endRoom (h : Coherent srv) {r : UInt64} {f : PlayerSession → PlayerSession}
    {srv' : GameServer} (hend : RoomEnded srv r f srv') (hr : r ≠ 0) : Coherent srv' := by
  have hkeep : ∀ {u t}, srv.sessionService_.sessionOf u = some t → t.roomId_ ≠ r →
      srv'.sessionService_.sessionOf u = some t := by
    intro u t ht hne
    rw [hend.sessions.sessionOf, ht, Option.map_some, hend.outside ht hne]
  refine ⟨fun {c t} hc => ?_, fun {c t} hc => ?_, fun {u ticket} ht => ?_,
    fun {r' room} h0 hr' u hu => ?_, fun {r' room} hr' => ?_, fun {r' state} hr' => ?_,
    fun {r' room} h0 hr' hsel => ?_⟩
  · rw [hend.sessions.find, Option.map_eq_some_iff] at hc
    obtain ⟨t', ht', -⟩ := hc
    rw [hend.connections]
    exact h.connected ht'
  · rw [hend.sessions.find, Option.map_eq_some_iff] at hc
    obtain ⟨t', ht', rfl⟩ := hc
    rw [hend.name_eq]
    exact h.name_le ht'
  · -- a queued user is in no room, so his session is not changed
    rw [hend.queue] at ht
    obtain ⟨t, htu, h0, helo⟩ := h.queued ht
    exact ⟨t, hkeep htu (by rw [h0]; exact hr.symm), h0, helo⟩
  · rw [hend.rooms] at hr'
    split at hr'
    · cases hr'
    · -- the members of another room are not in this one
      rename_i hne
      obtain ⟨t, ht, hroom⟩ := h.inRoom h0 hr' u hu
      exact ⟨t, hkeep ht (by rw [hroom]; exact hne), hroom⟩
  · rw [hend.rooms] at hr'
    split at hr'
    · cases hr'
    · exact h.selectable hr'
  · rw [hend.battles] at hr'
    split at hr'
    · cases hr'
    · rename_i hne
      obtain ⟨room, hroom, hhosts⟩ := h.hosts hr'
      exact ⟨room, by rw [hend.rooms, if_neg hne, hroom], hhosts⟩
  · rw [hend.rooms] at hr'
    split at hr'
    · cases hr'
    · rename_i hne
      obtain ⟨state, hstate⟩ := h.started h0 hr' hsel
      exact ⟨state, by rw [hend.battles, if_neg hne, hstate]⟩

/-! ### Ticks -/

/-- Nobody has chosen a hero in a room that is created. -/
theorem Coherent.selectable_create (h : Coherent srv) {u v : UInt32}
    (hacc : ¬ RoomService.Refused u v) {r : UInt64} {room : Room}
    (hroom : (srv.roomService_.create u v).2.find r = some room) : room.Selectable := by
  rw [RoomService.find_create hacc] at hroom
  split at hroom
  · obtain rfl := Option.some.inj hroom
    exact ⟨fun hn => absurd rfl hn, fun hn => absurd rfl hn⟩
  · exact h.selectable hroom

/-- A room is created for two users who have just been taken off the queue. -/
theorem Coherent.found (h : Coherent srv) {u v : UInt32} {r : UInt64} {t₁ t₂ : PlayerSession}
    (hu : srv.sessionService_.sessionOf u = some t₁) (hv : srv.sessionService_.sessionOf v = some t₂)
    (hr₁ : t₁.roomId_ = 0) (hr₂ : t₂.roomId_ = 0) (hne : u ≠ v)
    (hqu : srv.matchQueue_.find u = none) (hqv : srv.matchQueue_.find v = none)
    (hcreated : (srv.roomService_.create u v).1 = r) :
    Coherent { srv with
      roomService_ := (srv.roomService_.create u v).2
      sessionService_ := (srv.sessionService_.markInRoom u r).markInRoom v r } := by
  have hu0 := SessionService.ne_zero_of_sessionOf hu
  have hv0 := SessionService.ne_zero_of_sessionOf hv
  have hacc : ¬ RoomService.Refused u v := by
    rintro (h | h | h)
    · exact hu0 h
    · exact hv0 h
    · exact hne h
  rw [RoomService.create_fst hacc] at hcreated
  have hfind := RoomService.find_create (s := srv.roomService_) hacc
  have hsessions := (SessionService.mapped_markInRoom (s := srv.sessionService_) u r).comp
    (SessionService.mapped_markInRoom v r)
  have hkeep : ∀ {w t}, srv.sessionService_.sessionOf w = some t → w ≠ u → w ≠ v →
      ((srv.sessionService_.markInRoom u r).markInRoom v r).sessionOf w = some t := by
    intro w t ht hwu hwv
    have hw := SessionService.sessionOf_userId ht
    have hfirst := SessionService.inRoom_of_ne r (by rw [hw]; exact hwu : t.userId_ ≠ u)
    have hsecond := SessionService.inRoom_of_ne r (by rw [hw]; exact hwv : t.userId_ ≠ v)
    rw [hsessions.sessionOf, ht, Option.map_some, Function.comp, hfirst, hsecond]
  -- whoever is in a room is neither of the two users
  have hother : ∀ {w t}, srv.sessionService_.sessionOf w = some t → t.roomId_ ≠ 0 →
      w ≠ u ∧ w ≠ v := by
    intro w t ht h0
    constructor
    · rintro rfl
      exact h0 (Option.some.inj (ht.symm.trans hu) ▸ hr₁)
    · rintro rfl
      exact h0 (Option.some.inj (ht.symm.trans hv) ▸ hr₂)
  refine ⟨fun {c t} hc => ?_, fun {c t} hc => ?_, fun {w ticket} ht => ?_,
    fun {r' room} h0 hroom w hw => ?_, fun {r' room} hroom => ?_, fun {r' state} hstate => ?_,
    fun {r' room} h0 hroom hsel => ?_⟩
  · rw [hsessions.find, Option.map_eq_some_iff] at hc
    obtain ⟨t', ht', -⟩ := hc
    exact h.connected ht'
  · rw [hsessions.find, Option.map_eq_some_iff] at hc
    obtain ⟨t', ht', rfl⟩ := hc
    have hname : ((SessionService.inRoom v r ∘ SessionService.inRoom u r) t').userName_ =
        t'.userName_ := by
      simp only [Function.comp, SessionService.inRoom]
      split_ifs <;> rfl
    rw [hname]
    exact h.name_le ht'
  · obtain ⟨t, htw, hrest⟩ := h.queued ht
    refine ⟨t, hkeep htw ?_ ?_, hrest⟩
    · rintro rfl
      cases ht.symm.trans hqu
    · rintro rfl
      cases ht.symm.trans hqv
  · change (srv.roomService_.create u v).2.find r' = _ at hroom
    rw [hfind] at hroom
    split at hroom
    · -- the new room
      rename_i hnew
      obtain rfl := Option.some.inj hroom
      have hmark : ∀ {t}, srv.sessionService_.sessionOf w = some t → w = u ∨ w = v →
          ∃ t', ((srv.sessionService_.markInRoom u r).markInRoom v r).sessionOf w = some t' ∧
            t'.roomId_ = r' := by
        intro t ht hw
        have huser := SessionService.sessionOf_userId ht
        refine ⟨_, by rw [hsessions.sessionOf, ht, Option.map_some], ?_⟩
        rw [hnew.1, hcreated]
        rcases hw with rfl | rfl
        · simp only [Function.comp, SessionService.inRoom, if_pos huser]
          split_ifs <;> rfl
        · have huser' : (SessionService.inRoom u r t).userId_ = w := by
            rw [(SessionService.mapped_markInRoom (s := srv.sessionService_) u r).userId_eq, huser]
          rw [Function.comp, SessionService.inRoom, if_pos huser']
      rcases Room.mem_users.mp hw with rfl | rfl
      · exact hmark hu (Or.inl rfl)
      · exact hmark hv (Or.inr rfl)
    · obtain ⟨t, ht, hroom'⟩ := h.inRoom h0 hroom w hw
      have hw' := hother ht (by rw [hroom']; exact h0)
      exact ⟨t, hkeep ht hw'.1 hw'.2, hroom'⟩
  · exact h.selectable_create hacc hroom
  · obtain ⟨room, hroom, hhosts⟩ := h.hosts hstate
    refine ⟨room, ?_, hhosts⟩
    show (srv.roomService_.create u v).2.find r' = _
    rw [hfind, if_neg, hroom]
    rintro ⟨-, hnone⟩
    cases hroom.symm.trans hnone
  · change (srv.roomService_.create u v).2.find r' = _ at hroom
    rw [hfind] at hroom
    split at hroom
    · obtain rfl := Option.some.inj hroom
      exact absurd rfl hsel.1
    · exact h.started h0 hroom hsel

/-- A room that gets the number 0 concerns nobody. -/
theorem Coherent.noRoom (h : Coherent srv) {u v : UInt32}
    (hcreated : (srv.roomService_.create u v).1 = 0) :
    Coherent { srv with roomService_ := (srv.roomService_.create u v).2 } := by
  by_cases hacc : RoomService.Refused u v
  · rw [RoomService.create_of_refused hacc]
    exact h
  · rw [RoomService.create_fst hacc] at hcreated
    have hfind := RoomService.find_create (s := srv.roomService_) hacc
    have hsame : ∀ {r'}, r' ≠ 0 →
        (srv.roomService_.create u v).2.find r' = srv.roomService_.find r' := by
      intro r' h0
      rw [hfind, if_neg]
      rintro ⟨rfl, -⟩
      exact h0 hcreated
    refine ⟨h.connected, h.name_le, h.queued, fun h0 hroom => ?_, fun {r' room} hroom => ?_,
      fun {r' state} hstate => ?_, fun h0 hroom hsel => ?_⟩
    · exact h.inRoom h0 ((hsame h0).symm.trans hroom)
    · exact h.selectable_create hacc hroom
    · obtain ⟨room, hroom, hhosts⟩ := h.hosts hstate
      exact ⟨room, (hsame (battle_ne_zero hstate)).trans hroom, hhosts⟩
    · exact h.started h0 ((hsame h0).symm.trans hroom) hsel

open MatchmakingService in
/-- One round of a tick. -/
theorem Coherent.round (h : Coherent srv) {range : MatchTicket → MatchTimePoint → ℚ}
    {now : MatchTimePoint} {pair : MatchPair} {q' : MatchQueue}
    (hdraw : srv.matchQueue_.tryMatch range now = (some pair, q')) :
    Coherent { srv with
      toMatchmakingService :=
        ({ srv.toMatchmakingService with matchQueue_ := q' }.placePair pair).2 } := by
  have hdrawn := MatchQueue.tryMatch_some hdraw
  have hdrop : Coherent { srv with matchQueue_ := q' } := by
    refine h.withQueue fun u ticket ht => Or.inl ?_
    rw [hdrawn.find] at ht
    split at ht
    · cases ht
    · exact ht
  have hcases := placePair_cases { srv.toMatchmakingService with matchQueue_ := q' } pair
  generalize { srv.toMatchmakingService with matchQueue_ := q' }.placePair pair = result at hcases ⊢
  cases hcases with
  | skipped => exact hdrop
  | noRoom _ _ _ _ h0 => exact hdrop.noRoom h0
  | found h₁ h₂ hr₁ hr₂ hid h0 =>
    have hout : ∀ u ∈ pair.users, q'.find u = none := by
      intro u hu
      rw [hdrawn.find, if_pos (mem_users.mp hu)]
    exact hdrop.found h₁ h₂ hr₁ hr₂ hdrawn.ne (hout _ (mem_users.mpr (Or.inl rfl)))
      (hout _ (mem_users.mpr (Or.inr rfl))) hid

open MatchmakingService in
theorem Coherent.rounds {range : MatchTicket → MatchTimePoint → ℚ} {now : MatchTimePoint}
    {s s' : MatchmakingService} {outcomes : Outcomes} (hrounds : Rounds range now s outcomes s')
    (h : Coherent { srv with toMatchmakingService := s }) :
    Coherent { srv with toMatchmakingService := s' } := by
  induction hrounds with
  | done hdraw =>
    obtain ⟨rfl, -⟩ := MatchQueue.tryMatch_none hdraw
    exact h
  | round hdraw hrounds ih => exact ih (h.round hdraw)

end ArenaGame.GameServer
