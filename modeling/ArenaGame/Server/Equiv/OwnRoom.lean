import ArenaGame.Server.Equiv.Consistency
import ArenaGame.Server.Equiv.Settlement

/-!
# Actions stay inside the room of the actor

`Confined` says what an event of the connection `c` leaves alone: the sessions, tickets, rooms,
battles and accounts of everybody who is not in the room of `c`, and their connections.  The room of
`c` is the one that its session names, so this holds in every run (`stays_inside`).

Before the room counter has wrapped around, the user of `c` is a member of that room.  Afterwards it
may be the room of two others: see `not_stays_inside`.
-/

namespace ArenaGame.GameServer

open GameProtocol GameMessages SessionService AccountRepository

variable {range : MatchTicket → MatchTimePoint → ℚ} {srv : GameServer} {c : UInt64}
  {payload : List UInt8}

/-- The event is a message from the connection `c`, or `c` closes. -/
inductive Event.ActsFor (c : UInt64) : Event → Prop
  | message (frame : Frame) (now : MatchTimePoint) (io : SaveIO) :
      Event.ActsFor c (.message c frame now io)
  | closed (io : SaveIO) : Event.ActsFor c (.closed c io)

/-- The room that the session of a connection names. -/
def roomOf (srv : GameServer) (c : UInt64) : Option Room :=
  match srv.sessionService_.findByConnection c with
  | none => none
  | some t => if t.roomId_ = 0 then none else srv.roomService_.find t.roomId_

/-- The user of the connection `c` is a member of a room that exists. -/
def MemberOf (srv : GameServer) (c : UInt64) (room : Room) : Prop :=
  srv.roomService_.find room.roomId_ = some room ∧
    ∃ t, srv.sessionService_.findByConnection c = some t ∧ t.userId_ ∈ room.users

/-- What happens concerns the connection `c`, the room `own` and its members, and the account
`added`, which is new. -/
structure Confined (srv : GameServer) (c : UInt64) (own : Option Room) (added : Option StdString)
    (next : GameServer × List Effect) : Prop where
  sessions : ∀ c' ≠ c, (∀ t, srv.sessionService_.findByConnection c' = some t →
      ∀ room ∈ own, t.userId_ ∉ room.users) →
    next.1.sessionService_.findByConnection c' = srv.sessionService_.findByConnection c'
  queue : ∀ u, (∀ t, srv.sessionService_.findByConnection c = some t → t.userId_ ≠ u) →
    next.1.matchQueue_.find u = srv.matchQueue_.find u
  rooms : ∀ r, (∀ room ∈ own, room.roomId_ ≠ r) →
    next.1.roomService_.find r = srv.roomService_.find r
  battles : ∀ r, (∀ room ∈ own, room.roomId_ ≠ r) →
    next.1.battleService_.find r = srv.battleService_.find r
  accounts : ∀ name, added ≠ some name →
    (∀ record, srv.accountRepository_.accounts_.lookup name = some record →
      ∀ room ∈ own, record.account_.userId_ ∉ room.users) →
    next.1.accountRepository_.accounts_.lookup name =
      srv.accountRepository_.accounts_.lookup name
  /-- Frames go to `c` and to the members of its room. -/
  frames : ∀ c' frame, .send c' frame ∈ next.2 → c' = c ∨
    ∃ t, srv.sessionService_.findByConnection c' = some t ∧ ∃ room ∈ own, t.userId_ ∈ room.users

/-- An event of the connection `c` whose room is `own`. -/
structure StaysInside (srv : GameServer) (c : UInt64) (own : Option Room) (event : Event)
    (next : GameServer × List Effect) : Prop where
  /-- Only a registration adds an account. -/
  confined : ∃ added, Confined srv c own added next ∧ ∀ name ∈ added,
    srv.accountRepository_.accounts_.lookup name = none ∧
      ∃ payload now io, event = .message c (MSG_REGISTER_REQ, payload) now io
  /-- Without a session there is nothing to do but to log in or to register. -/
  idle : srv.sessionService_.findByConnection c = none → ∀ frame now io,
    event = .message c frame now io → frame.1 ≠ MSG_LOGIN_REQ → frame.1 ≠ MSG_REGISTER_REQ →
    next.1 = srv

/-! ### The room of a connection -/

theorem roomOf_eq {t : PlayerSession} (ht : srv.sessionService_.findByConnection c = some t)
    (h0 : t.roomId_ ≠ 0) : srv.roomOf c = srv.roomService_.find t.roomId_ := by
  simp only [roomOf, ht, if_neg h0]

theorem mem_roomOf {room : Room} (h : room ∈ srv.roomOf c) :
    ∃ t, srv.sessionService_.findByConnection c = some t ∧ t.roomId_ ≠ 0 ∧
      srv.roomService_.find t.roomId_ = some room := by
  unfold roomOf at h
  split at h
  · cases h
  · rename_i t ht
    split at h
    · cases h
    · rename_i h0
      exact ⟨t, ht, h0, h⟩

/-- The members of the room of a connection are online. -/
theorem Coherent.online_of_roomOf (h : Coherent srv) {room : Room} (hroom : room ∈ srv.roomOf c)
    {u : UInt32} (hu : u ∈ room.users) : ∃ t, srv.sessionService_.sessionOf u = some t := by
  obtain ⟨t, -, h0, hfind⟩ := mem_roomOf hroom
  obtain ⟨s, hs, -⟩ := h.inRoom h0 hfind u hu
  exact ⟨s, hs⟩

/-- Who is told as a member of the room of a connection. -/
theorem Coherent.told (h : Coherent srv) {room : Room} (hroom : room ∈ srv.roomOf c) {u : UInt32}
    (hu : u ∈ room.users) {c' : UInt64} {m : ServerMessage} {frame : Frame}
    (heffect : Effect.send c' frame = srv.tell u m) :
    ∃ t, srv.sessionService_.findByConnection c' = some t ∧
      ∃ room ∈ srv.roomOf c, t.userId_ ∈ room.users := by
  obtain ⟨t, ht⟩ := h.online_of_roomOf hroom hu
  obtain ⟨rfl, -⟩ := Effect.send.inj heffect
  exact ⟨t, ht, room, hroom, (sessionOf_userId ht).symm ▸ hu⟩

theorem Coherent.toldBoth (h : Coherent srv) {room : Room} (hroom : room ∈ srv.roomOf c)
    {u v : UInt32} (hu : u ∈ room.users) (hv : v ∈ room.users) {m : UInt32 → ServerMessage}
    {c' : UInt64} {frame : Frame} (heffect : Effect.send c' frame ∈ srv.tellBoth u v m) :
    ∃ t, srv.sessionService_.findByConnection c' = some t ∧
      ∃ room ∈ srv.roomOf c, t.userId_ ∈ room.users := by
  rcases List.mem_pair.mp heffect with heq | heq
  · exact h.told hroom hu heq
  · exact h.told hroom hv heq

/-! ### Messages -/

/-- Nothing has changed, and only `c` is told. -/
theorem Confined.refl (own : Option Room) {o : List Effect}
    (ho : ∀ c' frame, Effect.send c' frame ∈ o → c' = c) : Confined srv c own none (srv, o) where
  sessions _ _ _ := rfl
  queue _ _ := rfl
  rooms _ _ := rfl
  battles _ _ := rfl
  accounts _ _ _ := rfl
  frames c' frame h := Or.inl (ho c' frame h)

theorem eq_of_send_mem {c' : UInt64} {frame frame' : Frame}
    (h : Effect.send c' frame' ∈ [Effect.send c frame]) : c' = c := by
  obtain ⟨rfl, -⟩ := Effect.send.inj (List.mem_singleton.mp h)
  rfl

theorem LoginOutcome.confined {own : Option Room} {next : GameServer × List Effect}
    (hnext : LoginOutcome srv c next) : Confined srv c own none next := by
  cases hnext with
  | refused => exact .refl own fun _ _ => eq_of_send_mem
  | accepted hrecord hbound =>
    refine ⟨fun c' hne _ => ?_, fun _ _ => rfl, fun _ _ => rfl, fun _ _ => rfl, fun _ _ _ => rfl,
      fun _ _ h => Or.inl (eq_of_send_mem h)⟩
    exact (findByConnection_bind hbound c').trans (if_neg hne)

/-- A registration adds at most the account whose name was asked for. -/
theorem RegisterOutcome.confined {own : Option Room} {io : SaveIO}
    {next : GameServer × List Effect} (hnext : RegisterOutcome srv io c next) :
    ∃ added, Confined srv c own added next ∧
      ∀ name ∈ added, srv.accountRepository_.accounts_.lookup name = none := by
  cases hnext with
  | @answered response repo hfits hrepo =>
    have hframes : ∀ c' frame,
        Effect.send c' frame ∈ [Effect.send c (ServerMessage.registerRsp response).frame] →
        c' = c ∨ ∃ t, srv.sessionService_.findByConnection c' = some t ∧
          ∃ room ∈ own, t.userId_ ∈ room.users := fun _ _ h => Or.inl (eq_of_send_mem h)
    -- a registration that is refused or fails adds no account
    have hsame : (∀ name, repo.accounts_.lookup name =
        srv.accountRepository_.accounts_.lookup name) →
        ∃ added, Confined srv c own added ({ srv with accountRepository_ := repo },
          [.send c (ServerMessage.registerRsp response).frame]) ∧
          ∀ name ∈ added, srv.accountRepository_.accounts_.lookup name = none := fun hlookup =>
      ⟨none, ⟨fun _ _ _ => rfl, fun _ _ => rfl, fun _ _ => rfl, fun _ _ => rfl,
        fun name _ _ => hlookup name, hframes⟩, fun name hname => by cases hname⟩
    rcases hrepo with rfl | ⟨userName, password, rfl⟩
    · exact hsame fun _ => rfl
    · have hspec := register_spec srv.accountRepository_ io userName password {}
      by_cases hresult : (srv.accountRepository_.Register io userName password {}).1 = .kOk
      · have hregistered := hspec.2 hresult
        obtain ⟨record, -, -, hlookup⟩ := hregistered.lookup
        refine ⟨some userName, ⟨fun _ _ _ => rfl, fun _ _ => rfl, fun _ _ => rfl, fun _ _ => rfl,
          fun name hname _ => ?_, hframes⟩, fun name hname => ?_⟩
        · refine (hlookup name).trans (if_neg ?_)
          rintro rfl
          exact hname rfl
        · obtain rfl := Option.some.inj hname
          exact hregistered.fresh
      · exact hsame (hspec.1 hresult).2.lookup

/-- Only the ticket of the sender is put into the queue, or taken out of it. -/
theorem Confined.of_queue (own : Option Room) {t : PlayerSession} {q : MatchQueue}
    {ticket : Option MatchTicket} {o : List Effect}
    (ht : srv.sessionService_.findByConnection c = some t)
    (hq : ∀ u, q.find u = if u = t.userId_ then ticket else srv.matchQueue_.find u)
    (ho : ∀ c' frame, Effect.send c' frame ∈ o → c' = c) :
    Confined srv c own none ({ srv with matchQueue_ := q }, o) where
  sessions _ _ _ := rfl
  queue u hu := (hq u).trans (if_neg (hu _ ht).symm)
  rooms _ _ := rfl
  battles _ _ := rfl
  accounts _ _ _ := rfl
  frames c' frame hmem := Or.inl (ho c' frame hmem)

theorem JoinOutcome.confined {own : Option Room} {now : MatchTimePoint}
    {next : GameServer × List Effect} (hnext : JoinOutcome srv now c payload next) :
    Confined srv c own none next := by
  cases hnext with
  | refused => exact .refl own fun _ _ => eq_of_send_mem
  | accepted ht _ _ hq => exact .of_queue own ht hq fun _ _ => eq_of_send_mem

theorem CancelOutcome.confined {own : Option Room} {next : GameServer × List Effect}
    (hnext : CancelOutcome srv c payload next) : Confined srv c own none next := by
  cases hnext with
  | refused => exact .refl own fun _ _ => eq_of_send_mem
  | accepted ht _ _ hq => exact .of_queue own ht hq fun _ _ => eq_of_send_mem

theorem HeroOutcome.confined (h : Coherent srv) {next : GameServer × List Effect}
    (hnext : HeroOutcome srv c payload next) : Confined srv c (srv.roomOf c) none next := by
  -- what happens to the room of the sender happens to no other room
  have hown : ∀ {t room r}, srv.sessionService_.findByConnection c = some t → t.roomId_ ≠ 0 →
      srv.roomService_.find t.roomId_ = some room →
      (∀ room ∈ srv.roomOf c, room.roomId_ ≠ r) → r ≠ t.roomId_ := by
    rintro t room _ ht h0 hroom hr rfl
    rw [roomOf_eq ht h0, hroom] at hr
    exact hr room rfl (RoomService.find_roomId hroom)
  cases hnext with
  | refused => exact .refl _ fun _ _ => eq_of_send_mem
  | waiting ht h0 _ _ hroom _ _ hrs =>
    refine ⟨fun _ _ _ => rfl, fun _ _ => rfl, fun r hr => ?_, fun _ _ => rfl, fun _ _ _ => rfl,
      fun _ _ h => Or.inl (eq_of_send_mem h)⟩
    exact (hrs r).trans (if_neg (hown ht h0 hroom hr))
  | @started t request room room' rs bs ht h0 _ _ hroom hchosen _ hrs _ _ hbs =>
    refine ⟨fun _ _ _ => rfl, fun _ _ => rfl, fun r hr => ?_, fun r hr => ?_, fun _ _ _ => rfl,
      fun c' frame hmem => ?_⟩
    · exact (hrs r).trans (if_neg (hown ht h0 hroom hr))
    · exact (hbs r).trans (if_neg (hown ht h0 hroom hr))
    · have hmine : room ∈ srv.roomOf c := by rw [roomOf_eq ht h0, hroom, Option.mem_some_iff]
      have hmember : ∀ {u}, u ∈ room'.users → u ∈ room.users := fun hu => hchosen.users_eq ▸ hu
      have hfirst := hmember (Room.mem_users.mpr (Or.inl rfl))
      have hsecond := hmember (Room.mem_users.mpr (Or.inr rfl))
      rcases List.mem_cons.mp hmem with heq | hmem
      · exact Or.inl (Effect.send.inj heq).1
      · rcases List.mem_cons.mp hmem with heq | hmem
        · cases heq
        · rcases List.mem_append.mp hmem with hmem | hmem
          · exact Or.inr (h.toldBoth hmine hfirst hsecond hmem)
          · exact Or.inr (h.toldBoth hmine hfirst hsecond hmem)

/-! ### The end of a room -/

/-- The room of `c` ends, and only its members are told. -/
theorem RoomEnded.confined {r : UInt64} {f : PlayerSession → PlayerSession} {srv' : GameServer}
    (hend : RoomEnded srv r f srv') {room : Room} (hroom : room ∈ srv.roomOf c)
    (hr : room.roomId_ = r) (hout : ∀ t, t.userId_ ∉ room.users → f t = t)
    (haccounts : ∀ name, (∀ record, srv.accountRepository_.accounts_.lookup name = some record →
        record.account_.userId_ ∉ room.users) →
      srv'.accountRepository_.accounts_.lookup name =
        srv.accountRepository_.accounts_.lookup name)
    {o : List Effect} (ho : ∀ c' frame, Effect.send c' frame ∈ o →
      ∃ t, srv.sessionService_.findByConnection c' = some t ∧
        ∃ room ∈ srv.roomOf c, t.userId_ ∈ room.users) :
    Confined srv c (srv.roomOf c) none (srv', o) where
  sessions c' _ hc' := by
    show srv'.sessionService_.findByConnection c' = _
    -- the end of a room changes the sessions of its members only
    rw [hend.sessions.find]
    cases ht : srv.sessionService_.findByConnection c' with
    | none => rfl
    | some t => rw [Option.map_some, hout t (hc' t ht room hroom)]
  queue u _ := by
    show srv'.matchQueue_.find u = _
    rw [hend.queue]
  rooms r' hr' := by
    show srv'.roomService_.find r' = _
    rw [hend.rooms, if_neg]
    rintro rfl
    exact hr' room hroom hr
  battles r' hr' := by
    show srv'.battleService_.find r' = _
    rw [hend.battles, if_neg]
    rintro rfl
    exact hr' room hroom hr
  accounts name _ hname := haccounts name fun record hrecord => hname record hrecord room hroom
  frames c' frame hmem := Or.inr (ho c' frame hmem)

/-- The battle in the room of `c` ends. -/
theorem Finished.confined (h : Coherent srv) (hbooks : Books srv) {t t₁ t₂ : PlayerSession}
    {state state' : BattleState} {bs : BattleService} {io : SaveIO} {ok : Bool} {e₁ e₂ : UInt32}
    {srv' : GameServer} (ht : srv.sessionService_.findByConnection c = some t)
    (hstate : srv.battleService_.find t.roomId_ = some state)
    (hid : state'.roomId_ = state.roomId_) (hfirst : state'.firstUserId_ = state.firstUserId_)
    (hsecond : state'.secondUserId_ = state.secondUserId_)
    (hbs : ∀ r', bs.find r' = if r' = t.roomId_ then some state' else srv.battleService_.find r')
    (h₁ : srv.sessionService_.sessionOf state'.firstUserId_ = some t₁)
    (h₂ : srv.sessionService_.sessionOf state'.secondUserId_ = some t₂)
    (hfinished : Finished { srv with battleService_ := bs } io state' t₁ t₂ ok e₁ e₂ srv')
    {o : List Effect} (ho : ∀ c' frame, Effect.send c' frame ∈ o →
      ∃ t, srv.sessionService_.findByConnection c' = some t ∧
        ∃ room ∈ srv.roomOf c, t.userId_ ∈ room.users) :
    Confined srv c (srv.roomOf c) none (srv', o) := by
  have hend := h.roomEnded hstate hid hfirst hsecond hbs h₁ h₂ hfinished
  obtain ⟨room, hroom, hhosts⟩ := h.hosts hstate
  have hmine : room ∈ srv.roomOf c := by
    rw [roomOf_eq ht (battle_ne_zero hstate), hroom, Option.mem_some_iff]
  -- the players of the battle are the members of the room
  have hplayers : ∀ {u}, u ∉ room.users → u ≠ state'.firstUserId_ ∧ u ≠ state'.secondUserId_ := by
    intro u hu
    rw [← BattleState.mem_users_of_hosts hhosts, BattleState.mem_users, ← hfirst, ← hsecond] at hu
    exact not_or.mp hu
  have hne : state'.firstUserId_ ≠ state'.secondUserId_ := by
    rw [hfirst, hsecond]
    exact (BattleService.find_valid hstate).first_ne_second
  obtain ⟨-, -, hlookup⟩ := hfinished.lookup ⟨hbooks.sound, hbooks.backed⟩ h₁ h₂ hne
  refine hend.confined hmine (RoomService.find_roomId hroom) (fun s hs => ?_)
    (fun name hname => ?_) ho
  · obtain ⟨ha, hb⟩ := hplayers hs
    rw [settled, if_neg ha, if_neg hb]
  · rw [hlookup]
    cases hrecord : srv.accountRepository_.accounts_.lookup name with
    | none => rfl
    | some record =>
      obtain ⟨ha, hb⟩ := hplayers (hname record hrecord)
      rw [Option.map_some, settle, if_neg ha, if_neg hb]

theorem AttackOutcome.confined (h : Coherent srv) (hbooks : Books srv) {io : SaveIO}
    {next : GameServer × List Effect} (hnext : AttackOutcome srv io c payload next) :
    Confined srv c (srv.roomOf c) none next := by
  -- an attack of the user of `c` is in the room of `c`
  have hplayer : ∀ {t state state'}, srv.sessionService_.findByConnection c = some t →
      srv.battleService_.find t.roomId_ = some state → state.attack t.userId_ = some state' →
      ∃ room ∈ srv.roomOf c, room.roomId_ = t.roomId_ ∧
        state'.firstUserId_ ∈ room.users ∧ state'.secondUserId_ ∈ room.users := by
    intro t state state' ht hstate hattack
    have hattacked := BattleState.attack_spec (BattleService.find_valid hstate) hattack
    obtain ⟨room, hroom, hhosts⟩ := h.hosts hstate
    refine ⟨room, ?_, RoomService.find_roomId hroom, ?_, ?_⟩
    · rw [roomOf_eq ht (battle_ne_zero hstate), hroom, Option.mem_some_iff]
    · rw [Room.mem_users, hattacked.first, hhosts.first]
      exact Or.inl rfl
    · rw [Room.mem_users, hattacked.second, hhosts.second]
      exact Or.inr rfl
  cases hnext with
  | refused => exact .refl _ fun _ _ hmem => absurd hmem List.not_mem_nil
  | @hit t state state' bs ht hstate hattack _ hbs =>
    obtain ⟨room, hmine, hid, hfirst, hsecond⟩ := hplayer ht hstate hattack
    refine ⟨fun _ _ _ => rfl, fun _ _ => rfl, fun _ _ => rfl, fun r hr => ?_, fun _ _ _ => rfl,
      fun c' frame hmem => ?_⟩
    · refine (hbs r).trans (if_neg ?_)
      rintro rfl
      exact hr room hmine hid
    · dsimp only at hmem
      exact Or.inr (h.toldBoth hmine hfirst hsecond hmem)
  | felled ht hstate hattack _ hbs h₁ h₂ hfinished =>
    have hattacked := BattleState.attack_spec (BattleService.find_valid hstate) hattack
    obtain ⟨room, hmine, -, hfirst, hsecond⟩ := hplayer ht hstate hattack
    refine hfinished.confined h hbooks ht hstate hattacked.roomId hattacked.first
      hattacked.second hbs h₁ h₂ fun c' frame hmem => ?_
    rcases List.mem_append.mp hmem with hmem | hmem
    · exact h.toldBoth hmine hfirst hsecond hmem
    · rcases List.mem_cons.mp hmem with heq | hmem
      · cases heq
      · exact h.toldBoth hmine hfirst hsecond hmem

/-! ### Disconnects -/

variable (srv c) in
@[simp] theorem roomOf_dequeue : (srv.dequeue c).roomOf c = srv.roomOf c := by
  unfold roomOf
  rw [sessionService_dequeue, roomService_dequeue]

/-- Only the user of `c` is taken off the queue. -/
theorem Confined.of_dequeue {own : Option Room} {added : Option StdString}
    {next : GameServer × List Effect} (h : Confined (srv.dequeue c) c own added next) :
    Confined srv c own added next where
  sessions c' hne hc' := by simpa using h.sessions c' hne (by simpa using hc')
  queue u hu := by
    rw [h.queue u (by simpa using hu), find_dequeue, if_neg]
    rintro ⟨t, ht, htu⟩
    exact hu t ht htu
  rooms r hr := by simpa using h.rooms r hr
  battles r hr := by simpa using h.battles r hr
  accounts name hadded hname := by simpa using h.accounts name hadded (by simpa using hname)
  frames c' frame hmem := by simpa using h.frames c' frame hmem

/-- Only the session of `c` is removed. -/
theorem Confined.logout {own : Option Room} {added : Option StdString} {srv₁ : GameServer}
    {o : List Effect} (h : Confined srv c own added (srv₁, o)) :
    Confined srv c own added (srv₁.logout c, o) where
  sessions c' hne hc' := by
    rw [← h.sessions c' hne hc']
    exact (findByConnection_remove c c').trans (if_neg hne)
  queue := h.queue
  rooms := h.rooms
  battles := h.battles
  accounts := h.accounts
  frames := h.frames

theorem CloseOutcome.confined (h : Coherent srv) (hbooks : Books srv) {io : SaveIO}
    {next : GameServer × List Effect} (hnext : CloseOutcome srv io c next) :
    Confined srv c (srv.roomOf c) none next := by
  rw [← roomOf_dequeue]
  cases hnext with
  | free =>
    exact (Confined.refl _ fun _ _ hmem => absurd hmem List.not_mem_nil).logout.of_dequeue
  | @left t room srv₁ ht h0 _ hroom hmem _ hend hrepo =>
    have hmine : room ∈ srv.roomOf c := by rw [roomOf_eq ht h0, hroom, Option.mem_some_iff]
    rw [← roomOf_dequeue] at hmine
    -- only the session of the opponent is taken out of the room
    have hopponent : ∀ t' : PlayerSession, t'.userId_ ∉ room.users →
        inRoom (opponentOf room t.userId_) 0 t' = t' := by
      intro t' hout
      apply inRoom_of_ne 0
      rintro heq
      exact hout (heq ▸ hmem)
    have haccounts : ∀ name, srv₁.accountRepository_.accounts_.lookup name =
        (srv.dequeue c).accountRepository_.accounts_.lookup name := by
      intro name
      rw [hrepo, accountRepository_dequeue]
    refine (hend.confined hmine (RoomService.find_roomId hroom) hopponent
      (fun name _ => haccounts name) fun c' frame hsend => ?_).logout.of_dequeue
    rw [roomOf_dequeue] at hmine
    simpa using h.told hmine hmem (List.mem_singleton.mp hsend)
  | @forfeited t t₁ t₂ state state' bs ok e₁ e₂ srv₁ ht hstate hforfeit hbs h₁ h₂ hfinished =>
    have hf := BattleState.forfeit_spec (BattleService.find_valid hstate) hforfeit
    obtain ⟨room, hroom, hhosts⟩ := h.hosts hstate
    have hmine : room ∈ srv.roomOf c := by
      rw [roomOf_eq ht (battle_ne_zero hstate), hroom, Option.mem_some_iff]
    have hfirst : state'.firstUserId_ ∈ room.users := by
      rw [Room.mem_users, hf.first, hhosts.first]
      exact Or.inl rfl
    have hsecond : state'.secondUserId_ ∈ room.users := by
      rw [Room.mem_users, hf.second, hhosts.second]
      exact Or.inr rfl
    refine (hfinished.confined (h.dequeue c) ⟨by simpa using hbooks.sound,
      by simpa using hbooks.backed⟩ (by simpa using ht) (by simpa using hstate) hf.roomId hf.first
      hf.second (by simpa using hbs) (by simpa using h₁) (by simpa using h₂)
      fun c' frame hsend => ?_).logout.of_dequeue
    rcases List.mem_cons.mp hsend with heq | hsend
    · cases heq
    · simpa using h.toldBoth hmine hfirst hsecond hsend

/-! ### Every message and every disconnect -/

theorem Outcome.confined (h : Coherent srv) (hbooks : Books srv) {event : Event}
    (hacts : event.ActsFor c) {next : GameServer × List Effect}
    (hnext : Outcome range srv event next) :
    ∃ added, Confined srv c (srv.roomOf c) added next ∧ ∀ name ∈ added,
      srv.accountRepository_.accounts_.lookup name = none ∧
        ∃ payload now io, event = .message c (MSG_REGISTER_REQ, payload) now io := by
  have hnobody : Confined srv c (srv.roomOf c) none next →
      ∃ added, Confined srv c (srv.roomOf c) added next ∧ ∀ name ∈ added,
        srv.accountRepository_.accounts_.lookup name = none ∧
          ∃ payload now io, event = .message c (MSG_REGISTER_REQ, payload) now io :=
    fun hconfined => ⟨none, hconfined, fun name hname => by cases hname⟩
  cases hacts with
  | message =>
    cases hnext with
    | ignored => exact hnobody (.refl _ fun _ _ hmem => absurd hmem List.not_mem_nil)
    | login hlogin => exact hnobody hlogin.confined
    | register hregister =>
      obtain ⟨added, hconfined, hfresh⟩ := hregister.confined
      exact ⟨added, hconfined, fun name hname => ⟨hfresh name hname, _, _, _, rfl⟩⟩
    | join hjoin => exact hnobody hjoin.confined
    | cancel hcancel => exact hnobody hcancel.confined
    | hero hhero => exact hnobody (hhero.confined h)
    | attack hattack => exact hnobody (hattack.confined h hbooks)
  | closed =>
    cases hnext with
    | closed hclose => exact hnobody (hclose.confined h hbooks)

/-- Who is not logged in can only log in or register. -/
theorem Outcome.eq_of_offline {frame : Frame} {now : MatchTimePoint} {io : SaveIO}
    {next : GameServer × List Effect}
    (hnext : Outcome range srv (.message c frame now io) next)
    (hnone : srv.sessionService_.findByConnection c = none) (hlogin : frame.1 ≠ MSG_LOGIN_REQ)
    (hregister : frame.1 ≠ MSG_REGISTER_REQ) : next.1 = srv := by
  have hsession : ∀ {t}, srv.sessionService_.findByConnection c ≠ some t := by simp [hnone]
  cases hnext with
  | ignored => rfl
  | login => exact absurd rfl hlogin
  | register => exact absurd rfl hregister
  | join hjoin =>
    cases hjoin with
    | refused => rfl
    | accepted ht => exact absurd ht hsession
  | cancel hcancel =>
    cases hcancel with
    | refused => rfl
    | accepted ht => exact absurd ht hsession
  | hero hhero =>
    cases hhero with
    | refused => rfl
    | waiting ht => exact absurd ht hsession
    | started ht => exact absurd ht hsession
  | attack hattack =>
    cases hattack with
    | refused => rfl
    | hit ht => exact absurd ht hsession
    | felled ht => exact absurd ht hsession

theorem Outcome.staysInside (h : Coherent srv) (hbooks : Books srv) {event : Event}
    (hacts : event.ActsFor c) {next : GameServer × List Effect}
    (hnext : Outcome range srv event next) : StaysInside srv c (srv.roomOf c) event next where
  confined := hnext.confined h hbooks hacts
  idle := by
    rintro hnone frame now io rfl hlogin hregister
    exact hnext.eq_of_offline hnone hlogin hregister

theorem Accounted.memberOf {o : List Effect} (h : Accounted o srv) {room : Room}
    (hroom : room ∈ srv.roomOf c) : srv.MemberOf c room := by
  obtain ⟨t, ht, h0, hfind⟩ := mem_roomOf hroom
  obtain ⟨room', hroom', hmem⟩ := h.lodged.housed _ t (sessionOf_of_session ht) h0
  obtain rfl : room = room' := Option.some.inj (hfind.symm.trans hroom')
  exact ⟨by rw [RoomService.find_roomId hfind, hfind], t, ht, hmem⟩

/-- **Actions stay inside the room of the actor.**  A message or a disconnect of `c` touches nobody
outside the room that the session of `c` names, in any run from accounts with unique ids; and as
long as fewer than 2^64 - 1 rooms have been created, the user of `c` is a member of that room. -/
theorem stays_inside {file : Option (List UInt8)} (h : init file = some srv)
    (hunique : UniqueIds srv.accountRepository_.accounts_) {events : List Event}
    (hrun : (machine range).CanRun srv events) {event : Event}
    (hacts : event.ActsFor c) (hp : event.Possible ((machine range).run srv events).1) :
    let last := ((machine range).run srv events).1
    StaysInside last c (last.roomOf c) event (last.step range event) ∧
      (roomsCreated ((machine range).run srv events).2 < 2 ^ 64 - 1 →
        ∀ room ∈ last.roomOf c, last.MemberOf c room) := by
  have haudited := audited_run h hunique hrun
  refine ⟨(step_outcome range haudited.coherent hp).staysInside haudited.coherent haudited.books
    hacts, fun hrooms room hroom => ?_⟩
  exact (accounted_run h hrun hrooms).memberOf hroom

/-- One of two players who have been matched leaves. -/
theorem stays_inside_two_players :
    let events := Wraparound.arrival ++ Wraparound.search ++ [.tick 0]
    let last := ((machine allowedEloRange).run Wraparound.freshServer events).1
    (last.roomOf 2).map Room.users = some [1, 2] ∧
      StaysInside last 2 (last.roomOf 2) (.closed 2 Wraparound.reliable)
        (last.step allowedEloRange (.closed 2 Wraparound.reliable)) ∧
      ∀ room ∈ last.roomOf 2, last.MemberOf 2 room := by
  intro events last
  have hrun : (machine allowedEloRange).CanRun Wraparound.freshServer events := by decide +kernel
  have hp : (Event.closed 2 Wraparound.reliable).Possible last := by
    show _ ∈ _
    decide +kernel
  have hrooms : roomsCreated
      ((machine allowedEloRange).run Wraparound.freshServer events).2 = 1 := by decide +kernel
  obtain ⟨hinside, hmember⟩ := stays_inside (rfl : init none = _)
    uniqueIds_freshServer hrun (.closed _) hp
  exact ⟨by decide +kernel, hinside, hmember (hrooms.trans_lt (by decide))⟩

/-- Whoever is in a room without a battle that is not his closes it. -/
theorem Wraparound.Intruders.closed (h : Wraparound.Intruders srv) {t : PlayerSession}
    (ht : srv.sessionService_.findByConnection c = some t) (hu : t.userId_ = 3) (hc : c ≠ 1) :
    (srv.onDisconnected Wraparound.reliable 1).1.sessionService_.findByConnection c =
      some { t with roomId_ := 0 } := by
  rw [onDisconnected_eq]
  simp only [h.session, leaveRoom, battleService_dequeue, h.battles, roomService_dequeue, h.room]
  rw [if_neg (by decide)]
  refine (findByConnection_remove 1 c).trans ?_
  rw [if_neg hc, sessionService_dequeue, clearRoom_eq]
  refine ((mapped_markInRoom _ 0).find c).trans ?_
  rw [ht, Option.map_some]
  exact congrArg some (if_pos hu)

/-- After 2^64 rooms a player who leaves closes the room of two others. -/
theorem not_stays_inside :
    ¬ ∀ (file : Option (List UInt8)) (srv : GameServer) (events : List Event) (c : UInt64)
      (event : Event), init file = some srv → UniqueIds srv.accountRepository_.accounts_ →
      (machine allowedEloRange).CanRun srv events → event.ActsFor c →
      event.Possible ((machine allowedEloRange).run srv events).1 →
      let last := ((machine allowedEloRange).run srv events).1
      ∃ own : Option Room, (∀ room ∈ own, last.MemberOf c room) ∧
        StaysInside last c own event (last.step allowedEloRange event) := by
  intro h
  obtain ⟨events, srv, hreach, hintruders⟩ := Wraparound.exists_intruders
  have hclaim := h none Wraparound.freshServer events 1 (.closed 1 Wraparound.reliable) rfl
    uniqueIds_freshServer hreach.canRun (.closed _)
  simp only [hreach.last] at hclaim
  obtain ⟨own, hown, hinside⟩ := hclaim hintruders.connected
  obtain ⟨added, hconfined, -⟩ := hinside.confined
  obtain ⟨t, ht, hroom⟩ := hintruders.coherent.inRoom (by decide) hintruders.room 3 (by decide)
  obtain ⟨c, hc, hu⟩ := sessionOf_eq_some_iff.mp ht
  have hne : c ≠ 1 := by
    rintro rfl
    obtain rfl := Option.some.inj (hintruders.session.symm.trans hc)
    exact absurd hu (by decide)
  have hkept := hconfined.sessions c hne fun t' ht' room hmem => by
    obtain rfl := Option.some.inj (hc.symm.trans ht')
    obtain ⟨hfind, t₁, ht₁, hmember⟩ := hown room hmem
    obtain rfl := Option.some.inj (hintruders.session.symm.trans ht₁)
    rw [hu]
    exact hintruders.members _ _ hfind hmember
  change (srv.onDisconnected Wraparound.reliable 1).1.sessionService_.findByConnection c = _ at hkept
  rw [hintruders.closed hc hu hne, hc] at hkept
  -- the session was in the room 1 and is in no room any more
  have hzero : (0 : UInt64) = t.roomId_ :=
    congrArg PlayerSession.roomId_ (Option.some.inj hkept)
  rw [hroom] at hzero
  exact absurd hzero (by decide)

end ArenaGame.GameServer
