import ArenaGame.Server.Equiv.Step

/-!
# The room counter wraps around

Two players are matched and leave their room again, over and over.  Each time the next room gets
the next number, so after 2^64 - 1 rooms it gets the number 0 (`exists_lobby_zero`), which means "no
room" everywhere else.

If two others stay in the room 1 all the time, the two players are put into that room once the
counter has come around (`exists_intruders`).
-/

namespace ArenaGame.GameServer

open SessionService MatchmakingService GameProtocol GameMessages

namespace Wraparound

/-- A file system that works. -/
def reliable : SaveIO where
  order := id
  order_perm _ := .refl _
  opened := true
  good := true
  renamed := true

def firstPlayer : Account := { userId_ := 1, userName_ := [97] }

def secondPlayer : Account := { userId_ := 2, userName_ := [98] }

def thirdPlayer : Account := { userId_ := 3, userName_ := [99] }

def fourthPlayer : Account := { userId_ := 4, userName_ := [100] }

def registration (account : Account) : Frame :=
  (ClientRequest.registerReq { userName_ := account.userName_, password_ := [112] }).frame

def login (account : Account) : Frame :=
  (ClientRequest.loginReq { userName_ := account.userName_, password_ := [112] }).frame

/-- Both players register and log in. -/
def arrival : List Event :=
  [.opened 1, .opened 2, .message 1 (registration firstPlayer) 0 reliable,
    .message 2 (registration secondPlayer) 0 reliable, .message 1 (login firstPlayer) 0 reliable,
    .message 2 (login secondPlayer) 0 reliable]

/-- Two others arrive, too, and are matched. -/
def others : List Event :=
  [.opened 3, .opened 4, .message 3 (registration thirdPlayer) 0 reliable,
    .message 4 (registration fourthPlayer) 0 reliable, .message 3 (login thirdPlayer) 0 reliable,
    .message 4 (login fourthPlayer) 0 reliable,
    .message 3 ClientRequest.matchJoinReq.frame 0 reliable,
    .message 4 ClientRequest.matchJoinReq.frame 0 reliable, .tick 0]

/-- The room of the two others. -/
def othersRoom : Room := { roomId_ := 1, firstUserId_ := 3, secondUserId_ := 4 }

/-- Both players look for a match. -/
def search : List Event :=
  [.message 1 ClientRequest.matchJoinReq.frame 0 reliable,
    .message 2 ClientRequest.matchJoinReq.frame 0 reliable]

/-- The server before its first event. -/
def freshServer : GameServer := (init none).get rfl

/-- The first player is online and in no room. -/
structure First (srv : GameServer) : Prop where
  coherent : Coherent srv
  connected : 1 ∈ srv.connections_
  session : srv.sessionService_.findByConnection 1 = some (sessionFor firstPlayer)
  account : srv.accountRepository_.Verify [98] [112] {} = (.kOk, secondPlayer)

/-- Both players are online and in no room, nobody is queued, and the next room gets the number
`n`; there are the rooms `rooms`, without battles. -/
structure Lobby (rooms : UInt64 → Option Room) (n : UInt64) (srv : GameServer) : Prop
    extends First srv where
  connected₂ : 2 ∈ srv.connections_
  session₂ : srv.sessionService_.findByConnection 2 = some (sessionFor secondPlayer)
  queue : ∀ u, srv.matchQueue_.find u = none
  rooms_eq : ∀ r, srv.roomService_.find r = rooms r
  battles : ∀ r, srv.battleService_.find r = none
  next : srv.roomService_.nextRoomId_ = n

abbrev server := machine allowedEloRange

theorem lobby_arrival : server.CanRun freshServer arrival ∧
    Lobby (fun _ => none) 1 (server.run freshServer arrival).1 := by
  have hrun : server.CanRun freshServer arrival := by
    refine ⟨⟨by decide, by decide⟩, ⟨by decide, by decide⟩, ?_, ?_, ?_, ?_, trivial⟩ <;>
      show _ ∈ _ <;> decide +kernel
  refine ⟨hrun, ⟨coherent_run (rfl : init none = _) hrun, ?_, ?_, ?_⟩, ?_, ?_, fun _ => rfl,
    fun _ => rfl, fun _ => rfl, rfl⟩ <;> decide +kernel

theorem lobby_others : server.CanRun freshServer (arrival ++ others) ∧
    Lobby (fun r => if r = 1 then some othersRoom else none) 2
      (server.run freshServer (arrival ++ others)).1 := by
  have hrun : server.CanRun freshServer (arrival ++ others) := by decide +kernel
  have hqueue : (server.run freshServer
      (arrival ++ others)).1.matchQueue_.ticketsByUserId_ = ∅ := by decide +kernel
  have hrooms : (server.run freshServer (arrival ++ others)).1.roomService_.rooms_ =
      Finmap.insert 1 othersRoom ∅ := by decide +kernel
  have hbattles : (server.run freshServer (arrival ++ others)).1.battleService_.battles_ = ∅ := by
    decide +kernel
  refine ⟨hrun, ⟨coherent_run (rfl : init none = _) hrun, ?_, ?_, ?_⟩, ?_, ?_, fun u => ?_,
    fun r => ?_, fun r => ?_, ?_⟩
  · decide +kernel
  · decide +kernel
  · decide +kernel
  · decide +kernel
  · decide +kernel
  · simp [MatchQueue.find, hqueue]
  · rw [RoomService.find, hrooms, UnorderedMap.lookup_insert, Finmap.lookup_empty]
  · rw [BattleService.find, hbattles, Finmap.lookup_empty]
  · decide +kernel

/-! ### A search -/

/-- A player in no room who is not queued may join. -/
theorem join_accepted (srv : GameServer) {c : UInt64} {t : PlayerSession}
    (hc : c ∈ srv.connections_) (ht : srv.sessionService_.findByConnection c = some t)
    (h0 : t.roomId_ = 0) (hnone : srv.matchQueue_.find t.userId_ = none) :
    ∃ q, srv.step allowedEloRange (.message c ClientRequest.matchJoinReq.frame 0 reliable) =
        ({ srv with matchQueue_ := q },
          [.send c (ServerMessage.matchJoinRsp { accepted_ := true }).frame]) ∧
      ∀ u, q.find u = if u = t.userId_ then some (ticketFor t 0) else srv.matchQueue_.find u := by
  have hjoin := handleMatchJoin_outcome ClientRequest.matchJoinReq.frame.2 0 hc
  change JoinOutcome srv 0 c _
    (srv.step allowedEloRange (.message c ClientRequest.matchJoinReq.frame 0 reliable)) at hjoin
  generalize srv.step allowedEloRange _ = next at hjoin ⊢
  cases hjoin with
  | refused _ _ hwhy => exact absurd hnone (hwhy t ht h0 (by decide))
  | @accepted t' q ht' _ _ hq =>
    obtain rfl : t = t' := Option.some.inj (ht.symm.trans ht')
    exact ⟨q, rfl, hq⟩

/-- The queue holds the tickets of the two players. -/
def BothQueued (q : MatchQueue) : Prop :=
  ∀ u, q.find u =
    if u = 2 then some (ticketFor (sessionFor secondPlayer) 0)
    else if u = 1 then some (ticketFor (sessionFor firstPlayer) 0) else none

theorem BothQueued.drawn {q q' : MatchQueue} (h : BothQueued q) {pair : MatchPair}
    (hdraw : MatchQueue.Drawn allowedEloRange 0 q pair q') :
    (pair.users = [1, 2] ∨ pair.users = [2, 1]) ∧ ∀ u, q'.find u = none := by
  have huser : ∀ {u ticket}, q.find u = some ticket → u = 1 ∨ u = 2 := by
    intro u ticket hu
    rw [h] at hu
    split_ifs at hu with h₂ h₁
    · exact Or.inr h₂
    · exact Or.inl h₁
  have husers : pair.users = [1, 2] ∨ pair.users = [2, 1] := by
    have hne := hdraw.ne
    unfold MatchPair.users
    rcases huser hdraw.first with h₁ | h₁ <;> rcases huser hdraw.second with h₂ | h₂ <;>
      simp [h₁, h₂] at hne ⊢
  refine ⟨husers, fun u => ?_⟩
  rw [hdraw.find]
  split
  · rfl
  · rename_i hu
    cases hq : q.find u with
    | none => rfl
    | some ticket =>
      refine absurd (mem_users.mp ?_) hu
      rcases husers with hp | hp <;> rcases huser hq with rfl | rfl <;> simp [hp]

/-- The tick draws the two players and leaves nobody in the queue. -/
theorem BothQueued.rounds {s s' : MatchmakingService} {outcomes : Outcomes}
    (h : BothQueued s.matchQueue_) (hrounds : Rounds allowedEloRange 0 s outcomes s') :
    ∃ pair q, (pair.users = [1, 2] ∨ pair.users = [2, 1]) ∧ (∀ u, q.find u = none) ∧
      outcomes = [(pair, ({ s with matchQueue_ := q }.placePair pair).1)] ∧
      s' = ({ s with matchQueue_ := q }.placePair pair).2 := by
  cases hrounds with
  | done hdraw =>
    have hfar := (MatchQueue.tryMatch_none hdraw).2 1 2 _ _ (h 1) (h 2) (by decide)
    refine absurd ?_ hfar
    norm_num [MatchQueue.Within, ticketFor, sessionFor, firstPlayer, secondPlayer, eloDifferentce,
      allowedEloRange, kInitialEloRange]
  | @round _ pair q' outcomes _ hdraw hrest =>
    obtain ⟨husers, hempty⟩ := h.drawn (MatchQueue.tryMatch_some hdraw)
    refine ⟨pair, q', husers, hempty, ?_⟩
    -- there is nobody left to draw
    cases hrest with
    | done hlast =>
      obtain ⟨rfl, -⟩ := MatchQueue.tryMatch_none hlast
      exact ⟨rfl, rfl⟩
    | round hlast =>
      have hfirst := (MatchQueue.tryMatch_some hlast).first
      rw [matchQueue_placePair, hempty] at hfirst
      cases hfirst

/-- After a search both players are queued. -/
theorem Lobby.search {rooms : UInt64 → Option Room} {n : UInt64} {srv : GameServer}
    (h : Lobby rooms n srv) :
    ∃ q, BothQueued q ∧ server.Reaches srv search { srv with matchQueue_ := q } := by
  obtain ⟨q₁, hstep₁, hq₁⟩ := join_accepted srv h.connected h.session rfl (h.queue _)
  obtain ⟨q₂, hstep₂, hq₂⟩ := join_accepted { srv with matchQueue_ := q₁ } h.connected₂
    h.session₂ rfl (by rw [hq₁, h.queue]; rfl)
  refine ⟨q₂, fun u => ?_, .cons h.connected ?_⟩
  · simp only [hq₂, hq₁, h.queue]
    rfl
  · show server.Reaches (srv.step allowedEloRange _).1 _ _
    rw [hstep₁]
    refine .cons h.connected₂ ?_
    show server.Reaches (GameServer.step _ allowedEloRange _).1 _ _
    rw [hstep₂]
    exact .nil _

/-- The two players have been put into the room `n`; for `n = 0` they do not know. -/
structure Matched (rooms : UInt64 → Option Room) (n : UInt64) (srv : GameServer) : Prop where
  coherent : Coherent srv
  connected : 1 ∈ srv.connections_
  connected₂ : 2 ∈ srv.connections_
  session : srv.sessionService_.findByConnection 1 =
    some { sessionFor firstPlayer with roomId_ := n }
  session₂ : srv.sessionService_.findByConnection 2 =
    some { sessionFor secondPlayer with roomId_ := n }
  account : srv.accountRepository_.Verify [98] [112] {} = (.kOk, secondPlayer)
  queue : ∀ u, srv.matchQueue_.find u = none
  rooms_eq : ∀ r, srv.roomService_.find r = rooms r
  battles : ∀ r, srv.battleService_.find r = none
  next : srv.roomService_.nextRoomId_ = n + 1

/-- The rooms after the number `n` was given to a room for the two players. -/
inductive Founded (rooms : UInt64 → Option Room) (n : UInt64) : (UInt64 → Option Room) → Prop
  | free {room : Room} : rooms n = none → room.users = [1, 2] ∨ room.users = [2, 1] →
      Founded rooms n fun r => if r = n then some room else rooms r
  /-- The number is in use, and the room that has it stays. -/
  | taken {room : Room} : rooms n = some room → Founded rooms n rooms

theorem Founded.room {rooms rooms' : UInt64 → Option Room} {n : UInt64}
    (h : Founded rooms n rooms') (hfree : rooms n = none) :
    ∃ room : Room, (room.users = [1, 2] ∨ room.users = [2, 1]) ∧
      ∀ r, rooms' r = if r = n then some room else rooms r := by
  cases h with
  | @free room _ husers => exact ⟨room, husers, fun _ => rfl⟩
  | taken hroom => cases hfree.symm.trans hroom

/-- A room for the two players. -/
theorem Lobby.create {rooms : UInt64 → Option Room} {n : UInt64} {srv : GameServer}
    (h : Lobby rooms n srv) {pair : MatchPair}
    (hp : pair.users = [1, 2] ∨ pair.users = [2, 1]) :
    (srv.roomService_.create pair.first_.userId_ pair.second_.userId_).1 = n ∧
      (srv.roomService_.create pair.first_.userId_ pair.second_.userId_).2.nextRoomId_ = n + 1 ∧
      ∃ rooms', Founded rooms n rooms' ∧
        ∀ r, (srv.roomService_.create pair.first_.userId_ pair.second_.userId_).2.find r =
          rooms' r := by
  have hacc : ¬ RoomService.Refused pair.first_.userId_ pair.second_.userId_ := by
    simp only [MatchPair.users, List.cons.injEq, and_true] at hp
    rcases hp with ⟨h₁, h₂⟩ | ⟨h₁, h₂⟩ <;> rw [h₁, h₂] <;> decide
  refine ⟨by rw [RoomService.create_fst hacc, h.next],
    by rw [RoomService.nextRoomId_create hacc, h.next], ?_⟩
  have hfind := RoomService.find_create (s := srv.roomService_) hacc
  simp only [h.next, h.rooms_eq] at hfind
  cases hn : rooms n with
  | none =>
    let room : Room :=
      { roomId_ := n, firstUserId_ := pair.first_.userId_, secondUserId_ := pair.second_.userId_ }
    have husers : room.users = [1, 2] ∨ room.users = [2, 1] := hp
    refine ⟨_, .free hn husers, fun r => ?_⟩
    rw [hfind]
    by_cases hr : r = n <;> simp [hr, hn, room]
  | some room =>
    refine ⟨rooms, .taken hn, fun r => ?_⟩
    rw [hfind, if_neg]
    rintro ⟨rfl, hnone⟩
    cases hn.symm.trans hnone

/-- What a tick does with the two players. -/
theorem Lobby.tick {rooms : UInt64 → Option Room} {n : UInt64} {srv : GameServer}
    (h : Lobby rooms n srv) {q : MatchQueue} (hq : BothQueued q)
    (hco : Coherent { srv with matchQueue_ := q }) {next}
    (hnext : next = { srv with matchQueue_ := q }.step allowedEloRange (.tick 0)) :
    ∃ rooms', Founded rooms n rooms' ∧ Matched rooms' n next.1 ∧ (n = 0 → next.2 = []) := by
  have hco' : Coherent next.1 := hnext ▸ hco.step _ trivial
  have htick := processMatchmakingTick_outcome allowedEloRange 0 hco
  change TickOutcome allowedEloRange 0 _
    (GameServer.step { srv with matchQueue_ := q } allowedEloRange (.tick 0)) at htick
  rw [← hnext] at htick
  clear hnext
  cases htick with
  | @rounds outcomes s' hrounds =>
    obtain ⟨pair, q', husers, hempty, rfl, rfl⟩ := hq.rounds hrounds
    obtain ⟨hid, hcounter, rooms', hfounded, hrooms⟩ := h.create husers
    refine ⟨rooms', hfounded, ?_⟩
    have hcases := placePair_cases { srv.toMatchmakingService with matchQueue_ := q' } pair
    change Coherent { srv with
      toMatchmakingService :=
        ({ srv.toMatchmakingService with matchQueue_ := q' }.placePair pair).2 } at hco'
    show Matched rooms' n { srv with
      toMatchmakingService :=
        ({ srv.toMatchmakingService with matchQueue_ := q' }.placePair pair).2 } ∧ (n = 0 →
      List.flatMap _ (Outcomes.events
        [(pair, ({ srv.toMatchmakingService with matchQueue_ := q' }.placePair pair).1)]) = [])
    generalize { srv.toMatchmakingService with matchQueue_ := q' }.placePair pair = placed
      at hcases hco' ⊢
    -- both players are online, and the number 0 stands for no room
    cases hcases with
    | @skipped u hu hout =>
      have hu' : u = 1 ∨ u = 2 := by
        rcases husers with hp | hp <;> simpa [hp, or_comm] using hu
      rcases hu' with rfl | rfl
      · exact absurd rfl (hout _ (sessionOf_of_session h.session))
      · exact absurd rfl (hout _ (sessionOf_of_session h.session₂))
    | noRoom _ _ _ _ h0 =>
      obtain rfl : n = 0 := hid.symm.trans h0
      exact ⟨⟨hco', h.connected, h.connected₂, h.session, h.session₂, h.account, hempty,
        hrooms, h.battles, hcounter⟩, fun _ => rfl⟩
    | found _ _ _ _ hr h0 =>
      obtain rfl : n = _ := hid.symm.trans hr
      have hmark := (mapped_markInRoom (s := srv.sessionService_) pair.first_.userId_ n).comp
        (mapped_markInRoom pair.second_.userId_ n)
      simp only [MatchPair.users, List.cons.injEq, and_true] at husers
      refine ⟨⟨hco', h.connected, h.connected₂, ?_, ?_, h.account, hempty, hrooms, h.battles,
        hcounter⟩, fun h => absurd h h0⟩
      · refine (hmark.find 1).trans ?_
        rw [h.session]
        rcases husers with ⟨h₁, h₂⟩ | ⟨h₁, h₂⟩ <;> rw [h₁, h₂] <;> rfl
      · refine (hmark.find 2).trans ?_
        rw [h.session₂]
        rcases husers with ⟨h₁, h₂⟩ | ⟨h₁, h₂⟩ <;> rw [h₁, h₂] <;> rfl

/-- The two players look for a match and are put into the next room. -/
theorem Lobby.matched {rooms : UInt64 → Option Room} {n : UInt64} {srv : GameServer}
    (h : Lobby rooms n srv) :
    ∃ rooms' srv', Founded rooms n rooms' ∧ Matched rooms' n srv' ∧
      server.Reaches srv (Wraparound.search ++ [.tick 0]) srv' := by
  obtain ⟨q, hq, hsearch⟩ := h.search
  obtain ⟨rooms', hfounded, hmatched, -⟩ := h.tick hq (h.coherent.reaches hsearch) rfl
  have htick : server.Enabled { srv with matchQueue_ := q } (.tick 0) := trivial
  exact ⟨rooms', _, hfounded, hmatched, hsearch.trans (.cons htick (.nil _))⟩

/-- The second player has left the server. -/
structure Alone (rooms : UInt64 → Option Room) (n : UInt64) (srv : GameServer) : Prop
    extends First srv where
  disconnected : 2 ∉ srv.connections_
  offline : srv.sessionService_.sessionOf 2 = none
  session₂ : srv.sessionService_.findByConnection 2 = none
  queue : ∀ u, srv.matchQueue_.find u = none
  rooms_eq : ∀ r, srv.roomService_.find r = rooms r
  battles : ∀ r, srv.battleService_.find r = none
  next : srv.roomService_.nextRoomId_ = n

/-- The second player leaves the room, which is closed for the first. -/
theorem Matched.closed {rooms rooms' : UInt64 → Option Room} {n : UInt64} {srv : GameServer}
    (h : Matched rooms' n srv) (hfounded : Founded rooms n rooms') (hfree : rooms n = none)
    (hn : n ≠ 0) : Alone rooms (n + 1) (srv.step allowedEloRange (.closed 2 reliable)).1 := by
  have hpossible : (Event.closed 2 reliable).Possible srv := h.connected₂
  have hco := h.coherent.step allowedEloRange hpossible
  have hclose := onDisconnected_outcome 2 reliable h.coherent
  change CloseOutcome srv reliable 2 (srv.step allowedEloRange (.closed 2 reliable)) at hclose
  generalize srv.step allowedEloRange (.closed 2 reliable) = next at hclose hco ⊢
  obtain ⟨room, husers, hroom⟩ := hfounded.room hfree
  have hown : srv.roomService_.find n = some room := by rw [h.rooms_eq, hroom, if_pos rfl]
  have hmember : ∀ u, u ∈ room.users ↔ u = 1 ∨ u = 2 := by
    intro u
    rcases husers with hp | hp <;> simp [hp, or_comm]
  -- the player is in the room and it has no battle, so the room is closed
  cases hclose with
  | free hfree => exact absurd ((hmember 2).mpr (Or.inr rfl)) (hfree _ h.session₂ n room hn hown)
  | forfeited _ hstate => cases hstate.symm.trans (h.battles _)
  | @left t room' srv₁ ht _ _ hroom' hmem hne hend hrepo =>
    obtain rfl := Option.some.inj (h.session₂.symm.trans ht)
    obtain rfl : room = room' := Option.some.inj (hown.symm.trans hroom')
    have hopp : opponentOf room 2 = 1 := ((hmember _).mp hmem).resolve_right hne
    have hsessions : ∀ c, srv₁.sessionService_.findByConnection c =
        (srv.sessionService_.findByConnection c).map (inRoom 1 0) := by
      intro c
      have hfind := hend.sessions.find c
      rw [sessionService_dequeue] at hfind
      rw [← hopp]
      exact hfind
    have hgone : srv₁.sessionService_.findByConnection 2 =
        some { sessionFor secondPlayer with roomId_ := n } := by
      rw [hsessions, h.session₂]
      rfl
    have hconnections : srv₁.connections_ = srv.connections_ := by
      rw [hend.connections, connections_dequeue]
    -- the first player keeps connection, session and account; then come the second player and
    -- the stores
    refine ⟨⟨hco, ?_, ?_, ?_⟩, ?_, ?_, ?_, fun u => ?_, fun r => ?_, fun r => ?_, ?_⟩
    · exact Finset.mem_erase.mpr ⟨by decide, hconnections ▸ h.connected⟩
    · refine (findByConnection_remove 2 1).trans ?_
      rw [if_neg (by decide), hsessions, h.session]
      rfl
    · show srv₁.accountRepository_.Verify _ _ _ = _
      rw [hrepo, h.account]
    · exact Finset.notMem_erase 2 _
    · exact (sessionOf_remove hgone 2).trans (if_pos rfl)
    · exact (findByConnection_remove 2 2).trans (if_pos rfl)
    · show srv₁.matchQueue_.find u = none
      rw [hend.queue, find_dequeue, h.queue, ite_self]
    · show srv₁.roomService_.find r = rooms r
      rw [hend.rooms, roomService_dequeue, h.rooms_eq, hroom]
      split
      · rename_i hr
        rw [hr, hfree]
      · rfl
    · show srv₁.battleService_.find r = none
      rw [hend.battles, battleService_dequeue, h.battles, ite_self]
    · show srv₁.roomService_.nextRoomId_ = n + 1
      rw [hend.next, roomService_dequeue, h.next]

/-- The second player comes back. -/
theorem Alone.login {rooms : UInt64 → Option Room} {n : UInt64} {srv : GameServer}
    (h : Alone rooms n srv) :
    ∃ srv', server.Reaches srv [.opened 2, .message 2 (login secondPlayer) 0 reliable] srv' ∧
      Lobby rooms n srv' := by
  let srv₁ : GameServer := { srv with connections_ := insert 2 srv.connections_ }
  have hbound : (srv.sessionService_.bind 2 (sessionFor secondPlayer)).1 = true :=
    bind_fst.mpr ⟨by decide, by decide, h.session₂, h.offline⟩
  have hrequest : (LoginRequest.decode {} (.ofBytes (Wraparound.login secondPlayer).2)).1 =
      some { userName_ := [98], password_ := [112] } := by decide
  have hlogin : (srv₁.loginResponse 2 (.ofBytes (Wraparound.login secondPlayer).2)).2 =
      { srv₁ with
        sessionService_ := (srv.sessionService_.bind 2 (sessionFor secondPlayer)).2 } := by
    unfold sessionFor at hbound ⊢
    simp only [loginResponse, hrequest, srv₁, h.session₂, h.account, hbound, ne_eq,
      not_true_eq_false, Bool.not_true, Bool.false_eq_true, if_false]
  have hreach : server.Reaches srv
      [.opened 2, .message 2 (Wraparound.login secondPlayer) 0 reliable]
      { srv₁ with sessionService_ := (srv.sessionService_.bind 2 (sessionFor secondPlayer)).2 } := by
    refine .cons ⟨by decide, h.disconnected⟩ (.cons (Finset.mem_insert_self 2 _) ?_)
    rw [← hlogin]
    exact .nil _
  refine ⟨_, hreach, ⟨h.coherent.reaches hreach, Finset.mem_insert_of_mem h.connected, ?_,
    h.account⟩, Finset.mem_insert_self 2 _, ?_, h.queue, h.rooms_eq, h.battles, h.next⟩
  · exact (findByConnection_bind hbound 1).trans ((if_neg (by decide)).trans h.session)
  · exact (findByConnection_bind hbound 2).trans (if_pos rfl)

/-- One round: the players are matched in the room `n`, which is then closed. -/
theorem Lobby.round {rooms : UInt64 → Option Room} {n : UInt64} {srv : GameServer}
    (h : Lobby rooms n srv) (hn : n ≠ 0) (hfree : rooms n = none) :
    ∃ events srv', server.Reaches srv events srv' ∧ Lobby rooms (n + 1) srv' := by
  obtain ⟨rooms', srv₁, hfounded, hmatched, hreach⟩ := h.matched
  obtain ⟨srv', hlogin, hlobby⟩ := (hmatched.closed hfounded hfree hn).login
  have hcomeback : server.Reaches srv₁ (.closed 2 reliable :: _) srv' :=
    .cons hmatched.connected₂ hlogin
  exact ⟨_, srv', hreach.trans hcomeback, hlobby⟩

/-- The players go through the numbers that are free. -/
theorem Lobby.rounds {rooms : UInt64 → Option Room} {n : UInt64} {srv : GameServer}
    (h : Lobby rooms n srv) (k : ℕ)
    (hfree : ∀ i < k, n + UInt64.ofNat i ≠ 0 ∧ rooms (n + UInt64.ofNat i) = none) :
    ∃ events srv', server.Reaches srv events srv' ∧ Lobby rooms (n + UInt64.ofNat k) srv' := by
  induction k with
  | zero => exact ⟨[], srv, .nil srv, by simpa using h⟩
  | succ k ih =>
    obtain ⟨events, srv₁, hreach, hlobby⟩ := ih fun i hi => hfree i (Nat.lt_succ_of_lt hi)
    obtain ⟨hn, hnone⟩ := hfree k (Nat.lt_succ_self k)
    obtain ⟨events', srv', hreach', hlobby'⟩ := hlobby.round hn hnone
    refine ⟨events ++ events', srv', hreach.trans hreach', ?_⟩
    have hnext : n + UInt64.ofNat (k + 1) = n + UInt64.ofNat k + 1 := by
      rw [UInt64.ofNat_add, add_assoc]
      rfl
    rw [hnext]
    exact hlobby'

theorem toNat_add_ofNat {n k : ℕ} (h : n + k < 2 ^ 64) :
    (UInt64.ofNat n + UInt64.ofNat k).toNat = n + k := by
  rw [← UInt64.ofNat_add, UInt64.toNat_ofNat', Nat.mod_eq_of_lt h]

/-- Both players can be in the lobby when the next room gets the number 0. -/
theorem exists_lobby_zero :
    ∃ events srv, server.Reaches freshServer events srv ∧ Lobby (fun _ => none) 0 srv := by
  obtain ⟨hrun, hlobby⟩ := lobby_arrival
  obtain ⟨events, srv, hreach, hlobby'⟩ := hlobby.rounds (2 ^ 64 - 1) fun i hi => by
    refine ⟨fun h0 => ?_, rfl⟩
    have hone := toNat_add_ofNat (n := 1) (k := i) (by omega)
    rw [show (UInt64.ofNat 1 : UInt64) = 1 from rfl, h0] at hone
    simp at hone
    omega
  exact ⟨_, srv, Machine.Reaches.trans ⟨hrun, rfl⟩ hreach, hlobby'⟩

/-- The room 0 outlives a member who leaves, for nobody is known to be in it. -/
theorem Matched.closed_zero {rooms : UInt64 → Option Room} {srv : GameServer}
    (h : Matched rooms 0 srv) {room : Room} (hroom : rooms 0 = some room) (hu : 2 ∈ room.users) :
    (∃ room : Room, (srv.step allowedEloRange (.closed 2 reliable)).1.roomService_.find 0 =
        some room ∧ 2 ∈ room.users) ∧
      (srv.step allowedEloRange (.closed 2 reliable)).1.sessionService_.sessionOf 2 = none := by
  have hclose := onDisconnected_outcome 2 reliable h.coherent
  change CloseOutcome srv reliable 2 (srv.step allowedEloRange (.closed 2 reliable)) at hclose
  generalize srv.step allowedEloRange (.closed 2 reliable) = next at hclose ⊢
  cases hclose with
  | forfeited _ hstate => cases hstate.symm.trans (h.battles _)
  | left ht h0 =>
    obtain rfl := Option.some.inj (h.session₂.symm.trans ht)
    exact absurd rfl h0
  | free =>
    refine ⟨⟨room, ?_, hu⟩, ?_⟩
    · show (srv.dequeue 2).roomService_.find 0 = _
      rw [roomService_dequeue, h.rooms_eq, hroom]
    · refine (sessionOf_remove (t := sessionFor secondPlayer) ?_ 2).trans (if_pos rfl)
      rw [sessionService_dequeue]
      exact h.session₂

/-- Nobody knows of the room 0, so the two players may go on. -/
theorem Matched.lobby {rooms : UInt64 → Option Room} {srv : GameServer} (h : Matched rooms 0 srv) :
    Lobby rooms 1 srv where
  coherent := h.coherent
  connected := h.connected
  session := h.session
  account := h.account
  connected₂ := h.connected₂
  session₂ := h.session₂
  queue := h.queue
  rooms_eq := h.rooms_eq
  battles := h.battles
  next := h.next

/-- A run that ends with a room whose member is offline. -/
theorem exists_abandoned_room :
    ∃ events srv, server.Reaches freshServer events srv ∧
      (∃ room : Room, srv.roomService_.find 0 = some room ∧ 2 ∈ room.users) ∧
      srv.sessionService_.sessionOf 2 = none := by
  obtain ⟨events, srv, hreach, hlobby⟩ := exists_lobby_zero
  obtain ⟨rooms, srv₁, hfounded, hmatched, hreach₁⟩ := hlobby.matched
  obtain ⟨room, husers, hroom⟩ := hfounded.room rfl
  have hclosed : server.Enabled srv₁ (.closed 2 reliable) := hmatched.connected₂
  refine ⟨_, _, (hreach.trans hreach₁).trans (.cons hclosed (.nil _)),
    hmatched.closed_zero (hroom 0) ?_⟩
  rcases husers with hp | hp <;> simp [hp]

/-- The two players are in a room of two others, who know nothing of them. -/
structure Intruders (srv : GameServer) : Prop where
  coherent : Coherent srv
  connected : 1 ∈ srv.connections_
  session : srv.sessionService_.findByConnection 1 = some { sessionFor firstPlayer with roomId_ := 1 }
  room : srv.roomService_.find 1 = some othersRoom
  /-- The room in which the two players are does not admit it. -/
  members : ∀ r room, srv.roomService_.find r = some room → 1 ∈ room.users → 3 ∉ room.users
  battles : ∀ r, srv.battleService_.find r = none

/-- A run that puts the two players into the room 1, which is not theirs. -/
theorem exists_intruders :
    ∃ events srv, server.Reaches freshServer events srv ∧ Intruders srv := by
  obtain ⟨hrun, hlobby⟩ := lobby_others
  obtain ⟨events, srv, hreach, hlobby⟩ := hlobby.rounds (2 ^ 64 - 2) fun i hi => by
    have htwo := toNat_add_ofNat (n := 2) (k := i) (by omega)
    rw [show (UInt64.ofNat 2 : UInt64) = 2 from rfl] at htwo
    refine ⟨fun h0 => ?_, if_neg fun h1 => ?_⟩
    · rw [h0] at htwo
      simp at htwo
      omega
    · rw [h1] at htwo
      simp at htwo
      omega
  change Lobby _ 0 srv at hlobby
  -- the room 0 is created and forgotten
  obtain ⟨rooms, srv₀, hfounded, hmatched, hreach₀⟩ := hlobby.matched
  obtain ⟨room, husers, hrooms⟩ := hfounded.room rfl
  -- the number 1 is in use
  obtain ⟨rooms₁, srv₁, hfounded₁, hmatched₁, hreach₁⟩ := hmatched.lobby.matched
  have hone : rooms 1 = some othersRoom := hrooms 1
  have hsame : rooms₁ = rooms := by
    cases hfounded₁ with
    | free hnone => cases hone.symm.trans hnone
    | taken => rfl
  rw [hsame] at hmatched₁
  refine ⟨_, srv₁, (Machine.Reaches.trans ⟨hrun, rfl⟩ hreach).trans (hreach₀.trans hreach₁),
    ⟨hmatched₁.coherent, hmatched₁.connected, hmatched₁.session, (hmatched₁.rooms_eq 1).trans hone,
    ?_, hmatched₁.battles⟩⟩
  intro r room' hroom' h1 h3
  have hroom := (hmatched₁.rooms_eq r).symm.trans hroom'
  rw [hrooms] at hroom
  split_ifs at hroom
  · obtain rfl := Option.some.inj hroom
    rcases husers with hp | hp <;> simp [hp] at h3
  · obtain rfl := Option.some.inj hroom
    exact absurd h1 (by decide)

end Wraparound

end ArenaGame.GameServer
