import ArenaGame.ClientServer
import ArenaGame.Equiv.ClientServer.Moves
import ArenaGame.Equiv.ClientServer.View

/-!
# The client and the server agree

`Synced` holds in every run in which no join request is sent while another one is pending, and says
that the client shows an earlier phase of the server.  With nothing on the way it shows the present
one (`lobby_agrees`, `room_agrees`).

The condition is needed, because the answer to a cancel request resets the lobby even if the request
was refused.
-/

namespace ArenaGame

open GameProtocol GameMessages SessionService Phase

/-! ### The connection stays open -/

namespace GameServer

variable {range : MatchTicket → MatchTimePoint → ℚ} {srv : GameServer} {c : UInt64}

theorem Outcome.connected (hc : c ∈ srv.connections_) {event : Event}
    (hopen : ∀ io, event ≠ .closed c io) {next : GameServer × List Effect}
    (hnext : Outcome range srv event next) : c ∈ next.1.connections_ := by
  cases hnext with
  | opened => exact Finset.mem_insert_of_mem hc
  | ignored => exact hc
  | login hlogin => cases hlogin <;> exact hc
  | register hregister =>
    cases hregister
    exact hc
  | join hjoin => cases hjoin <;> exact hc
  | cancel hcancel => cases hcancel <;> exact hc
  | hero hhero => cases hhero <;> exact hc
  | attack hattack =>
    cases hattack with
    | refused => exact hc
    | hit => exact hc
    | felled _ _ _ _ _ _ _ hfinished =>
      rw [hfinished.connections]
      exact hc
  | tick htick =>
    obtain ⟨-⟩ := htick
    exact hc
  | @closed c' io next hclose =>
    -- only its own close takes a connection away
    have hne : c ≠ c' := by
      rintro rfl
      exact hopen io rfl
    cases hclose with
    | free => exact Finset.mem_erase.mpr ⟨hne, by rwa [connections_dequeue]⟩
    | left _ _ _ _ _ _ hend =>
      exact Finset.mem_erase.mpr ⟨hne, by rwa [hend.connections, connections_dequeue]⟩
    | forfeited _ _ _ _ _ _ hfinished =>
      refine Finset.mem_erase.mpr ⟨hne, ?_⟩
      rw [hfinished.connections]
      show c ∈ (srv.dequeue c').connections_
      rwa [connections_dequeue]

end GameServer

namespace ClientServer

open GameServer

variable {range : MatchTicket → MatchTimePoint → ℚ} {s : ClientServer} {c : UInt64}
  {o : List Effect}

/-! ### The invariant -/

/-- The frames on the way are those of `os` and `ms`. -/
structure Carries (s : ClientServer) (os : List RoomRequest) (ms : List ServerMessage) : Prop where
  requests : s.requests = os.map fun q => (q.1.frame, q.2)
  requestsFit : ∀ q ∈ os, q.1.Fits
  messages : s.messages = ms.map ServerMessage.frame
  messagesFit : ∀ m ∈ ms, m.Fits

/-- The client shows an earlier phase of the server. -/
structure Synced (c : UInt64) (o : List Effect) (s : ClientServer) : Prop where
  accounted : Accounted o s.server
  connected : c ∈ s.server.connections_
  behind : ∃ ms k os, s.Carries os ms ∧ dialogue.Behind s.client.View ms k os ∧
    InPhase s.server c k

/-- If no join request is on the way, the client does not wait for the answer to one either. -/
theorem Carries.joinFree {os os' : List RoomRequest} {ms : List ServerMessage} {k k' : Phase}
    (h : s.Carries os ms) (hlag : dialogue.Lag k os' ms k' os) (hnot : ¬ s.JoinPending) :
    JoinFree os' := by
  rintro ⟨q, r⟩ hq rfl
  rcases hlag.waiting_or_taken hq with hq | ⟨k₁, reply, k₂, hanswers, hreply⟩
  · refine hnot (Or.inl ⟨(ClientRequest.matchJoinReq.frame, r), ?_, rfl⟩)
    rw [h.requests]
    exact List.mem_map.mpr ⟨_, hq, rfl⟩
  · have hmessage : ∃ response, reply = some (.matchJoinRsp response) := by
      cases hanswers <;> exact ⟨_, rfl⟩
    obtain ⟨response, rfl⟩ := hmessage
    refine hnot (Or.inr ⟨(ServerMessage.matchJoinRsp response).frame, ?_, rfl⟩)
    rw [h.messages]
    exact List.mem_map.mpr ⟨_, hreply _ rfl, rfl⟩

variable (range) in
theorem Synced.click (h : Synced c o s) {button : MainWindow.Button}
    (hclick : s.client.Clickable button) (hjoin : s.SingleJoin (.click button)) :
    Synced c o (s.step c range (.click button)).1 := by
  obtain ⟨haccounted, hconnected, ms, k', os', hcarries, ⟨k, os, hview, hlag⟩, hphase⟩ := h
  obtain ⟨qs, hframes, hfits, hview'⟩ := hview.click hclick fun hb hq => by
    subst hb
    exact hcarries.joinFree hlag (hjoin hq)
  refine ⟨haccounted, hconnected, ms, k', os' ++ qs.map fun q => (q, s.client.matchedRoomId_),
    ⟨?_, ?_, hcarries.messages, hcarries.messagesFit⟩, ⟨k, _, hview', hlag.send _⟩, hphase⟩
  · simp only [step, hframes, hcarries.requests, List.map_append, List.map_map]
    rfl
  · intro q hq
    rcases List.mem_append.mp hq with hq | hq
    · exact hcarries.requestsFit q hq
    · obtain ⟨q', hq', rfl⟩ := List.mem_map.mp hq
      exact hfits q' hq'

variable (range) in
theorem Synced.receive (h : Synced c o s) : Synced c o (s.step c range .receive).1 := by
  obtain ⟨haccounted, hconnected, ms, k, os, hcarries, hbehind, hphase⟩ := h
  cases ms with
  | nil =>
    have hstep : s.step c range .receive = (s, []) := by
      simp only [step, hcarries.messages]
      rfl
    rw [hstep]
    exact ⟨haccounted, hconnected, [], k, os, hcarries, hbehind, hphase⟩
  | cons m ms =>
    obtain ⟨hm, hms⟩ := List.forall_mem_cons.mp hcarries.messagesFit
    have hstep : s.step c range .receive =
        ({ s with
            client := s.client.hear m
            messages := ms.map ServerMessage.frame }, []) := by
      simp only [step, hcarries.messages, List.map_cons, MainWindow.receive_frame hm]
    rw [hstep]
    exact ⟨haccounted, hconnected, ms, k, os,
      ⟨hcarries.requests, hcarries.requestsFit, rfl, hms⟩,
      hbehind.receive MainWindow.View.ignored MainWindow.View.news MainWindow.View.answered, hphase⟩

/-- The server moves, and its messages are on the way. -/
theorem Synced.serve {event : Event} (haccounted : Accounted o s.server)
    (hconnected : c ∈ s.server.connections_) (hp : event.Possible s.server)
    (hopen : ∀ io, event ≠ .closed c io)
    (hrooms : roomsCreated (o ++ (s.server.step range event).2) < 2 ^ 64 - 1)
    {ms : List ServerMessage} {k : Phase} {os os' : List RoomRequest} (hcarries : s.Carries os' ms)
    (hbehind : dialogue.Behind s.client.View ms k os)
    (hmoves : Moves c k os (s.server.step range event) os') :
    Synced c (o ++ (s.server.step range event).2) (s.serve c range event).1 := by
  obtain ⟨ms', k', hlag, hframes, hfits, hphase⟩ := hmoves
  refine ⟨haccounted.step hp hrooms,
    (step_outcome range haccounted.coherent hp).connected hconnected hopen, ms ++ ms', k', os',
    ⟨hcarries.requests, hcarries.requestsFit, ?_, ?_⟩, hbehind.move hlag, hphase⟩
  · simp only [ClientServer.serve, hframes, hcarries.messages, List.map_append]
  · intro m hm
    rcases List.mem_append.mp hm with hm | hm
    · exact hcarries.messagesFit m hm
    · exact hfits m hm

theorem Synced.deliver (h : Synced c o s) {now : MatchTimePoint} {io : SaveIO}
    (hrooms : roomsCreated (o ++ (s.step c range (.deliver now io)).2) < 2 ^ 64 - 1) :
    Synced c (o ++ (s.step c range (.deliver now io)).2) (s.step c range (.deliver now io)).1 := by
  obtain ⟨haccounted, hconnected, ms, k, os, hcarries, hbehind, hphase⟩ := h
  cases os with
  | nil =>
    have hstep : s.step c range (.deliver now io) = (s, []) := by
      simp only [step, hcarries.requests]
      rfl
    rw [hstep, List.append_nil]
    exact ⟨haccounted, hconnected, ms, k, [], hcarries, hbehind, hphase⟩
  | cons q os =>
    obtain ⟨hq, hos⟩ := List.forall_mem_cons.mp hcarries.requestsFit
    let rest : ClientServer := { s with requests := os.map fun q : RoomRequest => (q.1.frame, q.2) }
    have hstep : s.step c range (.deliver now io) =
        rest.serve c range (.message c q.1.frame now io) := by
      simp only [step, hcarries.requests, List.map_cons, rest]
    have hp : (Event.message c q.1.frame now io).Possible rest.server := hconnected
    rw [hstep] at hrooms ⊢
    exact Synced.serve (s := rest) haccounted hconnected hp (fun _ => nofun) hrooms
      ⟨rfl, hos, hcarries.messages, hcarries.messagesFit⟩ hbehind
      (message_moves haccounted hphase hconnected hq q.2 now io)

theorem Synced.step (h : Synced c o s) {action : Action} (hp : action.Possible s c)
    (hjoin : s.SingleJoin action)
    (hrooms : roomsCreated (o ++ (s.step c range action).2) < 2 ^ 64 - 1) :
    Synced c (o ++ (s.step c range action).2) (s.step c range action).1 := by
  cases action with
  | click button =>
    have hclick := h.click range hp hjoin
    rwa [show (s.step c range (.click button)).2 = [] from rfl, List.append_nil]
  | receive =>
    have hreceive := h.receive range
    have hsilent : (s.step c range .receive).2 = [] := by
      simp only [ClientServer.step]
      split <;> rfl
    rwa [hsilent, List.append_nil]
  | deliver now io => exact h.deliver hrooms
  | elsewhere event =>
    obtain ⟨haccounted, hconnected, ms, k, os, hcarries, hbehind, hphase⟩ := h
    refine Synced.serve haccounted hconnected hp.1 ?_ hrooms hcarries hbehind
      ((step_outcome range haccounted.coherent hp.1).moves haccounted hphase hp.2 hrooms)
    rintro io rfl
    exact hp.2 rfl

/-! ### Runs -/

variable (range) in
theorem synced_start {srv : GameServer} (h : Accounted o srv)
    (hp : (Event.opened c).Possible srv) :
    Synced c (o ++ (srv.step range (.opened c)).2) { server := (srv.step range (.opened c)).1 } := by
  have hnone : srv.sessionService_.findByConnection c = none := by
    cases ht : srv.sessionService_.findByConnection c with
    | none => rfl
    | some t => exact absurd (h.coherent.connected ht) hp.2
  refine ⟨?_, Finset.mem_insert_self _ _, [], .out, [], ⟨rfl, nofun, rfl, nofun⟩,
    .current MainWindow.view_initial, .out hnone⟩
  have hsame : o ++ (srv.step range (.opened c)).2 = o := List.append_nil o
  rw [hsame]
  exact ⟨h.coherent.connect c, h.lodged.housed, h.lodged.numbered⟩

/-- A run of client and server in which no join request is sent while another one is pending, after
any events at the server. -/
theorem synced_run {file : Option (List UInt8)} {srv : GameServer} (h : init file = some srv)
    {events : List Event} (hevents : (GameServer.machine range).CanRun srv (events ++ [.opened c]))
    {actions : List Action}
    (hactions : ((machine c range).restrict SingleJoin).CanRun (start c range srv events) actions)
    (hrooms : roomsCreated ((GameServer.machine range).run srv events).2 +
      roomsCreated ((machine c range).run (start c range srv events) actions).2 < 2 ^ 64 - 1) :
    ∃ o, Synced c o ((machine c range).run (start c range srv events) actions).1 := by
  have hless : ∀ o o' : List Effect, roomsCreated (o ++ o') < 2 ^ 64 - 1 →
      roomsCreated o < 2 ^ 64 - 1 := by
    intro o o' hlt
    rw [roomsCreated_append] at hlt
    omega
  obtain ⟨hbefore, hopened, -⟩ := (Machine.canRun_append _ _ _ _).mp hevents
  have haccounted := accounted_run h hbefore (by omega)
  have hstart := synced_start range haccounted hopened
  have hserver : start c range srv events =
      { server := (((GameServer.machine range).run srv events).1.step range (.opened c)).1 } := by
    rw [start, Machine.run_append]
    rfl
  rw [← hserver] at hstart
  have hrun := Machine.run_induction_within (M := (machine c range).restrict SingleJoin)
    (B := fun o => roomsCreated o < 2 ^ 64 - 1) (P := fun o s => Synced c o s) hless
    (fun _ _ _ h hp => h.step hp.1 hp.2) hstart hactions
  rw [Machine.run_restrict] at hrun
  refine ⟨_, hrun ?_⟩
  show roomsCreated ((((GameServer.machine range).run srv events).2 ++ []) ++ _) < _
  rw [List.append_nil, roomsCreated_append]
  exact hrooms

/-! ### The lobby and the queue -/

/-- In the lobby, with nothing on the way, the client knows whether its user is queued. -/
structure LobbyAgrees (c : UInt64) (s : ClientServer) : Prop where
  queued_iff : s.Quiet → s.client.stack_ = .SCENE_LOBBY →
    ∃ t, s.server.sessionService_.findByConnection c = some t ∧
      (s.client.lobbyScene_.matchmakingQueued_ = true ↔ Queued t.userId_ s.server)
  /-- A search that the server still runs can be cancelled. -/
  cancellable : s.Quiet → s.client.stack_ = .SCENE_LOBBY → ∀ t,
    s.server.sessionService_.findByConnection c = some t → Queued t.userId_ s.server →
    s.client.Clickable .matchButton_

/-- With nothing on the way the client shows the phase of the server. -/
theorem Synced.quiet (h : Synced c o s) (hquiet : s.Quiet) :
    ∃ k, InPhase s.server c k ∧ s.client.Shows k [] := by
  obtain ⟨-, -, ms, k, os, hcarries, hbehind, hphase⟩ := h
  obtain ⟨hrequests, hmessages⟩ := hquiet
  obtain rfl : os = [] := List.map_eq_nil_iff.mp (hcarries.requests.symm.trans hrequests)
  obtain rfl : ms = [] := List.map_eq_nil_iff.mp (hcarries.messages.symm.trans hmessages)
  exact ⟨k, hphase, (hbehind.quiet MainWindow.View.ignored).shows⟩

theorem Synced.lobbyAgrees (h : Synced c o s) : LobbyAgrees c s := by
  have hlobby : s.Quiet → s.client.stack_ = .SCENE_LOBBY →
      ∃ t, s.server.sessionService_.findByConnection c = some t ∧
        (s.client.lobbyScene_.matchmakingQueued_ = true ↔ Queued t.userId_ s.server) ∧
        s.client.lobbyScene_.matchButton_ = true := by
    intro hquiet hstack
    obtain ⟨k, hphase, hshows⟩ := h.quiet hquiet
    cases hphase with
    | out => cases hstack.symm.trans hshows.stack
    | @idle t ht h0 hq =>
      rcases hshows with hshows | hshows
      · refine ⟨t, ht, ?_, hshows.ready nofun⟩
        rw [hshows.notQueued]
        exact iff_of_false Bool.false_ne_true fun ⟨_, hticket⟩ => by cases hq.symm.trans hticket
      · cases hstack.symm.trans hshows.stack
    | queued ht h0 hq => exact ⟨_, ht, iff_of_true hshows.queued ⟨_, hq⟩, hshows.ready.mpr rfl⟩
    | @room t room chosen =>
      cases chosen <;> cases hstack.symm.trans hshows.stack
    | battle => cases hstack.symm.trans hshows.stack
  refine ⟨fun hquiet hstack => ?_, fun hquiet hstack t _ _ => ?_⟩
  · obtain ⟨t, ht, hiff, -⟩ := hlobby hquiet hstack
    exact ⟨t, ht, hiff⟩
  · obtain ⟨-, -, -, hbutton⟩ := hlobby hquiet hstack
    exact ⟨hstack, hbutton⟩

/-- **The lobby agrees with the queue** as long as no join request is sent while another one is
pending. -/
theorem lobby_agrees {file : Option (List UInt8)} {srv : GameServer} (h : init file = some srv)
    {events : List Event} (hevents : (GameServer.machine range).CanRun srv (events ++ [.opened c]))
    {actions : List Action}
    (hactions : ((machine c range).restrict SingleJoin).CanRun (start c range srv events) actions)
    (hrooms : roomsCreated ((GameServer.machine range).run srv events).2 +
      roomsCreated ((machine c range).run (start c range srv events) actions).2 < 2 ^ 64 - 1) :
    LobbyAgrees c ((machine c range).run (start c range srv events) actions).1 := by
  obtain ⟨o, hsynced⟩ := synced_run h hevents hactions hrooms
  exact hsynced.lobbyAgrees

/-! ### Crossing messages -/

section Crossing

open Wraparound MainWindow

/-- The connection `conn` is opened, and its player logs in and looks for a match. -/
def opponentSearches (conn : UInt64) : List Event :=
  [.opened conn, .message conn (login secondPlayer) 0 reliable,
    .message conn ClientRequest.matchJoinReq.frame 0 reliable]

/-- The opponent has an account. -/
def before : List Event := [.opened 2, .message 2 (registration secondPlayer) 0 reliable,
  .closed 2 reliable]

def deliver : Action := .deliver 0 reliable

/-- A new player logs in and looks for a match. -/
def search : List Action :=
  [.click (.registerButton_ [97] [112] [112]), deliver, .click (.loginButton_ [97] [112]), deliver,
    .receive, .receive, .click .matchButton_, deliver, .receive]

/-- He cancels when he has been matched already, and the opponent leaves. -/
def lateCancel : List Action :=
  search ++ (opponentSearches 2).map .elsewhere ++ [.click .matchButton_, .elsewhere (.tick 0),
    .elsewhere (.closed 2 reliable), .receive, .receive]

/-- He waits for the answer to the cancel request before he starts the next search. -/
def patientSearch : List Action := lateCancel ++ [deliver, .receive, .click .matchButton_, deliver,
  .receive]

/-- He starts the next search at once, and the answer to the cancel request makes him start it
again. -/
def hastySearch : List Action := lateCancel ++ [.click .matchButton_, deliver, .receive,
  .click .matchButton_]

theorem lobby_agrees_patientSearch :
    let s := ((machine 1 allowedEloRange).run (start 1 allowedEloRange freshServer before)
      patientSearch).1
    s.Quiet ∧ s.client.lobbyScene_.matchmakingQueued_ = true ∧ LobbyAgrees 1 s := by
  intro s
  exact ⟨by decide +kernel, by decide +kernel,
    lobby_agrees (rfl : init none = _) (by decide +kernel) (by decide +kernel) (by decide +kernel)⟩

/-- The second of two join requests is refused, and the client forgets the search that the first has
started. -/
theorem not_lobby_agrees :
    ¬ ∀ (file : Option (List UInt8)) (srv : GameServer) (events : List Event)
      (actions : List Action), init file = some srv →
      (GameServer.machine allowedEloRange).CanRun srv (events ++ [.opened 1]) →
      (machine 1 allowedEloRange).CanRun (start 1 allowedEloRange srv events) actions →
      LobbyAgrees 1
        ((machine 1 allowedEloRange).run (start 1 allowedEloRange srv events) actions).1 := by
  intro h
  let actions := hastySearch ++ [deliver, deliver, .receive, .receive]
  let s := ((machine 1 allowedEloRange).run (start 1 allowedEloRange freshServer before) actions).1
  have hagrees : LobbyAgrees 1 s :=
    h none freshServer before actions rfl (by decide +kernel) (by decide +kernel)
  have hquiet : s.Quiet := by decide +kernel
  have hstack : s.client.stack_ = .SCENE_LOBBY := by decide +kernel
  have huser : (s.server.sessionService_.findByConnection 1).map PlayerSession.userId_ = some 2 := by
    decide +kernel
  have hqueued : (s.server.matchQueue_.find 2).isSome = true := by decide +kernel
  have hidle : s.client.lobbyScene_.matchmakingQueued_ = false := by decide +kernel
  obtain ⟨t, ht, hiff⟩ := hagrees.queued_iff hquiet hstack
  rw [ht, Option.map_some, Option.some.injEq] at huser
  rw [hidle, huser] at hiff
  exact Bool.false_ne_true (hiff.mpr (Option.isSome_iff_exists.mp hqueued))

end Crossing

/-! ### The room and the battle -/

end ClientServer

namespace BattleState

/-- The health of a player. -/
def healthOf (state : BattleState) (u : UInt32) : UInt16 :=
  if u = state.firstUserId_ then state.firstHealth_ else state.secondHealth_

/-- The health of the opponent of a player. -/
def opponentHealthOf (state : BattleState) (u : UInt32) : UInt16 :=
  if u = state.firstUserId_ then state.secondHealth_ else state.firstHealth_

theorem stateFor_playerHealth (state : BattleState) (u : UInt32) :
    (state.stateFor u).playerHealth_ = state.healthOf u := by
  unfold stateFor healthOf
  split <;> rfl

theorem stateFor_opponentHealth (state : BattleState) (u : UInt32) :
    (state.stateFor u).opponentHealth_ = state.opponentHealthOf u := by
  unfold stateFor opponentHealthOf
  split <;> rfl

end BattleState

namespace ClientServer

open GameServer

variable {range : MatchTicket → MatchTimePoint → ℚ} {s : ClientServer} {c : UInt64}
  {o : List Effect}

/-- The client shows the room or the battle that its user is in, and what it sends for a room acts
on no other room. -/
structure RoomAgrees (c : UInt64) (range : MatchTicket → MatchTimePoint → ℚ) (s : ClientServer) :
    Prop where
  room : s.Quiet → ∀ t, s.server.sessionService_.findByConnection c = some t → t.roomId_ ≠ 0 →
    s.server.battleService_.find t.roomId_ = none →
    s.client.stack_ = .SCENE_HERO_SELECT ∧ s.client.matchedRoomId_ = t.roomId_ ∧
      ∃ room, s.server.roomService_.find t.roomId_ = some room ∧ t.userId_ ∈ room.users ∧
        ∀ button, s.client.heroSelectScene_.isEnabled button = true ↔
          room.heroOf t.userId_ = .kNone
  battle : s.Quiet → ∀ t r state, s.server.sessionService_.findByConnection c = some t →
    s.server.battleService_.find r = some state → t.userId_ ∈ state.users →
    s.client.stack_ = .SCENE_BATTLE ∧ s.client.matchedRoomId_ = r ∧
      s.client.battleScene_.playerHealthLabel_ = playerHealthText (state.healthOf t.userId_) ∧
      s.client.battleScene_.opponentHealthLabel_ =
        opponentHealthText (state.opponentHealthOf t.userId_) ∧
      (s.client.battleScene_.attackButton_ = true ↔ state.activeUserId_ = t.userId_)
  /-- A hero or an attack that changes anything was sent for the room that the user is in. -/
  ownRoom : ∀ frame r requests now io, s.requests = (frame, r) :: requests →
    frame.1 = MSG_HERO_SELECT_REQ ∨ frame.1 = MSG_BATTLE_ATTACK_REQ →
    (s.server.step range (.message c frame now io)).1 ≠ s.server →
    ∃ t, s.server.sessionService_.findByConnection c = some t ∧ t.roomId_ = r

/-- Of the requests on the way only those for the room of the user act on a room. -/
theorem Synced.ownRoom (h : Synced c o s) {frame : Frame} {r : UInt64}
    {requests : List (Frame × UInt64)} {now : MatchTimePoint} {io : SaveIO}
    (hrequests : s.requests = (frame, r) :: requests)
    (hframe : frame.1 = MSG_HERO_SELECT_REQ ∨ frame.1 = MSG_BATTLE_ATTACK_REQ)
    (hacts : (s.server.step range (.message c frame now io)).1 ≠ s.server) :
    ∃ t, s.server.sessionService_.findByConnection c = some t ∧ t.roomId_ = r := by
  obtain ⟨haccounted, hconnected, ms, k, os, hcarries, ⟨k', os', hview, hlag⟩, hphase⟩ := h
  have hstanding : k.Standing (gameRequests os) :=
    hlag.keeps (P := fun k os => k.Standing (gameRequests os)) Standing.news Standing.answers
      hview.standing
  -- what the client may still have on the way follows from the phase of the server
  rw [hcarries.requests] at hrequests
  cases os with
  | nil => cases hrequests
  | cons q os =>
    obtain ⟨q, r'⟩ := q
    obtain ⟨⟨rfl, rfl⟩, -⟩ : (q.frame = frame ∧ r' = r) ∧ _ := by
      simpa only [List.map_cons, List.cons.injEq, Prod.mk.injEq] using hrequests
    cases q with
    | heroSelectReq request =>
      have hhero := handleHeroSelect_outcome (c := c)
        (ClientRequest.heroSelectReq request).frame.2 haccounted.coherent hconnected
      change HeroOutcome s.server c _ (s.server.step range
        (.message c (ClientRequest.heroSelectReq request).frame now io)) at hhero
      generalize s.server.step range _ = next at hhero hacts
      have hchosen : ∀ {t}, s.server.sessionService_.findByConnection c = some t →
          k = .room t.roomId_ false → ∃ t, s.server.sessionService_.findByConnection c = some t ∧
            t.roomId_ = r' := by
        rintro t ht rfl
        rcases Standing.hero hstanding with ⟨hk, -⟩ | ⟨hk, -⟩
        · cases hk
        · exact ⟨t, ht, (Phase.room.inj hk).1⟩
      -- a refused hero leaves the server as it is
      cases hhero with
      | refused => exact absurd rfl hacts
      | waiting ht h0 _ _ hroom hselected =>
        exact hchosen ht (hphase.eq_choosing haccounted.coherent ht h0 hroom hselected)
      | started ht h0 _ _ hroom hselected =>
        exact hchosen ht (hphase.eq_choosing haccounted.coherent ht h0 hroom hselected)
    | battleAttackReq =>
      have hattack := handleBattleAttack_outcome c ClientRequest.battleAttackReq.frame.2 io
        haccounted.coherent
      change AttackOutcome s.server io c _ (s.server.step range
        (.message c ClientRequest.battleAttackReq.frame now io)) at hattack
      generalize s.server.step range _ = next at hattack hacts
      have hfighting : ∀ {t state}, s.server.sessionService_.findByConnection c = some t →
          s.server.battleService_.find t.roomId_ = some state →
          ∃ t, s.server.sessionService_.findByConnection c = some t ∧ t.roomId_ = r' := by
        intro t state ht hstate
        obtain ⟨rfl, -⟩ := hphase.eq_battle ht hstate
        rcases Standing.attack hstanding with ⟨hk, -⟩ | ⟨n, hk, -, rfl, -⟩
        · cases hk
        · refine ⟨t, ht, ?_⟩
          rw [← Phase.battle.inj hk, BattleState.stateFor_roomId, BattleService.find_roomId hstate]
      cases hattack with
      | refused => exact absurd rfl hacts
      | hit ht hstate => exact hfighting ht hstate
      | felled ht hstate => exact hfighting ht hstate
    | loginReq =>
      exact absurd hframe (by
        show ¬ (MSG_LOGIN_REQ = _ ∨ MSG_LOGIN_REQ = _)
        decide)
    | registerReq =>
      exact absurd hframe (by
        show ¬ (MSG_REGISTER_REQ = _ ∨ MSG_REGISTER_REQ = _)
        decide)
    | matchJoinReq => exact absurd hframe (by decide)
    | matchCancelReq => exact absurd hframe (by decide)

theorem Synced.roomAgrees (h : Synced c o s) : RoomAgrees c range s := by
  refine ⟨fun hquiet t ht h0 hnone => ?_, fun hquiet t r state ht hstate hmem => ?_,
    fun frame r requests now io hrequests hframe hacts => h.ownRoom hrequests hframe hacts⟩
  · obtain ⟨k, hphase, hshows⟩ := h.quiet hquiet
    obtain ⟨room, chosen, rfl, hroom, hmem, hiff⟩ := hphase.eq_room ht h0 hnone
    cases chosen with
    | false =>
      refine ⟨hshows.stack, hshows.room, room, hroom, hmem, fun button => ?_⟩
      have hhero : room.heroOf t.userId_ = .kNone := by
        by_contra hhero
        exact Bool.false_ne_true (hiff.mpr hhero)
      exact iff_of_true ((hshows.heroes button).mpr nofun) hhero
    | true =>
      refine ⟨hshows.stack, hshows.room, room, hroom, hmem, fun button => ?_⟩
      rw [hshows.heroes button]
      exact iff_of_false Bool.false_ne_true (hiff.mp rfl)
  · obtain ⟨k, hphase, hshows⟩ := h.quiet hquiet
    obtain rfl := (h.accounted.mem_battle_iff ht hstate).mp hmem
    obtain ⟨rfl, -⟩ := hphase.eq_battle ht hstate
    have hroom := hshows.room
    have hattack := hshows.attack
    rw [BattleState.stateFor_roomId, BattleService.find_roomId hstate] at hroom
    rw [BattleState.stateFor_playerTurn, decide_eq_true_iff, and_iff_left rfl] at hattack
    refine ⟨hshows.stack, hroom, ?_, ?_, hattack⟩
    · rw [hshows.playerHealth, BattleState.stateFor_playerHealth]
    · rw [hshows.opponentHealth, BattleState.stateFor_opponentHealth]

/-- **The room and the battle on display are those of the server**, and no request acts on a later
room, as long as no join request is sent while another one is pending. -/
theorem room_agrees {file : Option (List UInt8)} {srv : GameServer} (h : init file = some srv)
    {events : List Event} (hevents : (GameServer.machine range).CanRun srv (events ++ [.opened c]))
    {actions : List Action}
    (hactions : ((machine c range).restrict SingleJoin).CanRun (start c range srv events) actions)
    (hrooms : roomsCreated ((GameServer.machine range).run srv events).2 +
      roomsCreated ((machine c range).run (start c range srv events) actions).2 < 2 ^ 64 - 1) :
    RoomAgrees c range ((machine c range).run (start c range srv events) actions).1 := by
  obtain ⟨o, hsynced⟩ := synced_run h hevents hactions hrooms
  exact hsynced.roomAgrees

section Crossing

open Wraparound MainWindow

/-- The player is matched, both choose a hero and the battle starts. -/
def battle : List Action :=
  search ++ (opponentSearches 2).map .elsewhere ++
    [.elsewhere (.tick 0), .receive, .click (.heroButton .warriorButton_), .click .confirmButton_,
      deliver, .receive,
      .elsewhere (.message 2 (ClientRequest.heroSelectReq { heroType_ := .kMage }).frame 0 reliable),
      .receive, .receive]

theorem room_agrees_battle :
    let s := ((machine 1 allowedEloRange).run (start 1 allowedEloRange freshServer before)
      battle).1
    s.Quiet ∧ s.client.stack_ = .SCENE_BATTLE ∧ RoomAgrees 1 allowedEloRange s := by
  intro s
  exact ⟨by decide +kernel, by decide +kernel,
    room_agrees (rfl : init none = _) (by decide +kernel) (by decide +kernel) (by decide +kernel)⟩

/-- Two join requests are accepted, one after the other.  The hero for the first room is taken for
the second one, so the hero that the player then chooses is refused. -/
def twoRooms : List Action :=
  hastySearch ++ [deliver] ++ (opponentSearches 3).map .elsewhere ++
    [.elsewhere (.tick 0), .elsewhere (.closed 3 reliable), deliver] ++
    (opponentSearches 4).map .elsewhere ++
    [.elsewhere (.tick 0), .receive, .receive, .click (.heroButton .warriorButton_),
      .click .confirmButton_, deliver, .receive, .receive, .receive,
      .click (.heroButton .mageButton_), .click .confirmButton_, deliver, .receive, .receive]

theorem not_room_agrees :
    ¬ ∀ (file : Option (List UInt8)) (srv : GameServer) (events : List Event)
      (actions : List Action), init file = some srv →
      (GameServer.machine allowedEloRange).CanRun srv (events ++ [.opened 1]) →
      (machine 1 allowedEloRange).CanRun (start 1 allowedEloRange srv events) actions →
      RoomAgrees 1 allowedEloRange
        ((machine 1 allowedEloRange).run (start 1 allowedEloRange srv events) actions).1 := by
  intro h
  let s := ((machine 1 allowedEloRange).run (start 1 allowedEloRange freshServer before) twoRooms).1
  have hagrees : RoomAgrees 1 allowedEloRange s :=
    h none freshServer before twoRooms rfl (by decide +kernel) (by decide +kernel)
  have hquiet : s.Quiet := by decide +kernel
  have hsession : (s.server.sessionService_.findByConnection 1).map
      (fun t => (t.userId_, t.roomId_)) = some (2, 3) := by decide +kernel
  have hnone : s.server.battleService_.find 3 = none := by decide +kernel
  have hhero : (s.server.roomService_.find 3).map (·.heroOf 2) = some .kWarrior := by
    decide +kernel
  have henabled : s.client.heroSelectScene_.isEnabled .warriorButton_ = true := by decide +kernel
  obtain ⟨t, ht, hids⟩ := Option.map_eq_some_iff.mp hsession
  obtain ⟨hu, hr⟩ := Prod.mk.inj hids
  obtain ⟨-, -, room, hroom, -, hbuttons⟩ := hagrees.room hquiet t ht (by rw [hr]; decide)
    (by rw [hr]; exact hnone)
  rw [hr] at hroom
  rw [hroom, Option.map_some, Option.some.injEq] at hhero
  have hfree := (hbuttons .warriorButton_).mp henabled
  rw [hu, hhero] at hfree
  exact absurd hfree (by decide)

end Crossing

end ClientServer

end ArenaGame
