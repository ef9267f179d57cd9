import ArenaGame.Server.Equiv.HeroChoice

/-!
# Hero selection

The room of two players who have been matched is followed until it ends.  It holds the first choices
of its members and no other heroes (`Holds`), and the battle starts in the step in which the second
one is made (`HeroStep`, `selects_heroes`).

The room must not have the number 0, which comes up when the room counter has wrapped around.
-/

namespace ArenaGame.GameServer

open GameProtocol GameMessages SessionService MatchmakingService

variable {range : MatchTicket → MatchTimePoint → ℚ} {srv : GameServer}

/-! ### The room and its choices -/

/-- The room `room₀` has become `room`, with the heroes that have been chosen. -/
structure Holds (srv : GameServer) (room₀ : Room) (choice : UInt32 → Option HeroType)
    (room : Room) : Prop where
  find : srv.roomService_.find room₀.roomId_ = some room
  users : room.users = room₀.users
  heroes : ∀ u ∈ room₀.users, room.heroOf u = (choice u).getD .kNone

section Holds

variable {room₀ room room' : Room} {choice : UInt32 → Option HeroType}

theorem Holds.heroOf_eq_kNone_iff (h : Holds srv room₀ choice room)
    (hnamed : ∀ u, choice u ≠ some .kNone) {u : UInt32} (hu : u ∈ room₀.users) :
    room.heroOf u = .kNone ↔ choice u = none := by
  rw [h.heroes u hu]
  cases hchoice : choice u with
  | none => simp
  | some hero => simpa [hchoice] using hnamed u

theorem Holds.selected_iff (h : Holds srv room₀ choice room)
    (hnamed : ∀ u, choice u ≠ some .kNone) :
    room.Selected ↔ AllChosen room₀.users choice := by
  rw [Room.selected_iff (RoomService.find_members h.find), h.users]
  exact forall₂_congr fun u hu => not_congr (h.heroOf_eq_kNone_iff hnamed hu)

/-- A choice is added to the room. -/
theorem Holds.chooses (h : Holds srv room₀ choice room) (hnamed : ∀ u, choice u ≠ some .kNone)
    {event : Event} {u : UInt32} {hero : HeroType} {next : GameServer × List Effect}
    (hrequest : srv.heroRequest event = some (u, hero))
    (hchooses : Chooses srv room₀.roomId_ u hero room room' next) :
    Holds next.1 room₀ (srv.choose event choice) room' := by
  have hm := RoomService.find_members h.find
  have hu : u ∈ room₀.users := h.users ▸ hchooses.chosen.mem
  have hnone : choice u = none :=
    (h.heroOf_eq_kNone_iff hnamed hu).mp (hchooses.chosen.heroOf_none hm)
  refine ⟨hchooses.room, hchooses.chosen.users_eq.trans h.users, fun v hv => ?_⟩
  rw [hchooses.chosen.heroOf_eq hm v (h.users ▸ hv)]
  split
  · rename_i hvu
    rw [hvu, choose_of_request hrequest hnone]
    rfl
  · rename_i hvu
    rw [choose_of_ne, h.heroes v hv]
    intro hero' hrequest'
    exact absurd (Prod.mk.inj (Option.some.inj (hrequest'.symm.trans hrequest))).1 hvu

variable {event : Event} {next : GameServer × List Effect}

/-- The room and the number of battles that start in it after one event. -/
theorem RoomOutcome.step (hnext : RoomOutcome srv event room₀.roomId_ next)
    (h : Holds srv room₀ choice room) (hnamed : ∀ u, choice u ≠ some .kNone) :
    (next.1.roomService_.find room₀.roomId_ ≠ none →
      ∃ room', Holds next.1 room₀ (srv.choose event choice) room') ∧
    battlesStarted room₀.roomId_ next.2 =
      if Completes room₀.users choice (srv.choose event choice) then 1 else 0 := by
  cases hnext with
  | kept hsame hstarted hwhy =>
    -- a refused request is no first choice: its user has a hero already
    have hkeep : ∀ u ∈ room₀.users, srv.choose event choice u = choice u := by
      intro u hu
      refine choose_of_ne fun hero hrequest hnone => ?_
      have hhero := hwhy room u hero h.find hrequest (h.users.symm ▸ hu)
      exact hhero ((h.heroOf_eq_kNone_iff hnamed hu).mpr hnone)
    refine ⟨fun _ => ⟨room, hsame.trans h.find, h.users, fun u hu => ?_⟩, ?_⟩
    · rw [hkeep u hu, h.heroes u hu]
    · rw [hstarted, if_neg (not_completes hkeep)]
  | ended hnone hrequest hstarted =>
    have hkeep : ∀ u ∈ room₀.users, srv.choose event choice u = choice u := fun u _ =>
      choose_of_ne fun hero hsome => by cases hrequest.symm.trans hsome
    exact ⟨fun hex => absurd hnone hex, by rw [hstarted, if_neg (not_completes hkeep)]⟩
  | founded hnone => cases hnone.symm.trans h.find
  | @chosen u hero room₁ room' hroom hrequest hchooses =>
    obtain rfl : room = room₁ := Option.some.inj (h.find.symm.trans hroom)
    have hadded := h.chooses hnamed hrequest hchooses
    refine ⟨fun _ => ⟨room', hadded⟩, hchooses.battlesStarted.trans ?_⟩
    -- the battle starts with the choice that completes the heroes
    have hopen : ¬ AllChosen room₀.users choice := by
      rw [← h.selected_iff hnamed]
      exact hchooses.chosen.not_selected
    refine if_congr ?_ rfl rfl
    rw [hadded.selected_iff (choose_ne_kNone hnamed)]
    exact (and_iff_right hopen).symm

/-- A first choice is made. -/
theorem RoomOutcome.chooses (hnext : RoomOutcome srv event room₀.roomId_ next)
    (h : Holds srv room₀ choice room) (hnamed : ∀ u, choice u ≠ some .kNone) {u : UInt32}
    (hu : u ∈ room₀.users) {hero : HeroType} (hrequest : srv.heroRequest event = some (u, hero))
    (hnone : choice u = none) :
    ∃ room', Chooses srv room₀.roomId_ u hero room room' next := by
  cases hnext with
  | kept _ _ hwhy =>
    have hhero := hwhy room u hero h.find hrequest (h.users.symm ▸ hu)
    exact absurd ((h.heroOf_eq_kNone_iff hnamed hu).mpr hnone) hhero
  | ended _ hsilent => cases hsilent.symm.trans hrequest
  | founded habsent => cases habsent.symm.trans h.find
  | @chosen u' hero' room₁ room' hroom hrequest' hchooses =>
    obtain rfl : room = room₁ := Option.some.inj (h.find.symm.trans hroom)
    obtain ⟨rfl, rfl⟩ := Prod.mk.inj (Option.some.inj (hrequest'.symm.trans hrequest))
    exact ⟨room', hchooses⟩

end Holds

/-! ### What an event does while heroes are chosen -/

/-- One event while the room `room₀` exists, in which the heroes `choice` have been chosen. -/
structure HeroStep (srv : GameServer) (room₀ : Room) (choice : UInt32 → Option HeroType)
    (event : Event) (next : GameServer × List Effect) : Prop where
  /-- As long as it exists, the room holds the choices of its members. -/
  room : next.1.roomService_.find room₀.roomId_ ≠ none →
    ∃ room, Holds next.1 room₀ (srv.choose event choice) room
  /-- The first choice of a member is accepted. -/
  accepted : ∀ u ∈ room₀.users, ∀ hero, srv.heroRequest event = some (u, hero) → choice u = none →
    next.1.roomService_.find room₀.roomId_ ≠ none ∧
    ∃ rest, next.2 = srv.tell u (.heroSelectRsp { accepted_ := true }) :: rest
  /-- Every other request of a member for a hero is refused. -/
  refused : ∀ c t payload now io, event = .message c (MSG_HERO_SELECT_REQ, payload) now io →
    srv.sessionService_.findByConnection c = some t → t.userId_ ∈ room₀.users →
    srv.heroRequest event = none ∨ choice t.userId_ ≠ none →
    ∃ response : HeroSelectResponse, response.accepted_ = false ∧
      next = (srv, [srv.tell t.userId_ (.heroSelectRsp response)])
  /-- The messages of others do not touch the room. -/
  strangers : ∀ c frame now io, event = .message c frame now io →
    (∀ t, srv.sessionService_.findByConnection c = some t → t.userId_ ∉ room₀.users) →
    next.1.roomService_.find room₀.roomId_ = srv.roomService_.find room₀.roomId_ ∧
    next.1.battleService_.find room₀.roomId_ = srv.battleService_.find room₀.roomId_
  /-- A battle is started if and only if this is the last choice. -/
  once : battlesStarted room₀.roomId_ next.2 =
    if Completes room₀.users choice (srv.choose event choice) then 1 else 0
  started : Completes room₀.users choice (srv.choose event choice) →
    ∃ room, next.1.roomService_.find room₀.roomId_ = some room ∧
      next.1.battleService_.find room₀.roomId_ = some (BattleService.initialState room)
  /-- What the members are told, each from his point of view, behind the answer to the choice. -/
  notified : Completes room₀.users choice (srv.choose event choice) →
    ∀ u ∈ room₀.users, ∀ v ∈ room₀.users, u ≠ v →
    framesTo (srv.sessionService_.findConnectionByUserId u) next.2.tail =
      [(ServerMessage.battleStartNtf
          { roomId_ := room₀.roomId_, playerHero_ := (srv.choose event choice u).getD .kNone,
            opponentHero_ := (srv.choose event choice v).getD .kNone }).frame,
        (ServerMessage.battleStateNtf
          { roomId_ := room₀.roomId_, playerHealth_ := 100, opponentHealth_ := 100,
            playerTurn_ := u = room₀.firstUserId_ }).frame]

section HeroStep

variable {room₀ room room' : Room} {choice : UInt32 → Option HeroType} {event : Event}
  {next : GameServer × List Effect} {r : UInt64} {c : UInt64} {payload : List UInt8}
  {u v w : UInt32} {hero : HeroType}

/-- The two members are told of the battle, each from his point of view. -/
theorem Chooses.frames (h : Coherent srv) (h0 : r ≠ 0) (hroom : srv.roomService_.find r = some room)
    (hchooses : Chooses srv r u hero room room' next) (hsel : room'.Selected)
    (hv : v ∈ room'.users) (hw : w ∈ room'.users) (hne : v ≠ w) :
    framesTo (srv.sessionService_.findConnectionByUserId v) next.2.tail =
      [(ServerMessage.battleStartNtf
          { roomId_ := r, playerHero_ := room'.heroOf v, opponentHero_ := room'.heroOf w }).frame,
        (ServerMessage.battleStateNtf
          { roomId_ := r, playerHealth_ := 100, opponentHealth_ := 100,
            playerTurn_ := v = room'.firstUserId_ }).frame] := by
  have hm := RoomService.find_members hchooses.room
  have husers := hchooses.chosen.users_eq
  have hmem : v ∈ room.users := husers ▸ hv
  obtain ⟨t, ht, -⟩ := h.inRoom h0 hroom v hmem
  have htell : ∀ m : UInt32 → ServerMessage,
      framesTo (srv.sessionService_.findConnectionByUserId v)
        (srv.tellBoth room'.firstUserId_ room'.secondUserId_ m) = [(m v).frame] := by
    intro m
    have htold := (h.framesTo_members h0 hroom husers m).1 t ht
    rw [sessionOf_userId ht] at htold
    exact htold hmem
  rw [(hchooses.started hsel).2, List.tail_cons, framesTo_startBattle, framesTo_append, htell,
    htell, Room.startFor_eq hm hv hw hne, BattleState.stateFor_initialState,
    RoomService.find_roomId hchooses.room]
  rfl

/-- A request for a hero is refused or is the first one of a member. -/
theorem HeroOutcome.refused_or_chosen (hnext : HeroOutcome srv c payload next) :
    (∃ response : HeroSelectResponse, response.accepted_ = false ∧
      next = (srv, [.send c (ServerMessage.heroSelectRsp response).frame])) ∨
    ∃ t request room room', srv.sessionService_.findByConnection c = some t ∧ t.roomId_ ≠ 0 ∧
      MessageType.decoded .heroSelectRequest payload = some request ∧
      isSelectableHero request.heroType_ = true ∧
      srv.roomService_.find t.roomId_ = some room ∧
      room.Chosen t.userId_ request.heroType_ room' := by
  cases hnext with
  | refused hno => exact Or.inl ⟨_, hno, rfl⟩
  | waiting ht h0 hdecode hsel hroom hchosen =>
    exact Or.inr ⟨_, _, _, _, ht, h0, hdecode, hsel, hroom, hchosen⟩
  | started ht h0 hdecode hsel hroom hchosen =>
    exact Or.inr ⟨_, _, _, _, ht, h0, hdecode, hsel, hroom, hchosen⟩

/-- A member who names no hero, or a second one, is refused. -/
theorem HeroOutcome.refuses (h : Coherent srv) (hnext : HeroOutcome srv c payload next)
    (h0 : room₀.roomId_ ≠ 0) (hholds : Holds srv room₀ choice room)
    (hnamed : ∀ u, choice u ≠ some .kNone) {t : PlayerSession}
    (ht : srv.sessionService_.findByConnection c = some t) (hu : t.userId_ ∈ room₀.users)
    {now : MatchTimePoint} {io : SaveIO}
    (hwhy : srv.heroRequest (.message c (MSG_HERO_SELECT_REQ, payload) now io) = none ∨
      choice t.userId_ ≠ none) :
    ∃ response : HeroSelectResponse, response.accepted_ = false ∧
      next = (srv, [srv.tell t.userId_ (.heroSelectRsp response)]) := by
  rcases hnext.refused_or_chosen with
    ⟨response, hno, heq⟩ | ⟨t', request, room₁, room', ht', -, hdecode, hsel, hroom, hchosen⟩
  · refine ⟨response, hno, ?_⟩
    rw [tell, findConnectionByUserId_of_session ht, heq]
  · obtain rfl : t = t' := Option.some.inj (ht.symm.trans ht')
    -- the member is in the room and has no hero yet
    obtain ⟨s, hs, hsr⟩ := h.inRoom h0 hholds.find _ (hholds.users.symm ▸ hu)
    obtain rfl : t = s := Option.some.inj ((sessionOf_of_session ht).symm.trans hs)
    rw [hsr] at hroom
    obtain rfl : room = room₁ := Option.some.inj (hholds.find.symm.trans hroom)
    have hnone := hchosen.heroOf_none (RoomService.find_members hroom)
    rcases hwhy with hsilent | hchoice
    · cases hsilent.symm.trans (heroRequest_of_session ht hdecode hsel now io)
    · exact absurd ((hholds.heroOf_eq_kNone_iff hnamed hu).mp hnone) hchoice

theorem HeroOutcome.strangers (hnext : HeroOutcome srv c payload next)
    (hroom : srv.roomService_.find r = some room)
    (hout : ∀ t, srv.sessionService_.findByConnection c = some t → t.userId_ ∉ room.users) :
    next.1.roomService_.find r = srv.roomService_.find r ∧
      next.1.battleService_.find r = srv.battleService_.find r := by
  have hother : ∀ {t hero room₁ room'}, srv.sessionService_.findByConnection c = some t →
      srv.roomService_.find t.roomId_ = some room₁ → room₁.Chosen t.userId_ hero room' →
      r ≠ t.roomId_ := by
    rintro t hero room₁ room' ht hroom₁ hchosen rfl
    obtain rfl : room = room₁ := Option.some.inj (hroom.symm.trans hroom₁)
    exact hout t ht hchosen.mem
  cases hnext with
  | refused => exact ⟨rfl, rfl⟩
  | waiting ht _ _ _ hroom₁ hchosen _ hrs =>
    exact ⟨(hrs r).trans (if_neg (hother ht hroom₁ hchosen)), rfl⟩
  | started ht _ _ _ hroom₁ hchosen _ hrs _ _ hbs =>
    have hne := hother ht hroom₁ hchosen
    exact ⟨(hrs r).trans (if_neg hne), (hbs r).trans (if_neg hne)⟩

theorem AttackOutcome.strangers (h : Coherent srv) {io : SaveIO}
    (hnext : AttackOutcome srv io c payload next) (hroom : srv.roomService_.find r = some room)
    (hout : ∀ t, srv.sessionService_.findByConnection c = some t → t.userId_ ∉ room.users) :
    next.1.roomService_.find r = srv.roomService_.find r ∧
      next.1.battleService_.find r = srv.battleService_.find r := by
  have hother : ∀ {t state state'}, srv.sessionService_.findByConnection c = some t →
      srv.battleService_.find t.roomId_ = some state →
      BattleState.Attacked state t.userId_ state' → r ≠ t.roomId_ := by
    rintro t state state' ht hstate hattacked rfl
    obtain ⟨room₁, hroom₁, hhosts⟩ := h.hosts hstate
    obtain rfl : room = room₁ := Option.some.inj (hroom.symm.trans hroom₁)
    exact hout t ht ((BattleState.mem_users_of_hosts hhosts).mp hattacked.player)
  cases hnext with
  | refused => exact ⟨rfl, rfl⟩
  | hit ht hstate hattack _ hbs =>
    have hattacked := BattleState.attack_spec (BattleService.find_valid hstate) hattack
    exact ⟨rfl, (hbs r).trans (if_neg (hother ht hstate hattacked))⟩
  | felled ht hstate hattack hfin hbs h₁ h₂ hfinished =>
    have hattacked := BattleState.attack_spec (BattleService.find_valid hstate) hattack
    have hne := hother ht hstate hattacked
    have hend := h.roomEnded hstate hattacked.roomId hattacked.first hattacked.second hbs h₁ h₂
      hfinished
    exact ⟨(hend.rooms r).trans (if_neg hne), (hend.battles r).trans (if_neg hne)⟩

/-- A message from somebody else leaves a room and its battle alone. -/
theorem Outcome.strangers (h : Coherent srv) {frame : Frame} {now : MatchTimePoint} {io : SaveIO}
    (hnext : Outcome range srv (.message c frame now io) next)
    (hroom : srv.roomService_.find r = some room)
    (hout : ∀ t, srv.sessionService_.findByConnection c = some t → t.userId_ ∉ room.users) :
    next.1.roomService_.find r = srv.roomService_.find r ∧
      next.1.battleService_.find r = srv.battleService_.find r := by
  cases hnext with
  | ignored => exact ⟨rfl, rfl⟩
  | login hlogin => cases hlogin <;> exact ⟨rfl, rfl⟩
  | register hregister =>
    cases hregister
    exact ⟨rfl, rfl⟩
  | join hjoin => cases hjoin <;> exact ⟨rfl, rfl⟩
  | cancel hcancel => cases hcancel <;> exact ⟨rfl, rfl⟩
  | hero hhero => exact hhero.strangers hroom hout
  | attack hattack => exact hattack.strangers h hroom hout

variable (range) in
theorem Coherent.heroStep (h : Coherent srv) (hp : event.Possible srv) (h0 : room₀.roomId_ ≠ 0)
    (hholds : Holds srv room₀ choice room) (hnamed : ∀ u, choice u ≠ some .kNone) :
    HeroStep srv room₀ choice event (srv.step range event) := by
  have hnext := step_outcome range h hp
  have hroom := hnext.room h h0
  obtain ⟨hstep, honce⟩ := hroom.step hholds hnamed
  -- the last choice brings the room to its final heroes
  have hlast : Completes room₀.users choice (srv.choose event choice) →
      ∃ u hero room', Chooses srv room₀.roomId_ u hero room room' (srv.step range event) ∧
        Holds (srv.step range event).1 room₀ (srv.choose event choice) room' ∧ room'.Selected := by
    intro hcompletes
    obtain ⟨u, hu, hero, hrequest, hnone⟩ := hcompletes.request
    obtain ⟨room', hchooses⟩ := hroom.chooses hholds hnamed hu hrequest hnone
    have hadded := hholds.chooses hnamed hrequest hchooses
    have hsel := (hadded.selected_iff (choose_ne_kNone hnamed)).mpr hcompletes.2
    exact ⟨u, hero, room', hchooses, hadded, hsel⟩
  refine ⟨hstep, ?_, ?_, ?_, honce, ?_, ?_⟩
  · intro u hu hero hrequest hnone
    obtain ⟨room', hchooses⟩ := hroom.chooses hholds hnamed hu hrequest hnone
    refine ⟨?_, ?_⟩
    · rw [hchooses.room]
      exact Option.some_ne_none room'
    · by_cases hsel : room'.Selected
      · exact ⟨_, (hchooses.started hsel).2⟩
      · exact ⟨[], hchooses.waiting hsel⟩
  · rintro c t payload now io rfl ht hu hwhy
    have hhero : HeroOutcome srv c payload
        (srv.step range (.message c (MSG_HERO_SELECT_REQ, payload) now io)) :=
      handleHeroSelect_outcome payload h hp
    exact hhero.refuses h h0 hholds hnamed ht hu hwhy
  · rintro c frame now io rfl hout
    refine hnext.strangers h hholds.find fun t ht => ?_
    rw [hholds.users]
    exact hout t ht
  · intro hcompletes
    obtain ⟨u, hero, room', hchooses, -, hsel⟩ := hlast hcompletes
    exact ⟨room', hchooses.room, (hchooses.started hsel).1⟩
  · intro hcompletes v hv w hw hne
    obtain ⟨u, hero, room', hchooses, hadded, hsel⟩ := hlast hcompletes
    have husers := hadded.users
    rw [hchooses.frames h h0 hholds.find hsel (husers ▸ hv) (husers ▸ hw) hne,
      hadded.heroes v hv, hadded.heroes w hw]
    simp only [Room.users, List.cons.injEq] at husers
    rw [husers.1]

end HeroStep

/-! ### The room in a run -/

section Run

variable {created : GameServer} {room₀ : Room} {events : List Event} {event : Event} {r : UInt64}

theorem firstChoice_ne_kNone (events : List Event) :
    ∀ u, firstChoice range srv events u ≠ some .kNone := by
  induction events using List.reverseRecOn with
  | nil => exact fun u => (Option.some_ne_none _).symm
  | append_singleton events event ih =>
    rw [firstChoice_concat]
    exact choose_ne_kNone ih

/-- Nobody has chosen a hero in a new room. -/
theorem RoomOutcome.holds_of_absent {next : GameServer × List Effect}
    (hnext : RoomOutcome srv event r next) (habsent : srv.roomService_.find r = none)
    (hroom : next.1.roomService_.find r = some room₀) :
    Holds next.1 room₀ (fun _ => none) room₀ := by
  have hnone : room₀.firstHero_ = .kNone ∧ room₀.secondHero_ = .kNone := by
    cases hnext with
    | kept hsame =>
      rw [hsame, habsent] at hroom
      cases hroom
    | ended hgone => cases hgone.symm.trans hroom
    | founded _ hnew => exact hnew room₀ hroom
    | chosen hold => cases habsent.symm.trans hold
  refine ⟨by rw [RoomService.find_roomId hroom, hroom], rfl, fun u _ => ?_⟩
  unfold Room.heroOf
  split
  · exact hnone.1
  · exact hnone.2

/-- The machine that follows a room runs like the server. -/
theorem lasting_concat (h : (lasting range r).CanRun created (events ++ [event])) :
    (lasting range r).CanRun created events ∧
      event.Possible ((machine range).run created events).1 ∧
      ((machine range).run created events).1.roomService_.find r ≠ none := by
  obtain ⟨hevents, hevent⟩ := (Machine.canRun_append _ _ _ _).mp h
  rw [lasting, Machine.run_restrict] at hevent
  exact ⟨hevents, hevent.1.1, Option.isSome_iff_ne_none.mp hevent.1.2⟩

/-- As long as the room exists, it holds the first choices of its members, and a battle has been
started in it if both have chosen. -/
theorem Coherent.holds (h : Coherent created) (h0 : room₀.roomId_ ≠ 0)
    (hnew : Holds created room₀ (fun _ => none) room₀)
    (hrun : (lasting range room₀.roomId_).CanRun created events) :
    (((machine range).run created events).1.roomService_.find room₀.roomId_ ≠ none →
      ∃ room, Holds ((machine range).run created events).1 room₀
        (firstChoice range created events) room) ∧
    battlesStarted room₀.roomId_ ((machine range).run created events).2 =
      if AllChosen room₀.users (firstChoice range created events) then 1 else 0 := by
  induction events using List.reverseRecOn with
  | nil =>
    refine ⟨fun _ => ⟨room₀, hnew⟩, (if_neg fun hall => ?_).symm⟩
    exact hall _ (Room.mem_users.mpr (Or.inl rfl)) rfl
  | append_singleton events event ih =>
    obtain ⟨hevents, hp, hexists⟩ := lasting_concat hrun
    obtain ⟨hholds, hcount⟩ := ih hevents
    obtain ⟨room, hroom⟩ := hholds hexists
    have hco := h.run (Machine.canRun_of_restrict _ hevents)
    have hstep := hco.heroStep range hp h0 hroom (firstChoice_ne_kNone events)
    rw [Machine.run_concat, firstChoice_concat]
    refine ⟨hstep.room, ?_⟩
    show battlesStarted _ (_ ++ (GameServer.step _ range event).2) = _
    rw [battlesStarted_append, hcount, hstep.once]
    exact completes_add

/-- **The first choices of the members start the battle, exactly once.**  The room `r` is created in
a run and followed, event by event, until it ends.  The number of the room must not be 0, which
comes up when the room counter has wrapped around: see `not_selects_heroes`. -/
theorem selects_heroes {file : Option (List UInt8)} (h : init file = some srv)
    {before : List Event} {creation : Event}
    (hrun : (machine range).CanRun srv (before ++ [creation]))
    (habsent : ((machine range).run srv before).1.roomService_.find r = none)
    (hroom : ((machine range).run srv (before ++ [creation])).1.roomService_.find r = some room₀)
    (h0 : r ≠ 0) {events : List Event} {event : Event}
    (hlasting : (lasting range r).CanRun ((machine range).run srv (before ++ [creation])).1
      (events ++ [event])) :
    let created := ((machine range).run srv (before ++ [creation])).1
    let last := ((machine range).run created events).1
    HeroStep last room₀ (firstChoice range created events) event (last.step range event) ∧
      battlesStarted r ((machine range).run created (events ++ [event])).2 =
        if AllChosen room₀.users (firstChoice range created (events ++ [event])) then 1 else 0 := by
  intro created last
  have hco : Coherent created := coherent_run h hrun
  obtain rfl := RoomService.find_roomId hroom
  obtain ⟨hevents, hp, hexists⟩ := lasting_concat hlasting
  have hnew : Holds created room₀ (fun _ => none) room₀ := by
    obtain ⟨hbefore, hcreation, -⟩ := (Machine.canRun_append _ _ _ _).mp hrun
    have hbeforeco := coherent_run h hbefore
    have hfounded := (step_outcome range hbeforeco hcreation).room hbeforeco h0
    rw [Machine.run_concat] at hroom
    have hholds := hfounded.holds_of_absent habsent hroom
    simp only [created, Machine.run_concat]
    exact hholds
  obtain ⟨room, hholds⟩ := (hco.holds h0 hnew hevents).1 hexists
  have hlast : Coherent last := hco.run (Machine.canRun_of_restrict _ hevents)
  exact ⟨hlast.heroStep range hp h0 hholds (firstChoice_ne_kNone events),
    (hco.holds h0 hnew hlasting).2⟩

/-- Two players who have been matched choose their heroes. -/
theorem selects_heroes_two_players :
    let room₀ : Room := { roomId_ := 1, firstUserId_ := 1, secondUserId_ := 2 }
    let choice (hero : HeroType) := (ClientRequest.heroSelectReq { heroType_ := hero }).frame
    let created := ((machine allowedEloRange).run Wraparound.freshServer
      (Wraparound.arrival ++ Wraparound.search ++ [.tick 0])).1
    let first := Event.message 1 (choice .kWarrior) 0 Wraparound.reliable
    let second := Event.message 2 (choice .kMage) 0 Wraparound.reliable
    let last := (created.step allowedEloRange first).1
    firstChoice allowedEloRange created [first, second] 1 = some .kWarrior ∧
      firstChoice allowedEloRange created [first, second] 2 = some .kMage ∧
      HeroStep last room₀ (firstChoice allowedEloRange created [first]) second
        (last.step allowedEloRange second) ∧
      battlesStarted 1 ((machine allowedEloRange).run created [first, second]).2 = 1 := by
  intro room₀ choice created first second last
  have hrun : (machine allowedEloRange).CanRun Wraparound.freshServer
      (Wraparound.arrival ++ Wraparound.search ++ [.tick 0]) := by decide +kernel
  have hlasting : (lasting allowedEloRange 1).CanRun created ([first] ++ [second]) := by
    decide +kernel
  have hroom : created.roomService_.find 1 = some room₀ := by decide +kernel
  obtain ⟨hstep, hcount⟩ := selects_heroes (rfl : init none = _) hrun (by decide +kernel) hroom
    (by decide) hlasting
  exact ⟨by decide +kernel, by decide +kernel, hstep, hcount.trans (by decide +kernel)⟩

end Run

/-- The first player asks for a hero. -/
def Wraparound.choice : Event :=
  .message 1 (ClientRequest.heroSelectReq { heroType_ := .kMage }).frame 0 reliable

/-- The members of the room 0 do not know of it, so their choices are refused. -/
theorem Wraparound.Matched.not_heroStep {rooms : UInt64 → Option Room} (h : Matched rooms 0 srv)
    {room₀ : Room} (hnew : Holds srv room₀ (fun _ => none) room₀) (hu : 1 ∈ room₀.users) :
    ¬ HeroStep srv room₀ (fun _ => none) choice (srv.step allowedEloRange choice) := by
  intro hstep
  let request : HeroSelectRequest := { heroType_ := .kMage }
  have hdecode : MessageType.decoded .heroSelectRequest
      (ClientRequest.heroSelectReq request).frame.2 = some request := by decide
  have hrequest : srv.heroRequest choice = some (1, .kMage) :=
    heroRequest_of_session h.session hdecode (by decide) 0 reliable
  obtain ⟨room, hholds⟩ := hstep.room (hstep.accepted 1 hu .kMage hrequest rfl).1
  have hhero : HeroOutcome srv 1 (ClientRequest.heroSelectReq request).frame.2
      (srv.step allowedEloRange choice) := handleHeroSelect_outcome _ h.coherent h.connected
  rcases hhero.refused_or_chosen with ⟨response, -, heq⟩ | ⟨t, _, _, _, ht, hne, -⟩
  · -- the room is as before
    have hfind := hholds.find
    rw [heq, hnew.find] at hfind
    obtain rfl : room₀ = room := Option.some.inj hfind
    have hmage := hholds.heroes 1 hu
    rw [hnew.heroes 1 hu, choose_of_request hrequest rfl] at hmage
    cases hmage
  · obtain rfl := Option.some.inj (h.session.symm.trans ht)
    exact hne rfl

/-- In the room 0 no choice is accepted. -/
theorem not_selects_heroes :
    ¬ ∀ (file : Option (List UInt8)) (srv : GameServer) (before : List Event) (creation : Event)
      (r : UInt64) (room₀ : Room) (events : List Event) (event : Event),
      init file = some srv → (machine allowedEloRange).CanRun srv (before ++ [creation]) →
      ((machine allowedEloRange).run srv before).1.roomService_.find r = none →
      ((machine allowedEloRange).run srv (before ++ [creation])).1.roomService_.find r =
        some room₀ →
      (lasting allowedEloRange r).CanRun
        ((machine allowedEloRange).run srv (before ++ [creation])).1 (events ++ [event]) →
      let created := ((machine allowedEloRange).run srv (before ++ [creation])).1
      let last := ((machine allowedEloRange).run created events).1
      HeroStep last room₀ (firstChoice allowedEloRange created events) event
          (last.step allowedEloRange event) ∧
        battlesStarted r ((machine allowedEloRange).run created (events ++ [event])).2 =
          if AllChosen room₀.users (firstChoice allowedEloRange created (events ++ [event]))
          then 1 else 0 := by
  intro h
  -- after 2^64 rooms the next number is 0, and the tick gives it to a room
  obtain ⟨events, srv, hreach, hlobby⟩ := Wraparound.exists_lobby_zero
  obtain ⟨q, hq, hsearch⟩ := hlobby.search
  have hbefore := hreach.trans hsearch
  have hco := hlobby.coherent.reaches hsearch
  obtain ⟨rooms, hfounded, hmatched, -⟩ := hlobby.tick hq hco rfl
  obtain ⟨room₀, husers, hrooms⟩ := hfounded.room rfl
  have hroom := (hmatched.rooms_eq 0).trans (hrooms 0)
  have hnew := ((processMatchmakingTick_outcome allowedEloRange 0 hco).room 0).holds_of_absent
    (hlobby.rooms_eq 0) hroom
  have htick : Wraparound.server.Enabled { srv with matchQueue_ := q } (.tick 0) := trivial
  have hclaim := h none Wraparound.freshServer _ (.tick 0) 0 room₀ [] Wraparound.choice rfl
    (hbefore.trans (.cons htick (.nil _))).canRun
  simp only [Machine.run_concat, hbefore.last] at hclaim
  obtain ⟨hstep, -⟩ := hclaim (hlobby.rooms_eq 0) hroom
    ⟨⟨hmatched.connected, Option.isSome_iff_exists.mpr ⟨room₀, hroom⟩⟩, trivial⟩
  -- the sessions say 0, which the handler reads as no room
  refine hmatched.not_heroStep hnew ?_ hstep
  rcases husers with hp | hp <;> simp [hp]

end ArenaGame.GameServer
