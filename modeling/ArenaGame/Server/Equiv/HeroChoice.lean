import ArenaGame.Server.Equiv.Wraparound

/-!
# Heroes and rooms

`heroRequest` says who names which hero in an event, and `firstChoice` is what somebody names first
in a run.  `RoomOutcome` says what an event may do to one room: a hero is chosen in it (`Chooses`),
it ends, it is founded, or nothing happens.
-/

namespace ArenaGame.GameServer

open GameProtocol GameMessages SessionService MatchmakingService

variable {range : MatchTicket → MatchTimePoint → ℚ} {srv : GameServer}

/-! ### Requests -/

/-- A request that names a hero: the user and the hero. -/
def heroRequest (srv : GameServer) : Event → Option (UInt32 × HeroType)
  | .message conn (msgType, payload) _ _ =>
    if msgType = MSG_HERO_SELECT_REQ then
      match srv.sessionService_.findByConnection conn,
          MessageType.decoded .heroSelectRequest payload with
      | some session, some request =>
        if isSelectableHero request.heroType_ then some (session.userId_, request.heroType_)
        else none
      | _, _ => none
    else none
  | _ => none

/-- The requests that name a hero, in the order of the run. -/
def heroRequests (range : MatchTicket → MatchTimePoint → ℚ) (srv : GameServer) :
    List Event → List (UInt32 × HeroType)
  | [] => []
  | event :: events =>
    (srv.heroRequest event).toList ++ heroRequests range (srv.step range event).1 events

/-- The hero that a user names first. -/
def firstChoice (range : MatchTicket → MatchTimePoint → ℚ) (srv : GameServer)
    (events : List Event) (u : UInt32) : Option HeroType :=
  (heroRequests range srv events).lookup u

/-- The choices, with the one that an event adds. -/
def choose (srv : GameServer) (event : Event) (choice : UInt32 → Option HeroType) (u : UInt32) :
    Option HeroType :=
  (choice u).or ((srv.heroRequest event).toList.lookup u)

/-- All users have chosen. -/
def AllChosen (users : List UInt32) (choice : UInt32 → Option HeroType) : Prop :=
  ∀ u ∈ users, choice u ≠ none

instance decidableAllChosen (users : List UInt32) (choice : UInt32 → Option HeroType) :
    Decidable (AllChosen users choice) :=
  decidable_of_iff ((users.all fun u => (choice u).isSome) = true) (by
    simp only [List.all_eq_true, Option.isSome_iff_ne_none, AllChosen])

/-- The last choice is made. -/
def Completes (users : List UInt32) (choice choice' : UInt32 → Option HeroType) : Prop :=
  ¬ AllChosen users choice ∧ AllChosen users choice'

instance decidableCompletes (users : List UInt32) (choice choice' : UInt32 → Option HeroType) :
    Decidable (Completes users choice choice') :=
  inferInstanceAs (Decidable (_ ∧ _))

/-- The number of battles that are started in the room `r`. -/
def battlesStarted (r : UInt64) (effects : List Effect) : ℕ :=
  effects.countP fun
    | .startBattle room => room.roomId_ = r
    | _ => false

/-- The server as long as the room `r` exists. -/
def lasting (range : MatchTicket → MatchTimePoint → ℚ) (r : UInt64) :
    Machine GameServer Event Effect :=
  (machine range).restrict fun srv _ => (srv.roomService_.find r).isSome = true

instance decidableLasting (r : UInt64) (srv : GameServer) (event : Event) :
    Decidable ((lasting range r).Enabled srv event) :=
  inferInstanceAs (Decidable (event.Possible srv ∧ (srv.roomService_.find r).isSome = true))

theorem heroRequest_eq_some {event : Event} {u : UInt32} {hero : HeroType} :
    srv.heroRequest event = some (u, hero) ↔ ∃ c payload now io t request,
      event = .message c (MSG_HERO_SELECT_REQ, payload) now io ∧
      srv.sessionService_.findByConnection c = some t ∧
      MessageType.decoded .heroSelectRequest payload = some request ∧
      isSelectableHero request.heroType_ = true ∧ t.userId_ = u ∧ request.heroType_ = hero := by
  constructor
  · intro h
    cases event with
    | message c frame now io =>
      obtain ⟨msgType, payload⟩ := frame
      simp only [heroRequest] at h
      split at h
      · rename_i htype
        split at h
        · rename_i t request ht hdecode
          split at h
          · rename_i hsel
            obtain ⟨hu, hhero⟩ := Prod.mk.inj (Option.some.inj h)
            exact ⟨c, payload, now, io, t, request, by rw [htype], ht, hdecode, hsel, hu, hhero⟩
          · cases h
        · cases h
      · cases h
    | _ => cases h
  · rintro ⟨c, payload, now, io, t, request, rfl, ht, hdecode, hsel, rfl, rfl⟩
    simp only [heroRequest, ht, hdecode, hsel, if_true]

theorem heroRequest_of_session {c : UInt64} {payload : List UInt8} {t : PlayerSession}
    {request : HeroSelectRequest} (ht : srv.sessionService_.findByConnection c = some t)
    (hdecode : MessageType.decoded .heroSelectRequest payload = some request)
    (hsel : isSelectableHero request.heroType_ = true) (now : MatchTimePoint) (io : SaveIO) :
    srv.heroRequest (.message c (MSG_HERO_SELECT_REQ, payload) now io) =
      some (t.userId_, request.heroType_) :=
  heroRequest_eq_some.mpr ⟨c, payload, now, io, t, request, rfl, ht, hdecode, hsel, rfl, rfl⟩

theorem heroRequests_append (events events' : List Event) :
    heroRequests range srv (events ++ events') = heroRequests range srv events ++
      heroRequests range ((machine range).run srv events).1 events' := by
  induction events generalizing srv with
  | nil => rfl
  | cons event events ih =>
    simp only [List.cons_append, heroRequests, ih, List.append_assoc]
    rfl

/-- The choices after one more event. -/
theorem firstChoice_concat (events : List Event) (event : Event) :
    firstChoice range srv (events ++ [event]) =
      ((machine range).run srv events).1.choose event (firstChoice range srv events) := by
  ext1 u
  rw [firstChoice, heroRequests_append, List.lookup_append]
  simp only [heroRequests, List.append_nil, firstChoice, choose]

section Choose

variable {event : Event} {choice : UInt32 → Option HeroType} {u : UInt32} {hero : HeroType}

theorem choose_of_some (h : choice u = some hero) : srv.choose event choice u = some hero := by
  rw [choose, h, Option.some_or]

/-- A user who names a hero for the first time has chosen it. -/
theorem choose_of_request (hrequest : srv.heroRequest event = some (u, hero))
    (hnone : choice u = none) : srv.choose event choice u = some hero := by
  rw [choose, hnone, Option.none_or, hrequest, Option.toList_some, List.lookup_cons_self]

/-- Everybody else keeps what he has chosen. -/
theorem choose_of_ne (h : ∀ hero, srv.heroRequest event = some (u, hero) → choice u ≠ none) :
    srv.choose event choice u = choice u := by
  cases hchoice : choice u with
  | some hero => exact choose_of_some hchoice
  | none =>
    rw [choose, hchoice, Option.none_or]
    cases hrequest : srv.heroRequest event with
    | none => rfl
    | some request =>
      obtain ⟨v, hero⟩ := request
      rw [Option.toList_some, List.lookup_cons]
      split
      · rename_i heq
        obtain rfl : u = v := by simpa using heq
        exact absurd hchoice (h hero hrequest)
      · rfl

/-- What is chosen is a hero. -/
theorem choose_ne_kNone (h : ∀ u, choice u ≠ some .kNone) (u : UInt32) :
    srv.choose event choice u ≠ some .kNone := by
  by_cases hask : ∀ hero, srv.heroRequest event = some (u, hero) → choice u ≠ none
  · rw [choose_of_ne hask]
    exact h u
  · push Not at hask
    obtain ⟨hero, hrequest, hnone⟩ := hask
    rw [choose_of_request hrequest hnone]
    obtain ⟨_, _, _, _, _, _, _, _, _, hsel, _, rfl⟩ := heroRequest_eq_some.mp hrequest
    intro heq
    rw [Option.some.inj heq] at hsel
    cases hsel

/-- The choices are complete once if they are complete in the end. -/
theorem completes_add {users : List UInt32} :
    ((if AllChosen users choice then 1 else 0) +
      if Completes users choice (srv.choose event choice) then 1 else 0) =
      if AllChosen users (srv.choose event choice) then 1 else 0 := by
  have hmono : AllChosen users choice → AllChosen users (srv.choose event choice) := by
    intro hall u hu
    obtain ⟨hero, hhero⟩ := Option.ne_none_iff_exists'.mp (hall u hu)
    rw [choose_of_some hhero]
    exact Option.some_ne_none hero
  by_cases hall : AllChosen users choice
  · rw [if_pos hall, if_pos (hmono hall), if_neg fun hcompletes => hcompletes.1 hall]
  · rw [if_neg hall, Nat.zero_add]
    exact if_congr (and_iff_right hall) rfl rfl

/-- Who makes the last choice. -/
theorem Completes.request {users : List UInt32}
    (h : Completes users choice (srv.choose event choice)) :
    ∃ u ∈ users, ∃ hero, srv.heroRequest event = some (u, hero) ∧ choice u = none := by
  obtain ⟨hopen, hall⟩ := h
  by_contra hno
  push Not at hno
  refine hopen fun u hu hnone => ?_
  have hkeep := choose_of_ne fun hero hrequest => hno u hu hero hrequest
  exact hall u hu (hkeep.trans hnone)

theorem not_completes {users : List UInt32} (h : ∀ u ∈ users, srv.choose event choice u = choice u) :
    ¬ Completes users choice (srv.choose event choice) := by
  rintro ⟨hopen, hall⟩
  refine hopen fun u hu hnone => ?_
  exact hall u hu ((h u hu).trans hnone)

end Choose

/-! ### One room and one event -/

theorem battlesStarted_append (r : UInt64) (o o' : List Effect) :
    battlesStarted r (o ++ o') = battlesStarted r o + battlesStarted r o' := List.countP_append ..

@[simp] theorem battlesStarted_nil (r : UInt64) : battlesStarted r [] = 0 := rfl

@[simp] theorem battlesStarted_send (r : UInt64) (c : UInt64) (frame : Frame) (o : List Effect) :
    battlesStarted r (.send c frame :: o) = battlesStarted r o := rfl

@[simp] theorem battlesStarted_tell (r : UInt64) (u : UInt32) (m : ServerMessage)
    (o : List Effect) : battlesStarted r (srv.tell u m :: o) = battlesStarted r o := rfl

@[simp] theorem battlesStarted_tellBoth (r : UInt64) (u v : UInt32) (m : UInt32 → ServerMessage) :
    battlesStarted r (srv.tellBoth u v m) = 0 := rfl

@[simp] theorem battlesStarted_finishBattle (r : UInt64) (before : GameServer) (io : SaveIO)
    (state : BattleState) (o : List Effect) :
    battlesStarted r (.finishBattle before io state :: o) = battlesStarted r o := rfl

theorem battlesStarted_startBattle (r : UInt64) (room : Room) (o : List Effect) :
    battlesStarted r (.startBattle room :: o) =
      battlesStarted r o + if room.roomId_ = r then 1 else 0 := by
  simp [battlesStarted, List.countP_cons]

theorem battlesStarted_events (r : UInt64) (events : List MatchFoundEvent) :
    battlesStarted r (events.flatMap fun event => .matchFound event :: srv.tellFound event) = 0 := by
  induction events with
  | nil => rfl
  | cons event events ih =>
    have hone : battlesStarted r (.matchFound event :: srv.tellFound event) = 0 := by
      unfold tellFound
      split <;> rfl
    rw [List.flatMap_cons, battlesStarted_append, hone, ih]

/-- A member of the room `r` names a hero for the first time. -/
structure Chooses (srv : GameServer) (r : UInt64) (u : UInt32) (hero : HeroType) (room room' : Room)
    (next : GameServer × List Effect) : Prop where
  chosen : room.Chosen u hero room'
  room : next.1.roomService_.find r = some room'
  waiting : ¬ room'.Selected → next.2 = [srv.tell u (.heroSelectRsp { accepted_ := true })]
  /-- The second hero starts the battle. -/
  started : room'.Selected →
    next.1.battleService_.find r = some (BattleService.initialState room') ∧
    next.2 = srv.tell u (.heroSelectRsp { accepted_ := true }) :: .startBattle room' ::
      (srv.tellBoth room'.firstUserId_ room'.secondUserId_
          (fun u => .battleStartNtf (room'.startFor u)) ++
        srv.tellBoth room'.firstUserId_ room'.secondUserId_
          fun u => .battleStateNtf ((BattleService.initialState room').stateFor u))

/-- What an event does to the room `r`. -/
inductive RoomOutcome (srv : GameServer) (event : Event) (r : UInt64)
    (next : GameServer × List Effect) : Prop
  | kept : next.1.roomService_.find r = srv.roomService_.find r →
      battlesStarted r next.2 = 0 →
      (∀ room u hero, srv.roomService_.find r = some room →
        srv.heroRequest event = some (u, hero) → u ∈ room.users → room.heroOf u ≠ .kNone) →
      RoomOutcome srv event r next
  | ended : next.1.roomService_.find r = none → srv.heroRequest event = none →
      battlesStarted r next.2 = 0 → RoomOutcome srv event r next
  | founded : srv.roomService_.find r = none →
      (∀ room, next.1.roomService_.find r = some room →
        room.firstHero_ = .kNone ∧ room.secondHero_ = .kNone) →
      RoomOutcome srv event r next
  | chosen {u hero room room'} : srv.roomService_.find r = some room →
      srv.heroRequest event = some (u, hero) → Chooses srv r u hero room room' next →
      RoomOutcome srv event r next

theorem Chooses.battlesStarted {r : UInt64} {u : UInt32} {hero : HeroType} {room room' : Room}
    {next : GameServer × List Effect} (h : Chooses srv r u hero room room' next) :
    battlesStarted r next.2 = if room'.Selected then 1 else 0 := by
  have hid := RoomService.find_roomId h.room
  split
  · rename_i hsel
    rw [(h.started hsel).2, battlesStarted_tell, battlesStarted_startBattle, battlesStarted_append,
      battlesStarted_tellBoth, battlesStarted_tellBoth, if_pos hid]
  · rename_i hnot
    rw [h.waiting hnot, battlesStarted_tell, battlesStarted_nil]

/-- An event that is no choice of a hero leaves the room alone. -/
theorem RoomOutcome.of_silent {event : Event} {r : UInt64} {next : GameServer × List Effect}
    (hrequest : srv.heroRequest event = none)
    (hroom : next.1.roomService_.find r = srv.roomService_.find r)
    (hstarted : battlesStarted r next.2 = 0) : RoomOutcome srv event r next :=
  .kept hroom hstarted fun _ _ _ _ hsome => by cases hrequest.symm.trans hsome

/-- A tick keeps the rooms and founds new ones without heroes. -/
theorem Rounds.find_room {now : MatchTimePoint} {s s' : MatchmakingService} {outcomes : Outcomes}
    (hrounds : Rounds range now s outcomes s') (r : UInt64) :
    s'.roomService_.find r = s.roomService_.find r ∨ s.roomService_.find r = none ∧
      ∀ room, s'.roomService_.find r = some room →
        room.firstHero_ = .kNone ∧ room.secondHero_ = .kNone := by
  have hcreate : ∀ (rs : RoomService) (u v : UInt32),
      (rs.create u v).2.find r = rs.find r ∨ rs.find r = none ∧
        ∀ room, (rs.create u v).2.find r = some room →
          room.firstHero_ = .kNone ∧ room.secondHero_ = .kNone := by
    intro rs u v
    by_cases hacc : RoomService.Refused u v
    · rw [RoomService.create_of_refused hacc]
      exact Or.inl rfl
    · rw [RoomService.find_create hacc]
      split
      · rename_i hnew
        refine Or.inr ⟨hnew.2, fun room hroom => ?_⟩
        obtain rfl := Option.some.inj hroom
        exact ⟨rfl, rfl⟩
      · exact Or.inl rfl
  induction hrounds with
  | done => exact Or.inl rfl
  | @round s pair q' outcomes s' hdraw hrounds ih =>
    have hplace : ({ s with matchQueue_ := q' }.placePair pair).2.roomService_.find r =
          s.roomService_.find r ∨ s.roomService_.find r = none ∧
        ∀ room, ({ s with matchQueue_ := q' }.placePair pair).2.roomService_.find r = some room →
          room.firstHero_ = .kNone ∧ room.secondHero_ = .kNone := by
      have hcases := placePair_cases { s with matchQueue_ := q' } pair
      generalize { s with matchQueue_ := q' }.placePair pair = placed at hcases ⊢
      cases hcases with
      | skipped => exact Or.inl rfl
      | noRoom => exact hcreate _ _ _
      | found => exact hcreate _ _ _
    -- a room that is new in one round is kept by the rounds after it
    rcases hplace with hsame | ⟨hnone, hnew⟩
    · rw [hsame] at ih
      exact ih
    · rcases ih with hkept | ⟨-, hnew'⟩
      · exact Or.inr ⟨hnone, fun room hroom => hnew room (hkept.symm.trans hroom)⟩
      · exact Or.inr ⟨hnone, hnew'⟩

theorem TickOutcome.room {now : MatchTimePoint} {next : GameServer × List Effect}
    (hnext : TickOutcome range now srv next) (r : UInt64) :
    RoomOutcome srv (.tick now) r next := by
  obtain ⟨hrounds⟩ := hnext
  rcases Rounds.find_room hrounds r with hroom | ⟨hnone, hnew⟩
  · exact .of_silent rfl hroom (battlesStarted_events r _)
  · exact .founded hnone hnew

/-- A member who asks for a hero has the room in the session. -/
theorem Coherent.asks (h : Coherent srv) {c : UInt64} {payload : List UInt8} {now : MatchTimePoint}
    {io : SaveIO} {r : UInt64} (h0 : r ≠ 0) {room : Room} {u : UInt32} {hero : HeroType}
    (hroom : srv.roomService_.find r = some room) (hu : u ∈ room.users)
    (hrequest : srv.heroRequest (.message c (MSG_HERO_SELECT_REQ, payload) now io) =
      some (u, hero)) :
    ∃ t request, srv.sessionService_.findByConnection c = some t ∧ t.userId_ = u ∧ t.roomId_ = r ∧
      MessageType.decoded .heroSelectRequest payload = some request ∧
      isSelectableHero request.heroType_ = true := by
  obtain ⟨c', payload', now', io', t, request, heq, ht, hdecode, hsel, htu, -⟩ :=
    heroRequest_eq_some.mp hrequest
  simp only [Event.message.injEq, Prod.mk.injEq, true_and] at heq
  obtain ⟨rfl, rfl, -⟩ := heq
  obtain ⟨s, hs, hsr⟩ := h.inRoom h0 hroom u hu
  rw [← htu, sessionOf_of_session ht] at hs
  obtain rfl := Option.some.inj hs
  exact ⟨t, request, ht, htu, hsr, hdecode, hsel⟩

theorem HeroOutcome.room (h : Coherent srv) {c : UInt64} {payload : List UInt8}
    {now : MatchTimePoint} {io : SaveIO} {next : GameServer × List Effect}
    (hnext : HeroOutcome srv c payload next) {r : UInt64} (h0 : r ≠ 0) :
    RoomOutcome srv (.message c (MSG_HERO_SELECT_REQ, payload) now io) r next := by
  -- a choice in another room is no request of a member
  have hother : ∀ {t}, srv.sessionService_.findByConnection c = some t → r ≠ t.roomId_ →
      ∀ room u hero, srv.roomService_.find r = some room →
        srv.heroRequest (.message c (MSG_HERO_SELECT_REQ, payload) now io) = some (u, hero) →
        u ∈ room.users → room.heroOf u ≠ .kNone := by
    intro t ht hr room u hero hroom hrequest hu
    obtain ⟨t', request', ht', -, hr', -⟩ := h.asks h0 hroom hu hrequest
    obtain rfl := Option.some.inj (ht.symm.trans ht')
    exact absurd hr'.symm hr
  have htell : ∀ {t}, srv.sessionService_.findByConnection c = some t → ∀ m : ServerMessage,
      .send c m.frame = srv.tell t.userId_ m := by
    intro t ht m
    rw [tell, findConnectionByUserId_of_session ht]
  cases hnext with
  | refused _ _ hwhy =>
    refine .kept rfl rfl fun room u hero hroom hrequest hu => ?_
    obtain ⟨t, request, ht, rfl, rfl, hdecode, hsel⟩ := h.asks h0 hroom hu hrequest
    exact hwhy t request room ht h0 hdecode hsel hroom hu
  | @waiting t request room room' rs ht ht0 hdecode hsel hroom hchosen _ hrs hnot =>
    by_cases hr : r = t.roomId_
    · subst hr
      refine .chosen hroom (heroRequest_of_session ht hdecode hsel now io)
        ⟨hchosen, (hrs _).trans (if_pos rfl), fun _ => ?_, fun hboth => absurd hboth hnot⟩
      rw [htell ht]
    · exact .kept ((hrs r).trans (if_neg hr)) rfl (hother ht hr)
  | @started t request room room' rs bs ht ht0 hdecode hsel hroom hchosen _ hrs hboth _ hbs =>
    by_cases hr : r = t.roomId_
    · subst hr
      refine .chosen hroom (heroRequest_of_session ht hdecode hsel now io)
        ⟨hchosen, (hrs _).trans (if_pos rfl), fun hnot => absurd hboth hnot, fun _ => ⟨?_, ?_⟩⟩
      · exact (hbs _).trans (if_pos rfl)
      · rw [htell ht]
    · refine .kept ((hrs r).trans (if_neg hr)) ?_ (hother ht hr)
      have hid : room'.roomId_ = t.roomId_ :=
        hchosen.roomId_eq.trans (RoomService.find_roomId hroom)
      rw [battlesStarted_send, battlesStarted_startBattle, battlesStarted_append,
        battlesStarted_tellBoth, battlesStarted_tellBoth, hid, if_neg (Ne.symm hr)]

theorem AttackOutcome.room (h : Coherent srv) {c : UInt64} {payload : List UInt8} {io : SaveIO}
    {next : GameServer × List Effect} (hnext : AttackOutcome srv io c payload next) (r : UInt64) :
    battlesStarted r next.2 = 0 ∧
      (next.1.roomService_.find r = srv.roomService_.find r ∨ next.1.roomService_.find r = none) := by
  cases hnext with
  | refused => exact ⟨rfl, Or.inl rfl⟩
  | hit => exact ⟨rfl, Or.inl rfl⟩
  | felled ht hstate hattack hfin hbs h₁ h₂ hfinished =>
    have hattacked := BattleState.attack_spec (BattleService.find_valid hstate) hattack
    have hend := h.roomEnded hstate hattacked.roomId hattacked.first hattacked.second hbs h₁ h₂
      hfinished
    refine ⟨?_, ?_⟩
    · rw [battlesStarted_append, battlesStarted_tellBoth, battlesStarted_finishBattle,
        battlesStarted_tellBoth]
    · rw [hend.rooms]
      exact (ite_eq_or_eq _ _ _).symm

theorem CloseOutcome.room (h : Coherent srv) {c : UInt64} {io : SaveIO}
    {next : GameServer × List Effect} (hnext : CloseOutcome srv io c next) (r : UInt64) :
    battlesStarted r next.2 = 0 ∧
      (next.1.roomService_.find r = srv.roomService_.find r ∨ next.1.roomService_.find r = none) := by
  have hended : ∀ {f srv₁ r'}, RoomEnded (srv.dequeue c) r' f srv₁ →
      srv₁.roomService_.find r = srv.roomService_.find r ∨ srv₁.roomService_.find r = none := by
    intro f srv₁ r' hend
    rw [hend.rooms, roomService_dequeue]
    exact (ite_eq_or_eq _ _ _).symm
  cases hnext with
  | free =>
    refine ⟨rfl, Or.inl ?_⟩
    exact congrArg (RoomService.find · r) (roomService_dequeue srv c)
  | left _ _ _ _ _ _ hend =>
    have hroom := hended hend
    exact ⟨rfl, hroom⟩
  | forfeited ht hstate hforfeit hbs h₁ h₂ hfinished =>
    have hf := BattleState.forfeit_spec (BattleService.find_valid hstate) hforfeit
    have hend := (h.dequeue c).roomEnded (by simpa using hstate) hf.roomId hf.first hf.second
      (by simpa using hbs) (by simpa using h₁) (by simpa using h₂) hfinished
    have hroom := hended hend
    refine ⟨?_, hroom⟩
    rw [battlesStarted_finishBattle, battlesStarted_tellBoth]

theorem Outcome.room (h : Coherent srv) {event : Event} {next : GameServer × List Effect}
    (hnext : Outcome range srv event next) {r : UInt64} (h0 : r ≠ 0) :
    RoomOutcome srv event r next := by
  cases hnext with
  | opened => exact .of_silent rfl rfl rfl
  | @ignored c frame now io hframe =>
    have hother : frame.1 ≠ MSG_HERO_SELECT_REQ := by
      rintro heq
      rw [heq] at hframe
      exact hframe (by decide)
    exact .of_silent (by simp only [heroRequest, if_neg hother]) rfl rfl
  | login hlogin => cases hlogin <;> exact .of_silent rfl rfl rfl
  | register hregister =>
    cases hregister
    exact .of_silent rfl rfl rfl
  | join hjoin => cases hjoin <;> exact .of_silent rfl rfl rfl
  | cancel hcancel => cases hcancel <;> exact .of_silent rfl rfl rfl
  | hero hhero => exact hhero.room h h0
  | attack hattack =>
    obtain ⟨hstarted, hroom | hroom⟩ := hattack.room h r
    · exact .of_silent rfl hroom hstarted
    · exact .ended hroom rfl hstarted
  | tick htick => exact htick.room r
  | closed hclose =>
    obtain ⟨hstarted, hroom | hroom⟩ := hclose.room h r
    · exact .of_silent rfl hroom hstarted
    · exact .ended hroom rfl hstarted

end ArenaGame.GameServer
