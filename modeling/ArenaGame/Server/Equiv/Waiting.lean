import ArenaGame.Server.Equiv.Consistency

/-!
# Waiting for a match

A queued user waits until he cancels, disconnects or is matched, and a match is told to both of its
players.  Nothing else takes a user off the queue, as long as the room counter has not wrapped
around.
-/

namespace ArenaGame.GameServer

open SessionService MatchmakingService GameProtocol GameMessages

variable {range : MatchTicket → MatchTimePoint → ℚ} {srv : GameServer} {u : UInt32}

def Queued (u : UInt32) (srv : GameServer) : Prop := ∃ ticket, srv.matchQueue_.find u = some ticket

/-! ### Reasons to leave the queue -/

/-- A cancel request of the user is accepted. -/
def Cancelled (u : UInt32) (srv : GameServer) (event : Event) (next : GameServer × List Effect) :
    Prop :=
  ∃ c t payload now io, event = .message c (MSG_MATCH_CANCEL_REQ, payload) now io ∧
    srv.sessionService_.findByConnection c = some t ∧ t.userId_ = u ∧
    framesTo c next.2 = [(ServerMessage.matchCancelRsp { accepted_ := true }).frame]

/-- The connection of the user closes. -/
def Disconnected (u : UInt32) (srv : GameServer) (event : Event) : Prop :=
  ∃ c t io, event = .closed c io ∧ srv.sessionService_.findByConnection c = some t ∧ t.userId_ = u

/-- Two users who are online get a new room, and each of them is told, once, which room it is and
who the other one is. -/
structure Introduced (srv : GameServer) (next : GameServer × List Effect)
    (found : MatchFoundEvent) (t₁ t₂ : PlayerSession) : Prop where
  effect : .matchFound found ∈ next.2
  first : srv.sessionService_.sessionOf found.pair_.first_.userId_ = some t₁
  second : srv.sessionService_.sessionOf found.pair_.second_.userId_ = some t₂
  ne : found.pair_.first_.userId_ ≠ found.pair_.second_.userId_
  fresh : srv.roomService_.find found.roomId_ = none
  stored : next.1.roomService_.find found.roomId_ =
    some { roomId_ := found.roomId_, firstUserId_ := found.pair_.first_.userId_,
           secondUserId_ := found.pair_.second_.userId_ }
  firstInRoom : next.1.sessionService_.sessionOf found.pair_.first_.userId_ =
    some { t₁ with roomId_ := found.roomId_ }
  secondInRoom : next.1.sessionService_.sessionOf found.pair_.second_.userId_ =
    some { t₂ with roomId_ := found.roomId_ }
  firstTold :
    framesTo (srv.sessionService_.findConnectionByUserId found.pair_.first_.userId_) next.2 =
      [(foundFor found.roomId_ t₂).frame]
  secondTold :
    framesTo (srv.sessionService_.findConnectionByUserId found.pair_.second_.userId_) next.2 =
      [(foundFor found.roomId_ t₁).frame]

/-- A tick matches the user with another one. -/
def Matched (u : UInt32) (srv : GameServer) (event : Event) (next : GameServer × List Effect) :
    Prop :=
  ∃ now found t₁ t₂, event = .tick now ∧ u ∈ found.pair_.users ∧ Introduced srv next found t₁ t₂

def ExactlyOne (a b c : Prop) : Prop := a ∧ ¬ b ∧ ¬ c ∨ ¬ a ∧ b ∧ ¬ c ∨ ¬ a ∧ ¬ b ∧ c

/-- Exactly one of the three reasons to leave the queue. -/
def Leaves (u : UInt32) (srv : GameServer) (event : Event) (next : GameServer × List Effect) :
    Prop :=
  ExactlyOne (Cancelled u srv event next) (Disconnected u srv event) (Matched u srv event next)

/-! ### What a tick tells -/

/-- A match tells nothing to a connection that is not the one of a player. -/
theorem framesTo_tellFound_of_ne {c : UInt64} {found : MatchFoundEvent}
    (hne : ∀ v ∈ found.pair_.users, ∀ t, srv.sessionService_.sessionOf v = some t →
      srv.sessionService_.findConnectionByUserId v ≠ c) : framesTo c (srv.tellFound found) = [] := by
  unfold tellFound
  split
  · rename_i t₁ t₂ h₁ h₂
    rw [tell, framesTo_send, if_neg (hne _ (mem_users.mpr (Or.inl rfl)) _ h₁), tell, framesTo_send,
      if_neg (hne _ (mem_users.mpr (Or.inr rfl)) _ h₂), framesTo_nil]
  · rfl

theorem framesTo_events_of_ne {c : UInt64} {events : List MatchFoundEvent}
    (hne : ∀ e ∈ events, ∀ v ∈ e.pair_.users, ∀ t, srv.sessionService_.sessionOf v = some t →
      srv.sessionService_.findConnectionByUserId v ≠ c) :
    framesTo c (events.flatMap fun event => .matchFound event :: srv.tellFound event) = [] := by
  induction events with
  | nil => rfl
  | cons e events ih =>
    rw [List.flatMap_cons, framesTo_append, ih fun e' he' => hne e' (List.mem_cons_of_mem _ he'),
      List.append_nil]
    exact framesTo_tellFound_of_ne (hne e List.mem_cons_self)

theorem framesTo_tellFound {found : MatchFoundEvent} {t₁ t₂ : PlayerSession}
    (h₁ : srv.sessionService_.sessionOf found.pair_.first_.userId_ = some t₁)
    (h₂ : srv.sessionService_.sessionOf found.pair_.second_.userId_ = some t₂)
    (hne : found.pair_.first_.userId_ ≠ found.pair_.second_.userId_) :
    framesTo (srv.sessionService_.findConnectionByUserId found.pair_.first_.userId_)
        (srv.tellFound found) = [(foundFor found.roomId_ t₂).frame] ∧
      framesTo (srv.sessionService_.findConnectionByUserId found.pair_.second_.userId_)
        (srv.tellFound found) = [(foundFor found.roomId_ t₁).frame] := by
  have hc := connection_ne h₁ h₂ hne
  constructor
  · simp only [tellFound, h₁, h₂, tell, framesTo_send, if_pos, if_neg hc.symm, framesTo_nil]
  · simp only [tellFound, h₁, h₂, tell, framesTo_send, if_pos, if_neg hc, framesTo_nil]

/-- What the matches of a tick tell to one user. -/
theorem framesTo_events {events : List MatchFoundEvent} {t : PlayerSession}
    (ht : srv.sessionService_.sessionOf u = some t)
    (hnodup : (events.flatMap fun e => e.pair_.users).Nodup) {found : MatchFoundEvent}
    (hfound : found ∈ events) (hu : u ∈ found.pair_.users) :
    framesTo (srv.sessionService_.findConnectionByUserId u)
        (events.flatMap fun event => .matchFound event :: srv.tellFound event) =
      framesTo (srv.sessionService_.findConnectionByUserId u) (srv.tellFound found) := by
  have hnone : ∀ {events' : List MatchFoundEvent}, (∀ e ∈ events', u ∉ e.pair_.users) →
      framesTo (srv.sessionService_.findConnectionByUserId u)
        (events'.flatMap fun event => .matchFound event :: srv.tellFound event) = [] := by
    intro events' hout
    refine framesTo_events_of_ne fun e he v hv t' ht' => connection_ne ht' ht ?_
    rintro rfl
    exact hout e he hv
  obtain ⟨before, after, rfl⟩ := List.append_of_mem hfound
  -- the user is in no other match
  simp only [List.flatMap_append, List.flatMap_cons, List.nodup_append, List.mem_append,
    List.mem_flatMap] at hnodup
  obtain ⟨-, ⟨-, -, hafter⟩, hbefore⟩ := hnodup
  have hout₁ : ∀ e ∈ before, u ∉ e.pair_.users := fun e he hmem =>
    hbefore u ⟨e, he, hmem⟩ u (Or.inl hu) rfl
  have hout₂ : ∀ e ∈ after, u ∉ e.pair_.users := fun e he hmem =>
    hafter u hu u ⟨e, he, hmem⟩ rfl
  rw [List.flatMap_append, framesTo_append, hnone hout₁, List.nil_append, List.flatMap_cons,
    framesTo_append, hnone hout₂, List.append_nil]
  rfl

theorem users_events_sublist {outcomes : Outcomes}
    (h : ∀ o ∈ outcomes, ∀ event, o.2 = some event → event.pair_ = o.1) :
    (outcomes.events.flatMap fun e => e.pair_.users).Sublist outcomes.users := by
  induction outcomes with
  | nil => exact List.Sublist.refl _
  | cons o outcomes ih =>
    obtain ⟨pair, event⟩ := o
    have hrest := ih fun o' ho' => h o' (List.mem_cons_of_mem _ ho')
    rw [Outcomes.events_cons, Outcomes.users_cons, List.flatMap_append]
    cases event with
    | none => exact hrest.trans (List.sublist_append_right _ _)
    | some event =>
      obtain rfl := h _ List.mem_cons_self event rfl
      refine List.Sublist.append ?_ hrest
      simp

/-- Whoever is drawn in a tick is matched, and both players are told. -/
theorem Accounted.introduced {o : List Effect} (h : Accounted o srv) {now : MatchTimePoint}
    {outcomes : Outcomes} {s' : MatchmakingService}
    (hrounds : Rounds range now srv.toMatchmakingService outcomes s')
    (hrooms : roomsCreated o + outcomes.events.length < 2 ^ 64 - 1) (hu : u ∈ outcomes.users) :
    ∃ found t₁ t₂, u ∈ found.pair_.users ∧
      Introduced srv ({ srv with toMatchmakingService := s' },
        outcomes.events.flatMap fun event => .matchFound event :: srv.tellFound event)
        found t₁ t₂ := by
  obtain ⟨hprocessed, -⟩ := hrounds.processed h.lodged.numbered hrooms
  have hnodup := hrounds.users_nodup
  have hall := hprocessed.all_found hnodup fun v hv => by
    obtain ⟨ticket, hticket⟩ := hrounds.queued hv
    obtain ⟨t, ht, h0, -⟩ := h.coherent.queued hticket
    exact ⟨t, ht, h0⟩
  obtain ⟨pair, hpair, hup⟩ := List.mem_flatMap.mp hu
  obtain ⟨roomId, hevent⟩ := hall pair hpair
  set found : MatchFoundEvent := { roomId_ := roomId, pair_ := pair.1 }
  have hfound : found ∈ outcomes.events := List.mem_filterMap.mpr ⟨pair, hpair, hevent⟩
  have hmatch := (hprocessed.events hnodup).1 found hfound
  obtain ⟨t₁, h₁, -, hr₁⟩ := hmatch.online _ (mem_users.mpr (Or.inl rfl))
  obtain ⟨t₂, h₂, -, hr₂⟩ := hmatch.online _ (mem_users.mpr (Or.inr rfl))
  -- nobody is in two matches, so each player is told once
  have hevents : (outcomes.events.flatMap fun e => e.pair_.users).Nodup := by
    refine (users_events_sublist fun o' ho' event heq => ?_).nodup hnodup
    obtain ⟨roomId', heq'⟩ := hall o' ho'
    rw [heq, Option.some.injEq] at heq'
    rw [heq']
  have htell := framesTo_tellFound h₁ h₂ hmatch.ne
  refine ⟨found, t₁, t₂, hup, ?_, h₁, h₂, hmatch.ne, hmatch.fresh, hmatch.stored, hr₁, hr₂, ?_, ?_⟩
  · exact List.mem_flatMap.mpr ⟨found, hfound, List.mem_cons_self⟩
  · rw [framesTo_events h₁ hevents hfound (mem_users.mpr (Or.inl rfl))]
    exact htell.1
  · rw [framesTo_events h₂ hevents hfound (mem_users.mpr (Or.inr rfl))]
    exact htell.2

theorem mem_events_of_effect {events : List MatchFoundEvent} {found : MatchFoundEvent}
    (h : .matchFound found ∈
      events.flatMap fun event => .matchFound event :: srv.tellFound event) : found ∈ events := by
  obtain ⟨e, he, hmem⟩ := List.mem_flatMap.mp h
  rcases List.mem_cons.mp hmem with heq | htold
  · cases heq
    exact he
  · unfold tellFound at htold
    split at htold
    · simp [tell] at htold
    · cases htold

/-! ### Every event -/

section Reasons

variable {event : Event} {next : GameServer × List Effect}

theorem leaves_of_cancelled (h : Cancelled u srv event next) : Leaves u srv event next := by
  refine Or.inl ⟨h, ?_, ?_⟩
  · rintro ⟨c', t', io', rfl, -⟩
    obtain ⟨c, t, payload, now, io, heq, -⟩ := h
    cases heq
  · rintro ⟨now', found, t₁, t₂, rfl, -⟩
    obtain ⟨c, t, payload, now, io, heq, -⟩ := h
    cases heq

theorem leaves_of_disconnected (h : Disconnected u srv event) : Leaves u srv event next := by
  refine Or.inr (Or.inl ⟨?_, h, ?_⟩)
  · rintro ⟨c, t, payload, now, io, rfl, -⟩
    obtain ⟨c', t', io', heq, -⟩ := h
    cases heq
  · rintro ⟨now', found, t₁, t₂, rfl, -⟩
    obtain ⟨c', t', io', heq, -⟩ := h
    cases heq

theorem leaves_of_matched (h : Matched u srv event next) : Leaves u srv event next := by
  refine Or.inr (Or.inr ⟨?_, ?_, h⟩)
  · rintro ⟨c, t, payload, now, io, rfl, -⟩
    obtain ⟨now', found, t₁, t₂, heq, -⟩ := h
    cases heq
  · rintro ⟨c', t', io', rfl, -⟩
    obtain ⟨now', found, t₁, t₂, heq, -⟩ := h
    cases heq

theorem Leaves.cases (h : Leaves u srv event next) :
    Cancelled u srv event next ∨ Disconnected u srv event ∨ Matched u srv event next := by
  rcases h with ⟨h, -, -⟩ | ⟨-, h, -⟩ | ⟨-, -, h⟩
  · exact Or.inl h
  · exact Or.inr (Or.inl h)
  · exact Or.inr (Or.inr h)

theorem not_leaves_opened {c : UInt64} : ¬ Leaves u srv (.opened c) next := by
  intro hleaves
  rcases hleaves.cases with ⟨c', t, payload, now', io', heq, -⟩ | ⟨c', t, io', heq, -⟩ |
    ⟨now', found, t₁, t₂, heq, -⟩ <;> cases heq

/-- Only an accepted cancel request is a reason among the messages. -/
theorem leaves_message_iff {frame : Frame} {c : UInt64} {now : MatchTimePoint} {io : SaveIO} :
    Leaves u srv (.message c frame now io) next ↔
      Cancelled u srv (.message c frame now io) next := by
  refine ⟨fun hleaves => ?_, leaves_of_cancelled⟩
  rcases hleaves.cases with hcancel | ⟨c', t, io', heq, -⟩ | ⟨now', found, t₁, t₂, heq, -⟩
  · exact hcancel
  · cases heq
  · cases heq

theorem not_leaves_message {frame : Frame} {c : UInt64} {now : MatchTimePoint} {io : SaveIO}
    (hne : frame.1 ≠ MSG_MATCH_CANCEL_REQ) : ¬ Leaves u srv (.message c frame now io) next := by
  rw [leaves_message_iff]
  rintro ⟨c', t, payload, now', io', heq, -⟩
  cases heq
  exact hne rfl

end Reasons

theorem matchCancelRsp_accepted {response response' : MatchCancelResponse}
    (h : (ServerMessage.matchCancelRsp response).Fits)
    (h' : (ServerMessage.matchCancelRsp response').Fits)
    (heq : (ServerMessage.matchCancelRsp response).frame =
      (ServerMessage.matchCancelRsp response').frame) : response.accepted_ = response'.accepted_ := by
  refine kept_of_bytes_eq (t := .matchCancelResponse) h h' (congrArg Prod.snd heq) fun v => ?_
  cases ha : v.accepted_ <;> simp [MessageType.reset, ha]

/-- A cancel request is a reason exactly if it is accepted and it is the user's own. -/
theorem CancelOutcome.leaves_iff {c : UInt64} {payload : List UInt8} {now : MatchTimePoint}
    {io : SaveIO} {next : GameServer × List Effect} (hcancel : CancelOutcome srv c payload next)
    (hq : Queued u srv) :
    Leaves u srv (.message c (MSG_MATCH_CANCEL_REQ, payload) now io) next ↔ ¬ Queued u next.1 := by
  rw [leaves_message_iff]
  cases hcancel with
  | @refused response hno hfits _ =>
    refine ⟨fun hcancelled => ?_, fun hnot => absurd hq hnot⟩
    obtain ⟨c', t, payload', now', io', heq, -, -, hframes⟩ := hcancelled
    obtain rfl := (Event.message.inj heq).1
    -- the answer that was sent says no, and an accepted cancel has another frame
    rw [framesTo_send, if_pos rfl, framesTo_nil] at hframes
    have haccepted := matchCancelRsp_accepted hfits
      (ServerMessage.fits_matchCancelRsp (Nat.zero_le _)) (List.cons.inj hframes).1
    rw [hno] at haccepted
    cases haccepted
  | @accepted t ticket q ht h0 hsome hfind =>
    constructor
    · rintro ⟨c', t', payload', now', io', heq, ht', rfl, -⟩ ⟨ticket', hticket'⟩
      obtain rfl := (Event.message.inj heq).1
      obtain rfl : t = t' := Option.some.inj (ht.symm.trans ht')
      rw [hfind, if_pos rfl] at hticket'
      cases hticket'
    · intro hnot
      refine ⟨c, t, payload, now, io, rfl, ht, ?_, by rw [framesTo_send, if_pos rfl, framesTo_nil]⟩
      by_contra hne
      obtain ⟨ticket', hticket'⟩ := hq
      exact hnot ⟨ticket', by rw [hfind, if_neg (Ne.symm hne), hticket']⟩

/-- A tick is a reason exactly if the user is drawn in it. -/
theorem Accounted.tick_leaves_iff {o : List Effect} (h : Accounted o srv) {now : MatchTimePoint}
    {next : GameServer × List Effect} (htick : TickOutcome range now srv next)
    (hrooms : roomsCreated (o ++ next.2) < 2 ^ 64 - 1) (hq : Queued u srv) :
    Leaves u srv (.tick now) next ↔ ¬ Queued u next.1 := by
  obtain @⟨outcomes, s', hrounds⟩ := htick
  rw [roomsCreated_append, roomsCreated_events] at hrooms
  obtain ⟨ticket, hticket⟩ := hq
  unfold Queued
  constructor
  · intro hleaves ⟨ticket', hticket'⟩
    rcases hleaves.cases with ⟨c', t, payload, now', io', heq, -⟩ | ⟨c', t, io', heq, -⟩ |
      ⟨now', found, t₁, t₂, -, hu, hintro⟩
    · cases heq
    · cases heq
    · have hdrawn := mem_users_of_mem_events hrounds (mem_events_of_effect hintro.effect) hu
      rw [hrounds.find, if_pos hdrawn] at hticket'
      cases hticket'
  · intro hnot
    apply leaves_of_matched
    have hdrawn : u ∈ outcomes.users := by
      by_contra hout
      exact hnot ⟨ticket, by rw [hrounds.find, if_neg hout, hticket]⟩
    -- no pair is put back, as the rooms have not run out
    obtain ⟨found, t₁, t₂, hu, hintro⟩ := h.introduced hrounds hrooms hdrawn
    exact ⟨now, found, t₁, t₂, rfl, hu, hintro⟩

/-- A connection that closes is a reason exactly if it is the user's own. -/
theorem CloseOutcome.leaves_iff {c : UInt64} {io : SaveIO} {next : GameServer × List Effect}
    (hclose : CloseOutcome srv io c next) (hq : Queued u srv) :
    Leaves u srv (.closed c io) next ↔ ¬ Queued u next.1 := by
  -- whatever becomes of the room, the queue only loses the user of the connection
  have hqueue : ∀ u, next.1.matchQueue_.find u = (srv.dequeue c).matchQueue_.find u := by
    intro u
    cases hclose with
    | free => rfl
    | left _ _ _ _ _ _ hend => exact congrArg (MatchQueue.find · u) hend.queue
    | forfeited _ _ _ _ _ _ hfinished => exact congrArg (MatchQueue.find · u) hfinished.queue
  unfold Queued
  rw [hqueue, find_dequeue]
  split
  · rename_i hown
    obtain ⟨t, ht, hu⟩ := hown
    exact ⟨fun _ hsome => (by cases hsome.choose_spec),
      fun _ => leaves_of_disconnected ⟨c, t, io, rfl, ht, hu⟩⟩
  · rename_i hother
    refine ⟨fun hleaves => ?_, fun hnot => absurd hq hnot⟩
    rcases hleaves.cases with ⟨c', t, payload, now', io', heq, -⟩ | ⟨c', t, io', heq, ht, hu⟩ |
      ⟨now', found, t₁, t₂, heq, -⟩
    · cases heq
    · obtain rfl := (Event.closed.inj heq).1
      exact absurd ⟨t, ht, hu⟩ hother
    · cases heq

/-- A queued user stays queued exactly until there is a reason to leave. -/
theorem Accounted.leaves_iff {o : List Effect} (h : Accounted o srv) {event : Event}
    {next : GameServer × List Effect} (hnext : Outcome range srv event next)
    (hrooms : roomsCreated (o ++ next.2) < 2 ^ 64 - 1) (hq : Queued u srv) :
    Leaves u srv event next ↔ ¬ Queued u next.1 := by
  -- only a cancellation, a tick and a close take a ticket away
  have hstay : ∀ {next : GameServer × List Effect}, ¬ Leaves u srv event next →
      Queued u next.1 → (Leaves u srv event next ↔ ¬ Queued u next.1) := fun hl hq' =>
    ⟨fun hleaves => absurd hleaves hl, fun hnot => absurd hq' hnot⟩
  cases hnext with
  | opened => exact hstay not_leaves_opened hq
  | ignored hnot =>
    refine hstay (not_leaves_message fun heq => ?_) hq
    simp [heq] at hnot
  | login hlogin =>
    apply hstay (not_leaves_message (by dsimp only; decide))
    cases hlogin <;> exact hq
  | register hregister =>
    apply hstay (not_leaves_message (by dsimp only; decide))
    cases hregister
    exact hq
  | join hjoin =>
    apply hstay (not_leaves_message (by dsimp only; decide))
    cases hjoin with
    | refused => exact hq
    | accepted _ _ _ hfind =>
      obtain ⟨ticket, hticket⟩ := hq
      unfold Queued
      rw [hfind]
      split
      · exact ⟨_, rfl⟩
      · exact ⟨ticket, hticket⟩
  | hero hhero =>
    apply hstay (not_leaves_message (by dsimp only; decide))
    cases hhero <;> exact hq
  | attack hattack =>
    apply hstay (not_leaves_message (by dsimp only; decide))
    cases hattack with
    | refused => exact hq
    | hit => exact hq
    | felled _ _ _ _ _ _ _ hfinished =>
      unfold Queued
      rw [hfinished.queue]
      exact hq
  | cancel hcancel => exact hcancel.leaves_iff hq
  | tick htick => exact h.tick_leaves_iff htick hrooms hq
  | closed hclose => exact hclose.leaves_iff hq

/-! ### Whole runs -/

theorem matchJoinRsp_accepted {response response' : MatchJoinResponse}
    (h : (ServerMessage.matchJoinRsp response).Fits)
    (h' : (ServerMessage.matchJoinRsp response').Fits)
    (heq : (ServerMessage.matchJoinRsp response).frame =
      (ServerMessage.matchJoinRsp response').frame) : response.accepted_ = response'.accepted_ := by
  refine kept_of_bytes_eq (t := .matchJoinResponse) h h' (congrArg Prod.snd heq) fun v => ?_
  cases ha : v.accepted_ <;> simp [MessageType.reset, ha]

/-- A join request that is accepted. -/
def Joined (u : UInt32) (srv : GameServer) (event : Event) (next : GameServer × List Effect) :
    Prop :=
  ∃ c t payload now io, event = .message c (MSG_MATCH_JOIN_REQ, payload) now io ∧
    srv.sessionService_.findByConnection c = some t ∧ t.userId_ = u ∧
    framesTo c next.2 = [(ServerMessage.matchJoinRsp { accepted_ := true }).frame]

theorem queued_of_joined {event : Event} (hp : event.Possible srv)
    (hjoined : Joined u srv event (srv.step range event)) :
    Queued u (srv.step range event).1 := by
  obtain ⟨c, t, payload, now, io, rfl, ht, rfl, hframes⟩ := hjoined
  have houtcome := handleMatchJoin_outcome payload now hp
  change JoinOutcome srv now c payload
    (srv.step range (.message c (MSG_MATCH_JOIN_REQ, payload) now io)) at houtcome
  generalize srv.step range (.message c (MSG_MATCH_JOIN_REQ, payload) now io) = next
    at houtcome hframes ⊢
  cases houtcome with
  | refused hno hfits =>
    rw [framesTo_send, if_pos rfl, framesTo_nil] at hframes
    have haccepted := matchJoinRsp_accepted hfits
      (ServerMessage.fits_matchJoinRsp (Nat.zero_le _)) (List.cons.inj hframes).1
    rw [hno] at haccepted
    cases haccepted
  | @accepted t' q ht' _ _ hfind =>
    obtain rfl : t = t' := Option.some.inj (ht.symm.trans ht')
    exact ⟨_, by rw [hfind, if_pos rfl]⟩

/-- **Nobody is dropped from matchmaking**: after an accepted join request the user is queued up to
the first event that is exactly one of the three reasons to leave, in every run in which fewer than
2^64 - 1 rooms are created. -/
theorem queued_until_leaves {file : Option (List UInt8)} (hinit : init file = some srv)
    {before after : List Event} {event : Event}
    (hrun : (machine range).CanRun srv (before ++ event :: after))
    (hrooms : roomsCreated ((machine range).run srv (before ++ event :: after)).2 < 2 ^ 64 - 1)
    (hjoined : Joined u ((machine range).run srv before).1 event
      (((machine range).run srv before).1.step range event)) :
    (machine range).HoldsUntil (Queued u)
      (fun srv event => Leaves u srv event (srv.step range event))
      ((((machine range).run srv before).1).step range event).1 after := by
  obtain ⟨hbefore, hevent, hafter⟩ := ((machine range).canRun_append srv before _).mp hrun
  rw [Machine.run_append, Machine.run_cons, ← List.append_assoc] at hrooms
  have hless : ∀ o o', roomsCreated (o ++ o') < 2 ^ 64 - 1 → roomsCreated o < 2 ^ 64 - 1 := by
    intro o o' hlt
    rw [roomsCreated_append] at hlt
    omega
  have hstart := accounted_run hinit hbefore (hless _ _ (hless _ _ hrooms))
  refine Machine.holdsUntil_of_step (B := fun o => roomsCreated o < 2 ^ 64 - 1) hless
    (fun _ _ _ h hp hlt => h.step hp hlt)
    (fun _ _ _ h hp hlt hq => h.leaves_iff (step_outcome _ h.coherent hp) hlt hq)
    (hstart.step hevent (hless _ _ hrooms)) (queued_of_joined hevent hjoined) hafter hrooms

/-- The first of two players waits for the second, and then for the timer. -/
theorem queued_until_leaves_two_players :
    let srv := ((machine allowedEloRange).run Wraparound.freshServer Wraparound.arrival).1
    let event : Event := .message 1 ClientRequest.matchJoinReq.frame 0 Wraparound.reliable
    let after : List Event :=
      [.message 2 ClientRequest.matchJoinReq.frame 0 Wraparound.reliable, .tick 0]
    (machine allowedEloRange).HoldsUntil (Queued 1)
      (fun srv event => Leaves 1 srv event (srv.step allowedEloRange event))
      (srv.step allowedEloRange event).1 after := by
  intro srv event after
  have hrun : (machine allowedEloRange).CanRun Wraparound.freshServer
      (Wraparound.arrival ++ event :: after) := by
    refine ⟨⟨by decide, by decide⟩, ⟨by decide, by decide⟩, ?_, ?_, ?_, ?_, ?_, ?_, trivial,
      trivial⟩ <;> show _ ∈ _ <;> decide +kernel
  have hjoined : Joined 1 srv event (srv.step allowedEloRange event) :=
    ⟨1, sessionFor Wraparound.firstPlayer, _, 0, Wraparound.reliable, rfl, by decide +kernel, rfl,
      by decide +kernel⟩
  exact queued_until_leaves (rfl : init none = _) hrun (by decide +kernel) hjoined

/-- After 2^64 rooms a tick drops the two players whom it has taken off the queue. -/
theorem not_queued_until_leaves :
    ¬ ∀ (file : Option (List UInt8)) (srv : GameServer) (before after : List Event) (event : Event)
      (u : UInt32), init file = some srv →
      (machine allowedEloRange).CanRun srv (before ++ event :: after) →
      Joined u ((machine allowedEloRange).run srv before).1 event
        (((machine allowedEloRange).run srv before).1.step allowedEloRange event) →
      (machine allowedEloRange).HoldsUntil (Queued u)
        (fun srv event => Leaves u srv event (srv.step allowedEloRange event))
        ((((machine allowedEloRange).run srv before).1).step allowedEloRange event).1 after := by
  intro h
  obtain ⟨events, srv, hreach, hlobby⟩ := Wraparound.exists_lobby_zero
  obtain ⟨q, hq, hsearch⟩ := hlobby.search
  obtain ⟨rooms, -, hdropped, hsilent⟩ := hlobby.tick hq (hlobby.coherent.reaches hsearch) rfl
  obtain ⟨q₁, hjoin, -⟩ := Wraparound.join_accepted _ hlobby.connected hlobby.session rfl
    (hlobby.queue _)
  have htick : Wraparound.server.Enabled { srv with matchQueue_ := q } (.tick 0) := trivial
  have hwhole := hreach.trans (hsearch.trans (.cons htick (.nil _)))
  have huntil := h none Wraparound.freshServer events
    [.message 2 ClientRequest.matchJoinReq.frame 0 Wraparound.reliable, .tick 0]
    (.message 1 ClientRequest.matchJoinReq.frame 0 Wraparound.reliable) 1 rfl hwhole.canRun
  rw [hreach.last] at huntil
  obtain ⟨-, hwait⟩ := huntil ⟨1, sessionFor Wraparound.firstPlayer, _, 0, Wraparound.reliable, rfl,
    hlobby.session, rfl, by rw [hjoin, framesTo_send, if_pos rfl, framesTo_nil]⟩
  -- the second join request is no reason to leave, so the tick should not end the wait either
  rcases hwait with ⟨hleaves, -⟩ | ⟨-, -, hwait⟩
  · exact not_leaves_message (by decide) hleaves
  · have hlast : ((srv.step allowedEloRange
        (.message 1 ClientRequest.matchJoinReq.frame 0 Wraparound.reliable)).1.step allowedEloRange
        (.message 2 ClientRequest.matchJoinReq.frame 0 Wraparound.reliable)).1 =
          { srv with matchQueue_ := q } := hsearch.last
    simp only [machine, Machine.HoldsUntil, hlast] at hwait
    rcases hwait with ⟨hleaves, -⟩ | ⟨-, ticket, hticket⟩
    · rcases hleaves.cases with ⟨c, t, payload, now, io, heq, -⟩ | ⟨c, t, io, heq, -⟩ |
        ⟨now, found, t₁, t₂, -, -, hintro⟩
      · cases heq
      · cases heq
      · have heffect := hintro.effect
        rw [hsilent rfl] at heffect
        cases heffect
    · cases hticket.symm.trans (hdropped.queue 1)

end ArenaGame.GameServer
