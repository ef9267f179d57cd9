import ArenaGame.Server.Equiv.Room
import ArenaGame.Server.Equiv.SessionService
import ArenaGame.Server.MatchmakingService

/-!
# The outcome of a matchmaking tick

`Rounds` is the run of the loop of `tick`, pair by pair and without fuel (`tick_rounds`).

`Placed` says what one drawn pair may do to sessions and rooms: found a room for two users who are
online and in no room, or nothing.  As long as the room counter has not wrapped around, every round
of a tick is of this kind (`placePair_placed`).  `TickOutcome` collects what follows for the whole
tick.
-/

namespace ArenaGame

open MatchQueue

namespace MatchPair

/-- The users of a pair. -/
def users (pair : MatchPair) : List UInt32 := [pair.first_.userId_, pair.second_.userId_]

/-- The tickets of a pair. -/
def tickets (pair : MatchPair) : List MatchTicket := [pair.first_, pair.second_]

end MatchPair

namespace MatchmakingService

/-- What became of the pairs of a tick. -/
abbrev Outcomes := List (MatchPair × Option MatchFoundEvent)

def Outcomes.events (outcomes : Outcomes) : List MatchFoundEvent := outcomes.filterMap Prod.snd

def Outcomes.users (outcomes : Outcomes) : List UInt32 := outcomes.flatMap fun o => o.1.users

def Outcomes.tickets (outcomes : Outcomes) : List MatchTicket :=
  outcomes.flatMap fun o => o.1.tickets

@[simp] theorem Outcomes.events_cons (pair : MatchPair) (event : Option MatchFoundEvent)
    (outcomes : Outcomes) :
    Outcomes.events ((pair, event) :: outcomes) = event.toList ++ outcomes.events := by
  cases event <;> rfl

@[simp] theorem Outcomes.users_cons (o : MatchPair × Option MatchFoundEvent)
    (outcomes : Outcomes) : Outcomes.users (o :: outcomes) = o.1.users ++ outcomes.users := rfl

@[simp] theorem Outcomes.tickets_cons (o : MatchPair × Option MatchFoundEvent)
    (outcomes : Outcomes) :
    Outcomes.tickets (o :: outcomes) = o.1.tickets ++ outcomes.tickets := rfl

theorem mem_users {pair : MatchPair} {u : UInt32} :
    u ∈ pair.users ↔ u = pair.first_.userId_ ∨ u = pair.second_.userId_ := by
  simp [MatchPair.users]

variable {range : MatchTicket → MatchTimePoint → ℚ} {now : MatchTimePoint}

/-! ### The rounds of a tick -/

inductive Rounds (range : MatchTicket → MatchTimePoint → ℚ) (now : MatchTimePoint) :
    MatchmakingService → Outcomes → MatchmakingService → Prop
  | done {s q'} : s.matchQueue_.tryMatch range now = (none, q') →
      Rounds range now s [] { s with matchQueue_ := q' }
  | round {s pair q' outcomes s'} : s.matchQueue_.tryMatch range now = (some pair, q') →
      Rounds range now ({ s with matchQueue_ := q' }.placePair pair).2 outcomes s' →
      Rounds range now s ((pair, ({ s with matchQueue_ := q' }.placePair pair).1) :: outcomes) s'

theorem tickLoop_rounds (fuel : ℕ) {events events' : List MatchFoundEvent}
    {s s' : MatchmakingService} (h : tickLoop range now fuel events s = some (events', s')) :
    ∃ outcomes : Outcomes, Rounds range now s outcomes s' ∧ events' = events ++ outcomes.events := by
  induction fuel generalizing events s with
  | zero => cases h
  | succ fuel ih =>
    unfold tickLoop at h
    split at h
    · rename_i q' hdraw
      obtain ⟨rfl, rfl⟩ : events = events' ∧ _ = s' := by simpa using h
      exact ⟨[], .done hdraw, by simp [Outcomes.events]⟩
    · rename_i pair q' hdraw
      obtain ⟨outcomes, hrounds, rfl⟩ := ih h
      refine ⟨_ :: outcomes, .round hdraw hrounds, ?_⟩
      rw [Outcomes.events_cons, List.append_assoc]

variable (range now) in
theorem tick_rounds (s : MatchmakingService) :
    ∃ outcomes : Outcomes, Rounds range now s outcomes (s.tick range now).2 ∧
      (s.tick range now).1 = outcomes.events := by
  have hloop : tickLoop range now (s.matchQueue_.size + 1) [] s = some (s.tick range now) :=
    (Option.some_get _).symm
  obtain ⟨outcomes, hrounds, hevents⟩ := tickLoop_rounds _ hloop
  exact ⟨outcomes, hrounds, hevents⟩

/-- The pairs of a tick are split off the queue, whatever becomes of them. -/
theorem Rounds.tickets {s s' : MatchmakingService} {outcomes : Outcomes}
    (h : Rounds range now s outcomes s') :
    s.matchQueue_.tickets = ↑outcomes.tickets + s'.matchQueue_.tickets := by
  induction h with
  | done hdraw =>
    obtain ⟨rfl, -⟩ := tryMatch_none hdraw
    simp [Outcomes.tickets]
  | round hdraw hrounds ih =>
    rw [matchQueue_placePair] at ih
    rw [(tryMatch_some hdraw).tickets, ih, Outcomes.tickets_cons, ← Multiset.coe_add, add_assoc,
      MatchPair.tickets, ← Multiset.cons_coe, ← Multiset.cons_coe, Multiset.cons_add,
      Multiset.cons_add, Multiset.coe_nil, zero_add]

/-- After a tick no queued ticket is in range of another. -/
theorem Rounds.maximal {s s' : MatchmakingService} {outcomes : Outcomes}
    (h : Rounds range now s outcomes s') {u u' : UInt32} {t t' : MatchTicket}
    (ht : s'.matchQueue_.find u = some t) (ht' : s'.matchQueue_.find u' = some t') (hne : u ≠ u') :
    ¬ Within range now t t' := by
  induction h with
  | done hdraw =>
    obtain ⟨rfl, hfail⟩ := tryMatch_none hdraw
    exact hfail u u' t t' ht ht' hne
  | round hdraw hrounds ih => exact ih ht ht'

/-- The drawn users were queued. -/
theorem Rounds.queued {s s' : MatchmakingService} {outcomes : Outcomes}
    (h : Rounds range now s outcomes s') {u : UInt32} (hu : u ∈ outcomes.users) :
    ∃ t, s.matchQueue_.find u = some t := by
  induction h with
  | done hdraw => simp [Outcomes.users] at hu
  | @round s pair q' outcomes s' hdraw hrounds ih =>
    have hdrawn := tryMatch_some hdraw
    rw [Outcomes.users_cons, List.mem_append, mem_users] at hu
    rcases hu with (rfl | rfl) | hu
    · exact ⟨_, hdrawn.first⟩
    · exact ⟨_, hdrawn.second⟩
    · obtain ⟨t, ht⟩ := ih hu
      rw [matchQueue_placePair, hdrawn.find] at ht
      split at ht
      · cases ht
      · exact ⟨t, ht⟩

/-- A user is drawn at most once. -/
theorem Rounds.users_nodup {s s' : MatchmakingService} {outcomes : Outcomes}
    (h : Rounds range now s outcomes s') : outcomes.users.Nodup := by
  induction h with
  | done => simp [Outcomes.users]
  | @round s pair q' outcomes s' hdraw hrounds ih =>
    have hdrawn := tryMatch_some hdraw
    have hgone : ∀ u ∈ pair.users, u ∉ outcomes.users := by
      intro u hu hmem
      obtain ⟨t, ht⟩ := hrounds.queued hmem
      rw [matchQueue_placePair, hdrawn.find, if_pos (mem_users.mp hu)] at ht
      cases ht
    have hpair : pair.users.Nodup := by simpa [MatchPair.users] using hdrawn.ne
    exact List.nodup_append.mpr ⟨hpair, ih, fun u hu v hv huv => hgone u hu (huv ▸ hv)⟩

/-- Every user of the queue is drawn or stays queued with the same ticket. -/
theorem Rounds.find {s s' : MatchmakingService} {outcomes : Outcomes}
    (h : Rounds range now s outcomes s') (u : UInt32) :
    s'.matchQueue_.find u = if u ∈ outcomes.users then none else s.matchQueue_.find u := by
  induction h with
  | done hdraw =>
    obtain ⟨rfl, -⟩ := tryMatch_none hdraw
    simp [Outcomes.users]
  | @round s pair q' outcomes s' hdraw hrounds ih =>
    rw [ih, matchQueue_placePair, (tryMatch_some hdraw).find]
    simp only [Outcomes.users_cons, List.mem_append, mem_users]
    by_cases hu : u ∈ outcomes.users <;> simp [hu]

/-! ### One pair -/

/-- What `placePair` does, by cases. -/
inductive PlaceCases (s : MatchmakingService) (pair : MatchPair) :
    Option MatchFoundEvent × MatchmakingService → Prop
  | skipped {u} : u ∈ pair.users →
      (∀ t, s.sessionService_.sessionOf u = some t → t.roomId_ ≠ 0) →
      PlaceCases s pair (none, s)
  | noRoom {t₁ t₂} : s.sessionService_.sessionOf pair.first_.userId_ = some t₁ →
      s.sessionService_.sessionOf pair.second_.userId_ = some t₂ →
      t₁.roomId_ = 0 → t₂.roomId_ = 0 →
      (s.roomService_.create pair.first_.userId_ pair.second_.userId_).1 = 0 →
      PlaceCases s pair (none, { s with
        roomService_ := (s.roomService_.create pair.first_.userId_ pair.second_.userId_).2 })
  | found {t₁ t₂ roomId} : s.sessionService_.sessionOf pair.first_.userId_ = some t₁ →
      s.sessionService_.sessionOf pair.second_.userId_ = some t₂ →
      t₁.roomId_ = 0 → t₂.roomId_ = 0 →
      (s.roomService_.create pair.first_.userId_ pair.second_.userId_).1 = roomId → roomId ≠ 0 →
      PlaceCases s pair (some { roomId_ := roomId, pair_ := pair }, { s with
        roomService_ := (s.roomService_.create pair.first_.userId_ pair.second_.userId_).2
        sessionService_ := (s.sessionService_.markInRoom pair.first_.userId_ roomId).markInRoom
          pair.second_.userId_ roomId })

theorem placePair_cases (s : MatchmakingService) (pair : MatchPair) :
    PlaceCases s pair (s.placePair pair) := by
  simp only [placePair]
  split
  · -- both players are online
    rename_i t₁ t₂ h₁ h₂
    split
    · rename_i hroom
      rcases hroom with hroom | hroom
      · refine .skipped (mem_users.mpr (Or.inl rfl)) fun t ht => ?_
        obtain rfl : t₁ = t := Option.some.inj (h₁.symm.trans ht)
        exact hroom
      · refine .skipped (mem_users.mpr (Or.inr rfl)) fun t ht => ?_
        obtain rfl : t₂ = t := Option.some.inj (h₂.symm.trans ht)
        exact hroom
    · rename_i hroom
      push Not at hroom
      split
      · rename_i h0
        exact .noRoom h₁ h₂ hroom.1 hroom.2 h0
      · rename_i h0
        exact .found h₁ h₂ hroom.1 hroom.2 rfl h0
  · -- one of them is not
    rename_i hnone
    cases h₁ : s.sessionService_.sessionOf pair.first_.userId_ with
    | none =>
      exact .skipped (mem_users.mpr (Or.inl rfl)) fun t ht => by cases h₁.symm.trans ht
    | some t₁ =>
      cases h₂ : s.sessionService_.sessionOf pair.second_.userId_ with
      | none =>
        exact .skipped (mem_users.mpr (Or.inr rfl)) fun t ht => by cases h₂.symm.trans ht
      | some t₂ => exact absurd h₂ (hnone t₁ t₂ h₁)

/-- A room is founded for a pair. -/
structure FoundRoom (ss : SessionService) (rs : RoomService) (pair : MatchPair) (roomId : UInt64)
    (ss' : SessionService) (rs' : RoomService) : Prop where
  online : ∀ u ∈ pair.users, ∃ t, ss.sessionOf u = some t ∧ t.roomId_ = 0
  ne : pair.first_.userId_ ≠ pair.second_.userId_
  ne_zero : roomId ≠ 0
  fresh : rs.find roomId = none
  rooms : ∀ r, rs'.find r =
    if r = roomId then
      some { roomId_ := roomId, firstUserId_ := pair.first_.userId_,
             secondUserId_ := pair.second_.userId_ }
    else rs.find r
  sessions : ∀ u, ss'.sessionOf u =
    if u ∈ pair.users then (ss.sessionOf u).map fun t => { t with roomId_ := roomId }
    else ss.sessionOf u

/-- What a drawn pair does to sessions and rooms. -/
inductive Placed (ss : SessionService) (rs : RoomService) (pair : MatchPair) :
    Option MatchFoundEvent → SessionService → RoomService → Prop
  | found {roomId ss' rs'} : FoundRoom ss rs pair roomId ss' rs' →
      Placed ss rs pair (some { roomId_ := roomId, pair_ := pair }) ss' rs'
  /-- Nothing happens, because a user is offline, in a room already, or has the id 0. -/
  | dropped {u} : u ∈ pair.users →
      ss.sessionOf u = none ∨ (∃ t, ss.sessionOf u = some t ∧ t.roomId_ ≠ 0) ∨ u = 0 →
      Placed ss rs pair none ss rs

theorem sessionOf_markBoth {ss : SessionService} {u₁ u₂ : UInt32} {roomId : UInt64}
    (u : UInt32) :
    ((ss.markInRoom u₁ roomId).markInRoom u₂ roomId).sessionOf u =
      if u ∈ [u₁, u₂] then (ss.sessionOf u).map fun t => { t with roomId_ := roomId }
      else ss.sessionOf u := by
  rw [SessionService.sessionOf_markInRoom, SessionService.sessionOf_markInRoom,
    SessionService.sessionOf_markInRoom]
  by_cases h₂ : u = u₂
  · subst h₂
    by_cases h₁ : u = u₁
    · subst h₁
      cases ss.sessionOf u <;> simp
    · simp [h₁]
  · by_cases h₁ : u = u₁
    · subst h₁
      simp [h₂]
    · simp [h₁, h₂]

/-- Before the room counter wraps around, a pair is placed. -/
theorem placePair_placed {s : MatchmakingService} {pair : MatchPair} {n : ℕ}
    (hne : pair.first_.userId_ ≠ pair.second_.userId_)
    (hn : RoomService.Numbered n s.roomService_) :
    Placed s.sessionService_ s.roomService_ pair (s.placePair pair).1
        (s.placePair pair).2.sessionService_ (s.placePair pair).2.roomService_ ∧
      (n + (s.placePair pair).1.toList.length < 2 ^ 64 - 1 →
        RoomService.Numbered (n + (s.placePair pair).1.toList.length)
          (s.placePair pair).2.roomService_) := by
  have hcases := placePair_cases s pair
  have haccepted : ∀ {t₁ t₂}, s.sessionService_.sessionOf pair.first_.userId_ = some t₁ →
      s.sessionService_.sessionOf pair.second_.userId_ = some t₂ →
      ¬ RoomService.Refused pair.first_.userId_ pair.second_.userId_ := by
    rintro t₁ t₂ h₁ h₂ (h | h | h)
    · exact SessionService.ne_zero_of_sessionOf h₁ h
    · exact SessionService.ne_zero_of_sessionOf h₂ h
    · exact hne h
  generalize s.placePair pair = result at hcases ⊢
  cases hcases with
  | skipped hu hout =>
    refine ⟨.dropped hu ?_, fun _ => hn⟩
    cases ht : s.sessionService_.sessionOf _ with
    | none => exact Or.inl rfl
    | some t => exact Or.inr (Or.inl ⟨t, rfl, hout t ht⟩)
  | noRoom h₁ h₂ _ _ h0 =>
    -- the counter has not come back to 0, so there is a room
    rw [RoomService.create_fst (haccepted h₁ h₂)] at h0
    exact absurd h0 hn.next_ne_zero
  | found h₁ h₂ hr₁ hr₂ hid h0 =>
    have hacc := haccepted h₁ h₂
    rw [RoomService.create_fst hacc] at hid
    subst hid
    refine ⟨.found ⟨?_, hne, h0, hn.find_next, fun r => ?_, fun u => sessionOf_markBoth u⟩,
      fun hlt => hn.create hlt hacc⟩
    · intro u hu
      rcases mem_users.mp hu with rfl | rfl
      · exact ⟨_, h₁, hr₁⟩
      · exact ⟨_, h₂, hr₂⟩
    · rw [RoomService.find_create hacc]
      by_cases hr : r = s.roomService_.nextRoomId_
      · subst hr
        rw [if_pos rfl, if_pos ⟨rfl, hn.find_next⟩]
      · rw [if_neg hr, if_neg fun hc => hr hc.1]

/-! ### All pairs of a tick -/

/-- The pairs of a tick are placed one after the other. -/
inductive Processed : SessionService → RoomService → Outcomes → SessionService → RoomService → Prop
  | nil {ss rs} : Processed ss rs [] ss rs
  | cons {ss rs pair event ss₁ rs₁ outcomes ss' rs'} : Placed ss rs pair event ss₁ rs₁ →
      Processed ss₁ rs₁ outcomes ss' rs' → Processed ss rs ((pair, event) :: outcomes) ss' rs'

theorem Rounds.processed {s s' : MatchmakingService} {outcomes : Outcomes}
    (h : Rounds range now s outcomes s') {n : ℕ} (hn : RoomService.Numbered n s.roomService_)
    (hlt : n + outcomes.events.length < 2 ^ 64 - 1) :
    Processed s.sessionService_ s.roomService_ outcomes s'.sessionService_ s'.roomService_ ∧
      RoomService.Numbered (n + outcomes.events.length) s'.roomService_ := by
  induction h generalizing n with
  | done => exact ⟨.nil, hn⟩
  | @round s pair q' outcomes s' hdraw hrounds ih =>
    obtain ⟨hplaced, hnext⟩ := placePair_placed (s := { s with matchQueue_ := q' })
      (tryMatch_some hdraw).ne hn
    set event := ({ s with matchQueue_ := q' }.placePair pair).1 with hevent
    rw [Outcomes.events_cons, List.length_append, ← Nat.add_assoc] at hlt ⊢
    obtain ⟨hrest, hlast⟩ := ih (hnext (by omega)) hlt
    exact ⟨.cons hplaced hrest, hlast⟩

/-- Users outside the pairs keep their session, and rooms stay. -/
theorem Processed.frame {ss ss' : SessionService} {rs rs' : RoomService} {outcomes : Outcomes}
    (h : Processed ss rs outcomes ss' rs') :
    (∀ u ∉ outcomes.users, ss'.sessionOf u = ss.sessionOf u) ∧
      ∀ r room, rs.find r = some room → rs'.find r = some room := by
  induction h with
  | nil => exact ⟨fun _ _ => rfl, fun _ _ h => h⟩
  | @cons ss rs pair event ss₁ rs₁ outcomes ss' rs' hplaced hrest ih =>
    have hstep : (∀ u ∉ pair.users, ss₁.sessionOf u = ss.sessionOf u) ∧
        ∀ r room, rs.find r = some room → rs₁.find r = some room := by
      cases hplaced with
      | dropped => exact ⟨fun _ _ => rfl, fun _ _ h => h⟩
      | found hfound =>
        refine ⟨fun u hu => by rw [hfound.sessions, if_neg hu], fun r room hr => ?_⟩
        rw [hfound.rooms, if_neg, hr]
        rintro rfl
        simp [hfound.fresh] at hr
    refine ⟨fun u hu => ?_, fun r room hr => ih.2 r room (hstep.2 r room hr)⟩
    have hu' : u ∉ pair.users ∧ u ∉ outcomes.users := by
      simpa using hu
    rw [ih.1 u hu'.2, hstep.1 u hu'.1]

/-- If everybody who is drawn is online and in no room, every pair gets a room. -/
theorem Processed.all_found {ss ss' : SessionService} {rs rs' : RoomService} {outcomes : Outcomes}
    (h : Processed ss rs outcomes ss' rs') (hnodup : outcomes.users.Nodup)
    (hfree : ∀ u ∈ outcomes.users, ∃ t, ss.sessionOf u = some t ∧ t.roomId_ = 0) :
    ∀ o ∈ outcomes, ∃ roomId, o.2 = some { roomId_ := roomId, pair_ := o.1 } := by
  induction h with
  | nil => simp
  | @cons ss rs pair event ss₁ rs₁ outcomes ss' rs' hplaced hrest ih =>
    have hsplit := List.nodup_append.mp hnodup
    cases hplaced with
    | @dropped u hu hwhy =>
      obtain ⟨t, ht, h0⟩ := hfree u (List.mem_append.mpr (Or.inl hu))
      rcases hwhy with hoff | ⟨t', ht', hne⟩ | hzero
      · cases ht.symm.trans hoff
      · exact absurd (Option.some.inj (ht.symm.trans ht') ▸ h0) hne
      · exact absurd hzero (SessionService.ne_zero_of_sessionOf ht)
    | @found roomId _ _ hfound =>
      intro o ho
      rcases List.mem_cons.mp ho with rfl | ho
      · exact ⟨roomId, rfl⟩
      · refine ih hsplit.2.1 (fun u hu => ?_) o ho
        rw [hfound.sessions, if_neg fun hpair => hsplit.2.2 u hpair u hu rfl]
        exact hfree u (List.mem_append.mpr (Or.inr hu))

/-- A match that was found: its room is new and holds the two users, who were in no room. -/
structure FoundMatch (ss : SessionService) (rs : RoomService) (ss' : SessionService)
    (rs' : RoomService) (event : MatchFoundEvent) : Prop where
  ne_zero : event.roomId_ ≠ 0
  fresh : rs.find event.roomId_ = none
  stored : rs'.find event.roomId_ =
    some { roomId_ := event.roomId_, firstUserId_ := event.pair_.first_.userId_,
           secondUserId_ := event.pair_.second_.userId_ }
  ne : event.pair_.first_.userId_ ≠ event.pair_.second_.userId_
  online : ∀ u ∈ event.pair_.users, ∃ t, ss.sessionOf u = some t ∧ t.roomId_ = 0 ∧
    ss'.sessionOf u = some { t with roomId_ := event.roomId_ }

theorem Processed.events {ss ss' : SessionService} {rs rs' : RoomService} {outcomes : Outcomes}
    (h : Processed ss rs outcomes ss' rs') (hnodup : outcomes.users.Nodup) :
    (∀ e ∈ outcomes.events, FoundMatch ss rs ss' rs' e) ∧
      (outcomes.events.map MatchFoundEvent.roomId_).Nodup := by
  induction h with
  | nil => simp [Outcomes.events]
  | @cons ss rs pair event ss₁ rs₁ outcomes ss' rs' hplaced hrest ih =>
    have hsplit : pair.users.Nodup ∧ outcomes.users.Nodup ∧
        ∀ u ∈ pair.users, u ∉ outcomes.users := by
      have := List.nodup_append.mp hnodup
      exact ⟨this.1, this.2.1, fun u hu hmem => this.2.2 u hu u hmem rfl⟩
    obtain ⟨hevents, hids⟩ := ih hsplit.2.1
    cases hplaced with
    | dropped => exact ⟨hevents, hids⟩
    | @found roomId ss₁ rs₁ hfound =>
      have hstored := hfound.rooms roomId
      rw [if_pos rfl] at hstored
      refine ⟨fun e he => ?_, ?_⟩
      · rcases List.mem_cons.mp he with rfl | he
        · refine ⟨hfound.ne_zero, hfound.fresh, hrest.frame.2 _ _ hstored, hfound.ne,
            fun u hu => ?_⟩
          obtain ⟨t, ht, h0⟩ := hfound.online u hu
          refine ⟨t, ht, h0, ?_⟩
          rw [hrest.frame.1 u (hsplit.2.2 u hu), hfound.sessions, if_pos hu, ht]
          rfl
        · -- a later match: its users and its room are not those of the first pair
          obtain ⟨hne0, hfresh, hstored', hne, honline⟩ := hevents e he
          have husers : ∀ u ∈ e.pair_.users, u ∉ pair.users := by
            intro u hu hmem
            obtain ⟨t, ht, h0, -⟩ := honline u hu
            rw [hfound.sessions, if_pos hmem] at ht
            obtain ⟨t', -, rfl⟩ := Option.map_eq_some_iff.mp ht
            exact hfound.ne_zero h0
          refine ⟨hne0, ?_, hstored', hne, fun u hu => ?_⟩
          · rw [hfound.rooms] at hfresh
            split at hfresh
            · cases hfresh
            · exact hfresh
          · obtain ⟨t, ht, h0, ht'⟩ := honline u hu
            rw [hfound.sessions, if_neg (husers u hu)] at ht
            exact ⟨t, ht, h0, ht'⟩
      · refine List.nodup_cons.mpr ⟨fun hmem => ?_, hids⟩
        obtain ⟨e, he, heq⟩ := List.mem_map.mp hmem
        have hfresh := (hevents e he).fresh
        rw [heq, hstored] at hfresh
        cases hfresh

/-- The outcome of a tick that starts in `s` and leaves `s'` with the given events. -/
structure TickOutcome (range : MatchTicket → MatchTimePoint → ℚ) (now : MatchTimePoint)
    (s : MatchmakingService) (events : List MatchFoundEvent) (s' : MatchmakingService)
    (outcomes : Outcomes) : Prop where
  /-- The tickets are split into the pairs and what stays queued. -/
  tickets : s.matchQueue_.tickets = ↑outcomes.tickets + s'.matchQueue_.tickets
  /-- Every user is in at most one pair, and the two users of a pair are distinct. -/
  users_nodup : outcomes.users.Nodup
  /-- The events are those of the pairs, in order. -/
  events_eq : events = outcomes.events
  /-- Each pair founds a room or leaves sessions and rooms alone. -/
  processed : Processed s.sessionService_ s.roomService_ outcomes s'.sessionService_
    s'.roomService_
  found : ∀ e ∈ events, FoundMatch s.sessionService_ s.roomService_ s'.sessionService_
    s'.roomService_ e
  roomIds_nodup : (events.map MatchFoundEvent.roomId_).Nodup
  /-- No two tickets that stay queued are in range. -/
  maximal : ∀ a ∈ s'.matchQueue_.tickets, ∀ b ∈ s'.matchQueue_.tickets, a ≠ b →
    ¬ Within range now a b ∧ ¬ Within range now b a

theorem Rounds.outcome {s s' : MatchmakingService} {outcomes : Outcomes}
    (h : Rounds range now s outcomes s') {n : ℕ} (hn : RoomService.Numbered n s.roomService_)
    (hlt : n + outcomes.events.length < 2 ^ 64 - 1) :
    TickOutcome range now s outcomes.events s' outcomes := by
  obtain ⟨hprocessed, -⟩ := h.processed hn hlt
  obtain ⟨hfound, hids⟩ := hprocessed.events h.users_nodup
  refine ⟨h.tickets, h.users_nodup, rfl, hprocessed, hfound, hids, fun a ha b hb hne => ?_⟩
  have ha' := mem_tickets.mp ha
  have hb' := mem_tickets.mp hb
  have huser : a.userId_ ≠ b.userId_ := by
    intro heq
    rw [heq, hb'] at ha'
    exact hne (Option.some.inj ha').symm
  exact ⟨h.maximal ha' hb' huser, h.maximal hb' ha' huser.symm⟩

/-- **The outcome of one matchmaking tick**, for any queue, any sessions, rooms that operations of
the room service lead to, any time, and any function in the place of `allowedEloRange`. -/
theorem tick_outcome (range : MatchTicket → MatchTimePoint → ℚ) (now : MatchTimePoint)
    (q : MatchQueue) (ss : SessionService) {rs : RoomService} {created : ℕ}
    (hrooms : RoomService.Reachable created rs) :
    let s : MatchmakingService := { matchQueue_ := q, roomService_ := rs, sessionService_ := ss }
    (∀ fuel > q.size, (tickLoop range now fuel [] s).isSome) ∧
    (created + (s.tick range now).1.length < 2 ^ 64 - 1 →
      ∃ outcomes, TickOutcome range now s (s.tick range now).1 (s.tick range now).2 outcomes) := by
  intro s
  refine ⟨fun fuel hfuel => isSome_tickLoop range now fuel [] s hfuel, fun hlt => ?_⟩
  obtain ⟨outcomes, hrounds, hevents⟩ := tick_rounds range now s
  have hcreated : created < 2 ^ 64 - 1 := by omega
  rw [hevents] at hlt ⊢
  exact ⟨outcomes, hrounds.outcome (hrooms.numbered hcreated) hlt⟩

/-- Two queued players 50 points apart get the first room. -/
theorem tick_outcome_two_players :
    let q := ((MatchQueue.empty.join { userId_ := 1, elo_ := 1000 }).2.join
      { userId_ := 2, elo_ := 1050 }).2
    let ss := ((SessionService.empty.bind 10 { userId_ := 1, elo_ := 1000 }).2.bind 11
      { userId_ := 2, elo_ := 1050 }).2
    let s : MatchmakingService :=
      { matchQueue_ := q, roomService_ := .empty, sessionService_ := ss }
    (s.tick allowedEloRange 0).1.map (fun e => (e.roomId_, e.pair_.users)) = [(1, [1, 2])] ∧
      ∃ outcomes, TickOutcome allowedEloRange 0 s (s.tick allowedEloRange 0).1
        (s.tick allowedEloRange 0).2 outcomes :=
  ⟨by decide, (tick_outcome allowedEloRange 0 _ _ .empty).2 (by decide)⟩

end MatchmakingService

end ArenaGame
