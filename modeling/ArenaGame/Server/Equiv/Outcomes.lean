import ArenaGame.Server.Equiv.Durability
import ArenaGame.Server.Equiv.Handlers

/-!
# The outcomes of the events

For every handler an inductive type lists what it may do: the next state and the effects, together
with the reason.  The type of a refusal says why the handler could not have accepted.  All handlers
are followed on a server whose stores agree (`Coherent`).
-/

namespace ArenaGame.GameServer

open GameProtocol GameMessages SessionService

variable {srv : GameServer} {c : UInt64} {payload : List UInt8}

/-! ### Accounts -/

/-- The session of a user who has just logged in to an account. -/
def sessionFor (account : Account) : PlayerSession :=
  { userId_ := account.userId_, userName_ := account.userName_, elo_ := account.elo_ }

inductive LoginOutcome (srv : GameServer) (c : UInt64) : GameServer × List Effect → Prop
  | refused {response : LoginResponse} : response.success_ = false →
      (ServerMessage.loginRsp response).Fits →
      LoginOutcome srv c (srv, [.send c (ServerMessage.loginRsp response).frame])
  | accepted {name record} : srv.accountRepository_.accounts_.lookup name = some record →
      (srv.sessionService_.bind c (sessionFor record.account_)).1 = true →
      LoginOutcome srv c
        ({ srv with sessionService_ := (srv.sessionService_.bind c (sessionFor record.account_)).2 },
          [.send c (ServerMessage.loginRsp
            { success_ := true, userId_ := record.account_.userId_, elo_ := record.account_.elo_,
              userName_ := record.account_.userName_ }).frame])

theorem length_accountResultMessage_le (result : AccountResult) :
    (accountResultMessage result).length ≤ kMaxStringBytes := by
  cases result <;> decide

inductive LoginResponseCases (srv : GameServer) (c : UInt64) : LoginResponse × GameServer → Prop
  | refused {response} : response.success_ = false → response.userName_ = [] →
      response.errorMessage_.length ≤ kMaxStringBytes → LoginResponseCases srv c (response, srv)
  | accepted {name record} : srv.accountRepository_.accounts_.lookup name = some record →
      (srv.sessionService_.bind c (sessionFor record.account_)).1 = true →
      LoginResponseCases srv c
        ({ success_ := true, userId_ := record.account_.userId_, elo_ := record.account_.elo_,
           userName_ := record.account_.userName_ },
          { srv with
            sessionService_ := (srv.sessionService_.bind c (sessionFor record.account_)).2 })

variable (srv) in
theorem loginResponse_cases (c : UInt64) (reader : BinaryReader) :
    LoginResponseCases srv c (srv.loginResponse c reader) := by
  unfold loginResponse
  split
  · exact .refused rfl rfl (by decide)
  · split
    · exact .refused rfl rfl (by decide)
    · rename_i request hrequest hsession
      set verified := srv.accountRepository_.Verify request.userName_ request.password_ {}
        with hverified
      by_cases hresult : verified.1 = .kOk
      · obtain ⟨record, hrecord, -, haccount⟩ := AccountRepository.verify_spec hresult
        rw [← hverified] at haccount
        simp only [hresult, haccount, ne_eq, not_true_eq_false, if_false]
        cases hbound : (srv.sessionService_.bind c (sessionFor record.account_)).1 with
        | false =>
          have hsame := bind_snd_of_refused hbound
          unfold sessionFor at hbound hsame
          simp only [hbound, hsame, Bool.not_false, if_true]
          exact .refused rfl rfl (by decide)
        | true =>
          have haccepted := LoginResponseCases.accepted hrecord hbound
          unfold sessionFor at hbound haccepted
          simp only [hbound, Bool.not_true, Bool.false_eq_true, if_false]
          exact haccepted
      · simp only [ne_eq, hresult, not_false_eq_true, if_true]
        exact .refused rfl rfl (length_accountResultMessage_le _)

theorem LoginResponseCases.fits {answered : LoginResponse × GameServer}
    (h : LoginResponseCases srv c answered) : (ServerMessage.loginRsp answered.1).Fits := by
  cases h with
  | refused hno hname htext => exact ServerMessage.fits_loginRsp (by simp [hname]) htext
  | @accepted name record hrecord hbound =>
    have hname := AccountRepository.length_le_of_isValidInput record.valid
    exact ServerMessage.fits_loginRsp (hname.trans (by decide)) (Nat.zero_le _)

theorem handleLogin_outcome (hc : c ∈ srv.connections_) :
    LoginOutcome srv c (srv.handleLogin c (.ofBytes payload)) := by
  have hcases := loginResponse_cases srv c (.ofBytes payload)
  have hfits := hcases.fits
  unfold handleLogin
  generalize srv.loginResponse c (.ofBytes payload) = answered at hcases hfits ⊢
  cases hcases with
  | @refused response hno hname htext =>
    have hsend := encodeAndSendOrShutdown_eq srv (.loginRsp response) hfits hc
    have houtcome : LoginOutcome srv c (srv, [.send c (ServerMessage.loginRsp response).frame]) :=
      .refused hno hfits
    rw [← hsend] at houtcome
    exact houtcome
  | @accepted name record hrecord hbound =>
    have hsend := encodeAndSendOrShutdown_eq { srv with
      sessionService_ := (srv.sessionService_.bind c (sessionFor record.account_)).2 } _ hfits hc
    have houtcome := LoginOutcome.accepted hrecord hbound
    rw [← hsend] at houtcome
    exact houtcome

inductive RegisterOutcome (srv : GameServer) (io : SaveIO) (c : UInt64) :
    GameServer × List Effect → Prop
  | answered {response : RegisterResponse} {repo : AccountRepository} :
      (ServerMessage.registerRsp response).Fits →
      repo = srv.accountRepository_ ∨ (∃ userName password,
        repo = (srv.accountRepository_.Register io userName password {}).2.2) →
      RegisterOutcome srv io c
        ({ srv with accountRepository_ := repo },
          [.send c (ServerMessage.registerRsp response).frame])

inductive RegisterResponseCases (srv : GameServer) (io : SaveIO) :
    RegisterResponse × GameServer → Prop
  | answered {response} {repo : AccountRepository} :
      response.userName_.length ≤ kMaxStringBytes →
      response.errorMessage_.length ≤ kMaxStringBytes →
      repo = srv.accountRepository_ ∨ (∃ userName password,
        repo = (srv.accountRepository_.Register io userName password {}).2.2) →
      RegisterResponseCases srv io (response, { srv with accountRepository_ := repo })

variable (srv) in
theorem registerResponse_cases (io : SaveIO) (reader : BinaryReader) :
    RegisterResponseCases srv io (srv.registerResponse io reader) := by
  unfold registerResponse
  split
  · have hkept : srv.accountRepository_ = srv.accountRepository_ ∨ (∃ userName password,
        srv.accountRepository_ =
          (srv.accountRepository_.Register io userName password {}).2.2) := Or.inl rfl
    exact .answered (Nat.zero_le _) (by dsimp only; decide) hkept
  · rename_i request _
    have hspec := AccountRepository.register_spec srv.accountRepository_ io request.userName_
      request.password_ {}
    have hrepo : ∃ userName password,
        (srv.accountRepository_.Register io request.userName_ request.password_ {}).2.2 =
          (srv.accountRepository_.Register io userName password {}).2.2 := ⟨_, _, rfl⟩
    generalize srv.accountRepository_.Register io request.userName_ request.password_ {} =
      registered at hspec hrepo
    obtain ⟨result, account, repo⟩ := registered
    by_cases hresult : result = .kOk
    · subst hresult
      have hregistered := hspec.2 rfl
      simp only [ne_eq, not_true_eq_false, if_false]
      refine .answered ?_ (Nat.zero_le _) (Or.inr hrepo)
      rw [hregistered.account_eq]
      exact (AccountRepository.length_le_of_isValidInput hregistered.valid).trans (by decide)
    · simp only [ne_eq, hresult, not_false_eq_true, if_true]
      exact .answered (Nat.zero_le _) (length_accountResultMessage_le _) (Or.inr hrepo)

theorem RegisterResponseCases.fits {io : SaveIO} {answered : RegisterResponse × GameServer}
    (h : RegisterResponseCases srv io answered) :
    (ServerMessage.registerRsp answered.1).Fits := by
  cases h with
  | answered hname htext => exact ServerMessage.fits_registerRsp hname htext

variable (payload) in
theorem handleRegister_outcome (io : SaveIO) (hc : c ∈ srv.connections_) :
    RegisterOutcome srv io c (srv.handleRegister io c (.ofBytes payload)) := by
  have hcases := registerResponse_cases srv io (.ofBytes payload)
  have hfits := hcases.fits
  unfold handleRegister
  generalize srv.registerResponse io (.ofBytes payload) = answered at hcases hfits ⊢
  cases hcases with
  | @answered response repo hname htext hrepo =>
    have hsend := encodeAndSendOrShutdown_eq { srv with accountRepository_ := repo }
      (.registerRsp response) hfits hc
    have houtcome := RegisterOutcome.answered (c := c) hfits hrepo
    rw [← hsend] at houtcome
    exact houtcome

/-! ### Matchmaking -/

/-- The ticket of a session. -/
def ticketFor (t : PlayerSession) (now : MatchTimePoint) : MatchTicket :=
  { userId_ := t.userId_, elo_ := t.elo_, joinedAt_ := now }

inductive JoinOutcome (srv : GameServer) (now : MatchTimePoint) (c : UInt64)
    (payload : List UInt8) : GameServer × List Effect → Prop
  | refused {response : MatchJoinResponse} : response.accepted_ = false →
      (ServerMessage.matchJoinRsp response).Fits →
      (∀ t, srv.sessionService_.findByConnection c = some t → t.roomId_ = 0 →
        MessageType.decoded .matchJoinRequest payload ≠ none →
        srv.matchQueue_.find t.userId_ ≠ none) →
      JoinOutcome srv now c payload (srv, [.send c (ServerMessage.matchJoinRsp response).frame])
  | accepted {t q} : srv.sessionService_.findByConnection c = some t → t.roomId_ = 0 →
      srv.matchQueue_.find t.userId_ = none →
      (∀ u, q.find u =
        if u = t.userId_ then some (ticketFor t now) else srv.matchQueue_.find u) →
      JoinOutcome srv now c payload
        ({ srv with matchQueue_ := q },
          [.send c (ServerMessage.matchJoinRsp { accepted_ := true }).frame])

variable (payload) in
theorem handleMatchJoin_outcome (now : MatchTimePoint) (hc : c ∈ srv.connections_) :
    JoinOutcome srv now c payload (srv.handleMatchJoin now c (.ofBytes payload)) := by
  have hrefuse : ∀ response : MatchJoinResponse, response.accepted_ = false →
      response.errorMessage_.length ≤ kMaxStringBytes →
      (∀ t, srv.sessionService_.findByConnection c = some t → t.roomId_ = 0 →
        MessageType.decoded .matchJoinRequest payload ≠ none →
        srv.matchQueue_.find t.userId_ ≠ none) →
      JoinOutcome srv now c payload
        (srv, srv.encodeAndSend c MSG_MATCH_JOIN_RSP .matchJoinResponse response) := by
    intro response hno htext hwhy
    have hfits := ServerMessage.fits_matchJoinRsp htext
    have hsend := encodeAndSend_eq srv (.matchJoinRsp response) hfits hc
    have houtcome : JoinOutcome srv now c payload
        (srv, [.send c (ServerMessage.matchJoinRsp response).frame]) := .refused hno hfits hwhy
    rw [← hsend] at houtcome
    exact houtcome
  -- the checks in the order of the source: body, session, room, queue
  unfold handleMatchJoin matchJoinResponse
  split
  · rename_i hdecode
    exact hrefuse _ rfl (by dsimp only; decide) fun _ _ _ hd => absurd hdecode hd
  · split
    · rename_i hsession
      exact hrefuse _ rfl (by dsimp only; decide) fun t ht => by cases ht.symm.trans hsession
    · rename_i t ht
      split
      · rename_i hroom
        refine hrefuse _ rfl (by dsimp only; decide) fun t' ht' h0 => absurd h0 ?_
        exact Option.some.inj (ht.symm.trans ht') ▸ hroom
      · rename_i hroom
        obtain ⟨hjoin, hfind⟩ := MatchQueue.join_eq (q := srv.matchQueue_)
          (ticketFor t now)
        cases hq : srv.matchQueue_.find t.userId_ with
        | some ticket =>
          have hin : srv.matchQueue_.join (ticketFor t now) = (false, srv.matchQueue_) :=
            dif_pos (Finmap.mem_of_lookup_eq_some hq)
          unfold ticketFor at hin
          simp only [MatchmakingService.join, hin, Bool.not_false, if_true]
          refine hrefuse _ rfl (by dsimp only; decide) fun t' ht' _ _ => ?_
          obtain rfl : t = t' := Option.some.inj (ht.symm.trans ht')
          simp [hq]
        | none =>
          have hout : (srv.matchQueue_.join (ticketFor t now)).1 = true := by
            rw [hjoin]
            exact Option.isNone_iff_eq_none.mpr hq
          have hsend := encodeAndSend_eq
            { srv with matchQueue_ := (srv.matchQueue_.join (ticketFor t now)).2 }
            (.matchJoinRsp { accepted_ := true })
            (ServerMessage.fits_matchJoinRsp (Nat.zero_le _)) hc
          have houtcome : JoinOutcome srv now c payload
              ({ srv with matchQueue_ := (srv.matchQueue_.join (ticketFor t now)).2 },
                [.send c (ServerMessage.matchJoinRsp { accepted_ := true }).frame]) :=
            .accepted ht (not_not.mp hroom) hq fun u => by
              rw [hfind]
              simp [ticketFor, hq]
          rw [← hsend] at houtcome
          unfold ticketFor at hout houtcome
          simp only [MatchmakingService.join, hout, Bool.not_true, Bool.false_eq_true, if_false]
          exact houtcome

inductive CancelOutcome (srv : GameServer) (c : UInt64) (payload : List UInt8) :
    GameServer × List Effect → Prop
  | refused {response : MatchCancelResponse} : response.accepted_ = false →
      (ServerMessage.matchCancelRsp response).Fits →
      (∀ t, srv.sessionService_.findByConnection c = some t → t.roomId_ = 0 →
        MessageType.decoded .matchCancelRequest payload ≠ none →
        srv.matchQueue_.find t.userId_ = none) →
      CancelOutcome srv c payload (srv, [.send c (ServerMessage.matchCancelRsp response).frame])
  | accepted {t ticket q} : srv.sessionService_.findByConnection c = some t → t.roomId_ = 0 →
      srv.matchQueue_.find t.userId_ = some ticket →
      (∀ u, q.find u = if u = t.userId_ then none else srv.matchQueue_.find u) →
      CancelOutcome srv c payload
        ({ srv with matchQueue_ := q },
          [.send c (ServerMessage.matchCancelRsp { accepted_ := true }).frame])

theorem handleMatchCancel_outcome (hc : c ∈ srv.connections_) :
    CancelOutcome srv c payload (srv.handleMatchCancel c (.ofBytes payload)) := by
  have hrefuse : ∀ response : MatchCancelResponse, response.accepted_ = false →
      response.errorMessage_.length ≤ kMaxStringBytes →
      (∀ t, srv.sessionService_.findByConnection c = some t → t.roomId_ = 0 →
        MessageType.decoded .matchCancelRequest payload ≠ none →
        srv.matchQueue_.find t.userId_ = none) →
      CancelOutcome srv c payload
        (srv, srv.encodeAndSend c MSG_MATCH_CANCEL_RSP .matchCancelResponse response) := by
    intro response hno htext hwhy
    have hfits := ServerMessage.fits_matchCancelRsp htext
    have hsend := encodeAndSend_eq srv (.matchCancelRsp response) hfits hc
    have houtcome := CancelOutcome.refused hno hfits hwhy
    rw [← hsend] at houtcome
    exact houtcome
  -- the same checks in the same order, but the user has to be in the queue
  unfold handleMatchCancel matchCancelResponse
  split
  · rename_i hdecode
    exact hrefuse _ rfl (by dsimp only; decide) fun _ _ _ hd => absurd hdecode hd
  · split
    · rename_i hsession
      exact hrefuse _ rfl (by dsimp only; decide) fun t ht => by cases ht.symm.trans hsession
    · rename_i t ht
      split
      · rename_i hroom
        refine hrefuse _ rfl (by dsimp only; decide) fun t' ht' h0 => absurd h0 ?_
        exact Option.some.inj (ht.symm.trans ht') ▸ hroom
      · rename_i hroom
        obtain ⟨hcancel, hfind⟩ := MatchQueue.cancel_eq (q := srv.matchQueue_) t.userId_
        cases hq : srv.matchQueue_.find t.userId_ with
        | none =>
          have hout : srv.matchQueue_.cancel t.userId_ = (false, srv.matchQueue_) := by
            have hno : srv.matchQueue_.contains t.userId_ = false := by
              rw [← Bool.not_eq_true, MatchQueue.contains_iff]
              simp [hq]
            simp [MatchQueue.cancel, hno]
          simp only [MatchmakingService.cancel, hout, Bool.not_false, if_true]
          refine hrefuse _ rfl (by dsimp only; decide) fun t' ht' _ _ => ?_
          obtain rfl : t = t' := Option.some.inj (ht.symm.trans ht')
          exact hq
        | some ticket =>
          have hin : (srv.matchQueue_.cancel t.userId_).1 = true := by rw [hcancel, hq]; rfl
          have hsend := encodeAndSend_eq
            { srv with matchQueue_ := (srv.matchQueue_.cancel t.userId_).2 }
            (.matchCancelRsp { accepted_ := true })
            (ServerMessage.fits_matchCancelRsp (Nat.zero_le _)) hc
          have houtcome : CancelOutcome srv c payload
              ({ srv with matchQueue_ := (srv.matchQueue_.cancel t.userId_).2 },
                [.send c (ServerMessage.matchCancelRsp { accepted_ := true }).frame]) :=
            .accepted ht (not_not.mp hroom) hq hfind
          rw [← hsend] at houtcome
          simp only [MatchmakingService.cancel, hin, Bool.not_true, Bool.false_eq_true, if_false]
          exact houtcome

/-! ### Ticks -/

section Tick

open MatchmakingService

variable {range : MatchTicket → MatchTimePoint → ℚ} {now : MatchTimePoint}

/-- The rounds of a tick put sessions into rooms and change nothing else about them. -/
theorem rounds_mapped {s s' : MatchmakingService} {outcomes : Outcomes}
    (h : Rounds range now s outcomes s') :
    ∃ f, Mapped f s.sessionService_ s'.sessionService_ ∧ ∀ t, ∃ r, f t = { t with roomId_ := r } := by
  have hmark : ∀ (u : UInt32) (r : UInt64) (t : PlayerSession),
      ∃ r', inRoom u r t = { t with roomId_ := r' } := by
    intro u r t
    unfold inRoom
    split
    · exact ⟨r, rfl⟩
    · exact ⟨t.roomId_, rfl⟩
  induction h with
  | done => exact ⟨id, .refl _, fun t => ⟨t.roomId_, rfl⟩⟩
  | @round s pair q' outcomes s' hdraw hrounds ih =>
    obtain ⟨g, hg, hgroom⟩ := ih
    -- a pair that is placed has two sessions moved, every other pair none
    have hplace : ∃ f, Mapped f s.sessionService_
        ({ s with matchQueue_ := q' }.placePair pair).2.sessionService_ ∧
          ∀ t, ∃ r, f t = { t with roomId_ := r } := by
      have hcases := placePair_cases { s with matchQueue_ := q' } pair
      generalize { s with matchQueue_ := q' }.placePair pair = result at hcases ⊢
      cases hcases with
      | skipped => exact ⟨id, .refl _, fun t => ⟨t.roomId_, rfl⟩⟩
      | noRoom => exact ⟨id, .refl _, fun t => ⟨t.roomId_, rfl⟩⟩
      | @found t₁ t₂ r =>
        refine ⟨_, (mapped_markInRoom _ r).comp (mapped_markInRoom _ r), fun t => ?_⟩
        obtain ⟨r₁, h₁⟩ := hmark pair.first_.userId_ r t
        obtain ⟨r₂, h₂⟩ := hmark pair.second_.userId_ r { t with roomId_ := r₁ }
        exact ⟨r₂, by rw [Function.comp, h₁, h₂]⟩
    obtain ⟨f, hf, hfroom⟩ := hplace
    refine ⟨g ∘ f, hf.comp hg, fun t => ?_⟩
    obtain ⟨r₁, h₁⟩ := hfroom t
    obtain ⟨r₂, h₂⟩ := hgroom { t with roomId_ := r₁ }
    exact ⟨r₂, by rw [Function.comp, h₁, h₂]⟩

/-- The news of a match: the room and who the opponent is. -/
def foundFor (r : UInt64) (opponent : PlayerSession) : ServerMessage :=
  .matchFoundNtf
    { roomId_ := r, opponentUserId_ := opponent.userId_, opponentUserName_ := opponent.userName_,
      opponentElo_ := opponent.elo_ }

/-- Both players of a match are told. -/
def tellFound (srv : GameServer) (event : MatchFoundEvent) : List Effect :=
  match srv.sessionService_.sessionOf event.pair_.first_.userId_,
      srv.sessionService_.sessionOf event.pair_.second_.userId_ with
  | some t₁, some t₂ =>
    [srv.tell event.pair_.first_.userId_ (foundFor event.roomId_ t₂),
      srv.tell event.pair_.second_.userId_ (foundFor event.roomId_ t₁)]
  | _, _ => []

inductive TickOutcome (range : MatchTicket → MatchTimePoint → ℚ) (now : MatchTimePoint)
    (srv : GameServer) : GameServer × List Effect → Prop
  | rounds {outcomes : Outcomes} {s' : MatchmakingService} :
      Rounds range now srv.toMatchmakingService outcomes s' →
      TickOutcome range now srv
        ({ srv with toMatchmakingService := s' },
          outcomes.events.flatMap fun event => .matchFound event :: srv.tellFound event)

theorem mem_users_of_mem_events {s s' : MatchmakingService} {outcomes : Outcomes}
    (h : Rounds range now s outcomes s') {event : MatchFoundEvent} (he : event ∈ outcomes.events)
    {u : UInt32} (hu : u ∈ event.pair_.users) : u ∈ outcomes.users := by
  induction h with
  | done => simp [Outcomes.events] at he
  | @round s pair q' outcomes s' hdraw hrounds ih =>
    rw [Outcomes.events_cons, List.mem_append] at he
    rw [Outcomes.users_cons, List.mem_append]
    rcases he with he | he
    · left
      have hcases := placePair_cases { s with matchQueue_ := q' } pair
      generalize { s with matchQueue_ := q' }.placePair pair = result at hcases he
      cases hcases with
      | skipped => simp at he
      | noRoom => simp at he
      | found =>
        obtain rfl : event = _ := by simpa using he
        exact hu
    · exact Or.inr (ih he)

/-- After the tick the server still finds the two players of a match. -/
theorem notifyMatchFound_eq (h : Coherent srv) {s' : MatchmakingService}
    {f : PlayerSession → PlayerSession}
    (hmapped : Mapped f srv.sessionService_ s'.sessionService_)
    (hf : ∀ t, ∃ r, f t = { t with roomId_ := r }) {event : MatchFoundEvent}
    {t₁ t₂ : PlayerSession}
    (h₁ : srv.sessionService_.sessionOf event.pair_.first_.userId_ = some t₁)
    (h₂ : srv.sessionService_.sessionOf event.pair_.second_.userId_ = some t₂) :
    { srv with toMatchmakingService := s' }.notifyMatchFound event = srv.tellFound event := by
  have hsession : ∀ {u t}, srv.sessionService_.sessionOf u = some t →
      s'.sessionService_.findByConnection (s'.sessionService_.findConnectionByUserId u) =
        some (f t) := by
    intro u t ht
    have hu := hmapped.sessionOf u
    rw [ht] at hu
    exact hu
  have hfits : ∀ {u t}, srv.sessionService_.sessionOf u = some t →
      (foundFor event.roomId_ t).Fits := fun ht =>
    ServerMessage.fits_matchFoundNtf ((h.name_le ht).trans (by decide))
  -- a tick changes the room of a session only, which the message does not contain
  have hsame : ∀ r t, foundFor r (f t) = foundFor r t := by
    intro r t
    obtain ⟨r', hr⟩ := hf t
    rw [hr]
    rfl
  have hsend : ∀ {u v t t'}, srv.sessionService_.sessionOf u = some t →
      srv.sessionService_.sessionOf v = some t' →
      { srv with toMatchmakingService := s' }.encodeAndSend
          (s'.sessionService_.findConnectionByUserId u) MSG_MATCH_FOUND_NTF .matchFoundNotification
          { roomId_ := event.roomId_, opponentUserId_ := (f t').userId_,
            opponentUserName_ := (f t').userName_, opponentElo_ := (f t').elo_ } =
        [srv.tell u (foundFor event.roomId_ t')] := by
    intro u v t t' ht ht'
    have hopen : s'.sessionService_.findConnectionByUserId u ∈ srv.connections_ := by
      rw [hmapped.connection ht]
      exact h.online ht
    have htell : srv.tell u (foundFor event.roomId_ t') =
        .send (s'.sessionService_.findConnectionByUserId u)
          (foundFor event.roomId_ (f t')).frame := by
      rw [tell, hsame, hmapped.connection ht]
    rw [htell]
    exact encodeAndSend_eq { srv with toMatchmakingService := s' }
      (foundFor event.roomId_ (f t')) (by rw [hsame]; exact hfits ht') hopen
  simp only [notifyMatchFound, tellFound, hsession h₁, hsession h₂, h₁, h₂]
  exact congrArg₂ (· ++ ·) (hsend h₁ h₂) (hsend h₂ h₁)

theorem processMatchmakingTick_eq (h : Coherent srv) {outcomes : Outcomes}
    (hrounds : Rounds range now srv.toMatchmakingService outcomes (srv.tick range now).2)
    (hevents : (srv.tick range now).1 = outcomes.events) :
    srv.processMatchmakingTick range now =
      ({ srv with toMatchmakingService := (srv.tick range now).2 },
        outcomes.events.flatMap fun event => .matchFound event :: srv.tellFound event) := by
  obtain ⟨f, hmapped, hf⟩ := rounds_mapped hrounds
  have hnotify : ∀ event ∈ outcomes.events,
      { srv with toMatchmakingService := (srv.tick range now).2 }.notifyMatchFound event =
        srv.tellFound event := by
    intro event he
    have honline : ∀ u ∈ event.pair_.users,
        ∃ t, srv.sessionService_.sessionOf u = some t := by
      intro u hu
      obtain ⟨ticket, hticket⟩ := hrounds.queued (mem_users_of_mem_events hrounds he hu)
      obtain ⟨t, ht, -⟩ := h.queued hticket
      exact ⟨t, ht⟩
    obtain ⟨t₁, h₁⟩ := honline _ (mem_users.mpr (Or.inl rfl))
    obtain ⟨t₂, h₂⟩ := honline _ (mem_users.mpr (Or.inr rfl))
    exact notifyMatchFound_eq h hmapped hf h₁ h₂
  have heffects := List.flatMap_congr fun event he =>
    congrArg (Effect.matchFound event :: ·) (hnotify event he)
  rw [← heffects, ← hevents]
  rfl

variable (range now) in
theorem processMatchmakingTick_outcome (h : Coherent srv) :
    TickOutcome range now srv (srv.processMatchmakingTick range now) := by
  obtain ⟨outcomes, hrounds, hevents⟩ := tick_rounds range now srv.toMatchmakingService
  rw [processMatchmakingTick_eq h hrounds hevents]
  exact .rounds hrounds

end Tick

end ArenaGame.GameServer
