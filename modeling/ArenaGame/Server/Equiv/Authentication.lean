import ArenaGame.Server.Equiv.Wraparound

/-!
# Who may play

A session is opened by a login request with the password of its account, and it stays with the
connection of that request until the connection closes.  Id, name and password of an account never
change, and an account that the file did not hold was registered with its password.  So whoever
waits, is in a room or fights has given the password (`players_authenticated`).
-/

namespace ArenaGame

open GameProtocol GameMessages

/-! ### Accounts keep their names and passwords -/

namespace AccountRepository

/-- The same accounts, up to their ELO. -/
def Rerated (accounts accounts' : Accounts) : Prop :=
  ∀ name, ∃ elo, accounts'.lookup name = (accounts.lookup name).map (·.withElo elo)

theorem Rerated.refl (accounts : Accounts) : Rerated accounts accounts := by
  intro name
  cases hrecord : accounts.lookup name with
  | none => exact ⟨0, rfl⟩
  | some record =>
    exact ⟨record.account_.elo_, congrArg some (withElo_self record).symm⟩

theorem Rerated.trans {a b c : Accounts} (h : Rerated a b) (h' : Rerated b c) : Rerated a c := by
  intro name
  obtain ⟨elo, hb⟩ := h name
  obtain ⟨elo', hc⟩ := h' name
  refine ⟨elo', ?_⟩
  rw [hc, hb, Option.map_map]
  rfl

theorem rerated_setElo (accounts : Accounts) (name : StdString) (elo : UInt32) :
    Rerated accounts (setElo accounts name elo) := by
  intro name'
  rw [lookup_setElo]
  split
  · rename_i hname
    exact ⟨elo, by rw [hname]⟩
  · exact Rerated.refl accounts name'

theorem accounts_save (repo : AccountRepository) (io : SaveIO) :
    (repo.save io).2.accounts_ = repo.accounts_ := by
  rcases save_cases repo io with hsave | hsave <;> rw [hsave]

theorem rerated_updateEloPair (repo : AccountRepository) (io : SaveIO) (u e v f : UInt32) :
    Rerated repo.accounts_ (repo.updateEloPair io u e v f).2.accounts_ := by
  unfold updateEloPair
  split
  · exact .refl _
  · split
    · rename_i first second _
      have hset : ∀ (accounts : Accounts) (x y : UInt32),
          Rerated accounts (setElo (setElo accounts first x) second y) := fun accounts x y =>
        (rerated_setElo _ _ _).trans (rerated_setElo _ _ _)
      dsimp only
      split
      · rw [accounts_save]
        exact hset _ _ _
      · -- the old ratings are written over the new ones
        dsimp only
        rw [accounts_save]
        exact (hset _ _ _).trans (hset _ _ _)
    · exact .refl _

/-- Accounts stay, up to their ELO, and new ones have a name and password of a certain kind. -/
structure Kept (made : StdString → StdString → Prop) (accounts accounts' : Accounts) : Prop where
  kept : ∀ {name record}, accounts.lookup name = some record →
    ∃ elo, accounts'.lookup name = some (record.withElo elo)
  made : ∀ {name record'}, accounts'.lookup name = some record' →
    (∃ record elo, accounts.lookup name = some record ∧ record' = record.withElo elo) ∨
      made name record'.password_

theorem Rerated.kept {a b : Accounts} (h : Rerated a b) (made : StdString → StdString → Prop) :
    Kept made a b := by
  refine ⟨fun {name record} hrecord => ?_, fun {name record'} hrecord => Or.inl ?_⟩
  · obtain ⟨elo, helo⟩ := h name
    exact ⟨elo, by rw [helo, hrecord, Option.map_some]⟩
  · obtain ⟨elo, helo⟩ := h name
    rw [helo, Option.map_eq_some_iff] at hrecord
    obtain ⟨record, hrecord, rfl⟩ := hrecord
    exact ⟨record, elo, hrecord, rfl⟩

/-- A call of `Register`, whether it succeeds or not. -/
theorem kept_register (repo : AccountRepository) (io : SaveIO) (userName password : StdString) :
    Kept (fun name password' => name = userName ∧ password' = password) repo.accounts_
      (repo.Register io userName password {}).2.2.accounts_ := by
  have hstays : ∀ record : AccountRecord, record.withElo record.account_.elo_ = record :=
    withElo_self
  have hspec := register_spec repo io userName password {}
  generalize repo.Register io userName password {} = registered at hspec ⊢
  obtain ⟨result, account, repo'⟩ := registered
  obtain ⟨hfailed, hdone⟩ := hspec
  dsimp only
  by_cases hresult : result = .kOk
  · have hregistered := hdone hresult
    obtain ⟨added, -, hpassword, hlookup⟩ := hregistered.lookup
    refine ⟨fun {name record} hrecord => ⟨record.account_.elo_, ?_⟩,
      fun {name record'} hrecord => ?_⟩
    · rw [hlookup, if_neg, hrecord, hstays]
      rintro rfl
      cases hregistered.fresh.symm.trans hrecord
    · rw [hlookup] at hrecord
      split at hrecord
      · rename_i hname
        exact Or.inr ⟨hname, Option.some.inj hrecord ▸ hpassword⟩
      · exact Or.inl ⟨record', record'.account_.elo_, hrecord, (hstays record').symm⟩
  · have hsame := (hfailed hresult).2.lookup
    refine ⟨fun {name record} hrecord => ⟨record.account_.elo_, ?_⟩, fun {name record'} hrecord =>
      Or.inl ⟨record', record'.account_.elo_, ?_, (hstays record').symm⟩⟩
    · rw [hsame, hrecord, hstays]
    · rw [← hsame, hrecord]

end AccountRepository

namespace GameServer

open SessionService AccountRepository

variable {range : MatchTicket → MatchTimePoint → ℚ} {srv srv₀ : GameServer}

/-! ### What an event does to accounts and sessions -/

/-- A register request has the account `name` made, if it can be. -/
def Event.Registers (name password : StdString) : Event → Prop
  | message _ frame _ _ => frame.1 = MSG_REGISTER_REQ ∧
    MessageType.decoded .registerRequest frame.2 = some { userName_ := name, password_ := password }
  | _ => False

/-- `c` gives a password for the account `name`. -/
def Event.Gives (c : UInt64) (name password : StdString) : Event → Prop
  | message c' frame _ _ => c' = c ∧ frame.1 = MSG_LOGIN_REQ ∧
    MessageType.decoded .loginRequest frame.2 = some { userName_ := name, password_ := password }
  | _ => False

def Event.Closes (c : UInt64) : Event → Prop
  | closed c' _ => c' = c
  | _ => False

theorem Finished.rerated {io : SaveIO} {state : BattleState} {t₁ t₂ : PlayerSession} {ok : Bool}
    {e₁ e₂ : UInt32} {srv' : GameServer} (h : Finished srv io state t₁ t₂ ok e₁ e₂ srv') :
    Rerated srv.accountRepository_.accounts_ srv'.accountRepository_.accounts_ := by
  have hupdated := rerated_updateEloPair srv.accountRepository_ io state.firstUserId_
    (BattleService.calculateElo state t₁.elo_ t₂.elo_).firstElo_ state.secondUserId_
    (BattleService.calculateElo state t₁.elo_ t₂.elo_).secondElo_
  rwa [h.saved] at hupdated

theorem accountRepository_registerResponse (srv : GameServer) (io : SaveIO)
    (payload : List UInt8) :
    (srv.registerResponse io (.ofBytes payload)).2.accountRepository_ =
      match MessageType.decoded .registerRequest payload with
      | none => srv.accountRepository_
      | some (request : RegisterRequest) =>
        (srv.accountRepository_.Register io request.userName_ request.password_ {}).2.2 := by
  unfold registerResponse MessageType.decoded
  dsimp only [MessageType.decode, MessageType.initial]
  split
  · rename_i hnone
    rw [hnone]
  · rename_i request hsome
    rw [hsome]
    split <;> rfl

variable (range) in
/-- Accounts stay, and a new one has been asked for. -/
theorem step_accounts (h : Coherent srv) {event : Event} (hp : event.Possible srv) :
    Kept event.Registers srv.accountRepository_.accounts_
      (srv.step range event).1.accountRepository_.accounts_ := by
  have hsame : ∀ {srv' : GameServer}, srv'.accountRepository_ = srv.accountRepository_ →
      Kept event.Registers srv.accountRepository_.accounts_ srv'.accountRepository_.accounts_ := by
    intro srv' heq
    rw [heq]
    exact (Rerated.refl _).kept _
  have houtcome := step_outcome range h hp
  generalize hnext : srv.step range event = next at houtcome
  cases houtcome with
  | opened => exact hsame rfl
  | ignored => exact hsame rfl
  | login hlogin => cases hlogin <;> exact hsame rfl
  | @register c payload now io _ =>
    have hresponse := accountRepository_registerResponse srv io payload
    have hrepo : next.1.accountRepository_ =
        (srv.registerResponse io (.ofBytes payload)).2.accountRepository_ := by rw [← hnext]; rfl
    rw [hrepo]
    cases hdecode : MessageType.decoded .registerRequest payload with
    | none =>
      rw [hdecode] at hresponse
      exact hsame hresponse
    | some request =>
      rw [hdecode] at hresponse
      rw [hresponse]
      have hkept := kept_register srv.accountRepository_ io (RegisterRequest.userName_ request)
        (RegisterRequest.password_ request)
      refine ⟨hkept.kept, fun hrecord => (hkept.made hrecord).imp_right ?_⟩
      rintro ⟨rfl, hpassword⟩
      exact ⟨rfl, by rw [hpassword]; exact hdecode⟩
  | join hjoin => cases hjoin <;> exact hsame rfl
  | cancel hcancel => cases hcancel <;> exact hsame rfl
  | hero hhero => cases hhero <;> exact hsame rfl
  | attack hattack =>
    cases hattack with
    | refused => exact hsame rfl
    | hit => exact hsame rfl
    | felled _ _ _ _ _ _ _ hfinished => exact hfinished.rerated.kept _
  | tick htick =>
    obtain ⟨hrounds⟩ := htick
    exact hsame rfl
  | closed hclose =>
    cases hclose with
    | free => exact hsame (accountRepository_dequeue _ _)
    | left _ _ _ _ _ _ _ hrepo => exact hsame hrepo
    | forfeited _ _ _ _ _ _ hfinished =>
      have hrepo := hfinished.rerated
      dsimp only at hrepo
      rw [accountRepository_dequeue] at hrepo
      exact hrepo.kept _

/-- Sessions stay with their users. -/
structure Stay (ss ss' : SessionService) : Prop where
  stays : ∀ {c t'}, ss'.findByConnection c = some t' →
    ∃ t, ss.findByConnection c = some t ∧ t'.userId_ = t.userId_ ∧ t'.userName_ = t.userName_

theorem Stay.refl (ss : SessionService) : Stay ss ss := ⟨fun ht => ⟨_, ht, rfl, rfl⟩⟩

theorem Stay.of_mapped {ss ss' : SessionService} {f : PlayerSession → PlayerSession}
    (h : Mapped f ss ss') (hname : ∀ t, (f t).userName_ = t.userName_) : Stay ss ss' := by
  refine ⟨fun {c t'} ht' => ?_⟩
  rw [h.find, Option.map_eq_some_iff] at ht'
  obtain ⟨t, ht, rfl⟩ := ht'
  exact ⟨t, ht, h.userId_eq t, hname t⟩

theorem Stay.remove {ss ss' : SessionService} (h : Stay ss ss') (c : UInt64) :
    Stay ss (ss'.remove c) := by
  refine ⟨fun {c' t'} ht' => ?_⟩
  rw [findByConnection_remove] at ht'
  split at ht'
  · cases ht'
  · exact h.stays ht'

/-- A login request opens a session for the account whose password it gives, or none. -/
theorem loginResponse_sessions {c c' : UInt64} {payload : List UInt8} {t' : PlayerSession}
    (ht' : (srv.loginResponse c (.ofBytes payload)).2.sessionService_.findByConnection c' =
      some t') :
    srv.sessionService_.findByConnection c' = some t' ∨
      c = c' ∧ ∃ name record, srv.accountRepository_.accounts_.lookup name = some record ∧
        MessageType.decoded .loginRequest payload =
          some { userName_ := name, password_ := record.password_ } ∧
        t' = sessionFor record.account_ := by
  unfold loginResponse at ht'
  split at ht'
  · exact Or.inl ht'
  · rename_i request hdecode
    split at ht'
    · exact Or.inl ht'
    · dsimp only at ht'
      split at ht'
      · exact Or.inl ht'
      · rename_i hresult
        obtain ⟨record, hrecord, hpassword, haccount⟩ :=
          AccountRepository.verify_spec (not_not.mp hresult)
        rw [haccount] at ht'
        have hbind : ∀ t : PlayerSession, (srv.sessionService_.bind c t).2.findByConnection c' =
            some t' → srv.sessionService_.findByConnection c' = some t' ∨ c = c' ∧ t' = t := by
          intro t ht
          cases hbound : (srv.sessionService_.bind c t).1 with
          | false =>
            rw [bind_snd_of_refused hbound] at ht
            exact Or.inl ht
          | true =>
            rw [findByConnection_bind hbound] at ht
            split at ht
            · rename_i heq
              exact Or.inr ⟨heq.symm, (Option.some.inj ht).symm⟩
            · exact Or.inl ht
        have hopened : srv.sessionService_.findByConnection c' = some t' ∨
            c = c' ∧ t' = sessionFor record.account_ := by
          split at ht' <;> exact hbind _ ht'
        refine hopened.imp_right fun ⟨heq, hsession⟩ =>
          ⟨heq, request.userName_, record, hrecord, ?_, hsession⟩
        rw [hpassword]
        exact hdecode

/-- The session of a connection stays with its user, or the connection has just given the password
of the account; and no session is left behind a connection that closes. -/
theorem step_sessions (h : Coherent srv) {event : Event} (hp : event.Possible srv) {c : UInt64}
    {t' : PlayerSession}
    (ht' : (srv.step range event).1.sessionService_.findByConnection c = some t') :
    ¬ event.Closes c ∧
      ((∃ t, srv.sessionService_.findByConnection c = some t ∧ t'.userId_ = t.userId_ ∧
          t'.userName_ = t.userName_) ∨
        ∃ name record, srv.accountRepository_.accounts_.lookup name = some record ∧
          event.Gives c name record.password_ ∧ t' = sessionFor record.account_) := by
  have houtcome := step_outcome range h hp
  generalize hnext : srv.step range event = next at houtcome ht'
  have hstay : ∀ {ss' : SessionService}, next.1.sessionService_ = ss' →
      Stay srv.sessionService_ ss' → ∃ t, srv.sessionService_.findByConnection c = some t ∧
        t'.userId_ = t.userId_ ∧ t'.userName_ = t.userName_ := by
    rintro ss' rfl hstay
    exact hstay.stays ht'
  cases houtcome with
  | opened => exact ⟨not_false, Or.inl (hstay rfl (.refl _))⟩
  | ignored => exact ⟨not_false, Or.inl (hstay rfl (.refl _))⟩
  | @login c₀ payload now io _ _ =>
    have hsession : (srv.loginResponse c₀ (.ofBytes payload)).2.sessionService_.findByConnection c =
        some t' := by
      rw [← ht', ← hnext]
      rfl
    refine ⟨not_false, ?_⟩
    rcases loginResponse_sessions hsession with hold | ⟨heq, name, record, hrecord, hdecode, hnew⟩
    · exact Or.inl ⟨t', hold, rfl, rfl⟩
    · exact Or.inr ⟨name, record, hrecord, ⟨heq, rfl, hdecode⟩, hnew⟩
  | register hregister =>
    cases hregister
    exact ⟨not_false, Or.inl (hstay rfl (.refl _))⟩
  | join hjoin => cases hjoin <;> exact ⟨not_false, Or.inl (hstay rfl (.refl _))⟩
  | cancel hcancel => cases hcancel <;> exact ⟨not_false, Or.inl (hstay rfl (.refl _))⟩
  | hero hhero => cases hhero <;> exact ⟨not_false, Or.inl (hstay rfl (.refl _))⟩
  | attack hattack =>
    refine ⟨not_false, Or.inl ?_⟩
    cases hattack with
    | refused => exact hstay rfl (.refl _)
    | hit => exact hstay rfl (.refl _)
    | felled _ _ _ _ _ _ _ hfinished =>
      exact hstay rfl (.of_mapped hfinished.sessions (settled_userName _ _ _ _))
  | tick htick =>
    obtain ⟨hrounds⟩ := htick
    obtain ⟨f, hmapped, hf⟩ := rounds_mapped hrounds
    refine ⟨not_false, Or.inl (hstay rfl (.of_mapped hmapped fun t => ?_))⟩
    obtain ⟨r, hr⟩ := hf t
    rw [hr]
  | @closed c₀ io _ hclose =>
    have hgone : next.1.sessionService_.findByConnection c₀ = none := by
      cases hclose with
      | free => exact (findByConnection_remove _ _).trans (if_pos rfl)
      | left => exact (findByConnection_remove _ _).trans (if_pos rfl)
      | forfeited => exact (findByConnection_remove _ _).trans (if_pos rfl)
    refine ⟨?_, Or.inl ?_⟩
    · rintro rfl
      cases hgone.symm.trans ht'
    · cases hclose with
      | free =>
        refine hstay rfl (Stay.remove ?_ c₀)
        rw [sessionService_dequeue]
        exact .refl _
      | left _ _ _ _ _ _ hend =>
        refine hstay rfl (Stay.remove (.of_mapped ?_ hend.name_eq) c₀)
        have hmapped := hend.sessions
        rwa [sessionService_dequeue] at hmapped
      | forfeited _ _ _ _ _ _ hfinished =>
        have hmapped := hfinished.sessions
        dsimp only at hmapped
        rw [sessionService_dequeue] at hmapped
        exact hstay rfl (Stay.remove (.of_mapped hmapped (settled_userName _ _ _ _)) c₀)

/-! ### Every run -/

/-- `c` has given `password` for the account `name`, and has not been closed since. -/
def LoggedIn (events : List Event) (c : UInt64) (name password : StdString) : Prop :=
  ∃ before event after, events = before ++ event :: after ∧ event.Gives c name password ∧
    ∀ event' ∈ after, ¬ event'.Closes c

/-- The account was in the file, or it has been asked for with its password. -/
def Owned (srv₀ : GameServer) (events : List Event) (name : StdString) (record : AccountRecord) :
    Prop :=
  (∃ record₀ elo, srv₀.accountRepository_.accounts_.lookup name = some record₀ ∧
      record = record₀.withElo elo) ∨
    ∃ event ∈ events, event.Registers name record.password_

/-- A user who waits, is in a room or fights. -/
def Plays (srv : GameServer) (u : UInt32) : Prop :=
  (∃ ticket, srv.matchQueue_.find u = some ticket) ∨
    (∃ r room, r ≠ 0 ∧ srv.roomService_.find r = some room ∧ u ∈ room.users) ∨
      ∃ r state, srv.battleService_.find r = some state ∧ u ∈ state.users

/-- Behind a session is a login with the password of its account. -/
structure Authenticated (srv₀ : GameServer) (events : List Event) (srv : GameServer) : Prop where
  coherent : Coherent srv
  accounts : ∀ {name record}, srv.accountRepository_.accounts_.lookup name = some record →
    Owned srv₀ events name record
  sessions : ∀ {c t}, srv.sessionService_.findByConnection c = some t →
    ∃ name record, srv.accountRepository_.accounts_.lookup name = some record ∧
      record.account_.userId_ = t.userId_ ∧ record.account_.userName_ = t.userName_ ∧
      LoggedIn events c name record.password_

theorem LoggedIn.concat {events : List Event} {c : UInt64} {name password : StdString}
    (h : LoggedIn events c name password) {event : Event} (hopen : ¬ event.Closes c) :
    LoggedIn (events ++ [event]) c name password := by
  obtain ⟨before, given, after, rfl, hgives, hafter⟩ := h
  refine ⟨before, given, after ++ [event], ?_, hgives, fun event' hmem => ?_⟩
  · rw [List.append_assoc, List.cons_append]
  · rcases List.mem_append.mp hmem with hmem | hmem
    · exact hafter event' hmem
    · obtain rfl := List.mem_singleton.mp hmem
      exact hopen

theorem Authenticated.step {events : List Event} (h : Authenticated srv₀ events srv) {event : Event}
    (hp : event.Possible srv) :
    Authenticated srv₀ (events ++ [event]) (srv.step range event).1 := by
  have haccounts := step_accounts range h.coherent hp
  refine ⟨h.coherent.step range hp, fun {name record'} hrecord => ?_, fun {c t'} ht' => ?_⟩
  · rcases haccounts.made hrecord with ⟨record, elo, hold, rfl⟩ | hmade
    · rcases h.accounts hold with ⟨record₀, elo₀, hfile, rfl⟩ | ⟨asked, hmem, hregisters⟩
      · exact Or.inl ⟨record₀, elo, hfile, rfl⟩
      · exact Or.inr ⟨asked, List.mem_append_left _ hmem, hregisters⟩
    · exact Or.inr ⟨event, List.mem_append_right _ (List.mem_singleton.mpr rfl), hmade⟩
  · obtain ⟨hopen, ⟨t, ht, hid, hname⟩ | ⟨name, record, hrecord, hgives, rfl⟩⟩ :=
      step_sessions h.coherent hp ht'
    · obtain ⟨name, record, hrecord, huser, huserName, hlogged⟩ := h.sessions ht
      obtain ⟨elo, hkept⟩ := haccounts.kept hrecord
      exact ⟨name, record.withElo elo, hkept, huser.trans hid.symm, huserName.trans hname.symm,
        hlogged.concat hopen⟩
    · obtain ⟨elo, hkept⟩ := haccounts.kept hrecord
      exact ⟨name, record.withElo elo, hkept, rfl, rfl, events, event, [], rfl, hgives, nofun⟩

/-- **Nobody plays without having logged in.**  Every session belongs to a connection that has given
the password of the account since it was opened; every account is one of the file, or it was made at
the request of someone who chose that password.  Whoever waits, is in a room or fights has a
session. -/
theorem players_authenticated {file : Option (List UInt8)} (h : init file = some srv)
    {events : List Event} (hrun : (machine range).CanRun srv events) :
    let last := ((machine range).run srv events).1
    (∀ c t, last.sessionService_.findByConnection c = some t →
      ∃ name record, last.accountRepository_.accounts_.lookup name = some record ∧
        record.account_.userId_ = t.userId_ ∧ record.account_.userName_ = t.userName_ ∧
        LoggedIn events c name record.password_ ∧ Owned srv events name record) ∧
    (∀ name record, last.accountRepository_.accounts_.lookup name = some record →
      Owned srv events name record) ∧
    ∀ u, Plays last u →
      ∃ c t, last.sessionService_.findByConnection c = some t ∧ t.userId_ = u := by
  intro last
  have hstart : Authenticated srv [] srv := by
    refine ⟨coherent_init h, fun {name record} hrecord =>
      Or.inl ⟨record, record.account_.elo_, hrecord, (withElo_self record).symm⟩, fun ht => ?_⟩
    obtain ⟨-, rfl⟩ := eq_of_init h
    cases ht
  have hlast : Authenticated srv events last :=
    Machine.run_induction_inputs (P := fun events srv' => Authenticated srv events srv')
      (fun _ _ _ h hp => h.step hp) hstart hrun
  refine ⟨fun c t ht => ?_, fun name record hrecord => hlast.accounts hrecord, fun u hplays => ?_⟩
  · obtain ⟨name, record, hrecord, hid, hname, hlogged⟩ := hlast.sessions ht
    exact ⟨name, record, hrecord, hid, hname, hlogged, hlast.accounts hrecord⟩
  · have hsession : ∃ t, last.sessionService_.sessionOf u = some t := by
      rcases hplays with ⟨ticket, hticket⟩ | ⟨r, room, h0, hroom, hu⟩ | ⟨r, state, hstate, hu⟩
      · exact (hlast.coherent.queued hticket).imp fun _ ht => ht.1
      · exact (hlast.coherent.inRoom h0 hroom u hu).imp fun _ ht => ht.1
      · obtain ⟨-, t₁, t₂, -, -, h₁, -, h₂, -⟩ := hlast.coherent.battle hstate
        rcases BattleState.mem_users.mp hu with rfl | rfl
        · exact ⟨t₁, h₁⟩
        · exact ⟨t₂, h₂⟩
    obtain ⟨t, ht⟩ := hsession
    obtain ⟨c, hc, hu⟩ := sessionOf_eq_some_iff.mp ht
    exact ⟨c, t, hc, hu⟩

/-- Two players who have registered, logged in and joined the queue. -/
theorem players_authenticated_two_players :
    let events := Wraparound.arrival ++ Wraparound.search
    let last := ((machine allowedEloRange).run Wraparound.freshServer events).1
    (∃ c t, last.sessionService_.findByConnection c = some t ∧ t.userId_ = 2 ∧
      ∃ name record, last.accountRepository_.accounts_.lookup name = some record ∧
        record.account_.userId_ = 2 ∧ LoggedIn events c name record.password_) ∧
    ∃ record, last.accountRepository_.accounts_.lookup [97] = some record ∧
      Owned Wraparound.freshServer events [97] record := by
  intro events last
  have hqueued : (last.matchQueue_.find 2).isSome := by decide +kernel
  have hfirst : (last.accountRepository_.accounts_.lookup [97]).isSome := by decide +kernel
  obtain ⟨hsessions, haccounts, hplays⟩ :=
    players_authenticated (rfl : init none = some Wraparound.freshServer)
      (by decide +kernel : (machine allowedEloRange).CanRun Wraparound.freshServer events)
  obtain ⟨record, hrecord⟩ := Option.isSome_iff_exists.mp hfirst
  obtain ⟨c, t, ht, hu⟩ := hplays 2 (Or.inl (Option.isSome_iff_exists.mp hqueued))
  obtain ⟨name, owner, howner, hid, -, hlogged, -⟩ := hsessions c t ht
  exact ⟨⟨c, t, ht, hu, name, owner, howner, hid.trans hu, hlogged⟩,
    record, hrecord, haccounts [97] record hrecord⟩

end GameServer

end ArenaGame
