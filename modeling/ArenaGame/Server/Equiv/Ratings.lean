import ArenaGame.Server.Equiv.Settlement
import ArenaGame.Server.Lives

/-!
# What ratings are made of

However often the server is restarted and whichever saves fail, the rating of an account is what its
battles have made of the rating that it started with: those whose result was saved, in order, 25
points up or down each (`ratings_survive`).  A restart finds the file in a state from which it loads
what was in memory.
-/

namespace ArenaGame

open GameProtocol GameMessages

/-! ### Restarts -/

namespace AccountRepository

variable {repo repo' : AccountRepository}

/-- What is in memory is what a new repository would load. -/
def Restorable (repo : AccountRepository) : Prop :=
  (repo.restart.load).1 = true ∧ Unchanged repo (repo.restart.load).2

theorem Restorable.unchanged (h : Restorable repo) (hsame : Unchanged repo repo') :
    Restorable repo' := by
  have hrestart : repo'.restart = repo.restart := by
    unfold restart
    rw [hsame.file]
  obtain ⟨hload, hfile, hnext, hlookup⟩ := h
  unfold Restorable
  rw [hrestart]
  exact ⟨hload, hfile.trans hsame.file.symm, hnext.trans hsame.next.symm,
    fun name => (hlookup name).trans (hsame.lookup name).symm⟩

theorem Sound.restorable (h : Sound repo) (hwritten : Written repo) : Restorable repo :=
  Durable.restart ⟨h, hwritten.stored h.keyed⟩

theorem file_load (repo : AccountRepository) : (load repo).2.file_ = repo.file_ := by
  unfold load
  split
  · rfl
  · split
    · rfl
    · split <;> rfl

theorem restorable_load {file : Option (List UInt8)} (h : (load { file_ := file }).1 = true) :
    Restorable (load { file_ := file }).2 := by
  have hrestart : (load { file_ := file }).2.restart = { file_ := file } := by
    unfold restart
    rw [file_load]
  unfold Restorable
  rw [hrestart]
  exact ⟨h, .refl _⟩

end AccountRepository

namespace GameServer

open SessionService AccountRepository

variable {range : MatchTicket → MatchTimePoint → ℚ} {srv srv₀ : GameServer}

/-! ### Results -/

/-- The result of a battle for one of its players, if it was saved: whether he has won. -/
def Effect.result (u : UInt32) : Effect → Option Bool
  | .finishBattle _ io state =>
    if io.succeeds = true ∧ u ∈ state.users then some (state.winnerUserId_ = u) else none
  | _ => none

/-- The saved results of a user, in order. -/
def results (u : UInt32) (o : List Effect) : List Bool := o.filterMap (Effect.result u)

/-- The rating behind some results. -/
def ratingAfter (elo : ℕ) (results : List Bool) : ℕ :=
  results.foldl (fun elo won => eloAfter won elo) elo

theorem results_append (u : UInt32) (o o' : List Effect) :
    results u (o ++ o') = results u o ++ results u o' := List.filterMap_append

theorem ratingAfter_append (elo : ℕ) (rs rs' : List Bool) :
    ratingAfter elo (rs ++ rs') = ratingAfter (ratingAfter elo rs) rs' := List.foldl_append

theorem results_of_quiet {u : UInt32} {o : List Effect}
    (h : ∀ effect ∈ o, Effect.Quiet effect) : results u o = [] := by
  refine List.filterMap_eq_nil_iff.mpr fun effect hmem => ?_
  have hquiet := h effect hmem
  cases effect with
  | startBattle => cases hquiet
  | finishBattle => cases hquiet
  | _ => rfl

theorem results_finishBattle (u : UInt32) (server : GameServer) (io : SaveIO)
    (state : BattleState) {before after : List Effect}
    (hbefore : ∀ effect ∈ before, Effect.Quiet effect)
    (hafter : ∀ effect ∈ after, Effect.Quiet effect) :
    results u (before ++ .finishBattle server io state :: after) =
      if io.succeeds = true ∧ u ∈ state.users then [decide (state.winnerUserId_ = u)] else [] := by
  rw [results_append, results_of_quiet hbefore, List.nil_append]
  have hrest : List.filterMap (Effect.result u) after = [] := results_of_quiet hafter
  unfold results
  by_cases hsaved : io.succeeds = true ∧ u ∈ state.users
  · have hresult : Effect.result u (.finishBattle server io state) =
        some (decide (state.winnerUserId_ = u)) := if_pos hsaved
    rw [List.filterMap_cons_some hresult, hrest, if_pos hsaved]
  · have hresult : Effect.result u (.finishBattle server io state) = none := if_neg hsaved
    rw [List.filterMap_cons_none hresult, hrest, if_neg hsaved]

/-! ### One event -/

/-- What an event with the effects `o` does to the accounts: their ratings follow the results in
`o`, and a new account has a new id and the rating 1000. -/
structure Rated (repo repo' : AccountRepository) (o : List Effect) : Prop where
  kept : ∀ {name record}, repo.accounts_.lookup name = some record →
    ∃ elo, repo'.accounts_.lookup name = some (record.withElo elo) ∧
      elo.toNat = ratingAfter record.account_.elo_.toNat (results record.account_.userId_ o)
  made : ∀ {name record}, repo.accounts_.lookup name = none →
    repo'.accounts_.lookup name = some record →
      ¬ IdIn repo.accounts_ record.account_.userId_ ∧ record.account_.elo_ = 1000 ∧
        results record.account_.userId_ o = []
  players : ∀ {u}, results u o ≠ [] → IdIn repo.accounts_ u
  restorable : Restorable repo → Restorable repo'

theorem rated_of_lookup {repo repo' : AccountRepository} {o : List Effect}
    (hnone : ∀ u, results u o = []) (hsame : Unchanged repo repo') : Rated repo repo' o := by
  refine ⟨fun {name record} hrecord => ⟨record.account_.elo_, ?_, ?_⟩,
    fun {name record} hnew hrecord => ?_, fun {u} hu => absurd (hnone u) hu,
    fun h => h.unchanged hsame⟩
  · rw [withElo_self, hsame.lookup, hrecord]
  · rw [hnone]
    rfl
  · rw [hsame.lookup, hnew] at hrecord
    cases hrecord

theorem rated_register (hsound : Sound srv.accountRepository_) {o : List Effect}
    (hnone : ∀ u, results u o = []) (io : SaveIO) (userName password : StdString) :
    Rated srv.accountRepository_
      (srv.accountRepository_.Register io userName password {}).2.2 o := by
  have hspec := register_spec srv.accountRepository_ io userName password {}
  generalize srv.accountRepository_.Register io userName password {} = registered at hspec ⊢
  obtain ⟨result, account, repo'⟩ := registered
  obtain ⟨hfailed, hdone⟩ := hspec
  by_cases hresult : result = .kOk
  · have hregistered := hdone hresult
    obtain ⟨added, haccount, -, hlookup⟩ := hregistered.lookup
    refine ⟨fun {name record} hrecord => ⟨record.account_.elo_, ?_, ?_⟩,
      fun {name record} hnew hrecord => ?_, fun {u} hu => absurd (hnone u) hu,
      fun _ => (hsound.registered hregistered).restorable hregistered.written⟩
    · rw [withElo_self, hlookup, if_neg, hrecord]
      rintro rfl
      cases hregistered.fresh.symm.trans hrecord
    · rw [hnone]
      rfl
    · rw [hlookup] at hrecord
      split at hrecord
      · obtain rfl := Option.some.inj hrecord
        rw [haccount, hregistered.account_eq]
        refine ⟨fun hold => ?_, rfl, hnone _⟩
        -- the next id has not been given to anyone
        exact UInt32.lt_irrefl _ (hsound.next.above hregistered.next_ne_zero _ hold)
      · rw [hnew] at hrecord
        cases hrecord
  · exact rated_of_lookup hnone (hfailed hresult).2

theorem rated_finished (hbooks : Books srv) {io : SaveIO} {state : BattleState}
    {t₁ t₂ : PlayerSession} {ok : Bool} {e₁ e₂ : UInt32} {srv' : GameServer}
    (h₁ : srv.sessionService_.sessionOf state.firstUserId_ = some t₁)
    (h₂ : srv.sessionService_.sessionOf state.secondUserId_ = some t₂)
    (hne : state.firstUserId_ ≠ state.secondUserId_) (hw : state.winnerUserId_ ∈ state.users)
    (h : Finished srv io state t₁ t₂ ok e₁ e₂ srv') {before after : List Effect}
    {server : GameServer} (hbefore : ∀ effect ∈ before, Effect.Quiet effect)
    (hafter : ∀ effect ∈ after, Effect.Quiet effect) :
    Rated srv.accountRepository_ srv'.accountRepository_
      (before ++ .finishBattle server io state :: after) := by
  obtain ⟨hok, hsound, hlookup⟩ := h.lookup hbooks h₁ h₂ hne
  obtain ⟨helo₁, helo₂⟩ := calculateElo_spec hne hw t₁.elo_ t₂.elo_
  have hresults := fun u => results_finishBattle u server io state hbefore hafter
  -- what is settled for a player is his result
  have hplayer : ∀ {u t name record} {e e' : UInt32}, srv.sessionService_.sessionOf u = some t →
      u ∈ state.users → e = (if ok then e' else t.elo_) →
      e'.toNat = eloAfter (state.winnerUserId_ = u) t.elo_.toNat →
      srv.accountRepository_.accounts_.lookup name = some record → record.account_.userId_ = u →
      e.toNat = ratingAfter record.account_.elo_.toNat
        (results u (before ++ .finishBattle server io state :: after)) := by
    rintro u t name record e e' ht hu rfl he' hrecord hid
    obtain ⟨record', hrecord', hid', helo⟩ := hbooks.backed.sessionOf ht
    obtain rfl := hbooks.sound.unique hrecord hrecord' (hid.trans hid'.symm)
    obtain rfl := Option.some.inj (hrecord.symm.trans hrecord')
    rw [hresults, hok, helo]
    cases io.succeeds with
    | true =>
      rw [if_pos rfl, if_pos ⟨rfl, hu⟩, he']
      rfl
    | false =>
      rw [if_neg Bool.false_ne_true, if_neg fun hand => Bool.false_ne_true hand.1]
      rfl
  refine ⟨fun {name record} hrecord => ?_, fun {name record} hnew hrecord => ?_,
    fun {u} hu => ?_, fun hrestorable => ?_⟩
  · rw [hlookup, hrecord, Option.map_some]
    unfold settle
    split
    · rename_i hid
      exact ⟨e₁, rfl, hid ▸ hplayer h₁ (BattleState.mem_users.mpr (Or.inl rfl)) h.first helo₁
        hrecord hid⟩
    · rename_i hnot₁
      split
      · rename_i hid
        exact ⟨e₂, rfl, hid ▸ hplayer h₂ (BattleState.mem_users.mpr (Or.inr rfl)) h.second helo₂
          hrecord hid⟩
      · rename_i hnot₂
        refine ⟨record.account_.elo_, by rw [withElo_self], ?_⟩
        rw [hresults, if_neg]
        · rfl
        · rintro ⟨-, hmem⟩
          exact (BattleState.mem_users.mp hmem).elim hnot₁ hnot₂
  · rw [hlookup, hnew] at hrecord
    cases hrecord
  · rw [hresults] at hu
    have hmem : u ∈ state.users := by
      by_contra hnot
      exact hu (if_neg fun hand => hnot hand.2)
    rcases BattleState.mem_users.mp hmem with rfl | rfl
    · exact IdIn_of_sessionOf hbooks h₁
    · exact IdIn_of_sessionOf hbooks h₂
  · have hspec := updateEloPair_spec srv.accountRepository_ io state.firstUserId_
      (BattleService.calculateElo state t₁.elo_ t₂.elo_).firstElo_ state.secondUserId_
      (BattleService.calculateElo state t₁.elo_ t₂.elo_).secondElo_ hbooks.sound.unique
    rw [h.saved] at hspec
    cases ok with
    | true => exact hsound.restorable (hspec.2 rfl).written
    | false => exact hrestorable.unchanged (hspec.1 rfl)

variable (range) in
theorem step_rated (hbooks : Books srv) (hco : Coherent srv) {event : Event}
    (hp : event.Possible srv) :
    Rated srv.accountRepository_ (srv.step range event).1.accountRepository_
      (srv.step range event).2 := by
  have houtcome := step_outcome range hco hp
  have hledger := houtcome.ledger hbooks hco
  generalize srv.step range event = next at houtcome hledger ⊢
  have hsame : ∀ {repo : AccountRepository}, (∀ u, results u next.2 = []) →
      repo = srv.accountRepository_ → Rated srv.accountRepository_ repo next.2 := by
    rintro repo hnone rfl
    exact rated_of_lookup hnone (.refl _)
  cases houtcome with
  | opened => exact hsame (fun _ => rfl) rfl
  | ignored => exact hsame (fun _ => rfl) rfl
  | login hlogin => cases hlogin <;> exact hsame (fun _ => rfl) rfl
  | register hregister =>
    obtain @⟨response, repo, -, rfl | ⟨userName, password, rfl⟩⟩ := hregister
    · exact hsame (fun _ => rfl) rfl
    · exact rated_register hbooks.sound (fun _ => rfl) _ userName password
  | join hjoin => cases hjoin <;> exact hsame (fun _ => rfl) rfl
  | cancel hcancel => cases hcancel <;> exact hsame (fun _ => rfl) rfl
  | hero hhero => cases hhero <;> exact hsame (fun _ => rfl) rfl
  | attack hattack =>
    cases hattack with
    | refused => exact hsame (fun _ => rfl) rfl
    | hit => exact hsame (fun _ => rfl) rfl
    | @felled t t₁ t₂ state state' bs ok e₁ e₂ srv' ht hstate hattack hfin hbs h₁ h₂ hfinished =>
      have hsettled := hledger.settlement _ _ _ (List.mem_append_right _ List.mem_cons_self)
      have hbooks' : Books { srv with battleService_ := bs } := ⟨hbooks.sound, hbooks.backed⟩
      exact rated_finished hbooks' h₁ h₂ hsettled.ne hsettled.winner hfinished
        (fun effect => quiet_tellBoth effect) fun effect => quiet_tellBoth effect
  | tick htick =>
    obtain ⟨hrounds⟩ := htick
    exact hsame (fun _ => results_of_quiet quiet_events) rfl
  | closed hclose =>
    cases hclose with
    | free => exact hsame (fun _ => rfl) (accountRepository_dequeue _ _)
    | left _ _ _ _ _ _ _ hrepo => exact hsame (fun _ => rfl) hrepo
    | @forfeited t t₁ t₂ state state' bs ok e₁ e₂ srv₁ ht hstate hforfeit hbs h₁ h₂ hfinished =>
      rename_i c io
      have hsettled := hledger.settlement _ _ _ List.mem_cons_self
      have hbooks' : Books { srv.dequeue c with battleService_ := bs } :=
        ⟨by simpa using hbooks.sound, by simpa using hbooks.backed⟩
      rw [← sessionService_dequeue srv c] at h₁ h₂
      have hrated : Rated (srv.dequeue c).accountRepository_ srv₁.accountRepository_
          ([] ++ .finishBattle { srv.dequeue c with battleService_ := bs } io state' ::
            srv.tellBoth state'.firstUserId_ state'.secondUserId_ (resultsFor state' e₁ e₂)) :=
        rated_finished hbooks' h₁ h₂ hsettled.ne hsettled.winner hfinished
          (List.forall_mem_nil _) fun effect => quiet_tellBoth effect
      rw [accountRepository_dequeue] at hrated
      exact hrated

/-! ### Every run, over all restarts -/

/-- The rating with which an account starts. -/
def startingElo (srv₀ : GameServer) (name : StdString) : ℕ :=
  match srv₀.accountRepository_.accounts_.lookup name with
  | some record => record.account_.elo_.toNat
  | none => 1000

/-- What holds after the effects `o` of all the lives of the server. -/
structure Lived (srv₀ : GameServer) (o : List Effect) (srv : GameServer) : Prop where
  coherent : Coherent srv
  books : Books srv
  restorable : Restorable srv.accountRepository_
  kept : ∀ {name record}, srv₀.accountRepository_.accounts_.lookup name = some record →
    ∃ elo, srv.accountRepository_.accounts_.lookup name = some (record.withElo elo)
  rating : ∀ {name record}, srv.accountRepository_.accounts_.lookup name = some record →
    record.account_.elo_.toNat =
      ratingAfter (startingElo srv₀ name) (results record.account_.userId_ o)
  players : ∀ {u}, results u o ≠ [] → IdIn srv.accountRepository_.accounts_ u

theorem Restorable.restarted (h : Restorable srv.accountRepository_) :
    init srv.accountRepository_.file_ = some srv.restarted ∧
      Unchanged srv.accountRepository_ srv.restarted.accountRepository_ := by
  obtain ⟨hload, hsame⟩ := h
  have hinit : ∃ srv', init srv.accountRepository_.file_ = some srv' ∧
      srv'.accountRepository_ = (srv.accountRepository_.restart.load).2 := by
    unfold init
    rw [if_neg]
    · exact ⟨_, rfl, rfl⟩
    · rw [show AccountRepository.load { file_ := srv.accountRepository_.file_ } =
        srv.accountRepository_.restart.load from rfl, hload]
      decide
  obtain ⟨srv', hsome, hrepo⟩ := hinit
  unfold GameServer.restarted
  rw [hsome, Option.getD_some, hrepo]
  exact ⟨rfl, hsame⟩

theorem Lived.restart {o : List Effect} (h : Lived srv₀ o srv) : Lived srv₀ o srv.restarted := by
  obtain ⟨hinit, hsame⟩ := Restorable.restarted h.restorable
  have hunique : UniqueIds srv.restarted.accountRepository_.accounts_ :=
    (h.books.sound.unchanged hsame).unique
  refine ⟨coherent_init hinit, books_init hinit hunique, h.restorable.unchanged hsame,
    fun {name record} hrecord => ?_, fun {name record} hrecord => ?_, fun {u} hu => ?_⟩
  · obtain ⟨elo, hold⟩ := h.kept hrecord
    exact ⟨elo, (hsame.lookup name).trans hold⟩
  · rw [hsame.lookup] at hrecord
    exact h.rating hrecord
  · obtain ⟨name, record, hrecord, hid⟩ := h.players hu
    exact ⟨name, record, (hsame.lookup name).trans hrecord, hid⟩

theorem Lived.event {o : List Effect} (h : Lived srv₀ o srv) {event : Event}
    (hp : event.Possible srv) :
    Lived srv₀ (o ++ (srv.step range event).2) (srv.step range event).1 := by
  have hrated := step_rated range h.books h.coherent hp
  have hbooks := ((step_outcome range h.coherent hp).ledger h.books h.coherent).books
  refine ⟨h.coherent.step range hp, hbooks, hrated.restorable h.restorable,
    fun {name record} hrecord => ?_, fun {name record'} hrecord => ?_, fun {u} hu => ?_⟩
  · obtain ⟨elo, hold⟩ := h.kept hrecord
    obtain ⟨elo', hnew, -⟩ := hrated.kept hold
    exact ⟨elo', hnew⟩
  · cases hold : srv.accountRepository_.accounts_.lookup name with
    | some record =>
      obtain ⟨elo, hnew, helo⟩ := hrated.kept hold
      obtain rfl := Option.some.inj (hnew.symm.trans hrecord)
      show elo.toNat = ratingAfter _ (results record.account_.userId_ _)
      rw [helo, h.rating hold, results_append, ratingAfter_append]
    | none =>
      -- nobody with the id of a new account has ever fought
      obtain ⟨hfresh, helo, hnone⟩ := hrated.made hold hrecord
      have hbefore : results record'.account_.userId_ o = [] := by
        by_contra hfought
        exact hfresh (h.players hfought)
      have hstart : srv₀.accountRepository_.accounts_.lookup name = none := by
        cases hstart : srv₀.accountRepository_.accounts_.lookup name with
        | none => rfl
        | some record₀ =>
          obtain ⟨elo, hkept⟩ := h.kept hstart
          cases hold.symm.trans hkept
      unfold startingElo
      rw [hstart, results_append, hbefore, hnone, helo]
      rfl
  · rw [results_append] at hu
    have hold : IdIn srv.accountRepository_.accounts_ u := by
      by_cases hbefore : results u o = []
      · rw [hbefore, List.nil_append] at hu
        exact hrated.players hu
      · exact h.players hbefore
    obtain ⟨name, record, hrecord, hid⟩ := hold
    obtain ⟨elo, hnew, -⟩ := hrated.kept hrecord
    exact ⟨name, _, hnew, hid⟩

theorem Lived.live {o : List Effect} (h : Lived srv₀ o srv) {life : Life} (hp : life.Possible srv) :
    Lived srv₀ (o ++ (srv.live range life).2) (srv.live range life).1 := by
  cases life with
  | event event => exact h.event hp
  | restart =>
    show Lived srv₀ (o ++ []) srv.restarted
    rw [List.append_nil]
    exact h.restart

/-- An account that is there stays. -/
theorem Lived.keeps {o : List Effect} (h : Lived srv₀ o srv) {life : Life} (hp : life.Possible srv)
    {name : StdString} {record : AccountRecord}
    (hrecord : srv.accountRepository_.accounts_.lookup name = some record) :
    ∃ elo, (srv.live range life).1.accountRepository_.accounts_.lookup name =
      some (record.withElo elo) := by
  cases life with
  | event event =>
    obtain ⟨elo, hkept, -⟩ := (step_rated range h.books h.coherent hp).kept hrecord
    exact ⟨elo, hkept⟩
  | restart =>
    obtain ⟨-, hsame⟩ := Restorable.restarted h.restorable
    refine ⟨record.account_.elo_, ?_⟩
    rw [withElo_self]
    exact (hsame.lookup name).trans hrecord

/-- An account that is there at some time stays until the end. -/
theorem Lived.kept_run {o : List Effect} (h : Lived srv₀ o srv) {history : List Life}
    (hrun : (lives range).CanRun srv history) {name : StdString} {record : AccountRecord}
    (hrecord : srv.accountRepository_.accounts_.lookup name = some record) :
    ∃ elo, ((lives range).run srv history).1.accountRepository_.accounts_.lookup name =
      some (record.withElo elo) := by
  induction history generalizing o srv record with
  | nil => exact ⟨record.account_.elo_, by rw [withElo_self]; exact hrecord⟩
  | cons life history ih =>
    obtain ⟨hp, hrest⟩ := hrun
    obtain ⟨elo, hkept⟩ := h.keeps hp hrecord
    obtain ⟨elo', hkept'⟩ := ih (h.live hp) hrest hkept
    exact ⟨elo', hkept'⟩

theorem lived_init {file : Option (List UInt8)} (h : init file = some srv)
    (hunique : UniqueIds srv.accountRepository_.accounts_) : Lived srv [] srv := by
  have hbooks := books_init h hunique
  obtain ⟨hload, hsrv⟩ := eq_of_init h
  refine ⟨coherent_init h, hbooks, ?_, fun {name record} hrecord =>
    ⟨record.account_.elo_, ?_⟩, fun {name record} hrecord => ?_, fun hu => absurd rfl hu⟩
  · rw [hsrv]
    exact restorable_load hload
  · rw [withElo_self]
    exact hrecord
  · unfold startingElo
    rw [hrecord]
    rfl

/-- **Ratings survive.**  After any events and restarts the server can be restarted without changing
an account; an account that was there at any time, from the file or registered, is still there; and
the rating of each is what its saved results have made of the rating that it started with. -/
theorem ratings_survive {file : Option (List UInt8)} (h : init file = some srv)
    (hunique : UniqueIds srv.accountRepository_.accounts_) {history : List Life}
    (hrun : (lives range).CanRun srv history) :
    let last := (lives range).run srv history
    (init last.1.accountRepository_.file_ = some last.1.restarted ∧
      Unchanged last.1.accountRepository_ last.1.restarted.accountRepository_) ∧
    (∀ before after, history = before ++ after → ∀ name record,
      ((lives range).run srv before).1.accountRepository_.accounts_.lookup name = some record →
      ∃ elo, last.1.accountRepository_.accounts_.lookup name = some (record.withElo elo)) ∧
    ∀ name record, last.1.accountRepository_.accounts_.lookup name = some record →
      record.account_.elo_.toNat =
        ratingAfter (startingElo srv name) (results record.account_.userId_ last.2) := by
  intro last
  have hlived : ∀ {history}, (lives range).CanRun srv history →
      Lived srv ((lives range).run srv history).2 ((lives range).run srv history).1 := fun hrun =>
    Machine.run_induction (M := lives range) (P := fun o srv' => Lived srv o srv')
      (fun _ _ _ hlived hp => hlived.live hp) (lived_init h hunique) hrun
  have hlast : Lived srv last.2 last.1 := hlived hrun
  refine ⟨Restorable.restarted hlast.restorable, ?_, fun name record hrecord => hlast.rating hrecord⟩
  rintro before after rfl name record hrecord
  obtain ⟨hbefore, hafter⟩ := ((lives range).canRun_append srv before after).mp hrun
  obtain ⟨elo, hkept⟩ := (hlived hbefore).kept_run hafter hrecord
  refine ⟨elo, ?_⟩
  show ((lives range).run srv (before ++ after)).1.accountRepository_.accounts_.lookup name = _
  rw [Machine.run_append]
  exact hkept

/-- The second of two players gives up. -/
def forfeit : List Life :=
  let select : Frame := (ClientRequest.heroSelectReq { heroType_ := .kMage }).frame
  let events : List Event := Wraparound.arrival ++ Wraparound.search ++
    [.tick 0, .message 1 select 0 Wraparound.reliable, .message 2 select 0 Wraparound.reliable,
      .closed 2 Wraparound.reliable]
  events.map .event

/-- Their battle is settled, and the server is restarted after it. -/
theorem ratings_survive_forfeit :
    let before := ((lives allowedEloRange).run Wraparound.freshServer forfeit).1
    let last := (lives allowedEloRange).run Wraparound.freshServer (forfeit ++ [.restart])
    results 1 last.2 = [true] ∧ results 2 last.2 = [false] ∧
      init last.1.accountRepository_.file_ = some last.1.restarted ∧
      (before.accountRepository_.accounts_.lookup [97]).isSome ∧
      (last.1.accountRepository_.accounts_.lookup [97]).isSome := by
  intro before last
  have hbefore : (before.accountRepository_.accounts_.lookup [97]).isSome := by decide +kernel
  obtain ⟨record, hrecord⟩ := Option.isSome_iff_exists.mp hbefore
  obtain ⟨⟨hinit, -⟩, hkept, -⟩ :=
    ratings_survive (rfl : init none = _) uniqueIds_freshServer
      (by decide +kernel : (lives allowedEloRange).CanRun _ (forfeit ++ [.restart]))
  obtain ⟨elo, hlast⟩ := hkept forfeit [.restart] rfl [97] record hrecord
  exact ⟨by decide +kernel, by decide +kernel, hinit, hbefore,
    Option.isSome_iff_exists.mpr ⟨_, hlast⟩⟩

end GameServer

end ArenaGame
