import ArenaGame.Server.Equiv.Wraparound

/-!
# The settlement of battles

`finishBattle` is called once for every battle that ends, and what it does to the two players is a
`Settlement`: both get their new ELO, stored and in their sessions, or neither does.  The account
that belongs to a session is found again because the sessions are `Backed` by the repository.
-/

namespace ArenaGame.GameServer

open SessionService GameMessages GameProtocol AccountRepository

variable {range : MatchTicket → MatchTimePoint → ℚ} {srv : GameServer}

/-! ### Sessions and accounts -/

/-- A session shows the ELO of a stored account. -/
def Backed (ss : SessionService) (repo : AccountRepository) : Prop :=
  ∀ c t, ss.findByConnection c = some t → ∃ record, repo.accounts_.lookup t.userName_ = some record ∧
    record.account_.userId_ = t.userId_ ∧ record.account_.elo_ = t.elo_

/-- The accounts are sound and the sessions are backed by them. -/
structure Books (srv : GameServer) : Prop where
  sound : Sound srv.accountRepository_
  backed : Backed srv.sessionService_ srv.accountRepository_

section Backed

variable {ss ss' : SessionService} {repo repo' : AccountRepository}

theorem Backed.mapped (h : Backed ss repo) {f : PlayerSession → PlayerSession}
    (hm : Mapped f ss ss') (hf : ∀ t, (f t).userName_ = t.userName_ ∧ (f t).elo_ = t.elo_) :
    Backed ss' repo := by
  intro c t ht
  rw [hm.find, Option.map_eq_some_iff] at ht
  obtain ⟨s, hs, rfl⟩ := ht
  rw [(hf s).1, (hf s).2, hm.userId_eq]
  exact h c s hs

theorem Backed.of_lookup (h : Backed ss repo)
    (hrepo : ∀ name record, repo.accounts_.lookup name = some record →
      repo'.accounts_.lookup name = some record) : Backed ss repo' := by
  intro c t ht
  obtain ⟨record, hrecord, hrest⟩ := h c t ht
  exact ⟨record, hrepo _ _ hrecord, hrest⟩

theorem Backed.remove (h : Backed ss repo) (c : UInt64) : Backed (ss.remove c) repo := by
  intro c' t ht
  rw [findByConnection_remove] at ht
  split at ht
  · cases ht
  · exact h c' t ht

theorem Backed.bind (h : Backed ss repo) (hrepo : Sound repo) {c : UInt64} {name : StdString}
    {record : AccountRecord} (hrecord : repo.accounts_.lookup name = some record)
    (hbound : (ss.bind c (sessionFor record.account_)).1 = true) :
    Backed (ss.bind c (sessionFor record.account_)).2 repo := by
  intro c' t ht
  rw [findByConnection_bind hbound] at ht
  split at ht
  · obtain rfl := Option.some.inj ht
    refine ⟨record, ?_, rfl, rfl⟩
    rw [← hrepo.keyed name record hrecord] at hrecord
    exact hrecord
  · exact h c' t ht

theorem Backed.sessionOf (h : Backed ss repo) {u : UInt32} {t : PlayerSession}
    (ht : ss.sessionOf u = some t) : ∃ record, repo.accounts_.lookup t.userName_ = some record ∧
      record.account_.userId_ = u ∧ record.account_.elo_ = t.elo_ := by
  obtain ⟨record, hrecord, hid, helo⟩ := h _ t ht
  exact ⟨record, hrecord, hid.trans (sessionOf_userId ht), helo⟩

end Backed

/-! ### The new ELO -/

/-- What a player with the ELO `elo` has after winning or losing. -/
def eloAfter (won : Bool) (elo : ℕ) : ℕ := if won then min (elo + 25) (2 ^ 32 - 1) else elo - 25

theorem calculateElo_spec {state : BattleState} (hne : state.firstUserId_ ≠ state.secondUserId_)
    (hw : state.winnerUserId_ ∈ state.users) (e f : UInt32) :
    (BattleService.calculateElo state e f).firstElo_.toNat =
        eloAfter (state.winnerUserId_ = state.firstUserId_) e.toNat ∧
      (BattleService.calculateElo state e f).secondElo_.toNat =
        eloAfter (state.winnerUserId_ = state.secondUserId_) f.toNat := by
  -- the bound is checked before the addition, which therefore does not wrap around
  have hraised : ∀ elo : UInt32,
      (if elo > 4294967295 - 25 then 4294967295 else elo + 25).toNat = eloAfter true elo.toNat := by
    intro elo
    have hlt := elo.toNat_lt
    unfold eloAfter
    rw [if_pos rfl]
    split
    · rename_i h
      have h' : (4294967295 - 25 : UInt32).toNat < elo.toNat := h
      show 4294967295 = _
      simp at h'
      omega
    · rename_i h
      have h' : ¬ (4294967295 - 25 : UInt32).toNat < elo.toNat := h
      simp at h'
      rw [UInt32.toNat_add]
      simp
      omega
  have hlowered : ∀ elo : UInt32,
      (if elo ≥ 25 then elo - 25 else 0).toNat = eloAfter false elo.toNat := by
    intro elo
    simp only [eloAfter, Bool.false_eq_true, if_false]
    split
    · rename_i h
      rw [UInt32.toNat_sub_of_le _ _ h]
      rfl
    · rename_i h
      have h' : ¬ (25 : UInt32).toNat ≤ elo.toNat := h
      simp at h' ⊢
      omega
  rcases BattleState.mem_users.mp hw with hw | hw
  · simp only [BattleService.calculateElo, hw, if_true, hne, decide_true, decide_false]
    exact ⟨hraised e, hlowered f⟩
  · simp only [BattleService.calculateElo, hw, hne.symm, if_false, if_true, decide_true,
      decide_false]
    exact ⟨hlowered e, hraised f⟩

/-! ### The results that are sent -/

/-- The results of battles that are sent, each with its connection. -/
def resultsSent : List Effect → List (UInt64 × Frame)
  | [] => []
  | .send c frame :: o =>
    if frame.1 = MSG_BATTLE_RESULT_NTF then (c, frame) :: resultsSent o else resultsSent o
  | _ :: o => resultsSent o

/-- The results that the calls of `finishBattle` send. -/
def resultsDue : List Effect → List (UInt64 × Frame)
  | [] => []
  | .finishBattle before io state :: o =>
    resultsSent (before.finishBattle io state).2 ++ resultsDue o
  | _ :: o => resultsDue o

theorem resultsSent_append (o o' : List Effect) :
    resultsSent (o ++ o') = resultsSent o ++ resultsSent o' := by
  induction o with
  | nil => rfl
  | cons effect o ih =>
    cases effect with
    | send c frame =>
      simp only [List.cons_append, resultsSent, ih]
      split <;> rfl
    | _ => exact ih

theorem resultsDue_append (o o' : List Effect) :
    resultsDue (o ++ o') = resultsDue o ++ resultsDue o' := by
  induction o with
  | nil => rfl
  | cons effect o ih =>
    cases effect with
    | finishBattle before io state =>
      simp only [List.cons_append, resultsDue, ih, List.append_assoc]
    | _ => exact ih

/-! ### What one call does -/

/-- What a call of `finishBattle` does to one of the two players. -/
structure SettledFor (before : GameServer) (io : SaveIO) (state : BattleState) (u : UInt32)
    (t : PlayerSession) (record : AccountRecord) (elo : UInt32) : Prop where
  session : before.sessionService_.sessionOf u = some t
  stored : before.accountRepository_.accounts_.lookup t.userName_ = some record
  userId : record.account_.userId_ = u
  same : record.account_.elo_ = t.elo_
  /-- The new ELO, which is the old one if it could not be saved. -/
  newElo : elo.toNat =
    if io.succeeds then eloAfter (state.winnerUserId_ = u) t.elo_.toNat else t.elo_.toNat
  sessionAfter : (before.finishBattle io state).1.sessionService_.sessionOf u =
    some { t with elo_ := elo, roomId_ := 0 }
  storedAfter : (before.finishBattle io state).1.accountRepository_.accounts_.lookup t.userName_ =
    some (record.withElo elo)
  told : framesTo (before.sessionService_.findConnectionByUserId u)
      (before.finishBattle io state).2 =
    [(ServerMessage.battleResultNtf
      { roomId_ := state.roomId_, won_ := state.winnerUserId_ = u, playerElo_ := elo }).frame]

/-- A call of `finishBattle`: one of the two players has won, and both are settled. -/
structure Settlement (before : GameServer) (io : SaveIO) (state : BattleState) : Prop where
  ne : state.firstUserId_ ≠ state.secondUserId_
  winner : state.winnerUserId_ ∈ state.users
  players : ∀ u ∈ state.users, ∃ t record elo, SettledFor before io state u t record elo
  /-- The two results go to the two players, and there are no others. -/
  addressees : (resultsSent (before.finishBattle io state).2).map Prod.fst =
    state.users.map before.sessionService_.findConnectionByUserId

theorem IdIn_of_sessionOf (h : Books srv) {u : UInt32} {t : PlayerSession}
    (ht : srv.sessionService_.sessionOf u = some t) : IdIn srv.accountRepository_.accounts_ u := by
  obtain ⟨record, hrecord, hid, -⟩ := h.backed.sessionOf ht
  exact ⟨_, record, hrecord, hid⟩

/-- What `finishBattle` leaves in the repository for one of the two players. -/
theorem Finished.lookup {io : SaveIO} {state : BattleState} {t₁ t₂ : PlayerSession} {ok : Bool}
    {e₁ e₂ : UInt32} {srv' : GameServer} (h : Finished srv io state t₁ t₂ ok e₁ e₂ srv')
    (hbooks : Books srv) (h₁ : srv.sessionService_.sessionOf state.firstUserId_ = some t₁)
    (h₂ : srv.sessionService_.sessionOf state.secondUserId_ = some t₂)
    (hne : state.firstUserId_ ≠ state.secondUserId_) :
    ok = io.succeeds ∧ Sound srv'.accountRepository_ ∧
      ∀ name, srv'.accountRepository_.accounts_.lookup name =
        (srv.accountRepository_.accounts_.lookup name).map
          (settle state.firstUserId_ e₁ state.secondUserId_ e₂) := by
  have hspec := updateEloPair_spec srv.accountRepository_ io state.firstUserId_
    (BattleService.calculateElo state t₁.elo_ t₂.elo_).firstElo_ state.secondUserId_
    (BattleService.calculateElo state t₁.elo_ t₂.elo_).secondElo_ hbooks.sound.unique
  have hfst := updateEloPair_fst io
    (BattleService.calculateElo state t₁.elo_ t₂.elo_).firstElo_
    (BattleService.calculateElo state t₁.elo_ t₂.elo_).secondElo_ (ne_zero_of_sessionOf h₁)
    (ne_zero_of_sessionOf h₂) hne (IdIn_of_sessionOf hbooks h₁) (IdIn_of_sessionOf hbooks h₂)
  rw [h.saved] at hspec hfst
  refine ⟨hfst, ?_⟩
  cases ok with
  | true =>
    have hupdated := hspec.2 rfl
    refine ⟨hbooks.sound.updated hupdated, ?_⟩
    rw [h.first, h.second]
    exact hupdated.lookup
  | false =>
    have hsame := hspec.1 rfl
    refine ⟨hbooks.sound.unchanged hsame, fun name => ?_⟩
    obtain ⟨r₁, hr₁, hid₁, helo₁⟩ := hbooks.backed.sessionOf h₁
    obtain ⟨r₂, hr₂, hid₂, helo₂⟩ := hbooks.backed.sessionOf h₂
    rw [hsame.lookup, h.first, h.second]
    cases hr : srv.accountRepository_.accounts_.lookup name with
    | none => rfl
    | some record =>
      -- the ELO of both players is written over by itself
      have hone : ∀ {name' r u e}, srv.accountRepository_.accounts_.lookup name' = some r →
          r.account_.userId_ = u → r.account_.elo_ = e → record.account_.userId_ = u →
          record.withElo e = record := by
        rintro name' r u e hr' hid rfl hu
        obtain rfl := hbooks.sound.unique hr hr' (hu.trans hid.symm)
        obtain rfl := Option.some.inj (hr.symm.trans hr')
        exact withElo_self record
      simp only [Option.map_some, settle, Bool.false_eq_true, if_false]
      split
      · rename_i hu
        rw [hone hr₁ hid₁ helo₁ hu]
      · split
        · rename_i hu
          rw [hone hr₂ hid₂ helo₂ hu]
        · rfl

/-- Every call of `finishBattle` for two players who are online is a settlement. -/
theorem Books.settlement (hbooks : Books srv) (hco : ∀ u t,
      srv.sessionService_.sessionOf u = some t →
        srv.sessionService_.findConnectionByUserId u ∈ srv.connections_) {io : SaveIO}
    {state : BattleState} {t₁ t₂ : PlayerSession}
    (h₁ : srv.sessionService_.sessionOf state.firstUserId_ = some t₁)
    (h₂ : srv.sessionService_.sessionOf state.secondUserId_ = some t₂)
    (hne : state.firstUserId_ ≠ state.secondUserId_) (hw : state.winnerUserId_ ∈ state.users) :
    Settlement srv io state := by
  obtain ⟨ok, e₁, e₂, hfinished, heffects⟩ := finishBattle_spec _ io h₁ h₂ hne (hco _ _ h₁)
    (hco _ _ h₂)
  obtain ⟨hok, -, hlookup⟩ := hfinished.lookup hbooks h₁ h₂ hne
  obtain ⟨helo₁, helo₂⟩ := calculateElo_spec hne hw t₁.elo_ t₂.elo_
  have hu₁ := sessionOf_userId h₁
  have hu₂ := sessionOf_userId h₂
  have hc := connection_ne h₁ h₂ hne
  obtain ⟨r₁, hr₁, hid₁, hsame₁⟩ := hbooks.backed.sessionOf h₁
  obtain ⟨r₂, hr₂, hid₂, hsame₂⟩ := hbooks.backed.sessionOf h₂
  refine ⟨hne, hw, fun u hu => ?_, by rw [heffects]; rfl⟩
  -- the same for either player, with the ratings in their places
  rcases BattleState.mem_users.mp hu with rfl | rfl
  · refine ⟨t₁, r₁, e₁, h₁, hr₁, hid₁, hsame₁, ?_, ?_, ?_, ?_⟩
    · rw [hfinished.first, hok]
      split
      · exact helo₁
      · rfl
    · rw [hfinished.sessions.sessionOf, h₁, Option.map_some, settled, if_pos hu₁]
    · rw [hlookup, hr₁, Option.map_some, settle, if_pos hid₁]
    · rw [heffects]
      simp only [tell, framesTo_send, if_pos, if_neg hc.symm, framesTo_nil]
      rfl
  · refine ⟨t₂, r₂, e₂, h₂, hr₂, hid₂, hsame₂, ?_, ?_, ?_, ?_⟩
    · rw [hfinished.second, hok]
      split
      · exact helo₂
      · rfl
    · rw [hfinished.sessions.sessionOf, h₂, Option.map_some, settled,
        if_neg (by rw [hu₂]; exact hne.symm), if_pos hu₂]
    · rw [hlookup, hr₂, Option.map_some, settle, if_neg (by rw [hid₂]; exact hne.symm),
        if_pos hid₂]
    · rw [heffects]
      simp only [tell, framesTo_send, if_pos, if_neg hc, framesTo_nil]
      rfl

/-! ### The calls for one room -/

/-- A battle starts, or `finishBattle` is called for it. -/
inductive Call
  | started | finished
deriving DecidableEq

/-- The calls for the room `r`, in order. -/
def calls (r : UInt64) : List Effect → List Call
  | [] => []
  | .startBattle room :: o => if room.roomId_ = r then .started :: calls r o else calls r o
  | .finishBattle _ _ state :: o =>
    if state.roomId_ = r then .finished :: calls r o else calls r o
  | _ :: o => calls r o

/-- Every start is followed by one call of `finishBattle`, but the last one may still be open. -/
def Balanced (isOpen : Bool) (log : List Call) : Prop :=
  ∃ n, log = (List.replicate n [.started, .finished]).flatten ++ if isOpen then [.started] else []

theorem calls_append (r : UInt64) (o o' : List Effect) :
    calls r (o ++ o') = calls r o ++ calls r o' := by
  induction o with
  | nil => rfl
  | cons effect o ih =>
    cases effect with
    | startBattle room =>
      simp only [List.cons_append, calls, ih]
      split <;> rfl
    | finishBattle before io state =>
      simp only [List.cons_append, calls, ih]
      split <;> rfl
    | _ => exact ih

theorem Balanced.start {log : List Call} (h : Balanced false log) :
    Balanced true (log ++ [.started]) := by
  obtain ⟨n, rfl⟩ := h
  exact ⟨n, by simp⟩

theorem Balanced.finish {log : List Call} (h : Balanced true log) :
    Balanced false (log ++ [.finished]) := by
  obtain ⟨n, rfl⟩ := h
  exact ⟨n + 1, by simp [List.replicate_succ']⟩

/-! ### Every event -/

/-- What an event does to accounts and battles. -/
structure Ledger (srv : GameServer) (next : GameServer × List Effect) : Prop where
  books : Books next.1
  settlement : ∀ before io state, .finishBattle before io state ∈ next.2 →
    Settlement before io state
  balanced : ∀ r log, Balanced (srv.battleService_.find r).isSome log →
    Balanced (next.1.battleService_.find r).isSome (log ++ calls r next.2)
  /-- Accounts stay, and only a call of `finishBattle` for their user changes their ELO. -/
  kept : ∀ name record, srv.accountRepository_.accounts_.lookup name = some record →
    ∃ record', next.1.accountRepository_.accounts_.lookup name = some record' ∧
      record'.account_.userId_ = record.account_.userId_ ∧
      (record'.account_.elo_ ≠ record.account_.elo_ → ∃ before io state,
        .finishBattle before io state ∈ next.2 ∧ record.account_.userId_ ∈ state.users)
  /-- A call of `finishBattle` is the last thing that is done to accounts and sessions, but that a
  session may be removed. -/
  applied : ∀ before io state, .finishBattle before io state ∈ next.2 →
    next.1.accountRepository_ = (before.finishBattle io state).1.accountRepository_ ∧
      ∀ u t, next.1.sessionService_.sessionOf u = some t →
        (before.finishBattle io state).1.sessionService_.sessionOf u = some t
  /-- What a call of `finishBattle` sends is sent after it. -/
  announced : ∀ before io state, .finishBattle before io state ∈ next.2 → ∃ o o',
    next.2 = o ++ .finishBattle before io state :: ((before.finishBattle io state).2 ++ o') ∧
      resultsSent o = [] ∧ resultsSent o' = []
  /-- No other results are sent. -/
  results : resultsSent next.2 = resultsDue next.2

/-- An effect that neither starts nor finishes a battle. -/
def Effect.Quiet : Effect → Prop
  | .startBattle _ | .finishBattle _ _ _ => False
  | _ => True

theorem calls_of_quiet {r : UInt64} {o : List Effect} (h : ∀ effect ∈ o, Effect.Quiet effect) :
    calls r o = [] := by
  induction o with
  | nil => rfl
  | cons effect o ih =>
    have hrest := ih fun effect' heffect => h effect' (List.mem_cons_of_mem _ heffect)
    have hhead := h effect List.mem_cons_self
    cases effect with
    | startBattle => cases hhead
    | finishBattle => cases hhead
    | _ => exact hrest

theorem resultsDue_of_quiet {o : List Effect} (h : ∀ effect ∈ o, Effect.Quiet effect) :
    resultsDue o = [] := by
  induction o with
  | nil => rfl
  | cons effect o ih =>
    have hrest := ih fun effect' heffect => h effect' (List.mem_cons_of_mem _ heffect)
    have hhead := h effect List.mem_cons_self
    cases effect with
    | finishBattle => cases hhead
    | _ => exact hrest

/-- An event that has nothing to do with accounts and battles. -/
theorem Ledger.of_quiet {next : GameServer × List Effect}
    (hquiet : ∀ effect ∈ next.2, Effect.Quiet effect) (hnone : resultsSent next.2 = [])
    (hbattles : ∀ r, (next.1.battleService_.find r).isSome = (srv.battleService_.find r).isSome)
    (hsound : Sound next.1.accountRepository_)
    (hrepo : ∀ name record, srv.accountRepository_.accounts_.lookup name = some record →
      next.1.accountRepository_.accounts_.lookup name = some record)
    (hbacked : Backed next.1.sessionService_ next.1.accountRepository_) : Ledger srv next := by
  refine ⟨⟨hsound, hbacked⟩, fun before io state hmem => absurd (hquiet _ hmem) id,
    fun r log hlog => ?_, fun name record hrecord => ⟨record, hrepo _ _ hrecord, rfl,
      fun hne => absurd rfl hne⟩, fun before io state hmem => absurd (hquiet _ hmem) id,
    fun before io state hmem => absurd (hquiet _ hmem) id,
    hnone.trans (resultsDue_of_quiet hquiet).symm⟩
  rw [calls_of_quiet hquiet, List.append_nil, hbattles]
  exact hlog

theorem quiet_tell (u : UInt32) (m : ServerMessage) : Effect.Quiet (srv.tell u m) := trivial

theorem quiet_tellBoth {u v : UInt32} {m : UInt32 → ServerMessage} :
    ∀ effect ∈ srv.tellBoth u v m, Effect.Quiet effect := by
  simp [tellBoth, quiet_tell]

theorem quiet_events {events : List MatchFoundEvent} : ∀ effect ∈
    events.flatMap fun event => .matchFound event :: srv.tellFound event, Effect.Quiet effect := by
  intro effect heffect
  obtain ⟨event, -, hmem⟩ := List.mem_flatMap.mp heffect
  rcases List.mem_cons.mp hmem with rfl | htold
  · trivial
  · unfold tellFound at htold
    split at htold
    · rcases List.mem_pair.mp htold with rfl | rfl <;> trivial
    · cases htold

theorem resultsSent_events {events : List MatchFoundEvent} :
    resultsSent (events.flatMap fun event => .matchFound event :: srv.tellFound event) = [] := by
  induction events with
  | nil => rfl
  | cons event events ih =>
    rw [List.flatMap_cons, resultsSent_append, ih, List.append_nil]
    show resultsSent (srv.tellFound event) = []
    unfold tellFound
    split <;> rfl

/-- What `finishBattle` sends, by the ELO that it leaves. -/
theorem Finished.effects {io : SaveIO} {state : BattleState} {t₁ t₂ : PlayerSession} {ok : Bool}
    {e₁ e₂ : UInt32} {srv' : GameServer} (h : Finished srv io state t₁ t₂ ok e₁ e₂ srv')
    (h₁ : srv.sessionService_.sessionOf state.firstUserId_ = some t₁)
    (h₂ : srv.sessionService_.sessionOf state.secondUserId_ = some t₂)
    (hne : state.firstUserId_ ≠ state.secondUserId_)
    (hco : ∀ u t, srv.sessionService_.sessionOf u = some t →
      srv.sessionService_.findConnectionByUserId u ∈ srv.connections_) :
    (srv.finishBattle io state).2 =
      srv.tellBoth state.firstUserId_ state.secondUserId_ (resultsFor state e₁ e₂) := by
  obtain ⟨ok', e₁', e₂', hsame, heffects⟩ := finishBattle_spec srv io h₁ h₂ hne (hco _ _ h₁)
    (hco _ _ h₂)
  obtain ⟨rfl, -⟩ := Prod.mk.inj (h.saved.symm.trans hsame.saved)
  rw [heffects, hsame.first, hsame.second, ← h.first, ← h.second]
  simp only [tellBoth, resultsFor, if_true, if_neg hne.symm]

/-- A battle is settled. -/
theorem Ledger.of_finished (hbooks : Books srv) (hco : Coherent srv) {bs : BattleService}
    {io : SaveIO} {state state' : BattleState} {t₁ t₂ : PlayerSession} {ok : Bool} {e₁ e₂ : UInt32}
    {r : UInt64} {srv' : GameServer} (hstate : srv.battleService_.find r = some state)
    (hroom : state'.roomId_ = state.roomId_)
    (hne : state'.firstUserId_ ≠ state'.secondUserId_) (hw : state'.winnerUserId_ ∈ state'.users)
    (hbs : ∀ r', bs.find r' = if r' = r then some state' else srv.battleService_.find r')
    (h₁ : srv.sessionService_.sessionOf state'.firstUserId_ = some t₁)
    (h₂ : srv.sessionService_.sessionOf state'.secondUserId_ = some t₂)
    (hfinished : Finished { srv with battleService_ := bs } io state' t₁ t₂ ok e₁ e₂ srv')
    (before : List Effect) (hbefore : ∀ effect ∈ before, Effect.Quiet effect)
    (hnone : resultsSent before = []) :
    Ledger srv
      (srv', before ++ .finishBattle { srv with battleService_ := bs } io state' ::
        srv.tellBoth state'.firstUserId_ state'.secondUserId_ (resultsFor state' e₁ e₂)) := by
  set after := srv.tellBoth state'.firstUserId_ state'.secondUserId_ (resultsFor state' e₁ e₂)
    with hresults
  have hafter : ∀ effect ∈ after, Effect.Quiet effect := quiet_tellBoth
  have heffects : ({ srv with battleService_ := bs }.finishBattle io state').2 = after :=
    hfinished.effects h₁ h₂ hne fun u t ht => hco.online ht
  have hbooks' : Books { srv with battleService_ := bs } := ⟨hbooks.sound, hbooks.backed⟩
  obtain ⟨hok, hsound, hlookup⟩ := hfinished.lookup hbooks' h₁ h₂ hne
  have hr : state'.roomId_ = r := hroom.trans (BattleService.find_roomId hstate)
  have hcall : ∀ {before' io' state''}, .finishBattle before' io' state'' ∈
      before ++ .finishBattle { srv with battleService_ := bs } io state' :: after →
      before' = { srv with battleService_ := bs } ∧ io' = io ∧ state'' = state' := by
    intro before' io' state'' hmem
    rcases List.mem_append.mp hmem with hmem | hmem
    · exact absurd (hbefore _ hmem) id
    · rcases List.mem_cons.mp hmem with heq | hmem
      · cases heq
        exact ⟨rfl, rfl, rfl⟩
      · exact absurd (hafter _ hmem) id
  refine ⟨⟨hsound, fun c t ht => ?_⟩, fun before' io' state'' hmem => ?_, fun r' log hlog => ?_,
    fun name record hrecord => ?_, fun before' io' state'' hmem => ?_,
    fun before' io' state'' hmem => ?_, ?_⟩
  · -- sessions and records are settled alike
    rw [hfinished.sessions.find, Option.map_eq_some_iff] at ht
    obtain ⟨s, hs, rfl⟩ := ht
    obtain ⟨record, hrecord, hid, helo⟩ := hbooks.backed c s hs
    rw [settled_userName, settled_userId]
    refine ⟨_, by rw [hlookup]; exact congrArg _ hrecord, ?_⟩
    unfold settle settled
    rw [hid]
    split
    · exact ⟨hid, rfl⟩
    · split
      · exact ⟨hid, rfl⟩
      · exact ⟨hid, helo⟩
  · obtain ⟨rfl, rfl, rfl⟩ := hcall hmem
    exact hbooks'.settlement (fun u t ht => hco.online ht) h₁ h₂ hne hw
  · rw [calls_append, calls_of_quiet hbefore, List.nil_append, hfinished.battles,
      BattleService.find_remove]
    simp only [calls, calls_of_quiet hafter]
    by_cases hr' : r' = r
    · rw [hr', hstate] at hlog
      rw [if_pos (hr.trans hr'.symm), if_pos (hr'.trans hr.symm)]
      exact hlog.finish
    · rw [hr, if_neg hr', if_neg (Ne.symm hr'), List.append_nil, hbs, if_neg hr']
      exact hlog
  · refine ⟨_, by rw [hlookup]; exact congrArg _ hrecord, (settle_account _ _ _ _ _).1,
      fun hchanged => ⟨_, io, state', List.mem_append.mpr (Or.inr List.mem_cons_self), ?_⟩⟩
    by_contra hother
    rw [BattleState.mem_users, not_or] at hother
    unfold settle at hchanged
    rw [if_neg hother.1, if_neg hother.2] at hchanged
    exact hchanged rfl
  · obtain ⟨rfl, rfl, rfl⟩ := hcall hmem
    obtain ⟨ok', e₁', e₂', hsame, -⟩ := finishBattle_spec
      { srv with battleService_ := bs } io' h₁ h₂ hne (hco.online h₁)
      (hco.online h₂)
    obtain ⟨rfl, hrepo⟩ := Prod.mk.inj (hfinished.saved.symm.trans hsame.saved)
    refine ⟨hrepo, fun u t ht => ?_⟩
    rw [hsame.sessions.sessionOf, hsame.first, hsame.second, ← hfinished.first, ← hfinished.second,
      ← hfinished.sessions.sessionOf]
    exact ht
  · obtain ⟨rfl, rfl, rfl⟩ := hcall hmem
    exact ⟨before, [], by rw [heffects, List.append_nil], hnone, rfl⟩
  · rw [resultsSent_append, hnone, resultsDue_append, resultsDue_of_quiet hbefore]
    show resultsSent after = resultsSent _ ++ resultsDue after
    rw [heffects, resultsDue_of_quiet hafter, List.append_nil]

/-- The connection that closes takes its session with it. -/
theorem Ledger.logout {c : UInt64} {next : GameServer × List Effect}
    (h : Ledger (srv.dequeue c) next) : Ledger srv (next.1.logout c, next.2) := by
  refine ⟨⟨h.books.sound, h.books.backed.remove c⟩, h.settlement, fun r log hlog => ?_,
    fun name record hrecord => ?_, fun before io state hmem => ?_, h.announced, h.results⟩
  · have hbalanced := h.balanced r log
    rw [battleService_dequeue] at hbalanced
    exact hbalanced hlog
  · have hkept := h.kept name record
    rw [accountRepository_dequeue] at hkept
    exact hkept hrecord
  · obtain ⟨hrepo, hsessions⟩ := h.applied before io state hmem
    refine ⟨hrepo, fun u t ht => hsessions u t ?_⟩
    cases hs : next.1.sessionService_.findByConnection c with
    | none => exact (congrArg (SessionService.sessionOf · u) (remove_of_none hs)).symm.trans ht
    | some s =>
      have hremove := (sessionOf_remove hs u).symm.trans ht
      split at hremove
      · cases hremove
      · exact hremove

/-- A registration adds at most one account, and none that is there changes. -/
theorem RegisterOutcome.ledger (h : Books srv) {io : SaveIO} {c : UInt64}
    {next : GameServer × List Effect} (hregister : RegisterOutcome srv io c next) :
    Ledger srv next := by
  obtain @⟨response, repo, -, hrepo⟩ := hregister
  have hstored : Sound repo ∧ ∀ name record,
      srv.accountRepository_.accounts_.lookup name = some record →
      repo.accounts_.lookup name = some record := by
    rcases hrepo with rfl | ⟨userName, password, rfl⟩
    · exact ⟨h.sound, fun _ _ => id⟩
    · have hspec := register_spec srv.accountRepository_ io userName password {}
      rcases hreg : srv.accountRepository_.Register io userName password {} with
        ⟨result, account, repo'⟩
      rw [hreg] at hspec
      by_cases hresult : result = .kOk
      · have hregistered := hspec.2 hresult
        obtain ⟨record, -, -, hlookup⟩ := hregistered.lookup
        refine ⟨h.sound.registered hregistered, fun name record' hrecord => ?_⟩
        rw [hlookup, if_neg, hrecord]
        -- the name that is registered was free
        rintro rfl
        cases hrecord.symm.trans hregistered.fresh
      · have hsame := (hspec.1 hresult).2
        exact ⟨h.sound.unchanged hsame, fun name record hrecord => by rw [hsame.lookup, hrecord]⟩
  exact .of_quiet (by simp [Effect.Quiet]) rfl (fun _ => rfl) hstored.1 hstored.2
    (h.backed.of_lookup hstored.2)

/-- The choice of a hero opens a battle or nothing. -/
theorem HeroOutcome.ledger (h : Books srv) {c : UInt64} {payload : List UInt8}
    {next : GameServer × List Effect} (hhero : HeroOutcome srv c payload next) :
    Ledger srv next := by
  cases hhero with
  | refused =>
    exact .of_quiet (by simp [Effect.Quiet]) rfl (fun _ => rfl) h.sound (fun _ _ => id) h.backed
  | waiting =>
    exact .of_quiet (by simp [Effect.Quiet]) rfl (fun _ => rfl) h.sound (fun _ _ => id) h.backed
  | @started t request room room' rs bs ht h0 hdecode hsel hroom hchosen hrs hfind hboth hnone
      hbs =>
    have hr : room'.roomId_ = t.roomId_ :=
      hchosen.roomId_eq.trans (RoomService.find_roomId hroom)
    have hcalls : ∀ {before io state}, .finishBattle before io state ∉
        .send c (ServerMessage.heroSelectRsp { accepted_ := true }).frame ::
          .startBattle room' ::
            (srv.tellBoth room'.firstUserId_ room'.secondUserId_
                (fun u => .battleStartNtf (room'.startFor u)) ++
              srv.tellBoth room'.firstUserId_ room'.secondUserId_
                fun u => .battleStateNtf ((BattleService.initialState room').stateFor u)) := by
      simp [tellBoth, tell]
    refine ⟨⟨h.sound, h.backed⟩, fun _ _ _ hmem => absurd hmem hcalls, fun r log hlog => ?_,
      fun name record hrecord => ⟨record, hrecord, rfl, fun hne => absurd rfl hne⟩,
      fun _ _ _ hmem => absurd hmem hcalls, fun _ _ _ hmem => absurd hmem hcalls, rfl⟩
    show Balanced (bs.find r).isSome (log ++ calls r (_ :: _ :: _))
    rw [hbs]
    simp only [calls, calls_append, calls_of_quiet quiet_tellBoth, List.append_nil]
    by_cases hrr : r = t.roomId_
    · -- the room had no battle, so the log of its calls is closed
      rw [hrr, hnone] at hlog
      rw [if_pos hrr, if_pos (hr.trans hrr.symm)]
      exact hlog.start
    · rw [if_neg hrr, hr, if_neg (Ne.symm hrr), List.append_nil]
      exact hlog

/-- An attack settles a battle if it decides it. -/
theorem AttackOutcome.ledger (h : Books srv) (hco : Coherent srv) {io : SaveIO} {c : UInt64}
    {payload : List UInt8} {next : GameServer × List Effect}
    (hattack : AttackOutcome srv io c payload next) : Ledger srv next := by
  cases hattack with
  | refused =>
    exact .of_quiet (List.forall_mem_nil _) rfl (fun _ => rfl) h.sound (fun _ _ => id) h.backed
  | @hit t state state' bs ht hstate _ _ hbs =>
    have hquiet : ∀ effect ∈ srv.tellBoth state'.firstUserId_ state'.secondUserId_
        fun u => .battleStateNtf (state'.stateFor u), Effect.Quiet effect := quiet_tellBoth
    refine .of_quiet hquiet rfl (fun r => ?_) h.sound (fun _ _ => id) h.backed
    show (bs.find r).isSome = _
    rw [hbs]
    split
    · rename_i hr
      rw [hr, hstate]
      rfl
    · rfl
  | @felled t t₁ t₂ state state' bs ok e₁ e₂ srv' ht hstate hattack hfin hbs h₁ h₂ hfinished =>
    have hvalid := BattleService.find_valid hstate
    have hattacked := BattleState.attack_spec hvalid hattack
    have hplayers : ∀ {u}, u ∈ state.users → u ∈ state'.users := by
      intro u hu
      rwa [BattleState.mem_users, hattacked.first, hattacked.second, ← BattleState.mem_users]
    refine .of_finished h hco hstate hattacked.roomId ?_ (hplayers ?_) hbs h₁ h₂ hfinished _
      (fun effect => quiet_tellBoth effect) rfl
    · rw [hattacked.first, hattacked.second]
      exact hvalid.first_ne_second
    · -- whoever struck the last blow has won
      rcases hattacked.turn with ⟨-, hwinner, -⟩ | ⟨hrunning, -⟩
      · exact hwinner ▸ hattacked.player
      · cases hrunning.symm.trans hfin

/-- A connection that closes settles the battle of its user, if there is one. -/
theorem CloseOutcome.ledger (h : Books srv) (hco : Coherent srv) {io : SaveIO} {c : UInt64}
    {next : GameServer × List Effect} (hclose : CloseOutcome srv io c next) : Ledger srv next := by
  have hdequeue : Books (srv.dequeue c) := ⟨by simpa using h.sound, by simpa using h.backed⟩
  cases hclose with
  | free =>
    have hledger : Ledger (srv.dequeue c) (srv.dequeue c, []) :=
      .of_quiet (List.forall_mem_nil _) rfl (fun _ => rfl) hdequeue.sound (fun _ _ => id)
        hdequeue.backed
    exact hledger.logout
  | @left t room srv₁ ht h0 hnobattle hroom hmem hne hend hrepo =>
    have hledger : Ledger (srv.dequeue c) (srv₁, [srv.tell (opponentOf room t.userId_)
        (.roomClosedNtf
          { roomId_ := t.roomId_, reason_ := .ofLiteral "Opponent disconnected" })]) := by
      refine .of_quiet (by simp [quiet_tell]) rfl (fun r => ?_) ?_ ?_ ?_
      · rw [hend.battles, battleService_dequeue]
        split
        · rename_i hr
          rw [hr, hnobattle]
        · rfl
      · exact hrepo ▸ h.sound
      · simp [hrepo]
      · rw [hrepo]
        refine h.backed.mapped (f := inRoom (opponentOf room t.userId_) 0) ?_ fun t' => ?_
        · simpa using hend.sessions
        · unfold inRoom
          split <;> exact ⟨rfl, rfl⟩
    exact hledger.logout
  | @forfeited t t₁ t₂ state state' bs ok e₁ e₂ srv₁ ht hstate hforfeit hbs h₁ h₂ hfinished =>
    have hvalid := BattleService.find_valid hstate
    have hf := BattleState.forfeit_spec hvalid hforfeit
    -- the battle is settled after the user was taken off the queue
    rw [← battleService_dequeue srv c] at hstate
    simp only [← battleService_dequeue srv c] at hbs
    rw [← sessionService_dequeue srv c] at h₁ h₂
    have hledger := Ledger.of_finished hdequeue (hco.dequeue c) hstate hf.roomId ?_ ?_ hbs h₁ h₂
      hfinished [] (List.forall_mem_nil _) rfl
    · have htell : (srv.dequeue c).tellBoth = srv.tellBoth := by
        unfold tellBoth tell
        rw [sessionService_dequeue]
      rw [htell] at hledger
      exact hledger.logout
    · rw [hf.first, hf.second]
      exact hvalid.first_ne_second
    · have hw := hf.winner.1
      rwa [BattleState.mem_users, ← hf.first, ← hf.second, ← BattleState.mem_users] at hw

theorem Outcome.ledger (h : Books srv) (hco : Coherent srv) {event : Event}
    {next : GameServer × List Effect} (hnext : Outcome range srv event next) : Ledger srv next := by
  cases hnext with
  | opened =>
    exact .of_quiet (List.forall_mem_nil _) rfl (fun _ => rfl) h.sound (fun _ _ => id) h.backed
  | ignored =>
    exact .of_quiet (List.forall_mem_nil _) rfl (fun _ => rfl) h.sound (fun _ _ => id) h.backed
  | login hlogin =>
    cases hlogin with
    | refused =>
      exact .of_quiet (by simp [Effect.Quiet]) rfl (fun _ => rfl) h.sound (fun _ _ => id) h.backed
    | accepted hrecord hbound =>
      exact .of_quiet (by simp [Effect.Quiet]) rfl (fun _ => rfl) h.sound (fun _ _ => id)
        (h.backed.bind h.sound hrecord hbound)
  | register hregister => exact hregister.ledger h
  | join hjoin =>
    cases hjoin <;>
      exact .of_quiet (by simp [Effect.Quiet]) rfl (fun _ => rfl) h.sound (fun _ _ => id) h.backed
  | cancel hcancel =>
    cases hcancel <;>
      exact .of_quiet (by simp [Effect.Quiet]) rfl (fun _ => rfl) h.sound (fun _ _ => id) h.backed
  | hero hhero => exact hhero.ledger h
  | attack hattack => exact hattack.ledger h hco
  | tick htick =>
    -- a tick moves sessions into rooms and leaves the accounts alone
    obtain ⟨hrounds⟩ := htick
    obtain ⟨f, hmapped, hf⟩ := rounds_mapped hrounds
    refine .of_quiet quiet_events resultsSent_events (fun _ => rfl) h.sound (fun _ _ => id)
      (h.backed.mapped hmapped fun t => ?_)
    obtain ⟨r, hr⟩ := hf t
    rw [hr]
    exact ⟨rfl, rfl⟩
  | closed hclose => exact hclose.ledger h hco

/-! ### Whole runs -/

theorem books_init {file : Option (List UInt8)} (h : init file = some srv)
    (hunique : UniqueIds srv.accountRepository_.accounts_) : Books srv := by
  obtain ⟨hload, rfl⟩ := eq_of_init h
  obtain ⟨hkeyed, hnext⟩ := load_spec file (Prod.ext hload rfl)
  refine ⟨⟨hkeyed, hunique, hnext⟩, fun c t ht => ?_⟩
  cases ht

theorem uniqueIds_freshServer : UniqueIds Wraparound.freshServer.accountRepository_.accounts_ := by
  intro name name' record record' hrecord
  exact absurd hrecord (by simp [Wraparound.freshServer, init, load])

/-- What holds after the effects `o` of a run. -/
structure Audited (o : List Effect) (srv : GameServer) : Prop where
  coherent : Coherent srv
  books : Books srv
  settlement : ∀ before io state, .finishBattle before io state ∈ o → Settlement before io state
  balanced : ∀ r, Balanced (srv.battleService_.find r).isSome (calls r o)
  results : resultsSent o = resultsDue o

theorem Audited.step {o : List Effect} (h : Audited o srv) {event : Event}
    (hp : event.Possible srv) :
    Audited (o ++ (srv.step range event).2) (srv.step range event).1 := by
  have hledger := (step_outcome range h.coherent hp).ledger h.books h.coherent
  refine ⟨h.coherent.step range hp, hledger.books, fun before io state hmem => ?_, fun r => ?_, ?_⟩
  · rcases List.mem_append.mp hmem with hmem | hmem
    · exact h.settlement before io state hmem
    · exact hledger.settlement before io state hmem
  · rw [calls_append]
    exact hledger.balanced r _ (h.balanced r)
  · rw [resultsSent_append, resultsDue_append, h.results, hledger.results]

theorem audited_run {file : Option (List UInt8)} (h : init file = some srv)
    (hunique : UniqueIds srv.accountRepository_.accounts_) {events : List Event}
    (hrun : (machine range).CanRun srv events) :
    Audited ((machine range).run srv events).2 ((machine range).run srv events).1 := by
  refine Machine.run_induction (fun _ _ _ h hp => h.step hp) ?_ hrun
  refine ⟨coherent_init h, books_init h hunique, nofun, fun r => ?_, rfl⟩
  obtain ⟨-, rfl⟩ := eq_of_init h
  exact ⟨0, rfl⟩

/-- **The cached rating is the stored one.**  After every run from accounts with unique ids, the
repository holds exactly one account with the user id of a session, and it has the name and the ELO
of the session. -/
theorem rating_eq_stored {file : Option (List UInt8)} (h : init file = some srv)
    (hunique : UniqueIds srv.accountRepository_.accounts_) {events : List Event}
    (hrun : (machine range).CanRun srv events) :
    let last := ((machine range).run srv events).1
    ∀ c t, last.sessionService_.findByConnection c = some t →
      ∃ record, last.accountRepository_.accounts_.lookup t.userName_ = some record ∧
        record.account_ = { userId_ := t.userId_, userName_ := t.userName_, elo_ := t.elo_ } ∧
        ∀ name record', last.accountRepository_.accounts_.lookup name = some record' →
          record'.account_.userId_ = t.userId_ → name = t.userName_ ∧ record' = record := by
  intro last c t ht
  have hbooks : Books last := (audited_run h hunique hrun).books
  obtain ⟨record, hrecord, hid, helo⟩ := hbooks.backed c t ht
  have hname : record.account_.userName_ = t.userName_ := hbooks.sound.keyed _ _ hrecord
  refine ⟨record, hrecord, ?_, fun name record' hrecord' hid' => ?_⟩
  · rw [← hid, ← hname, ← helo]
  · have hsame : name = t.userName_ := hbooks.sound.unique hrecord' hrecord (hid'.trans hid.symm)
    rw [hsame, hrecord] at hrecord'
    exact ⟨hsame, (Option.some.inj hrecord').symm⟩

/-- Two players fight until the second one gives up, and the result cannot be saved. -/
def unsavedForfeit : List Event :=
  let select : Frame := (ClientRequest.heroSelectReq { heroType_ := .kMage }).frame
  Wraparound.arrival ++ Wraparound.search ++
    [.tick 0, .message 1 select 0 Wraparound.reliable, .message 2 select 0 Wraparound.reliable,
      .closed 2 { Wraparound.reliable with renamed := false }]

/-- The winner keeps the old rating. -/
theorem rating_eq_stored_unsaved :
    ∃ record, ((machine allowedEloRange).run Wraparound.freshServer
        unsavedForfeit).1.accountRepository_.accounts_.lookup [97] = some record ∧
      record.account_ = { userId_ := 1, userName_ := [97], elo_ := 1000 } := by
  have hrun : (machine allowedEloRange).CanRun Wraparound.freshServer unsavedForfeit := by
    decide +kernel
  have hsession : ((machine allowedEloRange).run Wraparound.freshServer
      unsavedForfeit).1.sessionService_.findByConnection 1 =
        some { userId_ := 1, userName_ := [97], elo_ := 1000 } := by decide +kernel
  obtain ⟨record, hrecord, haccount, -⟩ :=
    rating_eq_stored (rfl : init none = some Wraparound.freshServer) uniqueIds_freshServer hrun 1 _
      hsession
  exact ⟨record, hrecord, haccount⟩

end ArenaGame.GameServer
