import ArenaGame.Common.Equiv.GameMessages
import ArenaGame.Server.GameServer

/-!
# What the handlers do to connections

Only `onConnection` changes `connections_`, and no handler touches a connection that is not in it
(`step_addressed`).  Of its reader a handler sees the bytes only (`dispatch_ofBytes`).
-/

namespace ArenaGame

open GameProtocol GameMessages

/-- The connection that an effect is about, if there is one, is open, and a frame fits. -/
def Effect.Targets (open_ : Finset UInt64) : Effect → Prop
  | send c frame => c ∈ open_ ∧ SmallFrame frame
  | shutdown c => c ∈ open_
  | _ => True

namespace GameServer

/-- The open connections behind an event. -/
def Event.connectionsAfter (open_ : Finset UInt64) : Event → Finset UInt64
  | opened c => insert c open_
  | closed c _ => open_.erase c
  | _ => open_

/-- A handler leaves the open connections as they are, and touches no other. -/
structure Addressed (srv : GameServer) (next : GameServer × List Effect) : Prop where
  connections : next.1.connections_ = srv.connections_
  targets : ∀ effect ∈ next.2, effect.Targets srv.connections_

variable {srv srv' : GameServer}

/-! ### Sending -/

theorem targets_append {o o' : List Effect} {open_ : Finset UInt64}
    (h : ∀ effect ∈ o, effect.Targets open_) (h' : ∀ effect ∈ o', effect.Targets open_) :
    ∀ effect ∈ o ++ o', effect.Targets open_ := by
  intro effect hmem
  rcases List.mem_append.mp hmem with hmem | hmem
  · exact h effect hmem
  · exact h' effect hmem

variable (srv) in
theorem targets_sendToConnection (c : UInt64) (msgType : UInt16) (payload : List UInt8) :
    ∀ effect ∈ srv.sendToConnection c msgType payload, effect.Targets srv.connections_ := by
  unfold sendToConnection
  split
  · exact nofun
  · rename_i hopen
    dsimp only
    split
    · exact fun effect hmem => List.mem_singleton.mp hmem ▸ not_not.mp hopen
    · rename_i hsmall
      exact fun effect hmem =>
        List.mem_singleton.mp hmem ▸ ⟨not_not.mp hopen, Nat.not_lt.mp hsmall⟩

variable (srv) in
theorem targets_encodeAndSend (c : UInt64) (msgType : UInt16) (t : MessageType) (value : t.Value) :
    ∀ effect ∈ srv.encodeAndSend c msgType t value, effect.Targets srv.connections_ := by
  unfold encodeAndSend
  split
  · exact nofun
  · exact srv.targets_sendToConnection c msgType _

theorem targets_encodeAndSendOrShutdown {c : UInt64} (hc : c ∈ srv.connections_)
    (msgType : UInt16) (t : MessageType) (value : t.Value) :
    ∀ effect ∈ srv.encodeAndSendOrShutdown c msgType t value,
      effect.Targets srv.connections_ := by
  unfold encodeAndSendOrShutdown
  split
  · exact fun effect hmem => List.mem_singleton.mp hmem ▸ hc
  · exact srv.targets_sendToConnection c msgType _

/-- The rest of a handler, behind a change that leaves the connections alone. -/
theorem Addressed.of_eq {next : GameServer × List Effect} (h : Addressed srv' next)
    (hsame : srv'.connections_ = srv.connections_) : Addressed srv next where
  connections := h.connections.trans hsame
  targets := hsame ▸ h.targets

theorem Addressed.prepend {next : GameServer × List Effect} (h : Addressed srv next)
    {o : List Effect} (ho : ∀ effect ∈ o, effect.Targets srv.connections_) :
    Addressed srv (next.1, o ++ next.2) := ⟨h.connections, targets_append ho h.targets⟩

theorem addressed_nil (h : srv'.connections_ = srv.connections_) : Addressed srv (srv', []) :=
  ⟨h, nofun⟩

/-- An answer is sent at the end. -/
theorem addressed_answer (h : srv'.connections_ = srv.connections_) {o : List Effect}
    (ho : ∀ effect ∈ o, effect.Targets srv'.connections_) : Addressed srv (srv', o) :=
  ⟨h, h ▸ ho⟩

/-! ### Accounts -/

variable (srv) in
theorem connections_loginResponse (c : UInt64) (reader : BinaryReader) :
    (srv.loginResponse c reader).2.connections_ = srv.connections_ := by
  unfold loginResponse
  split
  · rfl
  · split
    · rfl
    · dsimp only
      split
      · rfl
      · split
        · rfl
        · rfl

variable (srv) in
theorem connections_registerResponse (io : SaveIO) (reader : BinaryReader) :
    (srv.registerResponse io reader).2.connections_ = srv.connections_ := by
  unfold registerResponse
  split
  · rfl
  · dsimp only
    split
    · rfl
    · rfl

theorem addressed_handleLogin {c : UInt64} (hc : c ∈ srv.connections_) (reader : BinaryReader) :
    Addressed srv (srv.handleLogin c reader) := by
  have hsame := srv.connections_loginResponse c reader
  exact addressed_answer hsame
    (targets_encodeAndSendOrShutdown (by rwa [hsame]) MSG_LOGIN_RSP .loginResponse _)

theorem addressed_handleRegister (io : SaveIO) {c : UInt64} (hc : c ∈ srv.connections_)
    (reader : BinaryReader) : Addressed srv (srv.handleRegister io c reader) := by
  have hsame := srv.connections_registerResponse io reader
  exact addressed_answer hsame
    (targets_encodeAndSendOrShutdown (by rwa [hsame]) MSG_REGISTER_RSP .registerResponse _)

/-! ### Matchmaking -/

variable (srv) in
theorem connections_matchJoinResponse (now : MatchTimePoint) (c : UInt64) (reader : BinaryReader) :
    (srv.matchJoinResponse now c reader).2.connections_ = srv.connections_ := by
  unfold matchJoinResponse
  split
  · rfl
  · split
    · rfl
    · split
      · rfl
      · dsimp only
        split
        · rfl
        · rfl

variable (srv) in
theorem connections_matchCancelResponse (c : UInt64) (reader : BinaryReader) :
    (srv.matchCancelResponse c reader).2.connections_ = srv.connections_ := by
  unfold matchCancelResponse
  split
  · rfl
  · split
    · rfl
    · split
      · rfl
      · dsimp only
        split
        · rfl
        · rfl

variable (srv) in
theorem addressed_handleMatchJoin (now : MatchTimePoint) (c : UInt64) (reader : BinaryReader) :
    Addressed srv (srv.handleMatchJoin now c reader) :=
  addressed_answer (srv.connections_matchJoinResponse now c reader)
    (targets_encodeAndSend _ c MSG_MATCH_JOIN_RSP .matchJoinResponse _)

variable (srv) in
theorem addressed_handleMatchCancel (c : UInt64) (reader : BinaryReader) :
    Addressed srv (srv.handleMatchCancel c reader) :=
  addressed_answer (srv.connections_matchCancelResponse c reader)
    (targets_encodeAndSend _ c MSG_MATCH_CANCEL_RSP .matchCancelResponse _)

variable (srv) in
theorem addressed_processMatchmakingTick (range : MatchTicket → MatchTimePoint → ℚ)
    (now : MatchTimePoint) : Addressed srv (srv.processMatchmakingTick range now) := by
  refine ⟨rfl, fun effect hmem => ?_⟩
  obtain ⟨event, -, hmem⟩ := List.mem_flatMap.mp hmem
  rcases List.mem_cons.mp hmem with rfl | hmem
  · trivial
  · unfold notifyMatchFound at hmem
    dsimp only at hmem
    split at hmem
    · exact targets_append (targets_encodeAndSend _ _ _ _ _) (targets_encodeAndSend _ _ _ _ _)
        effect hmem
    · cases hmem

/-! ### Battles -/

variable (srv) in
theorem connections_settleElo (io : SaveIO) (state : BattleState) :
    (srv.settleElo io state).connections_ = srv.connections_ := by
  unfold settleElo
  dsimp only
  split
  · split
    · rfl
    · rfl
  · rfl

variable (srv) in
theorem targets_sendBattleResult (state : BattleState) (connectionId : UInt64) (userId : UInt32) :
    ∀ effect ∈ srv.sendBattleResult state connectionId userId,
      effect.Targets srv.connections_ := by
  unfold sendBattleResult
  split
  · exact nofun
  · exact srv.targets_encodeAndSend _ _ _ _

variable (srv) in
theorem addressed_callFinishBattle (io : SaveIO) (state : BattleState) :
    Addressed srv (srv.callFinishBattle io state) := by
  have hsame := srv.connections_settleElo io state
  have hfinished : Addressed srv (srv.finishBattle io state) :=
    ⟨hsame, hsame ▸ targets_append (targets_sendBattleResult _ state _ _)
      (targets_sendBattleResult _ state _ _)⟩
  refine hfinished.prepend (o := [.finishBattle srv io state]) fun effect hmem => ?_
  rw [List.mem_singleton.mp hmem]
  trivial

variable (srv) in
theorem connections_heroSelectResponse (c : UInt64) (reader : BinaryReader) :
    (srv.heroSelectResponse c reader).2.connections_ = srv.connections_ := by
  unfold heroSelectResponse
  split
  · rfl
  · split
    · rfl
    · split
      · rfl
      · dsimp only
        split
        · rfl
        · rfl

variable (srv) in
theorem addressed_startSelectedBattle (c : UInt64) : Addressed srv (srv.startSelectedBattle c) := by
  unfold startSelectedBattle
  split
  · exact addressed_nil rfl
  · split
    · exact addressed_nil rfl
    · split
      · exact addressed_nil rfl
      · rename_i room _
        dsimp only
        split
        · exact addressed_nil rfl
        · have hstart : ∀ effect ∈ [Effect.startBattle room], effect.Targets srv.connections_ := by
            intro effect hmem
            rw [List.mem_singleton.mp hmem]
            trivial
          split
          · exact ⟨rfl, hstart⟩
          · refine ⟨rfl, targets_append hstart (targets_append ?_ ?_)⟩
            · exact targets_append (targets_encodeAndSend _ _ _ _ _)
                (targets_encodeAndSend _ _ _ _ _)
            · exact targets_append (targets_encodeAndSend _ _ _ _ _)
                (targets_encodeAndSend _ _ _ _ _)

variable (srv) in
theorem addressed_handleHeroSelect (c : UInt64) (reader : BinaryReader) :
    Addressed srv (srv.handleHeroSelect c reader) := by
  have hsame := srv.connections_heroSelectResponse c reader
  unfold handleHeroSelect
  dsimp only
  split
  · exact addressed_nil hsame
  · have hanswer := targets_sendToConnection (srv.heroSelectResponse c reader).2 c
      MSG_HERO_SELECT_RSP
    split
    · exact addressed_answer hsame (hanswer _)
    · exact ((addressed_startSelectedBattle _ c).prepend (hanswer _)).of_eq hsame

variable (srv) in
theorem addressed_handleBattleAttack (io : SaveIO) (c : UInt64) (reader : BinaryReader) :
    Addressed srv (srv.handleBattleAttack io c reader) := by
  unfold handleBattleAttack
  split
  · exact addressed_nil rfl
  · split
    · exact addressed_nil rfl
    · split
      · exact addressed_nil rfl
      · dsimp only
        have hstate : ∀ (srv' : GameServer) (state : BattleState),
            ∀ effect ∈ srv'.sendBattleStateNotification state, effect.Targets srv'.connections_ :=
          fun srv' state => targets_append (targets_encodeAndSend _ _ _ _ _)
            (targets_encodeAndSend _ _ _ _ _)
        split
        · exact addressed_nil rfl
        · split
          · exact ⟨rfl, hstate _ _⟩
          · exact ((addressed_callFinishBattle _ io _).prepend (hstate _ _)).of_eq rfl

/-! ### Connections and messages -/

variable (srv) in
theorem addressed_leaveRoom (io : SaveIO) (userId : UInt32) (roomId : UInt64) :
    Addressed srv (srv.leaveRoom io userId roomId) := by
  unfold leaveRoom
  split
  · exact addressed_nil rfl
  · split
    · dsimp only
      split
      · exact (addressed_callFinishBattle _ io _).of_eq rfl
      · exact addressed_nil rfl
    · split
      · exact addressed_nil rfl
      · refine ⟨rfl, ?_⟩
        dsimp only
        exact srv.targets_encodeAndSend _ _ _ _

theorem addressed_dispatch (now : MatchTimePoint) (io : SaveIO) {c : UInt64}
    (hc : c ∈ srv.connections_) (msgType : UInt16) (reader : BinaryReader) :
    Addressed srv (srv.dispatch now io c msgType reader) := by
  unfold dispatch
  split_ifs
  · exact addressed_nil rfl
  · exact addressed_handleLogin hc reader
  · exact addressed_handleRegister io hc reader
  · exact srv.addressed_handleMatchJoin now c reader
  · exact srv.addressed_handleHeroSelect c reader
  · exact srv.addressed_handleBattleAttack io c reader
  · exact srv.addressed_handleMatchCancel c reader
  · exact addressed_nil rfl

theorem step_addressed (range : MatchTicket → MatchTimePoint → ℚ) {event : Event}
    (hp : event.Possible srv) :
    (srv.step range event).1.connections_ = event.connectionsAfter srv.connections_ ∧
      ∀ effect ∈ (srv.step range event).2, effect.Targets srv.connections_ := by
  cases event with
  | opened c => exact ⟨rfl, nofun⟩
  | message c frame now io =>
    have haddressed := addressed_dispatch now io hp frame.1 (.ofBytes frame.2)
    exact ⟨haddressed.connections, haddressed.targets⟩
  | tick now =>
    have haddressed := srv.addressed_processMatchmakingTick range now
    exact ⟨haddressed.connections, haddressed.targets⟩
  | closed c io =>
    show (GameServer.connections_ (srv.onDisconnected io c).1) = srv.connections_.erase c ∧
      ∀ effect ∈ (srv.onDisconnected io c).2, effect.Targets srv.connections_
    unfold onDisconnected
    dsimp only
    split
    · exact ⟨rfl, nofun⟩
    · rename_i session _
      have haddressed := addressed_leaveRoom
        { srv with toMatchmakingService := (srv.cancel session.userId_).2 } io session.userId_
        session.roomId_
      exact ⟨congrArg (Finset.erase · c) haddressed.connections, haddressed.targets⟩

/-! ### Readers -/

section Readers

variable (srv) (c : UInt64) (reader : BinaryReader)

theorem decode_ofBytes (t : MessageType) :
    (t.decode t.initial reader).1 = (t.decode t.initial (.ofBytes reader.remaining)).1 := by
  rw [decode_eq_decoded, decode_eq_decoded, BinaryReader.remaining_ofBytes]

theorem handleLogin_ofBytes :
    srv.handleLogin c reader = srv.handleLogin c (.ofBytes reader.remaining) := by
  unfold handleLogin loginResponse
  rw [show (LoginRequest.decode {} reader).1 = _ from decode_ofBytes reader .loginRequest]
  rfl

theorem handleRegister_ofBytes (io : SaveIO) :
    srv.handleRegister io c reader = srv.handleRegister io c (.ofBytes reader.remaining) := by
  unfold handleRegister registerResponse
  rw [show (RegisterRequest.decode {} reader).1 = _ from decode_ofBytes reader .registerRequest]
  rfl

theorem handleMatchJoin_ofBytes (now : MatchTimePoint) :
    srv.handleMatchJoin now c reader = srv.handleMatchJoin now c (.ofBytes reader.remaining) := by
  unfold handleMatchJoin matchJoinResponse
  rw [show (MatchJoinRequest.decode {} reader).1 = _ from decode_ofBytes reader .matchJoinRequest]
  rfl

theorem handleMatchCancel_ofBytes :
    srv.handleMatchCancel c reader = srv.handleMatchCancel c (.ofBytes reader.remaining) := by
  unfold handleMatchCancel matchCancelResponse
  rw [show (MatchCancelRequest.decode {} reader).1 = _ from
    decode_ofBytes reader .matchCancelRequest]
  rfl

theorem handleHeroSelect_ofBytes :
    srv.handleHeroSelect c reader = srv.handleHeroSelect c (.ofBytes reader.remaining) := by
  unfold handleHeroSelect heroSelectResponse
  rw [show (HeroSelectRequest.decode {} reader).1 = _ from
    decode_ofBytes reader .heroSelectRequest]
  rfl

theorem handleBattleAttack_ofBytes (io : SaveIO) :
    srv.handleBattleAttack io c reader =
      srv.handleBattleAttack io c (.ofBytes reader.remaining) := by
  unfold handleBattleAttack
  rw [show (BattleAttackRequest.decode {} reader).1 = _ from
    decode_ofBytes reader .battleAttackRequest]
  rfl

theorem dispatch_ofBytes (now : MatchTimePoint) (io : SaveIO) (msgType : UInt16) :
    srv.dispatch now io c msgType reader =
      srv.dispatch now io c msgType (.ofBytes reader.remaining) := by
  unfold dispatch
  rw [handleLogin_ofBytes, handleRegister_ofBytes, handleMatchJoin_ofBytes,
    handleHeroSelect_ofBytes, handleBattleAttack_ofBytes, handleMatchCancel_ofBytes]

end Readers

end GameServer

end ArenaGame
