import ArenaGame.Equiv.ArenaServer.Simulation

/-!
# Every run of the whole server

What is proved about the runs of `GameServer.machine` holds of the server as it is put together: the
calls of its handlers are such a run (`plays_game`).  What the kernel accepts from a connection is
what the handlers have sent to it (`written_to_players`), so both sides see whole messages in order
(`frames_end_to_end`), and every request is answered (`requests_answered`).
-/

namespace ArenaGame

open GameProtocol GameServer

namespace ArenaServer

variable {outside : Outside} {range : MatchTicket → MatchTimePoint → ℚ} {fits : Prop}
  {game₀ : GameServer} {o : List ArenaEvent} {s : ArenaServer}

/-! ### One callback for each step -/

theorem callbacks_made (es : List ServerEvent) (s : ArenaServer) :
    callbacks outside es s = callbacks outside (TcpServer.made es) s := by
  induction es generalizing s with
  | nil => rfl
  | cons e es ih =>
    have hnotice : andThen (callback outside e s) (callbacks outside es) =
        andThen (callback outside e s) (callbacks outside (TcpServer.made es)) :=
      congrArg (andThen _) (funext ih)
    cases e with
    | connectionCallback_ id connected => exact hnotice
    | messageCallback_ id data => exact hnotice
    | _ => exact ih s

theorem callbacks_singleton (e : ServerEvent) (s : ArenaServer) :
    callbacks outside [e] s = callback outside e s :=
  Prod.ext rfl (List.append_nil _)

/-! ### The game and its connections agree -/

/-- The game has been told everything. -/
def Agrees (range : MatchTicket → MatchTimePoint → ℚ) (fits : Prop) (game₀ : GameServer)
    (o : List ArenaEvent) (s : ArenaServer) : Prop :=
  Behind range fits game₀ (fun id => notices id (serverEvents o)) o s

/-- No report makes two callbacks that may end a connection. -/
def Input.Clear : Input → Prop
  | loop input => input.Clear
  | processMatchmakingTick => True

def Input.Fits (s : ArenaServer) : Input → Prop
  | loop input => input.Fits s.server_
  | processMatchmakingTick => True

instance : (input : Input) → Decidable input.Clear
  | .loop input => inferInstanceAs (Decidable input.Clear)
  | .processMatchmakingTick => isTrue trivial

instance (s : ArenaServer) : (input : Input) → Decidable (input.Fits s)
  | .loop input => inferInstanceAs (Decidable (input.Fits s.server_))
  | .processMatchmakingTick => isTrue trivial

theorem Agrees.of_behind {heard : ℕ → List Notice} (h : Behind range fits game₀ heard o s)
    (hheard : ∀ id, heard id = notices id (serverEvents o)) : Agrees range fits game₀ o s := by
  obtain rfl : heard = fun id => notices id (serverEvents o) := funext hheard
  exact h

section Step

variable (hfits : fits → outside.Fits) (h : Agrees range fits game₀ o s)

include hfits h

theorem Agrees.tick : Agrees range fits game₀
    (o ++ (s.step outside range .processMatchmakingTick).2)
    (s.step outside range .processMatchmakingTick).1 := by
  have hpossible : Event.Possible s.game (.tick (outside.now s.asked)) := trivial
  obtain ⟨hcoupled, hacted, hshows⟩ := h.coupled.handle hfits hpossible rfl h.coupled.connections
    h.coupled.alive (fun _ hnil => hnil) fun _ _ => (List.append_nil _).symm
  refine .of_behind ⟨hcoupled, fun id => ?_⟩ fun id => ?_
  · rw [← h.buffers id]
    exact congrArg (fun buffers => (buffers id).readable) hshows.inputBuffers
  · rw [serverEvents_append, notices_append]
    exact (List.append_nil _).symm.trans (congrArg _ (hacted.notices id).symm)

theorem Agrees.callback {input : TcpServer.Input} (hpossible : s.server_.Possible input)
    (hloop : input.FromLoop) (hclear : input.Clear) (hf : fits → input.Fits s.server_) :
    Agrees range fits game₀ (o ++ (s.step outside range (.loop input)).2)
      (s.step outside range (.loop input)).1 := by
  have hmid := h.coupled.onServer (fun _ => rfl) hpossible hloop hclear hf
  have hbehind : Behind range fits game₀ (fun id => notices id (serverEvents o))
      (o ++ (s.onServer input).2) (s.onServer input).1 := ⟨hmid, h.buffers⟩
  have hnotices : ∀ id, notices id (serverEvents (o ++ (s.onServer input).2)) =
      notices id (serverEvents o) ++ notices id (TcpServer.made (s.server_.step input).2) := by
    intro id
    rw [serverEvents_append, notices_append, TcpServer.notices_made]
    exact congrArg _ (congrArg _ (shows_server _).1)
  have hstep : s.step outside range (.loop input) = andThen (s.onServer input)
      (callbacks outside (TcpServer.made (s.server_.step input).2)) := by
    unfold andThen
    rw [← callbacks_made]
    rfl
  rw [hstep]
  unfold andThen
  dsimp only
  rw [← List.append_assoc]
  have honce := s.server_.made_step input
  rcases hmade : TcpServer.made (s.server_.step input).2 with _ | ⟨e, _ | ⟨e', rest⟩⟩
  · -- The game hears nothing.
    refine .of_behind ⟨?_, hbehind.buffers⟩ fun id => ?_
    · show Coupled range fits game₀ _ _ (o ++ (s.onServer input).2 ++ []) _
      rw [List.append_nil]
      exact hbehind.coupled
    · show _ = notices id (serverEvents (o ++ (s.onServer input).2 ++ []))
      rw [List.append_nil, hnotices, hmade]
      exact (List.append_nil _).symm
  · rw [callbacks_singleton]
    have hone : ∀ id, notices id (serverEvents (o ++ (s.onServer input).2)) =
        notices id (serverEvents o) ++ e.notices id := by
      intro id
      rw [hnotices, hmade]
      exact congrArg _ (List.append_nil _)
    have hcalled : Behind range fits game₀
          (fun id => notices id (serverEvents o) ++ e.notices id)
          (o ++ (s.onServer input).2 ++ (ArenaServer.callback outside e (s.onServer input).1).2)
          (ArenaServer.callback outside e (s.onServer input).1).1 ∧
        ∀ id, notices id
          (serverEvents (ArenaServer.callback outside e (s.onServer input).1).2) = [] := by
      have hnotice : TcpServer.isNotice e = true := by
        have hmem : e ∈ TcpServer.made (s.server_.step input).2 := by
          rw [hmade]
          exact List.mem_singleton.mpr rfl
        exact (List.mem_filter.mp hmem).2
      cases e with
      | connectionCallback_ id connected =>
        cases connected with
        | true => exact hbehind.opened hone hfits (tells_connectionCallback id true)
        | false => exact hbehind.closed hone hfits (tells_connectionCallback id false)
      | messageCallback_ id data =>
        exact hbehind.onMessage hone hfits (tells_messageCallback id data)
      | _ => cases hnotice
    refine .of_behind hcalled.1 fun id => ?_
    rw [serverEvents_append, notices_append, hcalled.2, List.append_nil, hone]
  · rw [hmade] at honce
    exact absurd honce (by simp)

theorem Agrees.step {input : Input} (hpossible : s.Possible input) (hclear : input.Clear)
    (hf : fits → input.Fits s) : Agrees range fits game₀ (o ++ (s.step outside range input).2)
      (s.step outside range input).1 := by
  cases input with
  | loop input => exact h.callback hfits hpossible.1 hpossible.2 hclear hf
  | processMatchmakingTick => exact h.tick hfits

end Step

theorem Agrees.started {file : Option (List UInt8)} (hgame : GameServer.init file = some game₀)
    (ipPort : StdString) (acceptSocket_ : ℕ) :
    Agrees range fits game₀ [] (started ipPort acceptSocket_ game₀) := by
  have hnone : ∀ id, ¬ Up (notices id (serverEvents [])) := fun id hup => up_ne_nil hup rfl
  have hempty : game₀.connections_ = ∅ := by rw [(eq_of_init hgame).2]
  refine ⟨⟨⟨.started .., fun _ _ => List.prefix_refl _, fun _ _ _ _ _ => rfl⟩, trivial, rfl,
    fun c => ?_, fun id hup => absurd hup (hnone id), fun _ _ _ => rfl, fun id _ => ?_, nofun⟩,
    fun id => ?_⟩
  · show c ∈ game₀.connections_ ↔ _
    rw [hempty]
    exact iff_of_false (Finset.notMem_empty c) fun ⟨id, _, _, hup⟩ => hnone id hup
  · exact frameCutter_items_nil.symm
  · show (Buffer.ofSize kInitialSize).readable = _
    rw [Buffer.readable_ofSize]
    exact frameCutter_rest_nil.symm

/-! ### Every run -/

section Runs

variable {file : Option (List UInt8)} {ipPort : StdString} {acceptSocket_ : ℕ} {is : List Input}

theorem agrees_run (hgame : GameServer.init file = some game₀) (hfits : fits → outside.Fits)
    {C : ArenaServer → Input → Prop} (hclear : ∀ s input, C s input → input.Clear)
    (hf : ∀ s input, C s input → fits → input.Fits s)
    (his : ((machine outside range).restrict C).CanRun (started ipPort acceptSocket_ game₀) is) :
    let last := (machine outside range).run (started ipPort acceptSocket_ game₀) is
    Agrees range fits game₀ last.2 last.1 := by
  have hrun := Machine.run_induction (M := (machine outside range).restrict C)
    (P := fun o s => Agrees range fits game₀ o s)
    (fun _ _ _ h hpossible =>
      h.step hfits hpossible.1 (hclear _ _ hpossible.2) (hf _ _ hpossible.2))
    (.started hgame ipPort acceptSocket_) his
  rwa [Machine.run_restrict] at hrun

/-- In every run the handlers are called as the game server expects it, and `last.1.game` is what
comes of it.  The connections of the game are those that are up, each with the frames of the bytes
that were read from it, in order; and no pointer to a destroyed connection is used. -/
theorem plays_game (hgame : GameServer.init file = some game₀)
    (his : ((machine outside range).restrict fun _ input => input.Clear).CanRun
      (started ipPort acceptSocket_ game₀) is) :
    let last := (machine outside range).run (started ipPort acceptSocket_ game₀) is
    (GameServer.machine range).CanRun game₀ (gameEvents last.2) ∧
      (GameServer.machine range).run game₀ (gameEvents last.2) = (last.1.game, effects last.2) ∧
      (∀ c, c ∈ last.1.game.connections_ ↔ ∃ id < 2147483647, connId id = c ∧
        ∃ conn, last.1.server_.objects id = some conn ∧
          last.1.server_.connections_.lookup conn.name_ = some id ∧
          (conn.state_ = .kConnected ∨ conn.state_ = .kDisconnecting)) ∧
      (∀ id < 2147483647, framesFrom (connId id) (gameEvents last.2) =
        frameCutter.items (bytesRead (notices id (serverEvents last.2)))) ∧
      ∀ event ∈ serverEvents last.2, ¬ event.Bad := by
  intro last
  have hagrees : Agrees range False game₀ last.2 last.1 :=
    agrees_run hgame False.elim (fun _ _ hclear => hclear) (fun _ _ _ => False.elim) his
  have hinv := hagrees.coupled.carried.inv
  refine ⟨hagrees.coupled.canRun, hagrees.coupled.run, fun c => ?_, hagrees.coupled.frames,
    hinv.good⟩
  rw [hagrees.coupled.connections]
  refine exists_congr fun id => and_congr_right fun _ => and_congr_right fun _ => ?_
  constructor
  · intro hup
    obtain ⟨conn, hconn, hlookup, hstate, -⟩ := (hinv.up_iff id).mp hup
    exact ⟨conn, hconn, hlookup, hstate⟩
  · rintro ⟨conn, hconn, -, hstate⟩
    exact hinv.up_of_open hconn hstate

/-- What the kernel accepts from a connection is what the handlers have sent to it, frame after
frame, in order and without gaps; and as long as the connection is not closing, the rest waits in
its output buffer. -/
theorem written_to_players (hgame : GameServer.init file = some game₀) (hfits : outside.Fits)
    (his : ((machine outside range).restrict fun s input => input.Clear ∧ input.Fits s).CanRun
      (started ipPort acceptSocket_ game₀) is) :
    let last := (machine outside range).run (started ipPort acceptSocket_ game₀) is
    ∀ id < 2147483647,
      SendEvent.written (sendings id (serverEvents last.2)) <+:
          bytesTo (connId id) (effects last.2) ∧
        ∀ conn, last.1.server_.objects id = some conn → conn.state_ = .kConnected →
          SendEvent.written (sendings id (serverEvents last.2)) ++ conn.outputBuffer_.readable =
            bytesTo (connId id) (effects last.2) := by
  intro last id hid
  have hagrees : Agrees range True game₀ last.2 last.1 :=
    agrees_run hgame (fun _ => hfits) (fun _ _ h => h.1) (fun _ _ h _ => h.2) his
  have hcarried := hagrees.coupled.carried
  have hflow := (hcarried.inv.settled id).flow trivial
  refine ⟨hflow.written_isPrefix.trans (hcarried.sent_le id hid), fun conn hconn hstate => ?_⟩
  rw [hconn] at hflow
  rw [← hcarried.sent_eq id hid conn hconn hstate]
  exact hflow.1

/-- The frames that a client cuts from what the kernel has accepted are the first of those that the
handlers have sent to it, and it meets no length out of range; and if what was read from it are the
first bytes of some requests, the game gets the first of these requests. -/
theorem frames_end_to_end (hgame : GameServer.init file = some game₀) (hfits : outside.Fits)
    (his : ((machine outside range).restrict fun s input => input.Clear ∧ input.Fits s).CanRun
      (started ipPort acceptSocket_ game₀) is) :
    let last := (machine outside range).run (started ipPort acceptSocket_ game₀) is
    ∀ id < 2147483647,
      frameCutter.items (SendEvent.written (sendings id (serverEvents last.2))) <+:
          framesTo (connId id) (effects last.2) ∧
        frameCutter.cut (frameCutter.rest
          (SendEvent.written (sendings id (serverEvents last.2)))) ≠ .halt ∧
        ∀ requests : List Frame, (∀ request ∈ requests, SmallFrame request) →
          bytesRead (notices id (serverEvents last.2)) <+: requests.flatMap frameBytes →
          framesFrom (connId id) (gameEvents last.2) <+: requests := by
  intro last id hid
  have hagrees : Agrees range True game₀ last.2 last.1 :=
    agrees_run hgame (fun _ => hfits) (fun _ _ h => h.1) (fun _ _ h _ => h.2) his
  have hcarried := hagrees.coupled.carried
  have hwritten : SendEvent.written (sendings id (serverEvents last.2)) <+:
      (framesTo (connId id) (effects last.2)).flatMap frameBytes :=
    ((hcarried.inv.settled id).flow trivial).written_isPrefix.trans (hcarried.sent_le id hid)
  have hrun := run_whole_frames (framesTo_small hagrees.coupled.small (connId id))
  refine ⟨?_, Cutter.cut_rest_ne_halt_of_isPrefix hwritten ?_, fun requests hsmall hread => ?_⟩
  · have hitems := Cutter.items_isPrefix (c := frameCutter) hwritten
    rwa [show frameCutter.items _ = _ from congrArg Prod.fst hrun] at hitems
  · rw [show frameCutter.rest _ = _ from congrArg Prod.snd hrun]
    have hwait : frameCutter.cut [] = .wait := cutFrame_of_short (s := []) (by decide)
    intro hhalt
    rw [hwait] at hhalt
    cases hhalt
  · have hitems := Cutter.items_isPrefix (c := frameCutter) hread
    rw [show frameCutter.items (requests.flatMap frameBytes) = _ from
      congrArg Prod.fst (run_whole_frames hsmall)] at hitems
    rw [hagrees.coupled.frames id hid]
    exact hitems

/-- What a client has been answered are the first of the answers that are due for the requests it
has made, of the right types and in order; all of them are, once everything is written out.
Whatever it gets is a message in its proper form. -/
theorem requests_answered (hgame : GameServer.init file = some game₀) (hfits : outside.Fits)
    (his : ((machine outside range).restrict fun s input => input.Clear ∧ input.Fits s).CanRun
      (started ipPort acceptSocket_ game₀) is) :
    let last := (machine outside range).run (started ipPort acceptSocket_ game₀) is
    ∀ id < 2147483647,
      let received := frameCutter.items (SendEvent.written (sendings id (serverEvents last.2)))
      let requests := frameCutter.items (bytesRead (notices id (serverEvents last.2)))
      answersAmong received <+: answersDue requests ∧
        (∀ frame ∈ received, Proper frame) ∧
        ∀ conn, last.1.server_.objects id = some conn → conn.state_ = .kConnected →
          conn.outputBuffer_.readable = [] → answersAmong received = answersDue requests := by
  intro last id hid received requests
  have hagrees : Agrees range True game₀ last.2 last.1 :=
    agrees_run hgame (fun _ => hfits) (fun _ _ h => h.1) (fun _ _ h _ => h.2) his
  have hcarried := hagrees.coupled.carried
  have hflow := (hcarried.inv.settled id).flow trivial
  have hwhole : frameCutter.items (bytesTo (connId id) (effects last.2)) =
      framesTo (connId id) (effects last.2) :=
    congrArg Prod.fst (run_whole_frames (framesTo_small hagrees.coupled.small (connId id)))
  obtain ⟨hanswers, hproper⟩ := answers_eq_due hgame hagrees.coupled.canRun (connId id)
  rw [hagrees.coupled.run, hagrees.coupled.frames id hid] at hanswers
  rw [hagrees.coupled.run] at hproper
  have hreceived : received <+: framesTo (connId id) (effects last.2) := by
    rw [← hwhole]
    exact Cutter.items_isPrefix (hflow.written_isPrefix.trans (hcarried.sent_le id hid))
  refine ⟨?_, fun frame hmem => hproper frame (hreceived.subset hmem),
    fun conn hconn hstate hout => ?_⟩
  · rw [← hanswers]
    exact (hreceived.map Prod.fst).filter isAnswer
  · rw [hconn] at hflow
    have hsent := hcarried.sent_eq id hid conn hconn hstate
    have hwritten : SendEvent.written (sendings id (serverEvents last.2)) =
        bytesTo (connId id) (effects last.2) := by
      have hpending : conn.pending = [] := hout
      rw [← hsent, ← hflow.1, hpending, List.append_nil]
    rw [← hanswers, ← hwhole, ← hwritten]

end Runs

/-- A server without accounts. -/
def emptyGame : GameServer where
  matchQueue_ := .empty
  roomService_ := .empty
  sessionService_ := .empty
  connections_ := ∅
  accountRepository_ := (AccountRepository.load {}).2
  battleService_ := .empty

/-- Everything goes well, and the kernel takes what it is offered. -/
def quietOutside : Outside where
  now k := k
  io _ := ⟨List.reverse, List.reverse_perm, true, true, true⟩
  write _ data := .wrote data.length

/-- A connection comes up and sends a join request. -/
def joinRequest : List Input :=
  [.loop (.poll 0 [(3, {.EPOLLIN})]), .loop (.handleEvent 0),
    .loop (.callBack 0 { accept := some 7 }), .loop (.doPendingFunctors 0), .loop (.pollAgain 0),
    .processMatchmakingTick, .loop (.poll 0 [(7, {.EPOLLIN})]), .loop (.handleEvent 0),
    .loop (.callBack 0 { readFd := .read [6, 0, 0, 0, 0x30, 0] })]

theorem plays_game_join_request :
    let last := (machine quietOutside allowedEloRange).run
      (started (.ofLiteral "0.0.0.0:8888") 3 emptyGame) joinRequest
    framesFrom (connId 1) (gameEvents last.2) =
      frameCutter.items (bytesRead (notices 1 (serverEvents last.2))) :=
  (plays_game (rfl : GameServer.init none = some emptyGame) (by decide +kernel)).2.2.2.1 1
    (by decide)

theorem written_to_players_join_request :
    let last := (machine quietOutside allowedEloRange).run
      (started (.ofLiteral "0.0.0.0:8888") 3 emptyGame) joinRequest
    SendEvent.written (sendings 1 (serverEvents last.2)) <+: bytesTo (connId 1) (effects last.2) :=
  (written_to_players (rfl : GameServer.init none = some emptyGame)
    (show quietOutside.Fits from fun _ data => Nat.le_refl data.length) (by decide +kernel) 1
    (by decide)).1

theorem frames_end_to_end_join_request :
    let last := (machine quietOutside allowedEloRange).run
      (started (.ofLiteral "0.0.0.0:8888") 3 emptyGame) joinRequest
    frameCutter.items (SendEvent.written (sendings 1 (serverEvents last.2))) <+:
      framesTo (connId 1) (effects last.2) :=
  (frames_end_to_end (rfl : GameServer.init none = some emptyGame)
    (show quietOutside.Fits from fun _ data => Nat.le_refl data.length) (by decide +kernel) 1
    (by decide)).1

theorem requests_answered_join_request :
    let last := (machine quietOutside allowedEloRange).run
      (started (.ofLiteral "0.0.0.0:8888") 3 emptyGame) joinRequest
    answersAmong (frameCutter.items (SendEvent.written (sendings 1 (serverEvents last.2)))) <+:
      answersDue (frameCutter.items (bytesRead (notices 1 (serverEvents last.2)))) :=
  (requests_answered (rfl : GameServer.init none = some emptyGame)
    (show quietOutside.Fits from fun _ data => Nat.le_refl data.length) (by decide +kernel) 1
    (by decide)).1

end ArenaServer

end ArenaGame
