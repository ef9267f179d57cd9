import ArenaGame.Equiv.ArenaServer.Effects
import ArenaGame.Equiv.Framing
import ArenaGame.Muduo.Equiv.OpenConnections
import ArenaGame.Server.Equiv.Answers

/-!
# The game server runs on its connections

In every run of the whole server the handlers are called as `GameServer.machine` allows: a
connection is open for the game from the callback that it is up to the callback that it is down, and
the frames that a connection hands over are cut from the bytes that were read from it (`Agrees`).
-/

namespace ArenaGame

open GameProtocol GameServer

/-! ### What the user has been told of a connection -/

/-- The connection is up. -/
def Up (cs : List Notice) : Prop :=
  ∃ msgs : List (List UInt8), cs = .connection true :: msgs.map .message

def Notice.data : Notice → List UInt8
  | message data => data
  | connection _ => []

/-- The bytes that have been read from a connection. -/
def bytesRead (cs : List Notice) : List UInt8 := cs.flatMap Notice.data

theorem bytesRead_append (cs cs' : List Notice) :
    bytesRead (cs ++ cs') = bytesRead cs ++ bytesRead cs' := List.flatMap_append

theorem up_ne_nil {cs : List Notice} (h : Up cs) : cs ≠ [] := by
  obtain ⟨msgs, rfl⟩ := h
  exact List.cons_ne_nil _ _

section Orderly

variable {cs xs : List Notice}

/-- A connection comes up only once. -/
theorem Orderly.eq_nil (h : Orderly (cs ++ xs)) (hup : .connection true ∈ xs) : cs = [] := by
  cases cs with
  | nil => rfl
  | cons c cs =>
    have hmem : ∀ msgs : List (List UInt8), Notice.connection true ∉ msgs.map Notice.message := by
      intro msgs hmem
      obtain ⟨_, -, heq⟩ := List.mem_map.mp hmem
      cases heq
    have hin : Notice.connection true ∈ cs ++ xs := List.mem_append_right _ hup
    rcases h with h | ⟨msgs, h | h⟩
    · cases h
    · rw [show cs ++ xs = _ from (List.cons.inj h).2] at hin
      exact absurd hin (hmem msgs)
    · rw [show cs ++ xs = _ from (List.cons.inj h).2] at hin
      rcases List.mem_append.mp hin with hin | hin
      · exact absurd hin (hmem msgs)
      · cases List.mem_singleton.mp hin

/-- Messages come from a connection that is up. -/
theorem Orderly.up_of_message {data : List UInt8} (h : Orderly (cs ++ [.message data])) :
    Up cs := by
  cases cs with
  | nil => rcases h with h | ⟨msgs, h | h⟩ <;> cases h
  | cons c cs =>
    rcases h with h | ⟨msgs, h | h⟩
    · cases h
    · obtain ⟨rfl, hmap⟩ := List.cons.inj h
      obtain ⟨msgs', last, -, hmsgs', -⟩ := List.map_eq_append_iff.mp hmap.symm
      exact ⟨msgs', by rw [hmsgs']⟩
    · cases (List.append_inj' (List.cons.inj h).2 rfl).2

/-- Only a connection that is up goes down. -/
theorem Orderly.up_of_closed (h : Orderly (cs ++ [.connection false])) : Up cs := by
  cases cs with
  | nil =>
    rcases h with h | ⟨msgs, h | h⟩
    · cases h
    · cases h
    · cases h
  | cons c cs =>
    rcases h with h | ⟨msgs, h | h⟩
    · cases h
    · have hmem : Notice.connection false ∈ msgs.map Notice.message := by
        rw [← (List.cons.inj h).2]
        exact List.mem_append_right _ (List.mem_singleton.mpr rfl)
      obtain ⟨_, -, heq⟩ := List.mem_map.mp hmem
      cases heq
    · obtain ⟨rfl, htail⟩ := List.cons.inj h
      exact ⟨msgs, by rw [(List.append_inj' htail rfl).1]⟩

theorem not_up_of_closed : ¬ Up (cs ++ [.connection false]) := by
  rintro ⟨msgs, heq⟩
  cases cs with
  | nil => cases heq
  | cons c cs =>
    have hmem : Notice.connection false ∈ msgs.map Notice.message := by
      rw [← (List.cons.inj heq).2]
      exact List.mem_append_right _ (List.mem_singleton.mpr rfl)
    obtain ⟨_, -, heq⟩ := List.mem_map.mp hmem
    cases heq

theorem up_message {data : List UInt8} (h : Up cs) : Up (cs ++ [.message data]) := by
  obtain ⟨msgs, rfl⟩ := h
  exact ⟨msgs ++ [data], by rw [List.map_append]; rfl⟩

end Orderly

namespace ArenaServer

variable {outside : Outside} {range : MatchTicket → MatchTimePoint → ℚ} {fits : Prop}
  {game₀ : GameServer} {heard heard' : ℕ → List Notice} {frames frames' : ℕ → List Frame}
  {o : List ArenaEvent} {s : ArenaServer}

/-! ### The game and its connections -/

/-- What the game has been told of its connections is `heard`, and what they have handed over is
`frames`. -/
structure Coupled (range : MatchTicket → MatchTimePoint → ℚ) (fits : Prop) (game₀ : GameServer)
    (heard : ℕ → List Notice) (frames : ℕ → List Frame) (o : List ArenaEvent) (s : ArenaServer) :
    Prop where
  carried : Carried fits o s.server_
  canRun : (GameServer.machine range).CanRun game₀ (gameEvents o)
  run : (GameServer.machine range).run game₀ (gameEvents o) = (s.game, effects o)
  connections : ∀ c, c ∈ s.game.connections_ ↔ ∃ id < 2147483647, connId id = c ∧ Up (heard id)
  alive : ∀ id, Up (heard id) → ∃ conn, s.server_.objects id = some conn
  silent : ∀ id < 2147483647, heard id = [] → bytesTo (connId id) (effects o) = []
  frames : ∀ id < 2147483647, framesFrom (connId id) (gameEvents o) = frames id
  small : ∀ effect ∈ effects o, IsSmall effect

theorem Coupled.mem_connections (h : Coupled range fits game₀ heard frames o s) {id : ℕ}
    (hid : id < 2147483647) : connId id ∈ s.game.connections_ ↔ Up (heard id) := by
  rw [h.connections]
  constructor
  · rintro ⟨id', hid', heq, hup⟩
    rwa [connId_inj hid' hid heq] at hup
  · exact fun hup => ⟨id, hid, rfl, hup⟩

theorem Coupled.alive_connections (h : Coupled range fits game₀ heard frames o s) :
    Alive s.game.connections_ s.server_ := by
  intro c hc
  obtain ⟨id, hid, heq, hup⟩ := (h.connections c).mp hc
  exact ⟨id, hid, heq, h.alive id hup⟩

/-- A handler is called. -/
theorem Coupled.handle (hfits : fits → outside.Fits)
    (h : Coupled range fits game₀ heard frames o s) {event : Event} (hp : event.Possible s.game)
    {next : GameServer × List Effect} (hnext : next = s.game.step range event)
    (hconnections : ∀ c, c ∈ event.connectionsAfter s.game.connections_ ↔
      ∃ id < 2147483647, connId id = c ∧ Up (heard' id))
    (halive : ∀ id, Up (heard' id) → ∃ conn, s.server_.objects id = some conn)
    (hsilent : ∀ id, heard' id = [] → heard id = [])
    (hframes : ∀ id < 2147483647, frames' id = frames id ++ framesFrom (connId id) [event]) :
    Coupled range fits game₀ heard' frames' (o ++ (s.handle outside event next).2)
        (s.handle outside event next).1 ∧
      Acted fits o s (s.handle outside event next) ∧
      Shows s next.1 [event] next.2 (s.handle outside event next) := by
  subst hnext
  obtain ⟨hafter, htargets⟩ := step_addressed range hp
  have hacted := h.carried.handle hfits h.alive_connections event htargets
  have hshows := shows_handle outside event (s.game.step range event) s
  have hlast : ((GameServer.machine range).run game₀ (gameEvents o)).1 = s.game :=
    congrArg Prod.fst h.run
  refine ⟨⟨hacted.carried, ?_, ?_, ?_, ?_, ?_, ?_, ?_⟩, hacted, hshows⟩
  · rw [gameEvents_append, hshows.calls, Machine.canRun_append, hlast]
    exact ⟨h.canRun, hp, trivial⟩
  · rw [gameEvents_append, hshows.calls, Machine.run_concat, hlast, congrArg Prod.snd h.run,
      hshows.game, effects_append, hshows.effects]
    rfl
  · intro c
    rw [hshows.game, hafter]
    exact hconnections c
  · intro id hup
    obtain ⟨conn, hconn⟩ := halive id hup
    exact hacted.alive id conn hconn
  · intro id hid hnil
    have hnone := hsilent id hnil
    have hclosed : connId id ∉ s.game.connections_ := fun hmem =>
      up_ne_nil ((h.mem_connections hid).mp hmem) hnone
    rw [effects_append, hshows.effects, bytesTo_append, h.silent id hid hnone,
      bytesTo_eq_nil hclosed htargets]
    rfl
  · intro id hid
    rw [gameEvents_append, hshows.calls, framesFrom_append, h.frames id hid, hframes id hid]
  · intro effect hmem
    rw [effects_append, hshows.effects] at hmem
    rcases List.mem_append.mp hmem with hmem | hmem
    · exact h.small effect hmem
    · have htarget := htargets effect hmem
      cases effect with
      | send c frame => exact htarget.2
      | _ => trivial

/-! ### The steps of the main loop -/

/-- What a step of the loop does to the connections. -/
structure Looped (heard : ℕ → List Notice) (server : TcpServer)
    (next : TcpServer × List ServerEvent) : Prop where
  sent : ∀ id, SendEvent.sent (sendings id next.2) = []
  state : ∀ id conn', next.1.objects id = some conn' → conn'.state_ = .kConnected →
    (∃ conn, server.objects id = some conn ∧ conn.state_ = .kConnected) ∨ heard id = []
  alive : ∀ id, Up (heard id) → (∃ conn, server.objects id = some conn) →
    ∃ conn', next.1.objects id = some conn'

theorem Carried.looped (h : Carried fits o s.server_)
    (hheard : ∀ id, heard id = notices id (serverEvents o)) {input : TcpServer.Input}
    (hpossible : s.server_.Possible input) (hloop : input.FromLoop) (hclear : input.Clear)
    (hfits : fits → input.Fits s.server_) : Looped heard s.server_ (s.server_.step input) := by
  have hinv := h.inv.step hpossible (fun _ => hclear) hfits
  by_cases hdestroy : ∃ id, input = .destroy id
  · obtain ⟨id, rfl⟩ := hdestroy
    obtain ⟨hsome, hunreferenced⟩ := hpossible
    obtain ⟨conn, hconn⟩ := Option.isSome_iff_exists.mp hsome
    have hstep : s.server_.step (.destroy id) =
        ({ s.server_ with objects := Function.update s.server_.objects id none }.setLoop conn.loop_
          { s.server_.loops conn.loop_ with
            poller_ := (s.server_.loops conn.loop_).poller_.close conn.fd_ }, []) :=
      TcpServer.deref_of_some hconn
    rw [hstep]
    refine ⟨fun _ => rfl, fun id' conn' hconn' hstate => Or.inl ?_, fun id' hup hbefore => ?_⟩
    · have hconn' : Function.update s.server_.objects id none id' = some conn' := hconn'
      rw [Function.update_apply] at hconn'
      split at hconn'
      · cases hconn'
      · exact ⟨conn', hconn', hstate⟩
    · show ∃ conn', Function.update s.server_.objects id none id' = some conn'
      rw [Function.update_apply]
      split
      · -- A connection that is up is not destroyed.
        rename_i heq
        rw [heq, hheard id] at hup
        obtain ⟨-, -, ⟨msgs, rest, hdown, hrest⟩, -⟩ :=
          h.inv.removed_of_unreferenced hconn hunreferenced
        rw [hdown, hrest trivial] at hup
        exact absurd hup not_up_of_closed
      · exact hbefore
  · have hsteady : TcpServer.Steady s.server_ (s.server_.step input) :=
      TcpServer.steady_step hloop fun id heq => hdestroy ⟨id, heq⟩
    refine ⟨hsteady.sent, fun id conn' hconn' hstate => ?_, fun id _ ⟨conn, hconn⟩ =>
      hsteady.alive id conn hconn⟩
    refine (hsteady.state id conn' hconn' hstate).imp_right fun hmem => ?_
    have horderly := hinv.orderly id
    rw [notices_append, ← hheard id] at horderly
    refine horderly.eq_nil (List.mem_flatMap.mpr ⟨_, hmem, ?_⟩)
    show _ ∈ if id = id then _ else _
    rw [if_pos rfl]
    exact List.mem_singleton.mpr rfl

/-- The loop takes a step, and the game has not yet heard of it. -/
theorem Coupled.onServer (h : Coupled range fits game₀ heard frames o s)
    (hheard : ∀ id, heard id = notices id (serverEvents o)) {input : TcpServer.Input}
    (hpossible : s.server_.Possible input) (hloop : input.FromLoop) (hclear : input.Clear)
    (hfits : fits → input.Fits s.server_) :
    Coupled range fits game₀ heard frames (o ++ (s.onServer input).2) (s.onServer input).1 := by
  have hshows := shows_onServer input s
  have hlooped := h.carried.looped hheard hpossible hloop hclear hfits
  have hserver : serverEvents (o ++ (s.onServer input).2) =
      serverEvents o ++ (s.server_.step input).2 := by
    rw [serverEvents_append]
    exact congrArg _ (shows_server _).1
  have heffects : effects (o ++ (s.onServer input).2) = effects o := by
    rw [effects_append, hshows.effects, List.append_nil]
  have hevents : gameEvents (o ++ (s.onServer input).2) = gameEvents o := by
    rw [gameEvents_append, hshows.calls, List.append_nil]
  have hsent : ∀ id, SendEvent.sent (sendings id (serverEvents (o ++ (s.onServer input).2))) =
      SendEvent.sent (sendings id (serverEvents o)) := by
    intro id
    rw [hserver, sendings_append, SendEvent.sent_append, hlooped.sent, List.append_nil]
  constructor
  case carried =>
    constructor
    · rw [hserver]
      exact h.carried.inv.step hpossible (fun _ => hclear) hfits
    · intro id hid
      rw [hsent, heffects]
      exact h.carried.sent_le id hid
    · intro id hid conn' hconn' hstate'
      rw [hsent, heffects]
      rcases hlooped.state id conn' hconn' hstate' with ⟨conn, hconn, hstate⟩ | hnil
      · exact h.carried.sent_eq id hid conn hconn hstate
      · have hle := h.carried.sent_le id hid
        rw [h.silent id hid hnil] at hle ⊢
        exact List.prefix_nil.mp hle
  case canRun => rw [hevents]; exact h.canRun
  case run => rw [hevents, heffects]; exact h.run
  case connections => exact h.connections
  case alive => exact fun id hup => hlooped.alive id hup (h.alive id hup)
  case silent => rw [heffects]; exact h.silent
  case frames => rw [hevents]; exact h.frames
  case small => rw [heffects]; exact h.small

/-- The connections change, and the game does not see it. -/
theorem Coupled.acted (h : Coupled range fits game₀ heard frames o s)
    {next : ArenaServer × List ArenaEvent} (hacted : Acted fits o s next)
    (hshows : Shows s s.game [] [] next) :
    Coupled range fits game₀ heard frames (o ++ next.2) next.1 := by
  have heffects : effects (o ++ next.2) = effects o := by
    rw [effects_append, hshows.effects, List.append_nil]
  have hevents : gameEvents (o ++ next.2) = gameEvents o := by
    rw [gameEvents_append, hshows.calls, List.append_nil]
  constructor
  case carried => exact hacted.carried
  case canRun => rw [hevents]; exact h.canRun
  case run => rw [hevents, heffects, hshows.game]; exact h.run
  case connections => rw [hshows.game]; exact h.connections
  case alive =>
    intro id hup
    obtain ⟨conn, hconn⟩ := h.alive id hup
    exact hacted.alive id conn hconn
  case silent => rw [heffects]; exact h.silent
  case frames => rw [hevents]; exact h.frames
  case small => rw [heffects]; exact h.small

theorem Coupled.congr (h : Coupled range fits game₀ heard frames o s)
    (hup : ∀ id, Up (heard' id) ↔ Up (heard id)) (hnil : ∀ id, heard' id = [] → heard id = [])
    (hframes : ∀ id, frames' id = frames id) :
    Coupled range fits game₀ heard' frames' o s where
  carried := h.carried
  canRun := h.canRun
  run := h.run
  connections c := by
    rw [h.connections]
    exact exists_congr fun id => and_congr_right fun _ => and_congr_right fun _ => (hup id).symm
  alive id hid := h.alive id ((hup id).mp hid)
  silent id hid hheard := h.silent id hid (hnil id hheard)
  frames id hid := (h.frames id hid).trans (hframes id).symm
  small := h.small

/-! ### Messages -/

/-- In the middle of `onMessage` for the connection `id`, when the frames `fs` have been cut off. -/
structure During (range : MatchTicket → MatchTimePoint → ℚ) (fits : Prop) (game₀ : GameServer)
    (heard : ℕ → List Notice) (frames : ℕ → List Frame) (o : List ArenaEvent) (s : ArenaServer)
    (id : ℕ) (fs : List Frame) (st : ArenaServer × List ArenaEvent) : Prop where
  coupled : Coupled range fits game₀ heard (Function.update frames id (frames id ++ fs))
    (o ++ st.2) st.1
  inputBuffers : st.1.inputBuffers = s.inputBuffers
  notices : ∀ id', notices id' (serverEvents st.2) = []

section Message

variable (hfits : fits → outside.Fits) {id : ℕ} (hid : id < 2147483647) {fs : List Frame}
  {st : ArenaServer × List ArenaEvent}

include hfits hid in
theorem During.dispatch (hup : Up (heard id))
    (h : During range fits game₀ heard frames o s id fs st) (msgType : UInt16)
    (reader : BinaryReader) :
    During range fits game₀ heard frames o s id (fs ++ [(msgType, reader.remaining)])
      (andThen st (dispatch outside id msgType reader)) := by
  have hself : ∀ id' < 2147483647,
      Function.update frames id (frames id ++ (fs ++ [(msgType, reader.remaining)])) id' =
        Function.update frames id (frames id ++ fs) id' ++ framesFrom (connId id')
          [.message (connId id) (msgType, reader.remaining) (outside.now st.1.asked)
            (outside.io st.1.asked)] := by
    intro id' hid'
    rw [Function.update_apply, Function.update_apply]
    by_cases heq : id' = id
    · rw [if_pos heq, if_pos heq, heq, framesFrom_message_self, List.append_assoc]
    · rw [if_neg heq, if_neg heq, framesFrom_message_of_ne, List.append_nil]
      exact fun h => heq (connId_inj hid hid' h).symm
  have hpossible : Event.Possible st.1.game (.message (connId id) (msgType, reader.remaining)
      (outside.now st.1.asked) (outside.io st.1.asked)) := (h.coupled.mem_connections hid).mpr hup
  obtain ⟨hcoupled, hacted, hshows⟩ := h.coupled.handle hfits hpossible
    (st.1.game.dispatch_ofBytes (connId id) reader _ _ msgType) h.coupled.connections
    h.coupled.alive (fun _ hnil => hnil) hself
  constructor
  · rw [List.append_assoc] at hcoupled
    exact hcoupled
  · exact hshows.inputBuffers.trans h.inputBuffers
  · intro id'
    unfold andThen
    rw [serverEvents_append, notices_append, h.notices]
    exact hacted.notices id'

include hfits hid in
theorem During.foldl (hup : Up (heard id)) (calls : List (UInt16 × BinaryReader))
    (h : During range fits game₀ heard frames o s id fs st) :
    During range fits game₀ heard frames o s id (fs ++ calls.map seen)
      (calls.foldl (call fun msgType reader done =>
        andThen done (ArenaServer.dispatch outside id msgType reader)) st) := by
  induction calls generalizing fs st with
  | nil => rwa [List.map_nil, List.append_nil]
  | cons c calls ih =>
    rw [List.map_cons, List.append_cons, List.foldl_cons]
    exact ih (h.dispatch hfits hid hup c.1 c.2)

include hid in
/-- `onMessage` has met a length out of range. -/
theorem During.shutdown (hup : Up (heard id))
    (h : During range fits game₀ heard frames o s id fs st) :
    During range fits game₀ heard frames o s id fs
      (andThen st (ArenaServer.onServer (.shutdown id))) := by
  obtain ⟨conn, hconn⟩ := h.coupled.alive id hup
  have hcalled : TcpServer.Called st.1.server_ id conn
      (if conn.state_ = .kConnected then [] else []) (st.1.server_.step (.shutdown id)) := by
    rw [ite_self]
    exact h.coupled.carried.inv.called_shutdown hconn
  have hpossible : st.1.server_.Possible (.shutdown id) :=
    Option.isSome_iff_exists.mpr ⟨conn, hconn⟩
  have hacted : Acted fits (o ++ st.2) st.1 (st.1.onServer (.shutdown id)) :=
    h.coupled.carried.call hid hconn hpossible trivial (fun _ => trivial) hcalled
      (show serverEvents [] = [] from rfl) rfl fun _ _ _ => rfl
  have hshows := shows_onServer (.shutdown id) st.1
  constructor
  · have hcoupled := h.coupled.acted hacted hshows
    rw [List.append_assoc] at hcoupled
    exact hcoupled
  · exact hshows.inputBuffers.trans h.inputBuffers
  · intro id'
    unfold andThen
    rw [serverEvents_append, notices_append, h.notices]
    exact hacted.notices id'

end Message

/-! ### Callbacks -/

/-- The game has been told `heard`, and has got the frames of the bytes that were read; the rest of
these bytes waits in the input buffers. -/
structure Behind (range : MatchTicket → MatchTimePoint → ℚ) (fits : Prop) (game₀ : GameServer)
    (heard : ℕ → List Notice) (o : List ArenaEvent) (s : ArenaServer) : Prop where
  coupled : Coupled range fits game₀ heard
    (fun id => frameCutter.items (bytesRead (heard id))) o s
  buffers : ∀ id, (s.inputBuffers id).readable = frameCutter.rest (bytesRead (heard id))

/-- The user is told `n` about the connection `id`. -/
def Tells (e : ServerEvent) (id : ℕ) (n : Notice) : Prop :=
  e.notices id = [n] ∧ ∀ id' ≠ id, e.notices id' = []

theorem tells_connectionCallback (id : ℕ) (connected : Bool) :
    Tells (.connectionCallback_ id connected) id (.connection connected) :=
  ⟨if_pos rfl, fun _ hne => if_neg (Ne.symm hne)⟩

theorem tells_messageCallback (id : ℕ) (data : List UInt8) :
    Tells (.messageCallback_ id data) id (.message data) :=
  ⟨if_pos rfl, fun _ hne => if_neg (Ne.symm hne)⟩

theorem Tells.bytesRead_eq_nil {e : ServerEvent} {id : ℕ} {connected : Bool}
    (he : Tells e id (.connection connected)) (id' : ℕ) : bytesRead (e.notices id') = [] := by
  by_cases heq : id' = id
  · rw [heq, he.1]
    rfl
  · rw [he.2 id' heq]
    rfl

section Callback

variable (h : Behind range fits game₀ heard o s) {e : ServerEvent}
  (hnotices : ∀ id, notices id (serverEvents o) = heard id ++ e.notices id) {id : ℕ}

include h hnotices

/-- A connection that is up exists. -/
theorem Behind.alive (hup : Up (heard id ++ e.notices id)) :
    ∃ conn, s.server_.objects id = some conn := by
  rw [← hnotices] at hup
  obtain ⟨conn, hconn, -⟩ := (h.coupled.carried.inv.up_iff id).mp hup
  exact ⟨conn, hconn⟩

theorem Behind.orderly {n : Notice} (he : Tells e id n) : Orderly (heard id ++ [n]) := by
  rw [← he.1, ← hnotices]
  exact h.coupled.carried.inv.orderly id

theorem Behind.bounds {n : Notice} (he : Tells e id n) : 0 < id ∧ id < 2147483647 := by
  have hinv := h.coupled.carried.inv
  have hsome : notices id (serverEvents o) ≠ [] := by
    rw [hnotices, he.1]
    exact List.append_ne_nil_of_right_ne_nil _ (List.cons_ne_nil _ _)
  obtain ⟨stage, hat, hhistory⟩ := (hinv.settled id).stage
  have hborn : stage ≠ .unborn := by
    rintro rfl
    exact hsome hhistory
  have hcreated : 0 < id ∧ id < s.server_.nextConnId_ := hat.created hborn
  exact ⟨hcreated.1, hcreated.2.trans_le hinv.nextConnId_le⟩

section Handle

variable (hfits : fits → outside.Fits)

include hfits

/-- A handler is called that gets no frame. -/
theorem Behind.handle (hquiet : ∀ id, bytesRead (e.notices id) = []) {event : Event}
    {next : GameServer × List Effect} (hp : event.Possible s.game)
    (hnext : next = s.game.step range event)
    (hconnections : ∀ c, c ∈ event.connectionsAfter s.game.connections_ ↔
      ∃ id < 2147483647, connId id = c ∧ Up (heard id ++ e.notices id))
    (hframes : ∀ c, framesFrom c [event] = []) :
    Behind range fits game₀ (fun id => heard id ++ e.notices id)
        (o ++ (s.handle outside event next).2) (s.handle outside event next).1 ∧
      ∀ id, notices id (serverEvents (s.handle outside event next).2) = [] := by
  have hbytes : ∀ id, bytesRead (heard id ++ e.notices id) = bytesRead (heard id) := by
    intro id
    rw [bytesRead_append, hquiet, List.append_nil]
  obtain ⟨hcoupled, hacted, hshows⟩ := h.coupled.handle hfits hp hnext hconnections
    (fun id => h.alive hnotices) (fun id hnil => (List.append_eq_nil_iff.mp hnil).1)
    (fun id _ => show frameCutter.items (bytesRead (heard id ++ e.notices id)) = _ by
      rw [hbytes, hframes, List.append_nil])
  refine ⟨⟨hcoupled, fun id => ?_⟩, hacted.notices⟩
  rw [hshows.inputBuffers, h.buffers, hbytes]

theorem Behind.opened (he : Tells e id (.connection true)) :
    Behind range fits game₀ (fun id' => heard id' ++ e.notices id')
        (o ++ (s.onConnection outside id true).2) (s.onConnection outside id true).1 ∧
      ∀ id', notices id' (serverEvents (s.onConnection outside id true).2) = [] := by
  obtain ⟨hpos, hid⟩ := h.bounds hnotices he
  have hnil := (h.orderly hnotices he).eq_nil (List.mem_singleton.mpr rfl)
  have hpossible : Event.Possible s.game (.opened (connId id)) := by
    refine ⟨fun hzero => ?_, fun hmem => ?_⟩
    · have htoNat := toNat_connId hid
      rw [hzero] at htoNat
      exact absurd htoNat.symm (Nat.pos_iff_ne_zero.mp hpos)
    · exact up_ne_nil ((h.coupled.mem_connections hid).mp hmem) hnil
  refine h.handle hnotices hfits he.bytesRead_eq_nil hpossible rfl (fun c => ?_) fun _ => rfl
  show c ∈ insert (connId id) s.game.connections_ ↔ _
  rw [Finset.mem_insert, h.coupled.connections]
  constructor
  · rintro (rfl | ⟨id', hid', rfl, hup⟩)
    · exact ⟨id, hid, rfl, [], by rw [hnil, he.1]; rfl⟩
    · have hne : id' ≠ id := fun heq => up_ne_nil hup (heq ▸ hnil)
      exact ⟨id', hid', rfl, by rwa [he.2 id' hne, List.append_nil]⟩
  · rintro ⟨id', hid', rfl, hup⟩
    by_cases heq : id' = id
    · exact Or.inl (congrArg connId heq)
    · rw [he.2 id' heq, List.append_nil] at hup
      exact Or.inr ⟨id', hid', rfl, hup⟩

theorem Behind.closed (he : Tells e id (.connection false)) :
    Behind range fits game₀ (fun id' => heard id' ++ e.notices id')
        (o ++ (s.onConnection outside id false).2) (s.onConnection outside id false).1 ∧
      ∀ id', notices id' (serverEvents (s.onConnection outside id false).2) = [] := by
  obtain ⟨-, hid⟩ := h.bounds hnotices he
  have hpossible : Event.Possible s.game (.closed (connId id) (outside.io s.asked)) :=
    (h.coupled.mem_connections hid).mpr (h.orderly hnotices he).up_of_closed
  refine h.handle hnotices hfits he.bytesRead_eq_nil hpossible rfl (fun c => ?_) fun _ => rfl
  show c ∈ s.game.connections_.erase (connId id) ↔ _
  rw [Finset.mem_erase, h.coupled.connections]
  constructor
  · rintro ⟨hne, id', hid', rfl, hup⟩
    have hne' : id' ≠ id := fun heq => hne (congrArg connId heq)
    exact ⟨id', hid', rfl, by rwa [he.2 id' hne', List.append_nil]⟩
  · rintro ⟨id', hid', rfl, hup⟩
    have hne : id' ≠ id := by
      rintro rfl
      rw [he.1] at hup
      exact not_up_of_closed hup
    rw [he.2 id' hne, List.append_nil] at hup
    exact ⟨fun heq => hne (connId_inj hid' hid heq), id', hid', rfl, hup⟩

omit hnotices in
/-- `onMessage` cuts all frames off a buffer and hands them to the game. -/
theorem Behind.during (hid : id < 2147483647) (hup : Up (heard id)) (buf : Buffer) :
    let called := ArenaGame.onMessage
      (fun msgType reader done => andThen done (dispatch outside id msgType reader))
      (fun done => andThen done (ArenaServer.onServer (.shutdown id))) buf (s, [])
    called.1.readable = frameCutter.rest buf.readable ∧
      During range fits game₀ heard (fun id' => frameCutter.items (bytesRead (heard id'))) o s id
        (frameCutter.items buf.readable) called.2 := by
  intro called
  obtain ⟨hleft, calls, hcalls, hlast⟩ := onMessage_ran
    (fun msgType reader done => andThen done (dispatch outside id msgType reader))
    (fun done => andThen done (ArenaServer.onServer (.shutdown id))) buf (s, [])
  refine ⟨hleft, ?_⟩
  have hstart : During range fits game₀ heard (fun id' => frameCutter.items (bytesRead (heard id')))
      o s id [] (s, []) := by
    refine ⟨?_, rfl, fun _ => rfl⟩
    rw [List.append_nil, List.append_nil]
    exact h.coupled.congr (fun _ => Iff.rfl) (fun _ hnil => hnil) fun id' =>
      congrFun (Function.update_eq_self id _) id'
  have hfold := hstart.foldl hfits hid hup calls
  rw [List.nil_append, hcalls] at hfold
  rw [show called.2 = _ from hlast]
  cases frameCutter.cut (frameCutter.rest buf.readable) with
  | halt => exact hfold.shutdown hid hup
  | wait => exact hfold
  | item frame n => exact hfold

theorem Behind.onMessage {data : List UInt8} (he : Tells e id (.message data)) :
    Behind range fits game₀ (fun id' => heard id' ++ e.notices id')
        (o ++ (s.onMessage outside id data).2) (s.onMessage outside id data).1 ∧
      ∀ id', notices id' (serverEvents (s.onMessage outside id data).2) = [] := by
  obtain ⟨-, hid⟩ := h.bounds hnotices he
  have hup := (h.orderly hnotices he).up_of_message
  have hread : bytesRead (heard id ++ e.notices id) = bytesRead (heard id) ++ data := by
    rw [bytesRead_append, he.1]
    exact congrArg _ (List.append_nil data)
  obtain ⟨hleft, hcoupled, hbuffers, hquiet⟩ :=
    h.during hfits hid hup ((s.inputBuffers id).readFd data)
  rw [Buffer.readable_readFd, h.buffers] at hleft hcoupled
  set called := ArenaGame.onMessage
    (fun msgType reader done => andThen done (dispatch outside id msgType reader))
    (fun done => andThen done (ArenaServer.onServer (.shutdown id)))
    ((s.inputBuffers id).readFd data) (s, []) with hcalled
  have hsame : Coupled range fits game₀ (fun id' => heard id' ++ e.notices id')
      (fun id' => frameCutter.items (bytesRead (heard id' ++ e.notices id'))) (o ++ called.2.2)
      called.2.1 := by
    refine hcoupled.congr (fun id' => ?_) (fun id' hnil => (List.append_eq_nil_iff.mp hnil).1)
      fun id' => ?_
    · by_cases heq : id' = id
      · rw [heq, he.1]
        exact iff_of_true (up_message hup) hup
      · rw [he.2 id' heq, List.append_nil]
    · rw [Function.update_apply]
      split
      · rename_i heq
        rw [heq, hread, Cutter.items_append]
      · rename_i hne
        rw [he.2 id' hne, List.append_nil]
  refine ⟨⟨⟨hsame.carried, hsame.canRun, hsame.run, hsame.connections, hsame.alive, hsame.silent,
    hsame.frames, hsame.small⟩, fun id' => ?_⟩, hquiet⟩
  show Buffer.readable (Function.update called.2.1.inputBuffers id called.1 id') = _
  rw [Function.update_apply]
  split
  · rename_i heq
    rw [heq, hread, Cutter.rest_append]
    exact hleft
  · rename_i hne
    rw [hbuffers, he.2 id' hne, List.append_nil]
    exact h.buffers id'

end Handle

end Callback

end ArenaServer

end ArenaGame
