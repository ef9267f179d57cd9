import ArenaGame.ArenaServer
import ArenaGame.Muduo.Equiv.UserCalls
import ArenaGame.Server.Equiv.Connections
import ArenaGame.Server.Equiv.Handlers

/-!
# The effects of the handlers, performed

What a handler sends to an open connection is what the connection is asked to send, as long as it is
connected (`Carried`); so a handler may be called whenever the connections exist that it may touch
(`Carried.handle`).
-/

namespace ArenaGame

open GameProtocol GameServer

/-- What `::write` returns fits what it is offered, and no connection is broken. -/
def Outside.Fits (outside : Outside) : Prop :=
  ∀ k data, (outside.write k data).Fits data.length

/-- The ids of connections are below the end of `nextConnId_`. -/
theorem toNat_connId {id : ℕ} (h : id < 2147483647) : (connId id).toNat = id :=
  UInt64.toNat_ofNat_of_lt' (h.trans (by decide))

theorem connId_inj {id id' : ℕ} (h : id < 2147483647) (h' : id' < 2147483647)
    (heq : connId id = connId id') : id = id' := by
  rw [← toNat_connId h, heq, toNat_connId h']

namespace GameServer

theorem bytesTo_append (c : UInt64) (o o' : List Effect) :
    bytesTo c (o ++ o') = bytesTo c o ++ bytesTo c o' := by
  unfold bytesTo
  rw [framesTo_append, List.flatMap_append]

theorem bytesTo_cons (c : UInt64) (effect : Effect) (o : List Effect) :
    bytesTo c (effect :: o) = bytesTo c [effect] ++ bytesTo c o := bytesTo_append c [effect] o

/-- Nothing is sent to a connection that is not open. -/
theorem bytesTo_eq_nil {open_ : Finset UInt64} {c : UInt64} (hc : c ∉ open_) {o : List Effect}
    (h : ∀ effect ∈ o, effect.Targets open_) : bytesTo c o = [] := by
  induction o with
  | nil => rfl
  | cons effect o ih =>
    have hrest := ih fun e hmem => h e (List.mem_cons_of_mem _ hmem)
    have htarget := h effect List.mem_cons_self
    rw [bytesTo_cons, hrest, List.append_nil]
    cases effect with
    | send c' frame =>
      have hne : c' ≠ c := fun heq => hc (heq ▸ htarget.1)
      unfold bytesTo
      rw [framesTo_send, if_neg hne]
      rfl
    | _ => rfl

/-- The frame of an effect, if there is one, fits. -/
def IsSmall : Effect → Prop
  | .send _ frame => SmallFrame frame
  | _ => True

theorem framesTo_small {o : List Effect} (h : ∀ effect ∈ o, IsSmall effect) (c : UInt64) :
    ∀ frame ∈ framesTo c o, SmallFrame frame := by
  induction o with
  | nil => exact nofun
  | cons effect o ih =>
    have hrest := ih fun e hmem => h e (List.mem_cons_of_mem _ hmem)
    have hfirst := h effect List.mem_cons_self
    cases effect with
    | send c' frame =>
      rw [framesTo_send]
      split
      · intro frame' hmem
        rcases List.mem_cons.mp hmem with rfl | hmem
        · exact hfirst
        · exact hrest frame' hmem
      · exact hrest
    | _ => exact hrest

end GameServer

namespace ArenaServer

variable {outside : Outside} {fits : Prop} {o : List ArenaEvent} {s : ArenaServer}

/-! ### What is put out -/

@[simp] theorem serverEvents_append (o o' : List ArenaEvent) :
    serverEvents (o ++ o') = serverEvents o ++ serverEvents o' := List.filterMap_append

@[simp] theorem gameEvents_append (o o' : List ArenaEvent) :
    gameEvents (o ++ o') = gameEvents o ++ gameEvents o' := List.filterMap_append

@[simp] theorem effects_append (o o' : List ArenaEvent) :
    effects (o ++ o') = effects o ++ effects o' := List.filterMap_append

theorem shows_server (es : List ServerEvent) :
    serverEvents (es.map .server) = es ∧ gameEvents (es.map .server) = [] ∧
      effects (es.map .server) = [] := by
  refine ⟨?_, ?_, ?_⟩
  · unfold serverEvents
    rw [List.filterMap_map]
    exact List.filterMap_some
  · unfold gameEvents
    rw [List.filterMap_map]
    exact List.filterMap_eq_nil_iff.mpr fun _ _ => rfl
  · unfold effects
    rw [List.filterMap_map]
    exact List.filterMap_eq_nil_iff.mpr fun _ _ => rfl

/-- What is put out shows the calls `calls` and the effects `es`. -/
structure Shows (s : ArenaServer) (game : GameServer) (calls : List Event) (es : List Effect)
    (next : ArenaServer × List ArenaEvent) : Prop where
  game : next.1.game = game
  inputBuffers : next.1.inputBuffers = s.inputBuffers
  calls : gameEvents next.2 = calls
  effects : effects next.2 = es

theorem Shows.andThen {game game' : GameServer} {calls calls' : List Event} {es es' : List Effect}
    {done : ArenaServer × List ArenaEvent} {next : ArenaServer → ArenaServer × List ArenaEvent}
    (h : Shows s game calls es done) (h' : Shows done.1 game' calls' es' (next done.1)) :
    Shows s game' (calls ++ calls') (es ++ es') (andThen done next) where
  game := h'.game
  inputBuffers := h'.inputBuffers.trans h.inputBuffers
  calls := by
    unfold ArenaServer.andThen
    rw [gameEvents_append, h.calls, h'.calls]
  effects := by
    unfold ArenaServer.andThen
    rw [effects_append, h.effects, h'.effects]

theorem shows_onServer (input : TcpServer.Input) (s : ArenaServer) :
    Shows s s.game [] [] (s.onServer input) :=
  ⟨rfl, rfl, (shows_server _).2.1, (shows_server _).2.2⟩

theorem shows_perform (outside : Outside) (effect : Effect) (s : ArenaServer) :
    Shows s s.game [] [effect] (s.perform outside effect) := by
  have hfirst : Shows s s.game [] [effect] ({ s with asked := s.asked + 1 }, [.effect effect]) :=
    ⟨rfl, rfl, rfl, rfl⟩
  cases effect with
  | send c frame => exact hfirst.andThen (shows_onServer _ _)
  | shutdown c => exact hfirst.andThen (shows_onServer _ _)
  | matchFound event => exact ⟨rfl, rfl, rfl, rfl⟩
  | startBattle room => exact ⟨rfl, rfl, rfl, rfl⟩
  | finishBattle server io state => exact ⟨rfl, rfl, rfl, rfl⟩

theorem shows_performAll (outside : Outside) (es : List Effect) (s : ArenaServer) :
    Shows s s.game [] es (s.performAll outside es) := by
  induction es generalizing s with
  | nil => exact ⟨rfl, rfl, rfl, rfl⟩
  | cons effect es ih =>
    have hfirst := shows_perform outside effect s
    have hrest := ih (s.perform outside effect).1
    rw [hfirst.game] at hrest
    exact hfirst.andThen hrest

theorem shows_handle (outside : Outside) (event : Event) (next : GameServer × List Effect)
    (s : ArenaServer) : Shows s next.1 [event] next.2 (s.handle outside event next) := by
  have hfirst : Shows s next.1 [event] []
      ({ s with game := next.1, asked := s.asked + 1 }, [.called event]) := ⟨rfl, rfl, rfl, rfl⟩
  exact hfirst.andThen (shows_performAll outside next.2 _)

/-! ### What is sent -/

/-- The server is sound, and what was sent over a connection is what the handlers sent to it, up to
the end of the connection. -/
structure Carried (fits : Prop) (o : List ArenaEvent) (server : TcpServer) : Prop where
  inv : server.Inv True fits (serverEvents o)
  sent_le : ∀ id < 2147483647,
    SendEvent.sent (sendings id (serverEvents o)) <+: bytesTo (connId id) (effects o)
  sent_eq : ∀ id < 2147483647, ∀ conn, server.objects id = some conn → conn.state_ = .kConnected →
    SendEvent.sent (sendings id (serverEvents o)) = bytesTo (connId id) (effects o)

/-- No connection is lost, and nothing is called back. -/
structure Acted (fits : Prop) (o : List ArenaEvent) (s : ArenaServer)
    (next : ArenaServer × List ArenaEvent) : Prop where
  carried : Carried fits (o ++ next.2) next.1.server_
  alive : ∀ id conn, s.server_.objects id = some conn →
    ∃ conn', next.1.server_.objects id = some conn'
  notices : ∀ id, notices id (serverEvents next.2) = []

theorem Acted.andThen {done : ArenaServer × List ArenaEvent}
    {next : ArenaServer → ArenaServer × List ArenaEvent} (h : Acted fits o s done)
    (h' : Acted fits (o ++ done.2) done.1 (next done.1)) : Acted fits o s (andThen done next) where
  carried := by
    have hcarried := h'.carried
    rwa [List.append_assoc] at hcarried
  alive id conn hconn := by
    obtain ⟨conn', hconn'⟩ := h.alive id conn hconn
    exact h'.alive id conn' hconn'
  notices id := by
    unfold ArenaServer.andThen
    rw [serverEvents_append, notices_append, h.notices, h'.notices]
    rfl

/-- Nothing happens to the connections. -/
theorem Carried.idle (h : Carried fits o s.server_) {s' : ArenaServer} {o' : List ArenaEvent}
    (hserver : s'.server_ = s.server_) (hevents : serverEvents o' = [])
    (hbytes : ∀ id, bytesTo (connId id) (effects o') = []) : Acted fits o s (s', o') where
  carried := by
    constructor
    · rw [serverEvents_append, hevents, List.append_nil, hserver]
      exact h.inv
    · intro id hid
      rw [serverEvents_append, hevents, List.append_nil, effects_append, bytesTo_append, hbytes,
        List.append_nil]
      exact h.sent_le id hid
    · intro id hid
      rw [serverEvents_append, hevents, List.append_nil, effects_append, bytesTo_append, hbytes,
        List.append_nil, hserver]
      exact h.sent_eq id hid
  alive id conn hconn := ⟨conn, by rw [hserver, hconn]⟩
  notices id := by rw [hevents]; rfl

/-- The connection `id` is asked to send `data`, or to close when there is none. -/
theorem Carried.call (h : Carried fits o s.server_) {id : ℕ} (hid : id < 2147483647)
    {conn : ServerConnection} (hconn : s.server_.objects id = some conn) {data : List UInt8}
    {input : TcpServer.Input} {o₁ : List ArenaEvent} {asked : ℕ}
    (hpossible : s.server_.Possible input) (hclear : input.Clear)
    (hfits : fits → input.Fits s.server_)
    (hcalled : TcpServer.Called s.server_ id conn (if conn.state_ = .kConnected then data else [])
      (s.server_.step input))
    (hevents : serverEvents o₁ = [])
    (hself : bytesTo (connId id) (effects o₁) = data)
    (hothers : ∀ id' < 2147483647, id' ≠ id → bytesTo (connId id') (effects o₁) = []) :
    Acted fits o s (andThen ({ s with asked := asked }, o₁) (onServer input)) := by
  have hshown := shows_server (s.server_.step input).2
  have hserver : ∀ o : List ArenaEvent,
      serverEvents (o ++ (o₁ ++ (s.server_.step input).2.map .server)) =
        serverEvents o ++ (s.server_.step input).2 := by
    intro o
    rw [serverEvents_append, serverEvents_append, hevents, hshown.1, List.nil_append]
  have heffects : effects (o ++ (o₁ ++ (s.server_.step input).2.map .server)) =
      effects o ++ effects o₁ := by
    rw [effects_append, effects_append, hshown.2.2, List.append_nil]
  constructor
  case carried =>
    show Carried fits (o ++ (o₁ ++ (s.server_.step input).2.map .server)) (s.server_.step input).1
    constructor
    · rw [hserver]
      exact h.inv.step hpossible (fun _ => hclear) hfits
    · intro id' hid'
      rw [hserver, heffects, sendings_append, SendEvent.sent_append, bytesTo_append]
      by_cases heq : id' = id
      · subst heq
        rw [hcalled.sent, hself]
        split
        · rename_i hstate
          rw [h.sent_eq id' hid' conn hconn hstate]
        · rw [List.append_nil]
          exact (h.sent_le id' hid').trans (List.prefix_append _ _)
      · rw [(hcalled.others id' heq).2, hothers id' hid' heq, SendEvent.sent_nil, List.append_nil,
          List.append_nil]
        exact h.sent_le id' hid'
    · intro id' hid' conn' hconn' hstate'
      rw [hserver, heffects, sendings_append, SendEvent.sent_append, bytesTo_append]
      by_cases heq : id' = id
      · subst heq
        obtain ⟨conn₀, hconn₀, hstate₀⟩ := hcalled.self
        obtain rfl := Option.some.inj (hconn₀.symm.trans hconn')
        have hstate := hstate₀ hstate'
        rw [hcalled.sent, hself, if_pos hstate, h.sent_eq id' hid' conn hconn hstate]
      · rw [(hcalled.others id' heq).2, hothers id' hid' heq, SendEvent.sent_nil, List.append_nil,
          List.append_nil]
        rw [(hcalled.others id' heq).1] at hconn'
        exact h.sent_eq id' hid' conn' hconn' hstate'
  case alive =>
    intro id' conn' hconn'
    by_cases heq : id' = id
    · subst heq
      obtain ⟨conn₀, hconn₀, -⟩ := hcalled.self
      exact ⟨conn₀, hconn₀⟩
    · exact ⟨conn', (hcalled.others id' heq).1.trans hconn'⟩
  case notices =>
    intro id'
    have hall := hserver []
    rw [List.nil_append] at hall
    show notices id' (serverEvents (o₁ ++ (s.server_.step input).2.map .server)) = []
    rw [hall]
    exact hcalled.notices id'

/-! ### Performing -/

/-- The open connections exist. -/
def Alive (open_ : Finset UInt64) (server : TcpServer) : Prop :=
  ∀ c ∈ open_, ∃ id < 2147483647, connId id = c ∧ ∃ conn, server.objects id = some conn

theorem Acted.alive_open {next : ArenaServer × List ArenaEvent} (h : Acted fits o s next)
    {open_ : Finset UInt64} (hopen : Alive open_ s.server_) : Alive open_ next.1.server_ := by
  intro c hc
  obtain ⟨id, hid, heq, conn, hconn⟩ := hopen c hc
  exact ⟨id, hid, heq, h.alive id conn hconn⟩

theorem bytesTo_send_self (c : UInt64) (frame : Frame) :
    bytesTo c [.send c frame] = frameBytes frame := by
  unfold bytesTo
  rw [framesTo_send, if_pos rfl]
  exact List.append_nil _

theorem bytesTo_send_of_ne {c c' : UInt64} (h : c ≠ c') (frame : Frame) :
    bytesTo c' [.send c frame] = [] := by
  unfold bytesTo
  rw [framesTo_send, if_neg h]
  rfl

section Perform

variable (hfits : fits → outside.Fits) {open_ : Finset UInt64}

include hfits

theorem Carried.perform (h : Carried fits o s.server_) (hopen : Alive open_ s.server_)
    {effect : Effect} (htarget : effect.Targets open_) :
    Acted fits o s (s.perform outside effect) := by
  cases effect with
  | send c frame =>
    obtain ⟨id, hid, rfl, conn, hconn⟩ := hopen c htarget.1
    unfold ArenaServer.perform
    simp only [toNat_connId hid]
    refine h.call hid hconn (Option.isSome_iff_exists.mpr ⟨conn, hconn⟩) trivial
      (fun hf => hfits hf _ _) (h.inv.called_send hconn _ _) rfl (bytesTo_send_self _ frame) ?_
    exact fun id' hid' hne =>
      bytesTo_send_of_ne (fun heq => hne (connId_inj hid hid' heq).symm) frame
  | shutdown c =>
    obtain ⟨id, hid, rfl, conn, hconn⟩ := hopen c htarget
    unfold ArenaServer.perform
    simp only [toNat_connId hid]
    refine h.call hid hconn (Option.isSome_iff_exists.mpr ⟨conn, hconn⟩) trivial
      (fun _ => trivial) ?_ rfl (show bytesTo _ [.shutdown _] = [] from rfl) fun _ _ _ => rfl
    rw [ite_self]
    exact h.inv.called_shutdown hconn
  | matchFound event => exact h.idle rfl rfl fun _ => rfl
  | startBattle room => exact h.idle rfl rfl fun _ => rfl
  | finishBattle server io state => exact h.idle rfl rfl fun _ => rfl

theorem Carried.performAll {es : List Effect} (h : Carried fits o s.server_)
    (hopen : Alive open_ s.server_) (htargets : ∀ effect ∈ es, effect.Targets open_) :
    Acted fits o s (s.performAll outside es) := by
  induction es generalizing o s with
  | nil => exact h.idle rfl rfl fun _ => rfl
  | cons effect es ih =>
    have hfirst := h.perform hfits hopen (htargets effect List.mem_cons_self)
    exact hfirst.andThen (ih hfirst.carried (hfirst.alive_open hopen) fun e hmem =>
      htargets e (List.mem_cons_of_mem _ hmem))

/-- A handler of the game is called that touches open connections only. -/
theorem Carried.handle (h : Carried fits o s.server_) (hopen : Alive open_ s.server_)
    (event : Event) {next : GameServer × List Effect}
    (htargets : ∀ effect ∈ next.2, effect.Targets open_) :
    Acted fits o s (s.handle outside event next) := by
  have hfirst : Acted fits o s
      ({ s with game := next.1, asked := s.asked + 1 }, [.called event]) :=
    h.idle rfl rfl fun _ => rfl
  exact hfirst.andThen (hfirst.carried.performAll hfits (hfirst.alive_open hopen) htargets)

end Perform

end ArenaServer

end ArenaGame
