import ArenaGame.Muduo.Equiv.StageChanges

/-!
# The invariant of a running server

`Inv` says of every connection which stage it is at and what has been called back for it up to now:
the connection callback for a connection that is up, then messages, then the connection callback for
one that is down.  What comes behind is nothing if `once` holds.
-/

namespace ArenaGame

open ChannelIndex

/-- What the user of a server is called back with for one connection. -/
inductive Notice
  | connection (connected : Bool)
  | message (data : List UInt8)
deriving DecidableEq

def ServerEvent.notices (id : ℕ) : ServerEvent → List Notice
  | connectionCallback_ conn connected => if conn = id then [.connection connected] else []
  | messageCallback_ conn data => if conn = id then [.message data] else []
  | _ => []

/-- What has been called back for a connection. -/
def notices (id : ℕ) (events : List ServerEvent) : List Notice :=
  events.flatMap (ServerEvent.notices id)

@[simp] theorem notices_append (id : ℕ) (es es' : List ServerEvent) :
    notices id (es ++ es') = notices id es ++ notices id es' := List.flatMap_append

/-- What a connection has done to its socket. -/
def ServerEvent.sendings (id : ℕ) : ServerEvent → List SendEvent
  | sending conn event => if conn = id then [event] else []
  | _ => []

def sendings (id : ℕ) (events : List ServerEvent) : List SendEvent :=
  events.flatMap (ServerEvent.sendings id)

@[simp] theorem sendings_append (id : ℕ) (es es' : List ServerEvent) :
    sendings id (es ++ es') = sendings id es ++ sendings id es' := List.flatMap_append

theorem notices_map_sending (id id' : ℕ) (es : List SendEvent) :
    notices id' (es.map (.sending id)) = [] := by
  apply List.flatMap_eq_nil_iff.mpr
  intro e hmem
  obtain ⟨event, -, rfl⟩ := List.mem_map.mp hmem
  rfl

theorem sendings_map_sending_self (id : ℕ) (es : List SendEvent) :
    sendings id (es.map (.sending id)) = es := by
  unfold sendings
  rw [List.flatMap_map]
  simp [ServerEvent.sendings]

theorem sendings_map_sending_of_ne {id id' : ℕ} (h : id' ≠ id) (es : List SendEvent) :
    sendings id' (es.map (.sending id)) = [] := by
  apply List.flatMap_eq_nil_iff.mpr
  intro e hmem
  obtain ⟨event, -, rfl⟩ := List.mem_map.mp hmem
  exact if_neg (Ne.symm h)

/-- The events of a run that nobody wants to see. -/
def ServerEvent.Bad : ServerEvent → Prop
  | dangling => True
  | poller _ => True
  | _ => False

/-- What has been called back for a connection at a stage. -/
def Stage.History (once : Prop) : Stage → List Notice → Prop
  | .unborn, cs => cs = []
  | .connecting, cs => cs = []
  | .established, cs => ∃ msgs : List (List UInt8), cs = .connection true :: msgs.map .message
  | _, cs => ∃ (msgs : List (List UInt8)) (rest : List Notice),
      cs = .connection true :: msgs.map .message ++ .connection false :: rest ∧ (once → rest = [])

/-- A callback that may make `handleClose` or `messageCallback_`. -/
def Channel.Callback.hears : Channel.Callback → Bool
  | closeCallback_ => true
  | readCallback_ => true
  | _ => false

/-- Two callbacks of the kind are made for such a report. -/
def Stray (revents : EpollEvents) : Prop :=
  .EPOLLHUP ∈ revents ∧ .EPOLLPRI ∈ revents ∧ .EPOLLIN ∉ revents

instance (revents : EpollEvents) : Decidable (Stray revents) :=
  inferInstanceAs (Decidable (_ ∧ _ ∧ _))

theorem Channel.filter_hears {revents : EpollEvents} (h : ¬ Stray revents) :
    ((Channel.handleEventWithGuard revents).filter Channel.Callback.hears).length ≤ 1 := by
  have hfilter : (Channel.handleEventWithGuard revents).filter Channel.Callback.hears =
      (if .EPOLLHUP ∈ revents ∧ .EPOLLIN ∉ revents then [.closeCallback_] else []) ++
        if .EPOLLIN ∈ revents ∨ .EPOLLPRI ∈ revents then [.readCallback_] else [] := by
    unfold Channel.handleEventWithGuard
    split_ifs <;> rfl
  rw [hfilter]
  by_cases hclose : EpollFlag.EPOLLHUP ∈ revents ∧ EpollFlag.EPOLLIN ∉ revents
  · rw [if_pos hclose, if_neg]
    · exact Nat.le_refl 1
    · rintro (hin | hpri)
      · exact hclose.2 hin
      · exact h ⟨hclose.1, hpri, hclose.2⟩
  · rw [if_neg hclose]
    split
    · exact Nat.le_refl 1
    · exact Nat.zero_le 1

/-- The channels that a loop still has to hear, in the order of their reports. -/
def IoLoop.reports (loop : IoLoop) : List ChannelPtr :=
  (loop.callbacks.filter fun callback => callback.2.hears).map Prod.fst ++
    loop.activeChannels_.map Prod.fst

/-! ### Histories -/

section History

variable {once : Prop} {cs : List Notice}

theorem History.message (h : Stage.established.History once cs) (data : List UInt8) :
    Stage.established.History once (cs ++ [.message data]) := by
  obtain ⟨msgs, rfl⟩ := h
  exact ⟨msgs ++ [data], by simp⟩

theorem History.closed (h : Stage.established.History once cs) :
    Stage.closed.History once (cs ++ [.connection false]) := by
  obtain ⟨msgs, rfl⟩ := h
  exact ⟨msgs, [], by simp, fun _ => rfl⟩

/-- What comes behind the end is left open unless `once` holds. -/
theorem History.behind (h : Stage.closed.History once cs) (honce : ¬ once) (rest : List Notice) :
    Stage.closed.History once (cs ++ rest) := by
  obtain ⟨msgs, rest', rfl, -⟩ := h
  exact ⟨msgs, rest' ++ rest, by simp, fun h => absurd h honce⟩

end History

/-- The bytes that the kernel has accepted, followed by those that wait, are those that were sent. -/
def Flow (events : List SendEvent) : Option ServerConnection → Prop
  | none => SendEvent.written events <+: SendEvent.sent events
  | some conn =>
    SendEvent.written events ++ conn.pending = SendEvent.sent events ∧
      (conn.state_ ≠ .kDisconnected → (conn.isWriting = true ↔ conn.pending ≠ []))

namespace Flow

variable {events : List SendEvent} {conn conn' : ServerConnection}

/-- Nothing is sent or written. -/
theorem congr (h : Flow events (some conn)) (hbuffer : conn'.outputBuffer_ = conn.outputBuffer_)
    (hwriting : conn'.state_ ≠ .kDisconnected →
      conn.state_ ≠ .kDisconnected ∧ conn'.isWriting = conn.isWriting) :
    Flow events (some conn') := by
  have hpending : conn'.pending = conn.pending := congrArg Buffer.readable hbuffer
  refine ⟨?_, fun hstate => ?_⟩
  · rw [hpending]
    exact h.1
  · obtain ⟨hstate', hsame⟩ := hwriting hstate
    rw [hpending, hsame]
    exact h.2 hstate'

/-- What was written is a prefix of what was sent. -/
theorem written_isPrefix {object : Option ServerConnection} (h : Flow events object) :
    SendEvent.written events <+: SendEvent.sent events := by
  cases object with
  | none => exact h
  | some conn => exact ⟨conn.pending, h.1⟩

end Flow

theorem flow_nil {conn : ServerConnection} (hbuffer : conn.outputBuffer_ = .ofSize kInitialSize)
    (hwriting : conn.isWriting = false) : Flow [] (some conn) := by
  have hpending : conn.pending = [] := by
    show conn.outputBuffer_.readable = []
    rw [hbuffer]
    exact Buffer.readable_ofSize _
  refine ⟨hpending, fun _ => ?_⟩
  rw [hwriting, hpending]
  exact iff_of_false Bool.false_ne_true (not_not.mpr rfl)

namespace TcpServer

variable {once fits : Prop} {o es : List ServerEvent} {server server' : TcpServer} {id l : ℕ}

/-! ### Reports -/

/-- Every connection is reported to at most one callback that may end it, and only open connections
are reported. -/
structure Single (server : TcpServer) : Prop where
  reports : ∀ l, (server.loops l).reports.Nodup
  clear : ∀ l, ∀ channel ∈ (server.loops l).activeChannels_, ¬ Stray channel.2
  reading : ∀ l id, .connection id ∈ (server.loops l).reports →
    ∃ conn, server.objects id = some conn ∧ conn.isReading = true ∧ conn.loop_ = l
  added : ∀ id conn, server.objects id = some conn → conn.index_ = kAdded → conn.isReading = true

/-- A loop has got through with some of its reports. -/
theorem Single.setLoop (h : server.Single) {loop : IoLoop}
    (hreports : loop.reports.Sublist (server.loops l).reports)
    (hactive : ∀ channel ∈ loop.activeChannels_, channel ∈ (server.loops l).activeChannels_) :
    (server.setLoop l loop).Single where
  reports l' := by
    rw [loops_setLoop]
    split
    · exact (h.reports l).sublist hreports
    · exact h.reports l'
  clear l' := by
    rw [loops_setLoop]
    split
    · exact fun channel hmem => h.clear l channel (hactive channel hmem)
    · exact h.clear l'
  reading l' id := by
    rw [loops_setLoop]
    split
    · rename_i heq
      rw [heq]
      exact fun hmem => h.reading l id (hreports.subset hmem)
    · exact h.reading l' id
  added := h.added

/-- A connection changes. -/
theorem Single.became {view : View} (h : server.Single) (hb : Became server id view server')
    (hadded : ∀ conn, view.object = some conn → conn.index_ = kAdded → conn.isReading = true)
    (hopen : ∀ l, .connection id ∈ (server.loops l).reports →
      ∃ conn, view.object = some conn ∧ conn.isReading = true ∧ conn.loop_ = l) :
    server'.Single := by
  have hreports : ∀ l, (server'.loops l).reports = (server.loops l).reports := by
    intro l
    unfold IoLoop.reports
    rw [hb.touches.activeChannels_, hb.touches.callbacks]
  have hself : server'.objects id = view.object := congrArg View.object hb.view
  have hobjects : ∀ id' ≠ id, server'.objects id' = server.objects id' :=
    fun id' hid => congrArg View.object (hb.touches.views id' hid)
  constructor
  case reports =>
    intro l
    rw [hreports]
    exact h.reports l
  case clear =>
    intro l
    rw [hb.touches.activeChannels_]
    exact h.clear l
  case reading =>
    intro l id' hmem
    rw [hreports] at hmem
    by_cases hid : id' = id
    · subst hid
      rw [hself]
      exact hopen l hmem
    · rw [hobjects id' hid]
      exact h.reading l id' hmem
  case added =>
    intro id' conn hconn
    by_cases hid : id' = id
    · subst hid
      rw [hself] at hconn
      exact hadded conn hconn
    · rw [hobjects id' hid] at hconn
      exact h.added id' conn hconn

/-! ### The invariant -/

/-- What has nothing to do with the stages. -/
structure Sound (server : TcpServer) : Prop where
  wired : server.Wired
  phased : ∀ l, (server.loops l).Phased
  names : ∀ name id, server.connections_.lookup name = some id → name = server.connName id
  nextConnId_ : 0 < server.nextConnId_
  nextConnId_le : server.nextConnId_ ≤ 2147483647
  baseLoop_ : server.threadPool_.baseLoop_ = 0
  loops_ : server.threadPool_.loops_ = List.range' 1 server.threadPool_.loops_.length

/-- A connection is at a stage, with the callbacks made that belong to it. -/
structure Settled (once fits : Prop) (o : List ServerEvent) (server : TcpServer) (id : ℕ) : Prop where
  stage : ∃ stage, (server.view id).At id stage ∧ stage.History once (notices id o)
  conn : ∀ conn, server.objects id = some conn →
    conn.name_ = server.connName id ∧ server.IsLoop conn.loop_
  flow : fits → Flow (sendings id o) (server.objects id)
  unborn : ¬ (server.view id).created → sendings id o = []

structure Inv (once fits : Prop) (o : List ServerEvent) (server : TcpServer) : Prop
    extends server.Sound where
  settled : ∀ id, server.Settled once fits o id
  single : once → server.Single
  good : ∀ e ∈ o, ¬ e.Bad

theorem Sound.became {view : View} (h : server.Sound) (hb : Became server id view server') :
    server'.Sound where
  wired := hb.wired
  phased l := hb.touches.phased l (h.phased l)
  names name id' hlookup := by
    rw [hb.touches.connName]
    exact h.names name id' (hb.touches.names name id' hlookup)
  nextConnId_ := by
    rw [hb.touches.nextConnId_]
    exact h.nextConnId_
  nextConnId_le := by
    rw [hb.touches.nextConnId_]
    exact h.nextConnId_le
  baseLoop_ := by
    rw [hb.touches.threadPool_]
    exact h.baseLoop_
  loops_ := by
    rw [hb.touches.threadPool_]
    exact h.loops_

/-- A connection whose view is the same as before. -/
theorem Settled.same (h : server.Settled once fits o id) (hview : server'.view id = server.view id)
    (hname : server'.connName id = server.connName id)
    (hloops : server'.threadPool_.loops_.length = server.threadPool_.loops_.length)
    (hes : notices id es = [] ∧ sendings id es = []) : server'.Settled once fits (o ++ es) id where
  stage := by
    rw [notices_append, hes.1, List.append_nil, hview]
    exact h.stage
  flow hfits := by
    rw [sendings_append, hes.2, List.append_nil,
      show server'.objects id = server.objects id from congrArg View.object hview]
    exact h.flow hfits
  unborn := by
    rw [sendings_append, hes.2, List.append_nil, hview]
    exact h.unborn
  conn conn hconn := by
    have hobjects : server'.objects id = server.objects id := congrArg View.object hview
    rw [hobjects] at hconn
    rw [hname]
    unfold IsLoop
    rw [hloops]
    exact h.conn conn hconn

/-- One connection comes to a stage, and nothing is put out about the others. -/
theorem Inv.became (h : server.Inv once fits o) {view : View} (hb : Became server id view server')
    {stage : Stage} (hat : view.At id stage) (hborn : stage ≠ .unborn)
    (hhistory : stage.History once (notices id (o ++ es)))
    (hconn : ∀ conn, view.object = some conn →
      conn.name_ = server.connName id ∧ server.IsLoop conn.loop_)
    (hflow : fits → Flow (sendings id (o ++ es)) view.object) (hsingle : once → server'.Single)
    (hothers : ∀ id' ≠ id, notices id' es = [] ∧ sendings id' es = [])
    (hgood : ∀ e ∈ es, ¬ e.Bad) : server'.Inv once fits (o ++ es) where
  toSound := h.toSound.became hb
  single := hsingle
  settled id' := by
    by_cases hid : id' = id
    · subst hid
      refine ⟨⟨stage, ?_, hhistory⟩, fun conn hobject => ?_, fun hfits => ?_, fun hnot => ?_⟩
      · rw [hb.view]
        exact hat
      · have hobject' : view.object = some conn := by
          rw [← hb.view]
          exact hobject
        unfold IsLoop
        rw [hb.touches.threadPool_, hb.touches.connName]
        exact hconn conn hobject'
      · rw [show server'.objects id' = view.object from congrArg View.object hb.view]
        exact hflow hfits
      · rw [hb.view] at hnot
        exact absurd (hat.created hborn) hnot
    · exact (h.settled id').same (hb.touches.views id' hid) (by rw [hb.touches.connName])
        (by rw [hb.touches.threadPool_]) (hothers id' hid)
  good e hmem := by
    rcases List.mem_append.mp hmem with hmem | hmem
    · exact h.good e hmem
    · exact hgood e hmem

/-- Nothing has changed but what a loop is about to do. -/
theorem Inv.setLoop (h : server.Inv once fits o) {loop : IoLoop}
    (hcalls : ∀ id, loop.calls id = (server.loops l).calls id) (hphased : loop.Phased)
    (hwired : (server.setLoop l loop).Wired) (hsingle : once → (server.setLoop l loop).Single) :
    (server.setLoop l loop).Inv once fits o where
  wired := hwired
  single := hsingle
  phased l' := by
    rw [loops_setLoop]
    split
    · exact hphased
    · exact h.phased l'
  names := h.names
  nextConnId_ := h.nextConnId_
  nextConnId_le := h.nextConnId_le
  baseLoop_ := h.baseLoop_
  loops_ := h.loops_
  settled id := by
    have hview : (server.setLoop l loop).view id = server.view id := by
      rw [view_setLoop, hcalls]
      exact congrArg (fun calls => { server.view id with calls := calls })
        (Function.update_eq_self l (server.view id).calls)
    have hsame : (server.setLoop l loop).Settled once fits (o ++ []) id :=
      (h.settled id).same hview rfl rfl ⟨rfl, rfl⟩
    rwa [List.append_nil] at hsame
  good := h.good

/-- Events that are no callbacks and not bad. -/
theorem Inv.append (h : server.Inv once fits o)
    (hes : ∀ e ∈ es, ¬ e.Bad ∧ ∀ id, e.notices id = [] ∧ e.sendings id = []) :
    server.Inv once fits (o ++ es) where
  toSound := h.toSound
  single := h.single
  settled id := (h.settled id).same rfl rfl rfl
    ⟨List.flatMap_eq_nil_iff.mpr fun e hmem => ((hes e hmem).2 id).1,
      List.flatMap_eq_nil_iff.mpr fun e hmem => ((hes e hmem).2 id).2⟩
  good e hmem := by
    rcases List.mem_append.mp hmem with hmem | hmem
    · exact h.good e hmem
    · exact (hes e hmem).1

/-! ### The operations on a connection -/

section Operations

variable {conn : ServerConnection} (h : server.Inv once fits o) (hconn : server.objects id = some conn)

include h hconn

theorem Inv.sent {sending : SendingConnection × List SendEvent} (hsends : conn.Sends sending)
    (hspec : fits → conn.toSendingConnection.Flows →
      SendingConnection.StepSpec conn.toSendingConnection sending.1 sending.2) :
    (server.sent id conn sending).1.Inv once fits (o ++ (server.sent id conn sending).2) := by
  obtain ⟨hevents, conn', hsending, hloop, hname, -, hadded, hindex, hb⟩ :=
    h.wired.sent hconn hsends.reading
  obtain ⟨stage, hat, hhistory⟩ := (h.settled id).stage
  have hplaced := (h.settled id).conn conn hconn
  rw [hevents]
  apply h.became hb (hat.sent hconn hsends hsending hloop hadded hindex) (hat.born hconn)
  · rwa [notices_append, notices_map_sending, List.append_nil]
  · intro conn₀ hobject
    obtain ⟨hobject', -, -⟩ := View.object_queueAll
      { server.view id with object := some conn' } conn.loop_ (boundCalls id sending.2)
    obtain rfl := Option.some.inj (hobject'.symm.trans hobject)
    rw [hname, hloop]
    exact hplaced
  · intro hfits
    obtain ⟨hobject', -, -⟩ := View.object_queueAll
      { server.view id with object := some conn' } conn.loop_ (boundCalls id sending.2)
    rw [hobject', sendings_append, sendings_map_sending_self]
    have hold : Flow (sendings id o) (some conn) := hconn ▸ (h.settled id).flow hfits
    have hpending : conn'.pending = sending.1.pending :=
      congrArg (fun sending => sending.outputBuffer_.readable) hsending
    have hwriting : conn'.isWriting = sending.1.isWriting :=
      congrArg (fun sending => sending.isWriting) hsending
    show SendEvent.written (sendings id o ++ sending.2) ++ conn'.pending =
        SendEvent.sent (sendings id o ++ sending.2) ∧
      (conn'.state_ ≠ .kDisconnected → (conn'.isWriting = true ↔ conn'.pending ≠ []))
    rw [SendEvent.written_append, SendEvent.sent_append, hpending, hwriting]
    rcases hat.open_or_idle hconn with ⟨-, hopen⟩ | ⟨-, hidle, hstate⟩
    · have hnot : conn.state_ ≠ .kDisconnected := by
        rintro heq
        have hstate := hopen.state
        rw [heq] at hstate
        rcases hstate with h | h <;> cases h
      have hstep := hspec hfits ⟨hopen.state, hold.2 hnot⟩
      refine ⟨?_, fun _ => hstep.flows.isWriting_iff⟩
      rw [List.append_assoc, hstep.flow, ← List.append_assoc]
      exact congrArg (· ++ _) hold.1
    · obtain ⟨hsame, -, hsent, hwritten⟩ := hsends.idle hstate hidle
      rw [hsent, hwritten, List.append_nil, List.append_nil, hsame]
      refine ⟨hold.1, fun hne => hold.2 ?_⟩
      rw [congrArg (fun sending => sending.state_) hsending, hsame] at hne
      exact hne
  · intro ho
    have hone := h.single ho
    obtain ⟨hobject', -, -⟩ := View.object_queueAll
      { server.view id with object := some conn' } conn.loop_ (boundCalls id sending.2)
    have hreading : conn'.isReading = conn.isReading := by
      rw [hsending]
      exact hsends.reading
    refine hone.became hb (fun conn₀ hobject hadded₀ => ?_) fun l hmem => ?_
    · obtain rfl := Option.some.inj (hobject'.symm.trans hobject)
      rw [hreading]
      rcases hat.open_or_idle hconn with ⟨-, hopen⟩ | ⟨-, hidle, hstate⟩
      · exact hopen.reading
      · -- A connection that is not open does not come back into the interest list.
        obtain ⟨hsame, -, -⟩ := hsends.idle hstate hidle
        rw [hindex (by rw [hsame])] at hadded₀
        exact hone.added id conn hconn hadded₀
    · obtain ⟨conn₀, hconn₀, hread₀, hloop₀⟩ := hone.reading l id hmem
      obtain rfl := Option.some.inj (hconn₀.symm.trans hconn)
      exact ⟨conn', hobject', hreading.trans hread₀, hloop.trans hloop₀⟩
  · exact fun id' hid => ⟨notices_map_sending id id' _, sendings_map_sending_of_ne hid _⟩
  · intro e hmem
    obtain ⟨event, -, rfl⟩ := List.mem_map.mp hmem
    exact fun h => h

/-- A connection that the poller knows goes down. -/
theorem Inv.handleClose (hindex : conn.index_ ≠ kNew)
    (honce : once → conn.isReading = true ∧ ∀ l, .connection id ∉ (server.loops l).reports)
    (l : ℕ) :
    (server.handleClose l id conn).1.Inv once fits (o ++ (server.handleClose l id conn).2) := by
  obtain ⟨stage, hat, hhistory⟩ := (h.settled id).stage
  have hplaced := (h.settled id).conn conn hconn
  obtain ⟨hevents, hb⟩ := h.wired.handleClose hconn hplaced.1 l
  obtain ⟨hcreated, hstage⟩ := hat.of_registered hconn hindex
  have hnotices : notices id [.connectionCallback_ id false] = [.connection false] := by
    simp [notices, ServerEvent.notices]
  have hclosed : View.At id ((server.view id).handleClose l conn) .closed ∧
      Stage.closed.History once (notices id o ++ [.connection false]) := by
    rcases hstage with ⟨rfl, hopen⟩ | ⟨rfl, hdown⟩
    · exact ⟨⟨(View.created_handleClose _ l conn).mpr hcreated, conn.wentDown, hopen.handleClose l⟩,
        History.closed hhistory⟩
    · have hnot : ¬ once := fun ho => by
        have hreading := (honce ho).1
        rw [hdown.reading] at hreading
        cases hreading
      exact ⟨⟨(View.created_handleClose _ l conn).mpr hcreated, conn.wentDown, hdown.handleClose l⟩,
        History.behind hhistory hnot _⟩
  rw [hevents]
  apply h.became hb hclosed.1 (by decide)
  · rw [notices_append, hnotices]
    exact hclosed.2
  · intro conn' hobject
    rw [View.object_handleClose] at hobject
    obtain rfl := Option.some.inj hobject
    exact hplaced
  · intro hfits
    have hold : Flow (sendings id o) (some conn) := hconn ▸ (h.settled id).flow hfits
    rw [View.object_handleClose, sendings_append, show sendings id [_] = [] from rfl,
      List.append_nil]
    exact hold.congr rfl fun hstate => absurd rfl hstate
  · intro ho
    obtain ⟨hreading, hnot⟩ := honce ho
    refine (h.single ho).became hb (fun conn' hobject hadded => ?_) fun l hmem => absurd hmem (hnot l)
    rw [View.object_handleClose] at hobject
    obtain rfl := Option.some.inj hobject
    rcases hstage with ⟨-, hopen⟩ | ⟨-, hdown⟩
    · rw [conn.index_wentDown_of_added hopen.index] at hadded
      cases hadded
    · rw [hdown.reading] at hreading
      cases hreading
  · intro id' hid
    exact ⟨by simp [notices, ServerEvent.notices, Ne.symm hid], rfl⟩
  · simp [ServerEvent.Bad]

theorem Inv.handleRead (hindex : conn.index_ ≠ kNew)
    (honce : once → conn.isReading = true ∧ ∀ l, .connection id ∉ (server.loops l).reports)
    (l : ℕ) (result : ReadResult) :
    (server.handleRead l id conn result).1.Inv once fits
      (o ++ (server.handleRead l id conn result).2) := by
  unfold TcpServer.handleRead
  cases result with
  | failed => exact h.append (by simp [ServerEvent.Bad, ServerEvent.notices, ServerEvent.sendings])
  | read data =>
    dsimp only
    split
    · obtain ⟨stage, hat, hhistory⟩ := (h.settled id).stage
      have hplaced := (h.settled id).conn
      have hrefl : Became server id (server.view id) server := ⟨h.wired, .refl server id, rfl⟩
      have hnotices : notices id [.messageCallback_ id data] = [.message data] := by
        simp [notices, ServerEvent.notices]
      apply h.became hrefl hat (hat.born hconn)
      · rw [notices_append, hnotices]
        rcases (hat.of_registered hconn hindex).2 with ⟨rfl, -⟩ | ⟨rfl, hdown⟩
        · exact History.message hhistory data
        · have hnot : ¬ once := fun ho => by
            have hreading := (honce ho).1
            rw [hdown.reading] at hreading
            cases hreading
          exact History.behind hhistory hnot _
      · exact hplaced
      · intro hfits
        rw [sendings_append, show sendings id [_] = [] from rfl, List.append_nil]
        exact (h.settled id).flow hfits
      · exact h.single
      · intro id' hid
        exact ⟨by simp [notices, ServerEvent.notices, Ne.symm hid], rfl⟩
      · simp [ServerEvent.Bad]
    · exact h.handleClose hconn hindex honce l

end Operations

/-! ### Functors -/

/-- A loop takes the next functor of its batch. -/
theorem Inv.popFunctor (h : server.Inv once fits o) {functor : BoundFunctor}
    {functors : List BoundFunctor} (hphase : (server.loops l).phase = .executing)
    (hfunctors : (server.loops l).functors = functor :: functors) :
    ∃ rest, (server.view functor.conn).calls l = functor.call :: rest ∧
      Became server functor.conn ((server.view functor.conn).pop l rest)
        (server.setLoop l { server.loops l with functors := functors }) := by
  have hcalls : (server.loops l).calls functor.conn =
      functor.call :: IoLoop.calls { server.loops l with functors := functors } functor.conn := by
    simp [IoLoop.calls, hfunctors]
  refine ⟨IoLoop.calls { server.loops l with functors := functors } functor.conn, hcalls, ?_, ?_, ?_⟩
  · exact h.wired.setLoop rfl (h.wired.active l) (h.wired.callbacks l)
  · apply Touches.setLoop
    · intro id' hid
      simp [IoLoop.calls, hfunctors, Ne.symm hid]
    · exact fun hphased => ⟨hphased.handling, fun hne => absurd hphase hne⟩
    · rfl
    · rfl
  · exact view_setLoop server l _ functor.conn

/-- Every functor finds its connection, at the stage that it was queued for. -/
theorem Inv.callFunctor (h : server.Inv once fits o) {functor : BoundFunctor}
    {functors : List BoundFunctor} (hphase : (server.loops l).phase = .executing)
    (hfunctors : (server.loops l).functors = functor :: functors) :
    let popped := server.setLoop l { server.loops l with functors := functors }
    (popped.callFunctor functor).1.Inv once fits (o ++ (popped.callFunctor functor).2) := by
  intro popped
  obtain ⟨rest, hpop, hpopped⟩ := h.popFunctor hphase hfunctors
  obtain ⟨id, call⟩ := functor
  have hpop : (server.view id).calls l = call :: rest := hpop
  have hpopped : Became server id ((server.view id).pop l rest) popped := hpopped
  have hmem : call ∈ (server.view id).calls l := hpop ▸ List.mem_cons_self
  obtain ⟨stage, hat, hhistory⟩ := (h.settled id).stage
  obtain ⟨conn, hconn⟩ := hat.object_of_mem hmem
  have hconn : popped.objects id = some conn := hconn
  have hplaced := (h.settled id).conn conn hconn
  have hidle : (popped.loops l).activeChannels_ = [] ∧ (popped.loops l).callbacks = [] := by
    apply (hpopped.touches.phased l (h.phased l)).handling
    rw [show popped.loops l = { server.loops l with functors := functors } from
      loops_setLoop_self _ _ _]
    show (server.loops l).phase ≠ .handling
    rw [hphase]
    exact fun heq => by cases heq
  have hold : fits → Flow (sendings id o) (some conn) :=
    fun hfits => hconn ▸ (h.settled id).flow hfits
  have hkept : call.IsCallback → popped.Inv once fits o := by
    intro hcall
    have hkept : popped.Inv once fits (o ++ []) := h.became hpopped (hat.pop hpop hcall)
      (hat.born hconn) (by rwa [List.append_nil])
      (fun conn₀ hobject => (h.settled id).conn conn₀ hobject)
      (by rw [List.append_nil]; exact (h.settled id).flow)
      (fun ho => (h.single ho).became hpopped
        (fun conn₀ hobject => (h.single ho).added id conn₀ hobject)
        fun l' hin => (h.single ho).reading l' id hin)
      (fun _ _ => ⟨rfl, rfl⟩) (fun e hmem => absurd hmem List.not_mem_nil)
    rwa [List.append_nil] at hkept
  unfold TcpServer.callFunctor deref
  simp only [hconn]
  cases call with
  | connectEstablished =>
    obtain ⟨rfl, hcreated, conn', hconnecting⟩ := hat.of_connectEstablished hmem
    obtain rfl := Option.some.inj (hconnecting.object.symm.trans hconn)
    obtain ⟨hevents, hb⟩ := hpopped.wired.connectEstablished hconn
    rw [hpopped.view] at hb
    rw [hevents]
    apply h.became (hpopped.trans hb)
      (show View.At id _ .established from ⟨hcreated, _, hconnecting.establish hpop⟩) (by decide)
    · have hnone : notices id o = [] := hhistory
      rw [notices_append, hnone]
      exact ⟨[], by simp [notices, ServerEvent.notices]⟩
    · intro conn₀ hobject
      obtain rfl := Option.some.inj hobject
      exact hplaced
    · intro hfits
      rw [sendings_append, show sendings id [_] = [] from rfl, List.append_nil]
      refine (hold hfits).congr rfl fun _ => ⟨?_, rfl⟩
      rw [hconnecting.state]
      exact fun heq => by cases heq
    · intro ho
      refine (h.single ho).became (hpopped.trans hb) (fun conn₀ hobject _ => ?_) fun l' hin => ?_
      · obtain rfl := Option.some.inj hobject
        rfl
      · obtain ⟨conn₀, hconn₀, hread₀, -⟩ := (h.single ho).reading l' id hin
        obtain rfl := Option.some.inj (hconn₀.symm.trans hconn)
        rw [hconnecting.reading] at hread₀
        cases hread₀
    · intro id' hid
      exact ⟨by simp [notices, ServerEvent.notices, Ne.symm hid], rfl⟩
    · simp [ServerEvent.Bad]
  | removeConnectionInLoop =>
    have hname : conn.name_ = popped.connName id := hplaced.1
    have hb := hpopped.wired.removeConnectionInLoop hname
    rw [hpopped.view] at hb
    apply h.became (hpopped.trans hb) (hat.removeConnectionInLoop hpop hconn).2 (hat.born hconn)
    · rwa [List.append_nil]
    · intro conn₀ hobject
      obtain rfl := Option.some.inj (hconn.symm.trans hobject)
      exact hplaced
    · rw [List.append_nil]
      exact (h.settled id).flow
    · exact fun ho => (h.single ho).became (hpopped.trans hb)
        (fun conn₀ hobject => (h.single ho).added id conn₀ hobject)
        fun l' hin => (h.single ho).reading l' id hin
    · exact fun _ _ => ⟨rfl, rfl⟩
    · exact fun e hmem => absurd hmem List.not_mem_nil
  | connectDestroyed =>
    obtain ⟨hstage, rfl, hstate, hreading, hremoved⟩ := hat.connectDestroyed hpop hconn
    obtain ⟨hevents, hb⟩ := hpopped.wired.connectDestroyed hconn
      (by rw [hstate]; exact fun heq => by cases heq) hidle.1 hidle.2
    rw [hpopped.view] at hb
    rw [hevents]
    apply h.became (hpopped.trans hb) hremoved (by decide)
    · rw [List.append_nil]
      rcases hstage with rfl | rfl
      · exact hhistory
      · exact hhistory
    · intro conn₀ hobject
      obtain rfl := Option.some.inj hobject
      exact hplaced
    · intro hfits
      rw [List.append_nil]
      exact (hold hfits).congr rfl fun hne => ⟨hne, rfl⟩
    · intro ho
      refine (h.single ho).became (hpopped.trans hb) (fun conn₀ hobject hadded => ?_)
        fun l' hin => ?_
      · obtain rfl := Option.some.inj hobject
        cases hadded
      · obtain ⟨conn₀, hconn₀, hread₀, -⟩ := (h.single ho).reading l' id hin
        obtain rfl := Option.some.inj (hconn₀.symm.trans hconn)
        rw [hreading] at hread₀
        cases hread₀
    · exact fun _ _ => ⟨rfl, rfl⟩
    · exact fun e hmem => absurd hmem List.not_mem_nil
  | writeCompleteCallback_ =>
    exact (hkept trivial).append
      (by simp [ServerEvent.Bad, ServerEvent.notices, ServerEvent.sendings])
  | highWaterMarkCallback_ len =>
    exact (hkept trivial).append
      (by simp [ServerEvent.Bad, ServerEvent.notices, ServerEvent.sendings])

/-! ### Coming and going -/

section NewConnection

/-- The connection that `newConnection` makes. -/
def nextConn (server : TcpServer) (sockfd : ℕ) : ServerConnection where
  loop_ := server.threadPool_.getNextLoop.1
  name_ := server.connName server.nextConnId_
  fd_ := sockfd
  writeCompleteCallback_ := server.writeCompleteCallback_

/-- The server in `newConnection` before the connection is given to its loop. -/
def opened (server : TcpServer) (sockfd : ℕ) : TcpServer :=
  { server with
    threadPool_ := server.threadPool_.getNextLoop.2
    nextConnId_ := server.nextConnId_ + 1
    connections_ := server.connections_.insert (server.connName server.nextConnId_)
      server.nextConnId_ }.store server.nextConnId_ (server.nextConn sockfd)

theorem newConnection_eq (server : TcpServer) (sockfd : ℕ) :
    server.newConnection sockfd =
      if (server.nextConn sockfd).loop_ = 0 then
        (((server.opened sockfd).connectEstablished server.nextConnId_
            (server.nextConn sockfd)).1,
          .newConnection server.nextConnId_ (server.nextConn sockfd).loop_ ::
            ((server.opened sockfd).connectEstablished server.nextConnId_
              (server.nextConn sockfd)).2)
      else
        ((server.opened sockfd).queueInLoop (server.nextConn sockfd).loop_
            { conn := server.nextConnId_, call := .connectEstablished },
          [.newConnection server.nextConnId_ (server.nextConn sockfd).loop_]) := rfl

theorem loops_getNextLoop (pool : EventLoopThreadPool ℕ) :
    pool.getNextLoop.2.loops_ = pool.loops_ ∧ pool.getNextLoop.2.baseLoop_ = pool.baseLoop_ := by
  unfold EventLoopThreadPool.getNextLoop
  split
  · exact ⟨rfl, rfl⟩
  · exact ⟨rfl, rfl⟩

/-- A new connection is given to the base loop or to a loop of the pool. -/
theorem Sound.isLoop_getNextLoop (h : server.Sound) :
    server.IsLoop server.threadPool_.getNextLoop.1 := by
  unfold EventLoopThreadPool.getNextLoop IsLoop
  split
  · show server.threadPool_.baseLoop_ ≤ _
    rw [h.baseLoop_]
    exact Nat.zero_le _
  · have hbound : ∀ l ∈ server.threadPool_.loops_, l ≤ server.threadPool_.loops_.length := by
      intro l hmem
      rw [h.loops_, List.mem_range'_1] at hmem
      omega
    exact hbound _ (List.getElem_mem _)

theorem view_opened_of_ne (server : TcpServer) (sockfd : ℕ) (hid : id ≠ server.nextConnId_) :
    (server.opened sockfd).view id = server.view id := by
  have hcreated : (0 < id ∧ id < server.nextConnId_ + 1) = (0 < id ∧ id < server.nextConnId_) := by
    apply propext
    omega
  have hmapped : (server.connections_.insert (server.connName server.nextConnId_)
      server.nextConnId_).lookup (server.connName id) =
        server.connections_.lookup (server.connName id) := by
    rw [UnorderedMap.lookup_insert, if_neg fun heq => hid (server.connName_injective heq)]
  have hobject : (server.opened sockfd).objects id = server.objects id :=
    objects_store_of_ne _ _ _ hid
  show View.mk (0 < id ∧ id < server.nextConnId_ + 1) ((server.opened sockfd).objects id)
    ((server.connections_.insert _ _).lookup (server.connName id)) _ = _
  rw [hcreated, hmapped, hobject]
  rfl

variable (h : server.Inv once fits o) {sockfd : ℕ} (hfd : server.Unused sockfd)
  (hnext : server.nextConnId_ < 2147483647)

include h

/-- A number that has not been given to a connection yet. -/
theorem Inv.unborn (hid : server.nextConnId_ ≤ id) :
    (server.view id).Absent ∧ notices id o = [] := by
  obtain ⟨stage, hat, hhistory⟩ := (h.settled id).stage
  have hnot : ¬ (server.view id).created := fun hcreated => Nat.not_lt.mpr hid hcreated.2
  cases stage with
  | unborn => exact ⟨hat.2, hhistory⟩
  | connecting => exact absurd hat.1 hnot
  | established => exact absurd hat.1 hnot
  | closed => exact absurd hat.1 hnot
  | removed => exact absurd hat.1 hnot
  | destroyed => exact absurd hat.1 hnot

variable (sockfd) in
theorem Inv.view_opened :
    (server.opened sockfd).view server.nextConnId_ =
      { created := True
        object := some (server.nextConn sockfd)
        mapped := some server.nextConnId_
        calls := fun _ => [] } := by
  have hcreated : (0 < server.nextConnId_ ∧ server.nextConnId_ < server.nextConnId_ + 1) = True :=
    eq_true ⟨h.nextConnId_, Nat.lt_succ_self _⟩
  have hmapped : (server.connections_.insert (server.connName server.nextConnId_)
      server.nextConnId_).lookup (server.connName server.nextConnId_) =
        some server.nextConnId_ := by
    rw [UnorderedMap.lookup_insert, if_pos rfl]
  have hcalls : (fun l => (server.loops l).calls server.nextConnId_) = fun _ => [] :=
    funext (h.unborn (Nat.le_refl _)).1.calls
  show View.mk (0 < server.nextConnId_ ∧ server.nextConnId_ < server.nextConnId_ + 1)
    ((server.opened sockfd).objects server.nextConnId_)
    ((server.connections_.insert _ _).lookup (server.connName server.nextConnId_))
    (fun l => (server.loops l).calls server.nextConnId_) = _
  rw [hcreated, hmapped, hcalls, show (server.opened sockfd).objects server.nextConnId_ =
    some (server.nextConn sockfd) from objects_store_self _ _ _]

theorem Inv.single_opened (ho : once) : (server.opened sockfd).Single where
  reports := (h.single ho).reports
  clear := (h.single ho).clear
  reading l id hmem := by
    obtain ⟨conn, hconn, hread⟩ := (h.single ho).reading l id hmem
    have hid : id ≠ server.nextConnId_ := by
      rintro rfl
      rw [show server.objects server.nextConnId_ = none from (h.unborn (Nat.le_refl _)).1.object]
        at hconn
      cases hconn
    exact ⟨conn, (objects_store_of_ne _ _ _ hid).trans hconn, hread⟩
  added id conn hconn hadded := by
    by_cases hid : id = server.nextConnId_
    · subst hid
      obtain rfl := Option.some.inj ((objects_store_self _ _ _).symm.trans hconn)
      cases hadded
    · exact (h.single ho).added id conn ((objects_store_of_ne _ _ _ hid).symm.trans hconn) hadded

include hfd hnext

theorem Inv.sound_opened : (server.opened sockfd).Sound where
  wired := by
    have hwired : TcpServer.Wired { server with
        threadPool_ := server.threadPool_.getNextLoop.2
        nextConnId_ := server.nextConnId_ + 1
        connections_ := server.connections_.insert (server.connName server.nextConnId_)
          server.nextConnId_ } :=
      ⟨h.wired.fds, h.wired.acceptFd, h.wired.watches, h.wired.active, h.wired.callbacks⟩
    apply hwired.create (h.unborn (Nat.le_refl _)).1.object rfl hfd.1
    intro id conn hconn heq
    have hconn : server.objects id = some conn := hconn
    have hid : id < server.nextConnId_ := by
      by_contra hnot
      have hnone : server.objects id = none := (h.unborn (Nat.not_lt.mp hnot)).1.object
      rw [hnone] at hconn
      cases hconn
    apply hfd.2 id hid
    rw [hconn]
    exact congrArg some heq
  phased := h.phased
  names name id hlookup := by
    have hlookup : (server.connections_.insert (server.connName server.nextConnId_)
        server.nextConnId_).lookup name = some id := hlookup
    rw [UnorderedMap.lookup_insert] at hlookup
    split at hlookup
    · rename_i hname
      obtain rfl := Option.some.inj hlookup
      exact hname
    · exact h.names name id hlookup
  nextConnId_ := Nat.succ_pos _
  nextConnId_le := hnext
  baseLoop_ := (loops_getNextLoop server.threadPool_).2.trans h.baseLoop_
  loops_ := by
    show server.threadPool_.getNextLoop.2.loops_ = List.range' 1
      server.threadPool_.getNextLoop.2.loops_.length
    rw [(loops_getNextLoop server.threadPool_).1]
    exact h.loops_

/-- A new connection is established, or waits in the loop that it was given to. -/
theorem Inv.newConnection :
    (server.newConnection sockfd).1.Inv once fits (o ++ (server.newConnection sockfd).2) := by
  have hsound := h.sound_opened hfd hnext
  have hview := h.view_opened sockfd
  have hconn : (server.opened sockfd).objects server.nextConnId_ = some (server.nextConn sockfd) :=
    objects_store_self _ _ _
  have hnone := (h.unborn (Nat.le_refl server.nextConnId_)).2
  have hlength : (server.opened sockfd).threadPool_.loops_.length =
      server.threadPool_.loops_.length :=
    congrArg List.length (loops_getNextLoop server.threadPool_).1
  -- Whatever becomes of the new connection, the others are where they were.
  have hbecame : ∀ {view : View} {server' : TcpServer} {stage : Stage} {es : List ServerEvent},
      Became (server.opened sockfd) server.nextConnId_ view server' →
      view.At server.nextConnId_ stage → stage.History once (notices server.nextConnId_ es) →
      (∀ conn, view.object = some conn →
        conn.name_ = server.connName server.nextConnId_ ∧
          conn.loop_ = (server.nextConn sockfd).loop_ ∧
          (conn.index_ = kAdded → conn.isReading = true)) →
      (fits → Flow [] view.object) → (∀ id, sendings id es = []) →
      (∀ id ≠ server.nextConnId_, notices id es = []) → (∀ e ∈ es, ¬ e.Bad) →
      server'.Inv once fits (o ++ es) := by
    intro view server' stage es hb hat hhistory hplaced hflow hsilent hothers hgood
    refine ⟨hsound.became hb, fun id => ?_, fun ho => ?_, fun e hmem => ?_⟩
    · by_cases hid : id = server.nextConnId_
      · subst hid
        have hnoneSent : sendings server.nextConnId_ (o ++ es) = [] := by
          rw [sendings_append, hsilent, List.append_nil]
          exact (h.settled server.nextConnId_).unborn fun hcreated =>
            Nat.lt_irrefl _ hcreated.2
        refine ⟨⟨stage, hb.view ▸ hat, ?_⟩, fun conn hobject => ?_, fun hfits => ?_,
          fun _ => hnoneSent⟩
        · rwa [notices_append, hnone, List.nil_append]
        · obtain ⟨hname, hloop, -⟩ := hplaced conn (by rw [← hb.view]; exact hobject)
          unfold IsLoop
          rw [hb.touches.connName, hb.touches.threadPool_, hlength, hloop]
          exact ⟨hname, h.isLoop_getNextLoop⟩
        · rw [hnoneSent, show server'.objects server.nextConnId_ = view.object from
            congrArg View.object hb.view]
          exact hflow hfits
      · exact (h.settled id).same
          ((hb.touches.views id hid).trans (server.view_opened_of_ne sockfd hid))
          (by rw [hb.touches.connName]; rfl) (by rw [hb.touches.threadPool_, hlength])
          ⟨hothers id hid, hsilent id⟩
    · refine (h.single_opened ho).became hb (fun conn hobject => (hplaced conn hobject).2.2)
        fun l hin => ?_
      obtain ⟨conn, hconn', -⟩ := (h.single ho).reading l server.nextConnId_ hin
      rw [show server.objects server.nextConnId_ = none from (h.unborn (Nat.le_refl _)).1.object]
        at hconn'
      cases hconn'
    · rcases List.mem_append.mp hmem with hmem | hmem
      · exact h.good e hmem
      · exact hgood e hmem
  rw [newConnection_eq]
  split
  · obtain ⟨hevents, hb⟩ := hsound.wired.connectEstablished hconn
    rw [hview] at hb
    rw [hevents]
    apply hbecame hb (show View.At server.nextConnId_ _ .established from ⟨trivial, _, rfl,
      Or.inl rfl, rfl, rfl, rfl, fun _ _ hmem => absurd hmem List.not_mem_nil⟩)
    · exact ⟨[], by simp [notices, ServerEvent.notices]⟩
    · intro conn hobject
      obtain rfl := Option.some.inj hobject
      exact ⟨rfl, rfl, fun _ => rfl⟩
    · exact fun _ => flow_nil rfl rfl
    · exact fun _ => rfl
    · intro id hid
      simp [notices, ServerEvent.notices, Ne.symm hid]
    · simp [ServerEvent.Bad]
  · have hb := hsound.wired.queueInLoop (server.nextConn sockfd).loop_
      { conn := server.nextConnId_, call := .connectEstablished }
    rw [hview] at hb
    have hwaits : View.At server.nextConnId_ (View.queue
        { created := True
          object := some (server.nextConn sockfd)
          mapped := some server.nextConnId_
          calls := fun _ => [] } (server.nextConn sockfd).loop_ .connectEstablished)
        .connecting := by
      refine ⟨trivial, server.nextConn sockfd, rfl, rfl, rfl, rfl, rfl, rfl, ?_, fun l hl => ?_⟩
      · rw [View.calls_queue, if_pos rfl]
        rfl
      · rw [View.calls_queue, if_neg hl]
    apply hbecame hb hwaits
    · rfl
    · intro conn hobject
      obtain rfl := Option.some.inj hobject
      exact ⟨rfl, rfl, fun hadded => by cases hadded⟩
    · exact fun _ => flow_nil rfl rfl
    · exact fun _ => rfl
    · exact fun _ _ => rfl
    · simp [ServerEvent.Bad]

end NewConnection

/-- Only a connection that has been removed is destroyed. -/
theorem Inv.removed_of_unreferenced (h : server.Inv once fits o) {conn : ServerConnection}
    (hconn : server.objects id = some conn) (hunreferenced : server.Unreferenced id) :
    (server.view id).created ∧ (server.view id).Removed conn ∧
      Stage.removed.History once (notices id o) ∧ ∀ l, (server.view id).calls l = [] := by
  obtain ⟨stage, hat, hhistory⟩ := (h.settled id).stage
  have hloop := ((h.settled id).conn conn hconn).2
  have hunmapped : (server.view id).mapped ≠ some id := fun hmapped =>
    hunreferenced.1 ((UnorderedMap.mem_values server.connections_).mpr ⟨_, hmapped⟩)
  have hcalls : ∀ l, server.IsLoop l → ∀ call, call ∉ (server.view id).calls l := by
    intro l hl call hmem
    obtain ⟨functor, hfunctor, -⟩ := List.mem_map.mp hmem
    obtain ⟨hin, heq⟩ := List.mem_filter.mp hfunctor
    exact (hunreferenced.2 l hl).1 functor hin (of_decide_eq_true heq)
  rcases hat.of_object hconn with
    ⟨hcreated, ⟨-, hat⟩ | ⟨-, hat⟩ | ⟨-, hat⟩ | ⟨rfl, hremoved⟩⟩
  · exact absurd hat.mapped hunmapped
  · exact absurd hat.mapped hunmapped
  · rcases hat.pending with ⟨hmapped, -⟩ | ⟨-, hmem⟩
    · exact absurd hmapped hunmapped
    · exact absurd hmem (hcalls _ hloop _)
  · refine ⟨hcreated, hremoved, hhistory, fun l =>
      List.eq_nil_iff_forall_not_mem.mpr fun call hmem => ?_⟩
    -- What waits for a connection that is down waits in a loop of the server.
    have hdown := hremoved.calls l call hmem
    refine hcalls l ?_ call hmem
    cases call with
    | connectEstablished => exact hdown.elim
    | removeConnectionInLoop =>
      obtain rfl : l = 0 := hdown
      exact Nat.zero_le _
    | connectDestroyed =>
      obtain rfl : l = conn.loop_ := hdown
      exact hloop
    | writeCompleteCallback_ =>
      obtain rfl : l = conn.loop_ := hdown
      exact hloop
    | highWaterMarkCallback_ len =>
      obtain rfl : l = conn.loop_ := hdown
      exact hloop

theorem Inv.destroy (h : server.Inv once fits o) {conn : ServerConnection}
    (hconn : server.objects id = some conn) (hunreferenced : server.Unreferenced id) :
    ({ server with objects := Function.update server.objects id none }.setLoop conn.loop_
      { server.loops conn.loop_ with
        poller_ := (server.loops conn.loop_).poller_.close conn.fd_ }).Inv once fits o := by
  obtain ⟨hcreated, hat, hhistory, hcalls⟩ := h.removed_of_unreferenced hconn hunreferenced
  have hdestroyed : Touches server
      { server with objects := Function.update server.objects id none } id :=
    { views := fun id' hid => by
        have hobject : Function.update server.objects id none id' = server.objects id' :=
          Function.update_of_ne hid _ _
        exact congrArg (fun object => { server.view id' with object := object }) hobject
      names := fun _ _ h => h
      nextConnId_ := rfl
      threadPool_ := rfl
      connName := rfl
      phased := fun _ h => h
      activeChannels_ := fun _ => rfl
      callbacks := fun _ => rfl }
  have hview : TcpServer.view
      { server with objects := Function.update server.objects id none } id =
        { server.view id with object := none } :=
    congrArg (fun object => { server.view id with object := object })
      (Function.update_self id (none : Option ServerConnection) server.objects)
  have hb : Became server id { server.view id with object := none }
      ({ server with objects := Function.update server.objects id none }.setLoop conn.loop_
        { server.loops conn.loop_ with
          poller_ := (server.loops conn.loop_).poller_.close conn.fd_ }) :=
    ⟨h.wired.destroy hconn hat.index, hdestroyed.trans (Touches.setPoller _ id _ _),
      (view_setPoller _ id _ _).trans hview⟩
  have hgone : TcpServer.Inv once fits (o ++ []) _ := h.became hb
    (show View.At id _ .destroyed from ⟨hcreated, rfl, hat.mapped, hcalls⟩) (by decide)
    (by rwa [List.append_nil]) (fun _ h => (nomatch h))
    (fun hfits => by
      rw [List.append_nil]
      exact ((h.settled id).flow hfits).written_isPrefix)
    (fun ho => (h.single ho).became hb (fun _ h => (nomatch h)) fun l hin => by
      obtain ⟨conn', hconn', hread, -⟩ := (h.single ho).reading l id hin
      obtain rfl := Option.some.inj (hconn'.symm.trans hconn)
      rw [hat.reading] at hread
      cases hread)
    (fun _ _ => ⟨rfl, rfl⟩) (fun e hmem => absurd hmem List.not_mem_nil)
  rwa [List.append_nil] at hgone

/-! ### Callbacks of the channels -/

/-- Each callback finds its connection. -/
theorem Inv.callBack (h : server.Inv once fits o) {ptr : ChannelPtr} (hreg : server.Registered l ptr)
    {calls : SystemCalls} (haccept : server.Accepts calls.accept) (callback : Channel.Callback)
    (hfits : fits → callback = .writeCallback_ → ∀ id conn, ptr = .connection id →
      server.objects id = some conn → calls.write.Fits conn.outputBuffer_.readableBytes)
    (honce : once → callback.hears = true → ∀ id conn, ptr = .connection id →
      server.objects id = some conn →
        conn.isReading = true ∧ ∀ l, .connection id ∉ (server.loops l).reports) :
    (server.callBack l calls (ptr, callback)).1.Inv once fits
      (o ++ (server.callBack l calls (ptr, callback)).2) := by
  cases ptr with
  | acceptChannel_ =>
    have hsame : server.Inv once fits (o ++ []) := by rwa [List.append_nil]
    cases callback with
    | closeCallback_ => exact hsame
    | errorCallback_ => exact hsame
    | writeCallback_ => exact hsame
    | readCallback_ =>
      unfold TcpServer.callBack TcpServer.accept
      cases hcall : calls.accept with
      | none =>
        exact h.append (by simp [ServerEvent.Bad, ServerEvent.notices, ServerEvent.sendings])
      | some connfd =>
        rw [hcall] at haccept
        exact h.newConnection haccept.1 haccept.2
  | connection id =>
    obtain ⟨conn, hconn, -, hindex⟩ := hreg
    unfold TcpServer.callBack deref
    simp only [hconn]
    cases callback with
    | closeCallback_ =>
      exact h.handleClose hconn hindex (fun ho => honce ho rfl id conn rfl hconn) l
    | errorCallback_ =>
      exact h.append (by simp [ServerEvent.Bad, ServerEvent.notices, ServerEvent.sendings])
    | readCallback_ =>
      exact h.handleRead hconn hindex (fun ho => honce ho rfl id conn rfl hconn) l _
    | writeCallback_ =>
      exact h.sent hconn (conn.toSendingConnection.sends_handleWrite _) fun hf hflows =>
        SendingConnection.handleWrite_step hflows (hfits hf rfl id conn rfl hconn)

end TcpServer

end ArenaGame
