import ArenaGame.Muduo.Equiv.ServerRuns

/-!
# The calls of the user and the steps of the loops

A call of `send` or `shutdown` changes one connection, and calls nothing back (`Called`).  The steps
of the loops send nothing by themselves, and they do not open a connection again that is closing
(`Steady`).  So what a run sends over a connection is what the calls hand over to it (`handed`).
-/

namespace ArenaGame

namespace SendingConnection

variable (conn : SendingConnection)

/-- A connection that is not connected does not become so. -/
theorem state_send (data : List UInt8) (result : WriteResult) :
    (conn.send data result).1.state_ = conn.state_ := by
  unfold send
  split
  · exact (conn.sendInLoop_frame data result).2
  · rfl

theorem state_shutdown : conn.shutdown.1.state_ ≠ .kConnected := by
  unfold shutdown
  split
  · rw [(shutdownInLoop_frame _).2]
    exact StateE.noConfusion
  · assumption

end SendingConnection

namespace TcpServer

variable {once fits : Prop} {o : List ServerEvent} {server : TcpServer} {id l : ℕ}
  {conn : ServerConnection} {next : TcpServer × List ServerEvent}

/-! ### Calls of the user -/

theorem deref_of_some {access : ServerConnection → TcpServer × List ServerEvent}
    (hconn : server.objects id = some conn) : server.deref id access = access conn := by
  unfold deref
  rw [hconn]

/-- `data` has been sent over the connection, and nothing else has changed. -/
structure Called (server : TcpServer) (id : ℕ) (conn : ServerConnection) (data : List UInt8)
    (next : TcpServer × List ServerEvent) : Prop where
  sent : SendEvent.sent (sendings id next.2) = data
  notices : ∀ id', notices id' next.2 = []
  self : ∃ conn', next.1.objects id = some conn' ∧
    (conn'.state_ = .kConnected → conn.state_ = .kConnected)
  others : ∀ id' ≠ id, next.1.objects id' = server.objects id' ∧ sendings id' next.2 = []

theorem Wired.called (h : server.Wired) (hconn : server.objects id = some conn)
    {sending : SendingConnection × List SendEvent} (hreading : sending.1.isReading = conn.isReading)
    (hstate : sending.1.state_ = .kConnected → conn.state_ = .kConnected) :
    Called server id conn (SendEvent.sent sending.2) (server.sent id conn sending) := by
  obtain ⟨hevents, conn', hsending, -, -, -, -, -, hb⟩ := h.sent hconn hreading
  obtain ⟨hobject, -, -⟩ := View.object_queueAll
    { server.view id with object := some conn' } conn.loop_ (boundCalls id sending.2)
  constructor
  · rw [hevents, sendings_map_sending_self]
  · intro id'
    rw [hevents, notices_map_sending]
  · refine ⟨conn', (congrArg View.object hb.view).trans hobject, fun hconnected => hstate ?_⟩
    rw [← hsending]
    exact hconnected
  · intro id' hid
    rw [hevents, sendings_map_sending_of_ne hid]
    exact ⟨congrArg View.object (hb.touches.views id' hid), rfl⟩

theorem Inv.called_send (h : server.Inv once fits o) (hconn : server.objects id = some conn)
    (data : List UInt8) (result : WriteResult) :
    Called server id conn (if conn.state_ = .kConnected then data else [])
      (server.step (.send id data result)) := by
  rw [← conn.sent_send data result,
    show server.step (.send id data result) = server.send id conn data result from
      deref_of_some hconn]
  exact h.wired.called hconn (conn.sends_send data result).reading fun hconnected =>
    (conn.state_send data result).symm.trans hconnected

theorem Inv.called_shutdown (h : server.Inv once fits o) (hconn : server.objects id = some conn) :
    Called server id conn [] (server.step (.shutdown id)) := by
  rw [← conn.sent_shutdown,
    show server.step (.shutdown id) = server.shutdown id conn from deref_of_some hconn]
  exact h.wired.called hconn conn.sends_shutdown.reading fun hconnected =>
    absurd hconnected conn.state_shutdown

/-! ### Steps of the loops -/

/-- No connection is lost, nothing is sent, and only the callback that it is up makes a connection
connected. -/
structure Steady (server : TcpServer) (next : TcpServer × List ServerEvent) : Prop where
  alive : ∀ id conn, server.objects id = some conn → ∃ conn', next.1.objects id = some conn'
  state : ∀ id conn', next.1.objects id = some conn' → conn'.state_ = .kConnected →
    (∃ conn, server.objects id = some conn ∧ conn.state_ = .kConnected) ∨
      .connectionCallback_ id true ∈ next.2
  sent : ∀ id, SendEvent.sent (sendings id next.2) = []

theorem Steady.of_objects (hobjects : next.1.objects = server.objects)
    (hsent : ∀ id, SendEvent.sent (sendings id next.2) = []) : Steady server next where
  alive id conn hconn := ⟨conn, by rw [hobjects, hconn]⟩
  state id conn' hconn' hstate := Or.inl ⟨conn', by rw [← hobjects, hconn'], hstate⟩
  sent := hsent

theorem Steady.of_update {conn' : ServerConnection}
    (hobjects : next.1.objects = Function.update server.objects id (some conn'))
    (hstate : conn'.state_ = .kConnected →
      (∃ conn, server.objects id = some conn ∧ conn.state_ = .kConnected) ∨
        .connectionCallback_ id true ∈ next.2)
    (hsent : ∀ id, SendEvent.sent (sendings id next.2) = []) : Steady server next where
  alive id' conn hconn := by
    rw [hobjects, Function.update_apply]
    split
    · exact ⟨conn', rfl⟩
    · exact ⟨conn, hconn⟩
  state id' conn₀ hconn₀ hconnected := by
    rw [hobjects, Function.update_apply] at hconn₀
    split at hconn₀
    · rename_i heq
      rw [heq]
      obtain rfl := Option.some.inj hconn₀
      exact hstate hconnected
    · exact Or.inl ⟨conn₀, hconn₀, hconnected⟩
  sent := hsent

theorem Steady.trans {next' : TcpServer × List ServerEvent} (h : Steady server next)
    (h' : Steady next.1 next') : Steady server (next'.1, next.2 ++ next'.2) where
  alive id conn hconn := by
    obtain ⟨conn', hconn'⟩ := h.alive id conn hconn
    exact h'.alive id conn' hconn'
  state id conn'' hconn'' hstate'' := by
    rcases h'.state id conn'' hconn'' hstate'' with ⟨conn', hconn', hstate'⟩ | hmem
    · rcases h.state id conn' hconn' hstate' with hbefore | hmem
      · exact Or.inl hbefore
      · exact Or.inr (List.mem_append_left _ hmem)
    · exact Or.inr (List.mem_append_right _ hmem)
  sent id := by
    show SendEvent.sent (sendings id (next.2 ++ next'.2)) = []
    rw [sendings_append, SendEvent.sent_append, h.sent, h'.sent]
    rfl

/-- What comes behind changes no connection. -/
theorem Steady.and_then (h : Steady server next) {server' : TcpServer}
    (hobjects : server'.objects = next.1.objects) : Steady server (server', next.2) where
  alive id conn hconn := by
    rw [hobjects]
    exact h.alive id conn hconn
  state id conn' hconn' hstate := h.state id conn' (by rw [← hobjects]; exact hconn') hstate
  sent := h.sent

theorem Steady.deref {access : ServerConnection → TcpServer × List ServerEvent}
    (h : ∀ conn, server.objects id = some conn → Steady server (access conn)) :
    Steady server (server.deref id access) := by
  unfold TcpServer.deref
  split
  · exact .of_objects rfl fun _ => rfl
  · rename_i conn hconn
    exact h conn hconn

theorem sendings_map_poller (id : ℕ) (es : List PollerEvent) :
    sendings id (es.map .poller) = [] := by
  apply List.flatMap_eq_nil_iff.mpr
  intro e hmem
  obtain ⟨event, -, rfl⟩ := List.mem_map.mp hmem
  rfl

theorem objects_updateChannel (server : TcpServer) (id : ℕ) (conn : ServerConnection) :
    ∃ index, (server.updateChannel id conn).1.objects =
      Function.update server.objects id (some { conn with index_ := index }) := ⟨_, rfl⟩

/-- A channel is updated, and a callback made. -/
theorem sent_notified (server : TcpServer) (id : ℕ) (conn : ServerConnection) (connected : Bool)
    (id' : ℕ) :
    SendEvent.sent (sendings id'
      ((server.updateChannel id conn).2 ++ [.connectionCallback_ id connected])) = [] := by
  rw [sendings_append, SendEvent.sent_append]
  show SendEvent.sent (sendings id' (List.map _ _)) ++ [] = []
  rw [sendings_map_poller]
  rfl

theorem steady_connectEstablished (server : TcpServer) (id : ℕ) (conn : ServerConnection) :
    Steady server (server.connectEstablished id conn) := by
  obtain ⟨index, hobjects⟩ := server.objects_updateChannel id
    { conn with toTcpConnection := conn.toTcpConnection.connectEstablished }
  exact .of_update hobjects (fun _ => Or.inr (List.mem_append_right _ (List.mem_singleton.mpr rfl)))
    (server.sent_notified id _ true)

theorem steady_goDown (server : TcpServer) (id : ℕ) (conn : ServerConnection) :
    Steady server (server.goDown id conn) := by
  obtain ⟨index, hobjects⟩ := server.objects_updateChannel id
    { conn with toTcpConnection := conn.toTcpConnection.handleClose }
  exact .of_update hobjects nofun (server.sent_notified id _ false)

theorem steady_handleClose (server : TcpServer) (l id : ℕ) (conn : ServerConnection) :
    Steady server (server.handleClose l id conn) := by
  refine (server.steady_goDown id conn).and_then ?_
  unfold removeConnection
  split
  · rfl
  · rfl

theorem steady_connectDestroyed (server : TcpServer) (id : ℕ) (conn : ServerConnection) :
    Steady server (server.connectDestroyed id conn) := by
  have hremoved : ∀ server : TcpServer,
      Steady server (server.deref id fun conn => server.removeChannel id conn) :=
    fun server => .deref fun conn hconn =>
      .of_update rfl (fun hstate => Or.inl ⟨conn, hconn, hstate⟩) fun id' =>
        congrArg SendEvent.sent (sendings_map_poller id' _)
  unfold connectDestroyed
  by_cases hstate : conn.state_ = .kConnected
  · simp only [if_pos hstate]
    exact (server.steady_goDown id conn).trans (hremoved _)
  · simp only [if_neg hstate, List.nil_append]
    exact hremoved server

theorem objects_queueAll (server : TcpServer) (l : ℕ) (functors : List BoundFunctor) :
    (functors.foldl (fun server functor => server.queueInLoop l functor) server).objects =
      server.objects := by
  induction functors generalizing server with
  | nil => rfl
  | cons functor functors ih => exact ih (server.queueInLoop l functor)

theorem steady_handleWrite (hconn : server.objects id = some conn) (result : WriteResult) :
    Steady server (server.handleWrite id conn result) := by
  have hstate : (conn.toSendingConnection.handleWrite result).1.state_ = conn.state_ :=
    (conn.toSendingConnection.handleWrite_frame result).2
  have hsent : ∀ id', SendEvent.sent (sendings id'
      ((conn.toSendingConnection.handleWrite result).2.map (.sending id))) = [] := by
    intro id'
    by_cases hid : id' = id
    · rw [hid, sendings_map_sending_self, conn.toSendingConnection.sent_handleWrite]
    · rw [sendings_map_sending_of_ne hid]
      rfl
  unfold handleWrite TcpServer.sent
  dsimp only
  split
  · refine .of_update (objects_queueAll ..) (fun h => Or.inl ⟨conn, hconn, hstate.symm.trans h⟩) ?_
    intro id'
    rw [sendings_append, SendEvent.sent_append, hsent]
    show SendEvent.sent (sendings id' (List.map _ _)) = []
    rw [sendings_map_poller]
    rfl
  · refine .of_update (objects_queueAll ..) (fun h => Or.inl ⟨conn, hconn, hstate.symm.trans h⟩) ?_
    intro id'
    rw [List.append_nil]
    exact hsent id'

theorem steady_newConnection (server : TcpServer) (sockfd : ℕ) :
    Steady server (server.newConnection sockfd) := by
  have hopened : ∀ {server' : TcpServer} {es : List ServerEvent},
      server'.objects = (server.opened sockfd).objects → (∀ id, sendings id es = []) →
      Steady server (server', es) := fun hobjects hes =>
    .of_update hobjects nofun fun id => by rw [hes id]; rfl
  rw [newConnection_eq]
  split
  · have hfirst : Steady server (server.opened sockfd, []) := hopened rfl fun _ => rfl
    have hup := hfirst.trans
      ((server.opened sockfd).steady_connectEstablished server.nextConnId_ (server.nextConn sockfd))
    exact ⟨hup.alive, fun id conn hconn hstate =>
      (hup.state id conn hconn hstate).imp_right (List.mem_cons_of_mem _), hup.sent⟩
  · exact hopened rfl fun _ => rfl

theorem steady_callBack (server : TcpServer) (l : ℕ) (calls : SystemCalls)
    (callback : ChannelPtr × Channel.Callback) :
    Steady server (server.callBack l calls callback) := by
  obtain ⟨ptr, callback⟩ := callback
  cases ptr with
  | acceptChannel_ =>
    cases callback with
    | closeCallback_ => exact .of_objects rfl fun _ => rfl
    | errorCallback_ => exact .of_objects rfl fun _ => rfl
    | writeCallback_ => exact .of_objects rfl fun _ => rfl
    | readCallback_ =>
      unfold callBack accept
      cases calls.accept with
      | none => exact .of_objects rfl fun _ => rfl
      | some connfd => exact server.steady_newConnection connfd
  | connection id =>
    refine Steady.deref fun conn hconn => ?_
    cases callback with
    | closeCallback_ => exact server.steady_handleClose l id conn
    | errorCallback_ => exact .of_objects rfl fun _ => rfl
    | writeCallback_ => exact steady_handleWrite hconn calls.write
    | readCallback_ =>
      unfold handleRead
      cases calls.readFd with
      | failed => exact .of_objects rfl fun _ => rfl
      | read data =>
        dsimp only
        split
        · exact .of_objects rfl fun _ => rfl
        · exact server.steady_handleClose l id conn

theorem steady_callFunctor (server : TcpServer) (functor : BoundFunctor) :
    Steady server (server.callFunctor functor) := by
  refine Steady.deref fun conn hconn => ?_
  cases functor.call with
  | connectEstablished => exact server.steady_connectEstablished functor.conn conn
  | removeConnectionInLoop => exact .of_objects rfl fun _ => rfl
  | connectDestroyed => exact server.steady_connectDestroyed functor.conn conn
  | writeCompleteCallback_ => exact .of_objects rfl fun _ => rfl
  | highWaterMarkCallback_ len => exact .of_objects rfl fun _ => rfl

theorem steady_step {input : Input} (hloop : input.FromLoop)
    (hdestroy : ∀ id, input ≠ .destroy id) : Steady server (server.step input) := by
  -- What a loop puts away for itself is not seen here.
  have hpop : ∀ {l : ℕ} {loop : IoLoop} {next : TcpServer × List ServerEvent},
      Steady (server.setLoop l loop) next → Steady server next := fun h =>
    ⟨h.alive, h.state, h.sent⟩
  cases input with
  | poll l ready => exact .of_objects rfl fun _ => rfl
  | handleEvent l =>
    unfold step
    dsimp only
    split
    · exact .of_objects rfl fun _ => rfl
    · unfold handleEvent
      dsimp only
      split
      · exact .of_objects rfl fun _ => rfl
      · exact hpop (.deref fun _ _ => .of_objects rfl fun _ => rfl)
  | callBack l calls =>
    unfold step
    dsimp only
    split
    · exact .of_objects rfl fun _ => rfl
    · exact hpop (steady_callBack _ l calls _)
  | doPendingFunctors l => exact .of_objects rfl fun _ => rfl
  | callFunctor l =>
    unfold step
    dsimp only
    split
    · exact .of_objects rfl fun _ => rfl
    · exact hpop (steady_callFunctor _ _)
  | pollAgain l => exact .of_objects rfl fun _ => rfl
  | send id data result => exact hloop.elim
  | shutdown id => exact hloop.elim
  | destroy id => exact absurd rfl (hdestroy id)

/-! ### What is sent -/

/-- What a call of `send` hands over to the connection `id`, if it is `kConnected`. -/
def handedBy (server : TcpServer) (id : ℕ) : Input → List UInt8
  | .send id' data _ =>
    if id' = id ∧ (server.objects id).any (fun conn => conn.state_ = .kConnected) then data else []
  | _ => []

/-- The strings that are passed to `send` of the connection `id` while it is `kConnected`. -/
def handed (id : ℕ) : TcpServer → List Input → List UInt8
  | _, [] => []
  | server, input :: is => server.handedBy id input ++ handed id (server.step input).1 is

theorem sendings_sent (server : TcpServer) (id : ℕ) (conn : ServerConnection)
    (sending : SendingConnection × List SendEvent) (id' : ℕ) :
    sendings id' (server.sent id conn sending).2 = if id' = id then sending.2 else [] := by
  have hsending : sendings id' (sending.2.map (.sending id)) =
      if id' = id then sending.2 else [] := by
    split
    · rename_i heq
      rw [heq, sendings_map_sending_self]
    · rename_i hne
      exact sendings_map_sending_of_ne hne _
  unfold TcpServer.sent
  dsimp only
  split
  · rw [sendings_append, hsending]
    show _ ++ sendings id' (List.map _ _) = _
    rw [sendings_map_poller, List.append_nil]
  · rw [List.append_nil, hsending]

/-- The calls that are put out are those that are made. -/
theorem sent_step (server : TcpServer) (id : ℕ) (input : Input) :
    SendEvent.sent (sendings id (server.step input).2) = server.handedBy id input := by
  have hloop : ∀ own : Input, own.FromLoop → (∀ id, own ≠ .destroy id) →
      SendEvent.sent (sendings id (server.step own).2) = [] :=
    fun _ hfrom hdestroy => (steady_step hfrom hdestroy).sent id
  cases input with
  | send id' data result =>
    show SendEvent.sent (sendings id (server.deref id' _).2) = if _ then data else []
    unfold deref
    cases hconn : server.objects id' with
    | none =>
      rw [if_neg]
      · rfl
      · rintro ⟨rfl, hany⟩
        rw [hconn] at hany
        cases hany
    | some conn =>
      dsimp only
      rw [show server.send id' conn data result = server.sent id' conn _ from rfl, sendings_sent]
      by_cases hid : id = id'
      · rw [if_pos hid, conn.sent_send data result, hid, hconn]
        simp
      · rw [if_neg hid, if_neg fun hand => hid hand.1.symm]
        rfl
  | shutdown id' =>
    show SendEvent.sent (sendings id (server.deref id' _).2) = []
    unfold deref
    split
    · rfl
    · rename_i conn _
      dsimp only
      rw [show server.shutdown id' conn = server.sent id' conn _ from rfl, sendings_sent]
      split
      · exact conn.sent_shutdown
      · rfl
  | destroy id' =>
    show SendEvent.sent (sendings id (server.deref id' _).2) = []
    unfold deref
    split
    · rfl
    · rfl
  | poll l ready => exact hloop _ trivial fun _ h => by cases h
  | handleEvent l => exact hloop _ trivial fun _ h => by cases h
  | callBack l calls => exact hloop _ trivial fun _ h => by cases h
  | doPendingFunctors l => exact hloop _ trivial fun _ h => by cases h
  | callFunctor l => exact hloop _ trivial fun _ h => by cases h
  | pollAgain l => exact hloop _ trivial fun _ h => by cases h

theorem sent_run (server : TcpServer) (id : ℕ) (is : List Input) :
    SendEvent.sent (sendings id (machine.run server is).2) = handed id server is := by
  induction is generalizing server with
  | nil => rfl
  | cons input is ih =>
    rw [Machine.run_cons, sendings_append, SendEvent.sent_append, ih]
    exact congrArg (· ++ _) (sent_step server id input)

/-! ### Callbacks -/

/-- The user is called back. -/
def isNotice : ServerEvent → Bool
  | .connectionCallback_ _ _ => true
  | .messageCallback_ _ _ => true
  | _ => false

/-- The calls of the user that a step makes, in their order. -/
def made (es : List ServerEvent) : List ServerEvent := es.filter isNotice

@[simp] theorem made_append (es es' : List ServerEvent) : made (es ++ es') = made es ++ made es' :=
  List.filter_append ..

theorem notices_made (id : ℕ) (es : List ServerEvent) : notices id (made es) = notices id es := by
  induction es with
  | nil => rfl
  | cons e es ih =>
    have htail : notices id (e :: made es) = notices id (e :: es) :=
      congrArg (e.notices id ++ ·) ih
    cases e with
    | connectionCallback_ conn connected => exact htail
    | messageCallback_ conn data => exact htail
    | _ => exact ih

theorem made_map_poller (es : List PollerEvent) : made (es.map .poller) = [] := by
  apply List.filter_eq_nil_iff.mpr
  intro e hmem
  obtain ⟨event, -, rfl⟩ := List.mem_map.mp hmem
  exact Bool.false_ne_true

theorem made_map_sending (id : ℕ) (es : List SendEvent) : made (es.map (.sending id)) = [] := by
  apply List.filter_eq_nil_iff.mpr
  intro e hmem
  obtain ⟨event, -, rfl⟩ := List.mem_map.mp hmem
  exact Bool.false_ne_true

theorem made_deref {access : ServerConnection → TcpServer × List ServerEvent}
    (h : ∀ conn, (made (access conn).2).length ≤ 1) :
    (made (server.deref id access).2).length ≤ 1 := by
  unfold deref
  split
  · exact Nat.zero_le 1
  · exact h _

theorem made_connectEstablished (server : TcpServer) (id : ℕ) (conn : ServerConnection) :
    (made (server.connectEstablished id conn).2).length = 1 := by
  show (made (List.map _ _ ++ [_])).length = 1
  rw [made_append, made_map_poller]
  rfl

theorem made_goDown (server : TcpServer) (id : ℕ) (conn : ServerConnection) :
    (made (server.goDown id conn).2).length = 1 := by
  show (made (List.map _ _ ++ [_])).length = 1
  rw [made_append, made_map_poller]
  rfl

theorem made_connectDestroyed (server : TcpServer) (id : ℕ) (conn : ServerConnection) :
    (made (server.connectDestroyed id conn).2).length ≤ 1 := by
  have hremoved : ∀ server : TcpServer,
      made (server.deref id fun conn => server.removeChannel id conn).2 = [] := by
    intro server
    unfold deref
    split
    · rfl
    · exact made_map_poller _
  unfold connectDestroyed
  dsimp only
  rw [made_append, hremoved, List.append_nil]
  split
  · exact (server.made_goDown id conn).le
  · exact Nat.zero_le 1

theorem made_sent (server : TcpServer) (id : ℕ) (conn : ServerConnection)
    (sending : SendingConnection × List SendEvent) :
    made (server.sent id conn sending).2 = [] := by
  unfold TcpServer.sent
  dsimp only
  rw [made_append, made_map_sending]
  split
  · exact made_map_poller _
  · rfl

theorem made_newConnection (server : TcpServer) (sockfd : ℕ) :
    (made (server.newConnection sockfd).2).length ≤ 1 := by
  rw [newConnection_eq]
  split
  · exact ((server.opened sockfd).made_connectEstablished server.nextConnId_ _).le
  · exact Nat.zero_le 1

theorem made_callBack (server : TcpServer) (l : ℕ) (calls : SystemCalls)
    (callback : ChannelPtr × Channel.Callback) :
    (made (server.callBack l calls callback).2).length ≤ 1 := by
  obtain ⟨ptr, callback⟩ := callback
  cases ptr with
  | acceptChannel_ =>
    cases callback with
    | closeCallback_ => exact Nat.zero_le 1
    | errorCallback_ => exact Nat.zero_le 1
    | writeCallback_ => exact Nat.zero_le 1
    | readCallback_ =>
      unfold callBack accept
      cases calls.accept with
      | none => exact Nat.zero_le 1
      | some connfd => exact server.made_newConnection connfd
  | connection id =>
    refine made_deref fun conn => ?_
    cases callback with
    | closeCallback_ => exact (server.made_goDown id conn).le
    | errorCallback_ => exact Nat.zero_le 1
    | writeCallback_ =>
      show (made (server.sent id conn _).2).length ≤ 1
      rw [made_sent]
      exact Nat.zero_le 1
    | readCallback_ =>
      unfold handleRead
      cases calls.readFd with
      | failed => exact Nat.zero_le 1
      | read data =>
        dsimp only
        split
        · exact Nat.le_refl 1
        · exact (server.made_goDown id conn).le

theorem made_callFunctor (server : TcpServer) (functor : BoundFunctor) :
    (made (server.callFunctor functor).2).length ≤ 1 := by
  refine made_deref fun conn => ?_
  cases functor.call with
  | connectEstablished => exact (server.made_connectEstablished functor.conn conn).le
  | removeConnectionInLoop => exact Nat.zero_le 1
  | connectDestroyed => exact server.made_connectDestroyed functor.conn conn
  | writeCompleteCallback_ => exact Nat.zero_le 1
  | highWaterMarkCallback_ len => exact Nat.zero_le 1

/-- A step calls the user back once at most. -/
theorem made_step (server : TcpServer) (input : Input) :
    (made (server.step input).2).length ≤ 1 := by
  cases input with
  | poll l ready => exact Nat.zero_le 1
  | handleEvent l =>
    unfold step
    dsimp only
    split
    · exact Nat.zero_le 1
    · unfold handleEvent
      dsimp only
      split
      · exact Nat.zero_le 1
      · exact made_deref fun _ => Nat.zero_le 1
  | callBack l calls =>
    unfold step
    dsimp only
    split
    · exact Nat.zero_le 1
    · exact made_callBack _ l calls _
  | doPendingFunctors l => exact Nat.zero_le 1
  | callFunctor l =>
    unfold step
    dsimp only
    split
    · exact Nat.zero_le 1
    · exact made_callFunctor _ _
  | pollAgain l => exact Nat.zero_le 1
  | send id data result =>
    refine made_deref fun conn => ?_
    show (made (server.sent id conn _).2).length ≤ 1
    rw [made_sent]
    exact Nat.zero_le 1
  | shutdown id =>
    refine made_deref fun conn => ?_
    show (made (server.sent id conn _).2).length ≤ 1
    rw [made_sent]
    exact Nat.zero_le 1
  | destroy id => exact made_deref fun _ => Nat.zero_le 1

end TcpServer

end ArenaGame
