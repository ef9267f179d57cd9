import ArenaGame.Muduo.Equiv.ConnectionStages
import ArenaGame.Muduo.Equiv.SendingConnection

/-!
# From stage to stage

What the functors and callbacks of a connection do to the stage of its view.
-/

namespace ArenaGame

open ChannelIndex

/-- What the sending side of a connection does to it. -/
structure SendingConnection.Sends (conn : SendingConnection)
    (sending : SendingConnection × List SendEvent) : Prop where
  reading : sending.1.isReading = conn.isReading
  open_ : conn.state_ = .kConnected ∨ conn.state_ = .kDisconnecting →
    sending.1.state_ = .kConnected ∨ sending.1.state_ = .kDisconnecting
  /-- Nothing, if the connection is not up. -/
  idle : conn.state_ = .kConnecting ∨ conn.state_ = .kDisconnected → conn.isWriting = false →
    sending.1 = conn ∧ (∀ id, TcpServer.boundCalls id sending.2 = []) ∧
      SendEvent.sent sending.2 = [] ∧ SendEvent.written sending.2 = []

namespace SendingConnection

variable (conn : SendingConnection)

theorem sendInLoop_frame (data : List UInt8) (result : WriteResult) :
    (conn.sendInLoop data result).1.isReading = conn.isReading ∧
      (conn.sendInLoop data result).1.state_ = conn.state_ := by
  unfold sendInLoop
  split
  · exact ⟨rfl, rfl⟩
  · dsimp only
    split
    · split
      · exact ⟨rfl, rfl⟩
      · exact ⟨rfl, rfl⟩
    · split
      · exact ⟨rfl, rfl⟩
      · exact ⟨rfl, rfl⟩

theorem sends_send (data : List UInt8) (result : WriteResult) :
    conn.Sends (conn.send data result) := by
  obtain ⟨hreading, hstate⟩ := conn.sendInLoop_frame data result
  unfold send
  split
  · rename_i hconnected
    refine ⟨hreading, fun _ => Or.inl (hstate.trans hconnected), fun hidle => ?_⟩
    rw [hconnected] at hidle
    rcases hidle with h | h <;> cases h
  · exact ⟨rfl, fun h => h, fun _ _ => ⟨rfl, fun _ => rfl, rfl, rfl⟩⟩

theorem shutdownInLoop_frame :
    conn.shutdownInLoop.1.isReading = conn.isReading ∧
      conn.shutdownInLoop.1.state_ = conn.state_ := by
  unfold shutdownInLoop
  split
  · exact ⟨rfl, rfl⟩
  · exact ⟨rfl, rfl⟩

theorem sends_shutdown : conn.Sends conn.shutdown := by
  unfold shutdown
  split
  · rename_i hconnected
    obtain ⟨hreading, hstate⟩ := shutdownInLoop_frame { conn with state_ := .kDisconnecting }
    refine ⟨hreading, fun _ => Or.inr hstate, fun hidle => ?_⟩
    rw [hconnected] at hidle
    rcases hidle with h | h <;> cases h
  · exact ⟨rfl, fun h => h, fun _ _ => ⟨rfl, fun _ => rfl, rfl, rfl⟩⟩

theorem handleWrite_frame (result : WriteResult) :
    (conn.handleWrite result).1.isReading = conn.isReading ∧
      (conn.handleWrite result).1.state_ = conn.state_ := by
  unfold handleWrite
  split
  · cases result with
    | failed errno => exact ⟨rfl, rfl⟩
    | wrote n =>
      dsimp only
      split
      · split
        · split
          · exact shutdownInLoop_frame _
          · exact ⟨rfl, rfl⟩
        · exact ⟨rfl, rfl⟩
      · exact ⟨rfl, rfl⟩
  · exact ⟨rfl, rfl⟩

theorem sends_handleWrite (result : WriteResult) : conn.Sends (conn.handleWrite result) := by
  obtain ⟨hreading, hstate⟩ := conn.handleWrite_frame result
  refine ⟨hreading, fun hopen => ?_, fun _ hwriting => ?_⟩
  · rwa [hstate]
  · unfold handleWrite
    rw [if_neg (by simp [hwriting])]
    exact ⟨rfl, fun _ => rfl, rfl, rfl⟩

end SendingConnection

namespace View

variable {id : ℕ} {view : View} {l : ℕ} {call : BoundCall} {rest : List BoundCall}

/-! ### The next functor of a loop -/

/-- The view behind the first functor of the loop `l`. -/
def pop (view : View) (l : ℕ) (rest : List BoundCall) : View :=
  { view with calls := Function.update view.calls l rest }

theorem mem_of_mem_pop (h : view.calls l = call :: rest) {l' : ℕ} {call' : BoundCall}
    (hmem : call' ∈ (view.pop l rest).calls l') : call' ∈ view.calls l' := by
  have hmem' : call' ∈ Function.update view.calls l rest l' := hmem
  rw [Function.update_apply] at hmem'
  split at hmem'
  · rename_i heq
    rw [heq, h]
    exact List.mem_cons_of_mem _ hmem'
  · exact hmem'

theorem mem_pop_of_mem (h : view.calls l = call :: rest) {l' : ℕ} {call' : BoundCall}
    (hmem : call' ∈ view.calls l') (hne : call' ≠ call) :
    call' ∈ (view.pop l rest).calls l' := by
  show call' ∈ Function.update view.calls l rest l'
  rw [Function.update_apply]
  split
  · rename_i heq
    rw [heq, h] at hmem
    exact (List.mem_cons.mp hmem).resolve_left hne
  · exact hmem

/-- A connection that something is queued for exists. -/
theorem At.object_of_mem {stage : Stage} (h : view.At id stage) {l : ℕ} {call : BoundCall}
    (hmem : call ∈ view.calls l) : ∃ conn, view.object = some conn := by
  cases stage with
  | unborn =>
    rw [h.2.calls l] at hmem
    cases hmem
  | destroyed =>
    rw [h.2.calls l] at hmem
    cases hmem
  | connecting =>
    obtain ⟨-, conn, hat⟩ := h
    exact ⟨conn, hat.object⟩
  | established =>
    obtain ⟨-, conn, hat⟩ := h
    exact ⟨conn, hat.object⟩
  | closed =>
    obtain ⟨-, conn, hat⟩ := h
    exact ⟨conn, hat.object⟩
  | removed =>
    obtain ⟨-, conn, hat⟩ := h
    exact ⟨conn, hat.object⟩

/-- The stages at which a connection exists. -/
theorem At.of_object {stage : Stage} (h : view.At id stage) {conn : ServerConnection}
    (hobject : view.object = some conn) :
    view.created ∧ (stage = .connecting ∧ view.Connecting id conn ∨
      stage = .established ∧ view.Established id conn ∨
      stage = .closed ∧ view.Closed id conn ∨ stage = .removed ∧ view.Removed conn) := by
  cases stage with
  | unborn =>
    rw [h.2.object] at hobject
    cases hobject
  | destroyed =>
    rw [h.2.object] at hobject
    cases hobject
  | connecting =>
    obtain ⟨hcreated, conn', hat⟩ := h
    obtain rfl := Option.some.inj (hat.object.symm.trans hobject)
    exact ⟨hcreated, Or.inl ⟨rfl, hat⟩⟩
  | established =>
    obtain ⟨hcreated, conn', hat⟩ := h
    obtain rfl := Option.some.inj (hat.object.symm.trans hobject)
    exact ⟨hcreated, Or.inr (Or.inl ⟨rfl, hat⟩)⟩
  | closed =>
    obtain ⟨hcreated, conn', hat⟩ := h
    obtain rfl := Option.some.inj (hat.object.symm.trans hobject)
    exact ⟨hcreated, Or.inr (Or.inr (Or.inl ⟨rfl, hat⟩))⟩
  | removed =>
    obtain ⟨hcreated, conn', hat⟩ := h
    obtain rfl := Option.some.inj (hat.object.symm.trans hobject)
    exact ⟨hcreated, Or.inr (Or.inr (Or.inr ⟨rfl, hat⟩))⟩

theorem At.created {stage : Stage} (h : view.At id stage) (hborn : stage ≠ .unborn) :
    view.created := by
  cases stage with
  | unborn => exact absurd rfl hborn
  | connecting => exact h.1
  | established => exact h.1
  | closed => exact h.1
  | removed => exact h.1
  | destroyed => exact h.1

theorem At.born {stage : Stage} (h : view.At id stage) {conn : ServerConnection}
    (hobject : view.object = some conn) : stage ≠ .unborn := by
  rintro rfl
  rw [h.2.object] at hobject
  cases hobject

/-- `connectEstablished` waits only for a connection that is connecting. -/
theorem At.of_connectEstablished {stage : Stage} (h : view.At id stage)
    (hmem : .connectEstablished ∈ view.calls l) :
    stage = .connecting ∧ view.created ∧ ∃ conn, view.Connecting id conn := by
  obtain ⟨conn, hobject⟩ := h.object_of_mem hmem
  rcases h.of_object hobject with
    ⟨hcreated, ⟨rfl, hat⟩ | ⟨-, hat⟩ | ⟨-, hat⟩ | ⟨-, hat⟩⟩
  · exact ⟨rfl, hcreated, conn, hat⟩
  · exact (hat.calls l _ hmem).1.elim
  · exact (hat.calls l _ hmem).elim
  · exact (hat.calls l _ hmem).elim

/-- The functors that take a connection down wait only for one that is down. -/
theorem At.of_removing {stage : Stage} (h : view.At id stage) (hmem : call ∈ view.calls l)
    (hcall : call = .removeConnectionInLoop ∨ call = .connectDestroyed) :
    view.created ∧ ∃ conn, (stage = .closed ∧ view.Closed id conn ∨
      stage = .removed ∧ view.Removed conn) := by
  obtain ⟨conn, hobject⟩ := h.object_of_mem hmem
  rcases h.of_object hobject with
    ⟨hcreated, ⟨-, hat⟩ | ⟨-, hat⟩ | hclosed | hremoved⟩
  · by_cases hl : l = conn.loop_
    · rw [hl, hat.queued, List.mem_singleton] at hmem
      rcases hcall with rfl | rfl <;> cases hmem
    · rw [hat.calls l hl] at hmem
      cases hmem
  · have hcallback := (hat.calls l _ hmem).1
    rcases hcall with rfl | rfl <;> exact hcallback.elim
  · exact ⟨hcreated, conn, Or.inl hclosed⟩
  · exact ⟨hcreated, conn, Or.inr hremoved⟩

/-- The poller knows only connections that are open, or closed and not yet removed. -/
theorem At.of_registered {stage : Stage} (h : view.At id stage) {conn : ServerConnection}
    (hobject : view.object = some conn) (hindex : conn.index_ ≠ kNew) :
    view.created ∧ (stage = .established ∧ view.Established id conn ∨
      stage = .closed ∧ view.Closed id conn) := by
  rcases h.of_object hobject with
    ⟨hcreated, ⟨-, hat⟩ | hopen | hclosed | ⟨-, hat⟩⟩
  · exact absurd hat.index hindex
  · exact ⟨hcreated, Or.inl hopen⟩
  · exact ⟨hcreated, Or.inr hclosed⟩
  · exact absurd hat.index hindex

/-- A connection is open, or it sends nothing. -/
theorem At.open_or_idle {stage : Stage} (h : view.At id stage) {conn : ServerConnection}
    (hobject : view.object = some conn) :
    stage = .established ∧ view.Established id conn ∨
      conn.isReading = false ∧ conn.isWriting = false ∧
        (conn.state_ = .kConnecting ∨ conn.state_ = .kDisconnected) := by
  rcases h.of_object hobject with ⟨-, ⟨-, hat⟩ | hopen | ⟨-, hat⟩ | ⟨-, hat⟩⟩
  · exact Or.inr ⟨hat.reading, hat.writing, Or.inl hat.state⟩
  · exact Or.inl hopen
  · exact Or.inr ⟨hat.reading, hat.writing, Or.inr hat.state⟩
  · exact Or.inr ⟨hat.reading, hat.writing, Or.inr hat.state⟩

/-! ### From stage to stage -/

theorem Connecting.establish {conn : ServerConnection} (h : view.Connecting id conn)
    (hpop : view.calls l = .connectEstablished :: rest) :
    Established id { view.pop l rest with object := some { conn with
      toTcpConnection := conn.toTcpConnection.connectEstablished, index_ := kAdded } }
      { conn with
        toTcpConnection := conn.toTcpConnection.connectEstablished, index_ := kAdded } where
  object := rfl
  state := Or.inl rfl
  reading := rfl
  index := rfl
  mapped := h.mapped
  calls l' call' hmem := by
    have hall := mem_of_mem_pop hpop hmem
    by_cases hl' : l' = conn.loop_
    · have hl : l = conn.loop_ := by
        by_contra hne
        rw [h.calls l hne] at hpop
        cases hpop
      have hmem' : call' ∈ Function.update view.calls l rest l' := hmem
      rw [hl, h.queued] at hpop
      rw [hl', hl, Function.update_self, ← (List.cons.inj hpop).2] at hmem'
      cases hmem'
    · rw [h.calls l' hl'] at hall
      cases hall

/-- A connection that is open, or down already, is closed by `handleClose`. -/
theorem Closed.of_handleClose {conn : ServerConnection}
    (hcalls : ∀ l, ∀ call ∈ view.calls l, call.DownAt conn.loop_ l)
    (hmapped : view.mapped = some id ∧ (∀ l, .connectDestroyed ∉ view.calls l) ∨
      view.mapped = none ∧ .connectDestroyed ∈ view.calls conn.loop_) (l : ℕ) :
    Closed id (view.handleClose l conn) conn.wentDown := by
  unfold View.handleClose
  dsimp only
  split
  · refine ⟨⟨rfl, rfl, rfl, rfl, fun l' call' hmem => ?_⟩, conn.index_wentDown, Or.inr ⟨rfl, ?_⟩⟩
    · rcases mem_calls_queue.mp hmem with hmem | ⟨rfl, rfl⟩
      · exact hcalls l' call' hmem
      · rfl
    · exact mem_calls_queue.mpr (Or.inr ⟨rfl, rfl⟩)
  · refine ⟨⟨rfl, rfl, rfl, rfl, fun l' call' hmem => ?_⟩, conn.index_wentDown, ?_⟩
    · rcases mem_calls_queue.mp hmem with hmem | ⟨rfl, rfl⟩
      · exact hcalls l' call' hmem
      · rfl
    · rcases hmapped with ⟨hmapped, hnone⟩ | ⟨hmapped, hsome⟩
      · refine Or.inl ⟨hmapped, mem_calls_queue.mpr (Or.inr ⟨rfl, rfl⟩), fun l' hmem => ?_⟩
        rcases mem_calls_queue.mp hmem with hmem | ⟨-, heq⟩
        · exact hnone l' hmem
        · cases heq
      · exact Or.inr ⟨hmapped, mem_calls_queue.mpr (Or.inl hsome)⟩

theorem Established.handleClose {conn : ServerConnection} (h : view.Established id conn) (l : ℕ) :
    Closed id (view.handleClose l conn) conn.wentDown := by
  refine Closed.of_handleClose (fun l' call' hmem => ?_) (Or.inl ⟨h.mapped, fun l' hmem => ?_⟩) l
  · obtain ⟨hcallback, rfl⟩ := h.calls l' call' hmem
    exact hcallback.downAt _
  · exact (h.calls l' _ hmem).1.elim

theorem Closed.handleClose {conn : ServerConnection} (h : view.Closed id conn) (l : ℕ) :
    Closed id (view.handleClose l conn) conn.wentDown := by
  refine Closed.of_handleClose h.calls ?_ l
  rcases h.pending with ⟨hmapped, -, hnone⟩ | hremoved
  · exact Or.inl ⟨hmapped, hnone⟩
  · exact Or.inr hremoved

/-- The connection is down, and a functor less waits for it. -/
theorem Down.pop {conn : ServerConnection} (h : view.Down conn)
    (hpop : view.calls l = call :: rest) : (view.pop l rest).Down conn :=
  { h with calls := fun l' call' hmem => h.calls l' call' (mem_of_mem_pop hpop hmem) }

theorem Down.removeConnectionInLoop {conn : ServerConnection} (h : view.Down conn) :
    Down (View.queue { view with mapped := none } conn.loop_ .connectDestroyed) conn :=
  { h with
    calls := fun l' call' hmem => by
      rcases mem_calls_queue.mp hmem with hmem | ⟨rfl, rfl⟩
      · exact h.calls l' call' hmem
      · rfl }

/-- `removeConnectionInLoop` leaves a connection closed or removed. -/
theorem At.removeConnectionInLoop {stage : Stage} (h : view.At id stage)
    (hpop : view.calls l = .removeConnectionInLoop :: rest) {conn : ServerConnection}
    (hobject : view.object = some conn) :
    (stage = .closed ∨ stage = .removed) ∧
      View.At id (View.queue { view.pop l rest with mapped := none } conn.loop_ .connectDestroyed)
        stage := by
  obtain ⟨hcreated, conn', hat⟩ := h.of_removing (hpop ▸ List.mem_cons_self) (Or.inl rfl)
  rcases hat with ⟨rfl, hat⟩ | ⟨rfl, hat⟩
  · obtain rfl := Option.some.inj (hat.object.symm.trans hobject)
    exact ⟨Or.inl rfl, hcreated, conn', (hat.toDown.pop hpop).removeConnectionInLoop, hat.index,
      Or.inr ⟨rfl, mem_calls_queue.mpr (Or.inr ⟨rfl, rfl⟩)⟩⟩
  · obtain rfl := Option.some.inj (hat.object.symm.trans hobject)
    exact ⟨Or.inr rfl, hcreated, conn', (hat.toDown.pop hpop).removeConnectionInLoop, hat.index,
      rfl⟩

/-- `connectDestroyed` waits for connections that are down, in their loop, and removes their
channels. -/
theorem At.connectDestroyed {stage : Stage} (h : view.At id stage)
    (hpop : view.calls l = .connectDestroyed :: rest) {conn : ServerConnection}
    (hobject : view.object = some conn) :
    (stage = .closed ∨ stage = .removed) ∧ l = conn.loop_ ∧ conn.state_ = .kDisconnected ∧
      conn.isReading = false ∧
      View.At id { view.pop l rest with object := some { conn with index_ := kNew } } .removed := by
  have hmem : BoundCall.connectDestroyed ∈ view.calls l := hpop ▸ List.mem_cons_self
  obtain ⟨hcreated, conn', hat⟩ := h.of_removing hmem (Or.inr rfl)
  have hremoved : view.Down conn → view.mapped = none →
      View.At id { view.pop l rest with object := some { conn with index_ := kNew } } .removed := by
    intro hdown hmapped
    have hpopped := hdown.pop hpop
    exact ⟨hcreated, { conn with index_ := kNew },
      ⟨rfl, hpopped.state, hpopped.reading, hpopped.writing, hpopped.calls⟩, rfl, hmapped⟩
  rcases hat with ⟨rfl, hat⟩ | ⟨rfl, hat⟩
  · obtain rfl := Option.some.inj (hat.object.symm.trans hobject)
    refine ⟨Or.inl rfl, hat.calls l _ hmem, hat.state, hat.reading, hremoved hat.toDown ?_⟩
    rcases hat.pending with ⟨-, -, hnone⟩ | ⟨hmapped, -⟩
    · exact absurd hmem (hnone l)
    · exact hmapped
  · obtain rfl := Option.some.inj (hat.object.symm.trans hobject)
    exact ⟨Or.inr rfl, hat.calls l _ hmem, hat.state, hat.reading,
      hremoved hat.toDown hat.mapped⟩

/-- A functor that calls the user back leaves the stage as it is. -/
theorem At.pop {stage : Stage} (h : view.At id stage) (hpop : view.calls l = call :: rest)
    (hcall : call.IsCallback) : (view.pop l rest).At id stage := by
  have hmem : call ∈ view.calls l := hpop ▸ List.mem_cons_self
  obtain ⟨conn, hobject⟩ := h.object_of_mem hmem
  rcases h.of_object hobject with
    ⟨hcreated, ⟨rfl, hat⟩ | ⟨rfl, hat⟩ | ⟨rfl, hat⟩ | ⟨rfl, hat⟩⟩
  · by_cases hl : l = conn.loop_
    · rw [hl, hat.queued, List.mem_singleton] at hmem
      rw [hmem] at hcall
      exact hcall.elim
    · rw [hat.calls l hl] at hpop
      cases hpop
  · exact ⟨hcreated, conn,
      { hat with calls := fun l' call' hmem => hat.calls l' call' (mem_of_mem_pop hpop hmem) }⟩
  · refine ⟨hcreated, conn, hat.toDown.pop hpop, hat.index, ?_⟩
    rcases hat.pending with ⟨hmapped, hsome, hnone⟩ | ⟨hmapped, hsome⟩
    · refine Or.inl ⟨hmapped, mem_pop_of_mem hpop hsome ?_, fun l' hmem' =>
        hnone l' (mem_of_mem_pop hpop hmem')⟩
      rintro rfl
      exact hcall.elim
    · refine Or.inr ⟨hmapped, mem_pop_of_mem hpop hsome ?_⟩
      rintro rfl
      exact hcall.elim
  · exact ⟨hcreated, conn, hat.toDown.pop hpop, hat.index, hat.mapped⟩

/-- Sending leaves the stage of a connection as it is. -/
theorem At.sent {stage : Stage} (h : view.At id stage) {conn conn' : ServerConnection}
    (hobject : view.object = some conn) {sending : SendingConnection × List SendEvent}
    (hsends : conn.Sends sending) (hconn' : conn'.toSendingConnection = sending.1)
    (hloop : conn'.loop_ = conn.loop_)
    (hadded : conn.isReading = true → conn.index_ = kAdded → conn'.index_ = kAdded)
    (hindex : sending.1.isWriting = conn.isWriting → conn'.index_ = conn.index_) :
    View.At id ((TcpServer.boundCalls id sending.2).foldl
      (fun view functor => view.queue conn.loop_ functor.call)
      { view with object := some conn' }) stage := by
  have hidle : conn.state_ = .kConnecting ∨ conn.state_ = .kDisconnected →
      conn.isWriting = false →
      conn'.toSendingConnection = conn.toSendingConnection ∧ conn'.index_ = conn.index_ ∧
        TcpServer.boundCalls id sending.2 = [] := by
    intro hstate hwriting
    obtain ⟨hsame, hnone, -⟩ := hsends.idle hstate hwriting
    exact ⟨hconn'.trans hsame, hindex (by rw [hsame]), hnone id⟩
  rcases h.of_object hobject with
    ⟨hcreated, ⟨rfl, hat⟩ | ⟨rfl, hat⟩ | ⟨rfl, hat⟩ | ⟨rfl, hat⟩⟩
  · obtain ⟨hsame, hsameIndex, hnone⟩ := hidle (Or.inl hat.state) hat.writing
    rw [hnone]
    refine ⟨hcreated, conn', rfl, ?_, ?_, ?_, hsameIndex.trans hat.index, hat.mapped, ?_, ?_⟩
    · rw [hsame]
      exact hat.state
    · rw [hsame]
      exact hat.reading
    · rw [hsame]
      exact hat.writing
    · rw [hloop]
      exact hat.queued
    · rw [hloop]
      exact hat.calls
  · obtain ⟨hobject', hmapped', hcreated'⟩ := View.object_queueAll
      { view with object := some conn' } conn.loop_ (TcpServer.boundCalls id sending.2)
    refine ⟨hcreated'.mpr hcreated, conn', hobject', ?_, ?_, hadded hat.reading hat.index,
      hmapped'.trans hat.mapped, fun l' call' hmem => ?_⟩
    · rw [hconn']
      exact hsends.open_ hat.state
    · rw [hconn', hsends.reading]
      exact hat.reading
    · rw [hloop]
      rcases View.mem_calls_queueAll hmem with hmem | ⟨rfl, functor, hbound, rfl⟩
      · exact hat.calls l' call' hmem
      · exact ⟨(TcpServer.conn_boundCalls id sending.2 functor hbound).2, rfl⟩
  · obtain ⟨hsame, hsameIndex, hnone⟩ := hidle (Or.inr hat.state) hat.writing
    rw [hnone]
    refine ⟨hcreated, conn', ⟨rfl, ?_, ?_, ?_, ?_⟩, ?_, ?_⟩
    · rw [hsame]
      exact hat.state
    · rw [hsame]
      exact hat.reading
    · rw [hsame]
      exact hat.writing
    · rw [hloop]
      exact hat.calls
    · rw [hsameIndex]
      exact hat.index
    · rw [hloop]
      exact hat.pending
  · obtain ⟨hsame, hsameIndex, hnone⟩ := hidle (Or.inr hat.state) hat.writing
    rw [hnone]
    refine ⟨hcreated, conn', ⟨rfl, ?_, ?_, ?_, ?_⟩, hsameIndex.trans hat.index, hat.mapped⟩
    · rw [hsame]
      exact hat.state
    · rw [hsame]
      exact hat.reading
    · rw [hsame]
      exact hat.writing
    · rw [hloop]
      exact hat.calls

end View

end ArenaGame
