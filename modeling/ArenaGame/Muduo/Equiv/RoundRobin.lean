import ArenaGame.Muduo.Equiv.UserCalls
import Mathlib.Data.Int.CardIntervalMod

/-!
# Connections are dealt out evenly

`getNextLoop` goes round the loops of the pool, and only `newConnection` calls it; so the `k`-th
connection goes to the loop `k % n + 1`, and the loops get the same number of connections, give or
take one.
-/

namespace ArenaGame

/-! ### The pool -/

theorem succ_mod_eq {n : ℕ} (hn : 0 < n) (k : ℕ) :
    (k + 1) % n = if k % n + 1 ≥ n then 0 else k % n + 1 := by
  have hlt := Nat.mod_lt k hn
  have hdiv := Nat.div_add_mod k n
  split
  · rename_i hge
    have hlast : k + 1 = n * (k / n + 1) := by
      rw [Nat.mul_add, Nat.mul_one]
      omega
    rw [hlast, Nat.mul_mod_right]
  · rename_i hlt'
    have hsum : k + 1 = n * (k / n) + (k % n + 1) := by omega
    rw [hsum, Nat.mul_add_mod, Nat.mod_eq_of_lt (Nat.not_le.mp hlt')]

namespace EventLoopThreadPool

variable {L : Type} {pool : EventLoopThreadPool L}

theorem getNextLoop_of_empty (h : pool.loops_ = []) :
    pool.getNextLoop = (pool.baseLoop_, pool) := by
  unfold getNextLoop
  rw [dif_pos h]

/-- The call number `k`, counted from 0. -/
theorem getNextLoop_spec (h : pool.loops_ ≠ []) {k : ℕ}
    (hnext : pool.next_ = k % pool.loops_.length) :
    pool.loops_[k % pool.loops_.length]? = some pool.getNextLoop.1 ∧
      pool.getNextLoop.2.loops_ = pool.loops_ ∧
      pool.getNextLoop.2.baseLoop_ = pool.baseLoop_ ∧
      pool.getNextLoop.2.next_ = (k + 1) % pool.loops_.length := by
  have hlt : pool.next_ < pool.loops_.length := pool.next_lt.resolve_right h
  unfold getNextLoop
  rw [dif_neg h]
  refine ⟨?_, rfl, rfl, ?_⟩
  · rw [← hnext]
    exact List.getElem?_eq_getElem hlt
  · rw [succ_mod_eq (List.length_pos_iff.mpr h), ← hnext]

end EventLoopThreadPool

namespace TcpServer

variable {server : TcpServer} {o : List ServerEvent} {id l : ℕ}

/-- The connections that have been given to loops, each with its loop. -/
def dealt (events : List ServerEvent) : List (ℕ × ℕ) :=
  events.filterMap fun
    | .newConnection conn loop => some (conn, loop)
    | _ => none

@[simp] theorem dealt_append (es es' : List ServerEvent) : dealt (es ++ es') = dealt es ++ dealt es' :=
  List.filterMap_append

theorem dealt_map_poller (es : List PollerEvent) : dealt (es.map .poller) = [] := by
  unfold dealt
  rw [List.filterMap_map]
  exact List.filterMap_eq_nil_iff.mpr fun _ _ => rfl

theorem dealt_map_sending (id : ℕ) (es : List SendEvent) : dealt (es.map (.sending id)) = [] := by
  unfold dealt
  rw [List.filterMap_map]
  exact List.filterMap_eq_nil_iff.mpr fun _ _ => rfl

/-- A connection that exists belongs to a loop. -/
def OnLoop (server : TcpServer) (id l : ℕ) : Prop :=
  ∃ conn, server.objects id = some conn ∧ conn.loop_ = l

/-- The descriptor that the acceptor gets in a step. -/
def acceptedBy (server : TcpServer) : Input → Option ℕ
  | .callBack l calls =>
    match (server.loops l).callbacks with
    | (.acceptChannel_, .readCallback_) :: _ => calls.accept
    | _ => none
  | _ => none

/-- The descriptors that the acceptor gets in a run. -/
def accepted : TcpServer → List Input → List ℕ
  | _, [] => []
  | server, input :: is => (server.acceptedBy input).toList ++ accepted (server.step input).1 is

/-! ### What has nothing to do with the pool -/

/-- No connection is given to a loop, and those that have been stay there. -/
structure DealsNone (server : TcpServer) (next : TcpServer × List ServerEvent) : Prop where
  threadPool_ : next.1.threadPool_ = server.threadPool_
  nextConnId_ : next.1.nextConnId_ = server.nextConnId_
  dealt : dealt next.2 = []
  onLoop : ∀ {id l}, next.1.OnLoop id l → server.OnLoop id l

theorem DealsNone.trans {next next' : TcpServer × List ServerEvent} (h : DealsNone server next)
    (h' : DealsNone next.1 next') : DealsNone server (next'.1, next.2 ++ next'.2) where
  threadPool_ := h'.threadPool_.trans h.threadPool_
  nextConnId_ := h'.nextConnId_.trans h.nextConnId_
  dealt := by rw [dealt_append, h.dealt, h'.dealt, List.append_nil]
  onLoop hon := h.onLoop (h'.onLoop hon)

theorem DealsNone.deref {access : ServerConnection → TcpServer × List ServerEvent}
    (h : ∀ conn, server.objects id = some conn → DealsNone server (access conn)) :
    DealsNone server (server.deref id access) := by
  unfold TcpServer.deref
  split
  · exact ⟨rfl, rfl, rfl, fun hon => hon⟩
  · rename_i conn hconn
    exact h conn hconn

theorem onLoop_of_update {server' : TcpServer} {conn : ServerConnection}
    (hobjects : server'.objects = Function.update server.objects id (some conn))
    (hconn : server.OnLoop id conn.loop_) {id' l : ℕ} (hon : server'.OnLoop id' l) :
    server.OnLoop id' l := by
  obtain ⟨conn', hconn', rfl⟩ := hon
  rw [hobjects, Function.update_apply] at hconn'
  split at hconn'
  · rename_i heq
    obtain rfl := Option.some.inj hconn'
    rw [heq]
    exact hconn
  · exact ⟨conn', hconn', rfl⟩

theorem dealsNone_updateChannel (conn : ServerConnection) (hconn : server.OnLoop id conn.loop_) :
    DealsNone server (server.updateChannel id conn) := by
  obtain ⟨index, hobjects⟩ := server.objects_updateChannel id conn
  exact ⟨rfl, rfl, dealt_map_poller _, onLoop_of_update hobjects hconn⟩

theorem dealsNone_removeChannel (conn : ServerConnection) (hconn : server.OnLoop id conn.loop_) :
    DealsNone server (server.removeChannel id conn) := by
  have hobjects : (server.removeChannel id conn).1.objects =
      Function.update server.objects id (some { conn with index_ := .kNew }) := rfl
  exact ⟨rfl, rfl, dealt_map_poller _, onLoop_of_update hobjects hconn⟩

theorem dealsNone_connectEstablished (conn : ServerConnection)
    (hconn : server.OnLoop id conn.loop_) :
    DealsNone server (server.connectEstablished id conn) := by
  have hnone := dealsNone_updateChannel
    { conn with toTcpConnection := conn.toTcpConnection.connectEstablished } hconn
  refine ⟨rfl, rfl, ?_, hnone.onLoop⟩
  unfold TcpServer.connectEstablished
  dsimp only
  rw [dealt_append, hnone.dealt]
  rfl

theorem dealsNone_goDown (conn : ServerConnection) (hconn : server.OnLoop id conn.loop_) :
    DealsNone server (server.goDown id conn) := by
  have hnone := dealsNone_updateChannel
    { conn with toTcpConnection := conn.toTcpConnection.handleClose } hconn
  refine ⟨rfl, rfl, ?_, hnone.onLoop⟩
  unfold TcpServer.goDown
  dsimp only
  rw [dealt_append, hnone.dealt]
  rfl

theorem dealsNone_handleClose (conn : ServerConnection) (hconn : server.OnLoop id conn.loop_)
    (l : ℕ) : DealsNone server (server.handleClose l id conn) := by
  have hdown := dealsNone_goDown conn hconn
  unfold TcpServer.handleClose TcpServer.removeConnection
  dsimp only
  split
  · exact ⟨hdown.threadPool_, hdown.nextConnId_, hdown.dealt, hdown.onLoop⟩
  · exact ⟨hdown.threadPool_, hdown.nextConnId_, hdown.dealt, hdown.onLoop⟩

theorem dealsNone_connectDestroyed (conn : ServerConnection) (hconn : server.OnLoop id conn.loop_) :
    DealsNone server (server.connectDestroyed id conn) := by
  have hremoved : ∀ server : TcpServer,
      DealsNone server (server.deref id fun conn => server.removeChannel id conn) :=
    fun server => .deref fun conn hconn => dealsNone_removeChannel conn ⟨conn, hconn, rfl⟩
  have hdown := dealsNone_goDown conn hconn
  unfold TcpServer.connectDestroyed
  by_cases hstate : conn.state_ = .kConnected
  · simp only [if_pos hstate]
    exact hdown.trans (hremoved _)
  · simp only [if_neg hstate, List.nil_append]
    exact hremoved server

theorem pool_queueAll (server : TcpServer) (l : ℕ) (functors : List BoundFunctor) :
    (functors.foldl (fun server functor => server.queueInLoop l functor) server).threadPool_ =
        server.threadPool_ ∧
      (functors.foldl (fun server functor => server.queueInLoop l functor) server).nextConnId_ =
        server.nextConnId_ := by
  induction functors generalizing server with
  | nil => exact ⟨rfl, rfl⟩
  | cons functor functors ih => exact ih (server.queueInLoop l functor)

theorem dealsNone_sent (conn : ServerConnection) (hconn : server.OnLoop id conn.loop_)
    (sending : SendingConnection × List SendEvent) :
    DealsNone server (server.sent id conn sending) := by
  unfold TcpServer.sent
  dsimp only
  split
  · have hupdated := dealsNone_updateChannel { conn with toSendingConnection := sending.1 } hconn
    obtain ⟨hpool, hnext⟩ := pool_queueAll
      (server.updateChannel id { conn with toSendingConnection := sending.1 }).1 conn.loop_
      (boundCalls id sending.2)
    refine ⟨hpool, hnext, ?_, fun hon => hupdated.onLoop ?_⟩
    · show dealt (_ ++ _) = []
      rw [dealt_append, dealt_map_sending, hupdated.dealt]
      rfl
    · unfold OnLoop at hon ⊢
      rwa [objects_queueAll] at hon
  · obtain ⟨hpool, hnext⟩ := pool_queueAll
      (server.store id { conn with toSendingConnection := sending.1 }) conn.loop_
      (boundCalls id sending.2)
    refine ⟨hpool, hnext, ?_, fun hon => ?_⟩
    · show dealt (_ ++ []) = []
      rw [List.append_nil, dealt_map_sending]
    · have hobjects := objects_queueAll (server.store id { conn with toSendingConnection := sending.1 })
        conn.loop_ (boundCalls id sending.2)
      exact onLoop_of_update hobjects hconn hon

theorem dealsNone_callBack (server : TcpServer) (l id : ℕ) (calls : SystemCalls)
    (callback : Channel.Callback) :
    DealsNone server (server.callBack l calls (.connection id, callback)) := by
  refine DealsNone.deref fun conn hconn => ?_
  have hon : server.OnLoop id conn.loop_ := ⟨conn, hconn, rfl⟩
  cases callback with
  | closeCallback_ => exact dealsNone_handleClose conn hon l
  | errorCallback_ => exact ⟨rfl, rfl, rfl, fun hon => hon⟩
  | writeCallback_ => exact dealsNone_sent conn hon _
  | readCallback_ =>
    unfold TcpServer.handleRead
    cases calls.readFd with
    | failed => exact ⟨rfl, rfl, rfl, fun hon => hon⟩
    | read data =>
      dsimp only
      split
      · exact ⟨rfl, rfl, rfl, fun hon => hon⟩
      · exact dealsNone_handleClose conn hon l

theorem dealsNone_callFunctor (server : TcpServer) (functor : BoundFunctor) :
    DealsNone server (server.callFunctor functor) := by
  refine DealsNone.deref fun conn hconn => ?_
  have hon : server.OnLoop functor.conn conn.loop_ := ⟨conn, hconn, rfl⟩
  cases functor.call with
  | connectEstablished => exact dealsNone_connectEstablished conn hon
  | removeConnectionInLoop => exact ⟨rfl, rfl, rfl, fun hon => hon⟩
  | connectDestroyed => exact dealsNone_connectDestroyed conn hon
  | writeCompleteCallback_ => exact ⟨rfl, rfl, rfl, fun hon => hon⟩
  | highWaterMarkCallback_ len => exact ⟨rfl, rfl, rfl, fun hon => hon⟩

/-- A step deals nothing, unless the acceptor gets a descriptor. -/
theorem step_deals (server : TcpServer) (input : Input) :
    server.acceptedBy input = none ∧ DealsNone server (server.step input) ∨
      ∃ fd l loop, server.acceptedBy input = some fd ∧
        server.step input = (server.setLoop l loop).newConnection fd := by
  -- What a loop puts away for itself is not seen here.
  have hpop : ∀ {l : ℕ} {loop : IoLoop} {next : TcpServer × List ServerEvent},
      DealsNone (server.setLoop l loop) next → DealsNone server next := fun h =>
    ⟨h.threadPool_, h.nextConnId_, h.dealt, h.onLoop⟩
  have hidle : ∀ {server' : TcpServer}, server'.threadPool_ = server.threadPool_ →
      server'.nextConnId_ = server.nextConnId_ → server'.objects = server.objects →
      DealsNone server (server', []) := fun hpool hnext hobjects =>
    ⟨hpool, hnext, rfl, fun hon => by unfold OnLoop at hon ⊢; rwa [← hobjects]⟩
  cases input with
  | poll l ready => exact Or.inl ⟨rfl, hidle rfl rfl rfl⟩
  | handleEvent l =>
    refine Or.inl ⟨rfl, ?_⟩
    unfold TcpServer.step
    dsimp only
    split
    · exact hidle rfl rfl rfl
    · unfold TcpServer.handleEvent
      dsimp only
      split
      · exact hidle rfl rfl rfl
      · exact hpop (.deref fun _ _ => ⟨rfl, rfl, rfl, fun hon => hon⟩)
  | callBack l calls =>
    unfold TcpServer.step acceptedBy
    dsimp only
    cases hcallbacks : (server.loops l).callbacks with
    | nil => exact Or.inl ⟨rfl, hidle rfl rfl rfl⟩
    | cons callback callbacks =>
      obtain ⟨ptr, callback⟩ := callback
      cases ptr with
      | connection id => exact Or.inl ⟨rfl, hpop (dealsNone_callBack _ l id calls callback)⟩
      | acceptChannel_ =>
        cases callback with
        | closeCallback_ => exact Or.inl ⟨rfl, hidle rfl rfl rfl⟩
        | errorCallback_ => exact Or.inl ⟨rfl, hidle rfl rfl rfl⟩
        | writeCallback_ => exact Or.inl ⟨rfl, hidle rfl rfl rfl⟩
        | readCallback_ =>
          unfold TcpServer.callBack TcpServer.accept
          cases haccept : calls.accept with
          | none => exact Or.inl ⟨rfl, hpop ⟨rfl, rfl, rfl, fun hon => hon⟩⟩
          | some connfd => exact Or.inr ⟨connfd, l, _, rfl, rfl⟩
  | doPendingFunctors l => exact Or.inl ⟨rfl, hidle rfl rfl rfl⟩
  | callFunctor l =>
    refine Or.inl ⟨rfl, ?_⟩
    unfold TcpServer.step
    dsimp only
    split
    · exact hidle rfl rfl rfl
    · exact hpop (dealsNone_callFunctor _ _)
  | pollAgain l => exact Or.inl ⟨rfl, hidle rfl rfl rfl⟩
  | send id data result =>
    exact Or.inl ⟨rfl, .deref fun conn hconn => dealsNone_sent conn ⟨conn, hconn, rfl⟩ _⟩
  | shutdown id =>
    exact Or.inl ⟨rfl, .deref fun conn hconn => dealsNone_sent conn ⟨conn, hconn, rfl⟩ _⟩
  | destroy id =>
    refine Or.inl ⟨rfl, .deref fun conn hconn => ⟨rfl, rfl, rfl, ?_⟩⟩
    rintro id' l ⟨conn', hconn', hloop⟩
    refine ⟨conn', ?_, hloop⟩
    replace hconn' : Function.update server.objects id none id' = some conn' := hconn'
    rw [Function.update_apply] at hconn'
    split at hconn'
    · cases hconn'
    · exact hconn'

/-! ### Every run -/

/-- The connections so far have been dealt out in turn to the `n` loops of the pool, and those that
exist are where they were put. -/
structure Dealt (n : ℕ) (o : List ServerEvent) (server : TcpServer) : Prop where
  loops_ : server.threadPool_.loops_ = List.range' 1 n
  baseLoop_ : server.threadPool_.baseLoop_ = 0
  next_ : n ≠ 0 → server.threadPool_.next_ = (dealt o).length % n
  nextConnId_ : server.nextConnId_ = (dealt o).length + 1
  dealt : dealt o =
    (List.range (dealt o).length).map fun k => (k + 1, if n = 0 then 0 else k % n + 1)
  placed : ∀ {id l}, server.OnLoop id l → (id, l) ∈ TcpServer.dealt o

variable {n : ℕ}

theorem Dealt.keep (h : Dealt n o server) {next : TcpServer × List ServerEvent}
    (hnext : DealsNone server next) : Dealt n (o ++ next.2) next.1 := by
  have hsame : TcpServer.dealt (o ++ next.2) = TcpServer.dealt o := by
    rw [dealt_append, hnext.dealt, List.append_nil]
  constructor
  · rw [hnext.threadPool_]
    exact h.loops_
  · rw [hnext.threadPool_]
    exact h.baseLoop_
  · rw [hnext.threadPool_, hsame]
    exact h.next_
  · rw [hnext.nextConnId_, hsame]
    exact h.nextConnId_
  · rw [hsame]
    exact h.dealt
  · intro id l hon
    rw [hsame]
    exact h.placed (hnext.onLoop hon)

/-- What `newConnection` does to the pool and the connections, whichever way the new one goes on. -/
theorem newConnection_deals (server : TcpServer) (sockfd : ℕ) :
    (server.newConnection sockfd).1.threadPool_ = server.threadPool_.getNextLoop.2 ∧
      (server.newConnection sockfd).1.nextConnId_ = server.nextConnId_ + 1 ∧
      dealt (server.newConnection sockfd).2 =
        [(server.nextConnId_, server.threadPool_.getNextLoop.1)] ∧
      ∀ {id l}, (server.newConnection sockfd).1.OnLoop id l →
        server.OnLoop id l ∨ id = server.nextConnId_ ∧ l = server.threadPool_.getNextLoop.1 := by
  have hopened : ∀ {id l}, (server.opened sockfd).OnLoop id l →
      server.OnLoop id l ∨ id = server.nextConnId_ ∧ l = server.threadPool_.getNextLoop.1 := by
    rintro id l ⟨conn, hconn, rfl⟩
    replace hconn : Function.update server.objects server.nextConnId_
      (some (server.nextConn sockfd)) id = some conn := hconn
    rw [Function.update_apply] at hconn
    split at hconn
    · rename_i heq
      obtain rfl := Option.some.inj hconn
      exact Or.inr ⟨heq, rfl⟩
    · exact Or.inl ⟨conn, hconn, rfl⟩
  rw [newConnection_eq]
  split
  · have hput : (server.opened sockfd).OnLoop server.nextConnId_ (server.nextConn sockfd).loop_ :=
      ⟨_, Function.update_self .., rfl⟩
    have hnone := dealsNone_connectEstablished (server.nextConn sockfd) hput
    refine ⟨hnone.threadPool_, hnone.nextConnId_, ?_, fun hon => hopened (hnone.onLoop hon)⟩
    show (server.nextConnId_, _) :: TcpServer.dealt _ = _
    rw [hnone.dealt]
    rfl
  · exact ⟨rfl, rfl, rfl, hopened⟩

theorem Dealt.newConnection (h : Dealt n o server) (sockfd : ℕ) :
    Dealt n (o ++ (server.newConnection sockfd).2) (server.newConnection sockfd).1 := by
  obtain ⟨hthreads, hid, hone, hon⟩ := newConnection_deals server sockfd
  set k := (TcpServer.dealt o).length with hk
  have hlength : (TcpServer.dealt (o ++ (server.newConnection sockfd).2)).length = k + 1 := by
    rw [dealt_append, hone, List.length_append, List.length_singleton]
  have hloop : server.threadPool_.getNextLoop.1 = (if n = 0 then 0 else k % n + 1) ∧
      server.threadPool_.getNextLoop.2.loops_ = List.range' 1 n ∧
      server.threadPool_.getNextLoop.2.baseLoop_ = 0 ∧
      (n ≠ 0 → server.threadPool_.getNextLoop.2.next_ = (k + 1) % n) := by
    by_cases hn : n = 0
    · have hempty : server.threadPool_.loops_ = [] := by rw [h.loops_, hn]; rfl
      rw [EventLoopThreadPool.getNextLoop_of_empty hempty, if_pos hn]
      exact ⟨h.baseLoop_, h.loops_, h.baseLoop_, fun hne => absurd hn hne⟩
    · have hlen : server.threadPool_.loops_.length = n := by rw [h.loops_, List.length_range']
      have hne : server.threadPool_.loops_ ≠ [] := by
        intro hnil
        rw [hnil] at hlen
        exact hn hlen.symm
      obtain ⟨hget, hloops, hbase, hnext⟩ := EventLoopThreadPool.getNextLoop_spec hne
        (show _ = k % _ by rw [hlen]; exact h.next_ hn)
      rw [hlen, h.loops_, List.getElem?_range' (Nat.mod_lt k (Nat.pos_of_ne_zero hn))] at hget
      rw [if_neg hn, hloops, hbase, hnext, hlen]
      refine ⟨?_, h.loops_, h.baseLoop_, fun _ => rfl⟩
      rw [← Option.some.inj hget]
      omega
  constructor
  · rw [hthreads]
    exact hloop.2.1
  · rw [hthreads]
    exact hloop.2.2.1
  · rw [hthreads, hlength]
    exact hloop.2.2.2
  · rw [hid, hlength, h.nextConnId_]
  · rw [hlength, dealt_append, hone, List.range_succ, List.map_append, ← h.dealt, hloop.1,
      h.nextConnId_]
    rfl
  · intro id l hplaced
    rw [dealt_append, hone]
    rcases hon hplaced with hold | ⟨rfl, rfl⟩
    · exact List.mem_append_left _ (h.placed hold)
    · exact List.mem_append_right _ (List.mem_singleton.mpr rfl)

theorem Dealt.step (h : Dealt n o server) {input : Input} :
    Dealt n (o ++ (server.step input).2) (server.step input).1 := by
  rcases step_deals server input with ⟨-, hnone⟩ | ⟨fd, l, loop, -, hnew⟩
  · exact h.keep hnone
  · rw [hnew]
    have h' : Dealt n o (server.setLoop l loop) :=
      ⟨h.loops_, h.baseLoop_, h.next_, h.nextConnId_, h.dealt, h.placed⟩
    exact h'.newConnection fd

/-- One connection is dealt for each descriptor that the acceptor gets. -/
theorem length_dealt (server : TcpServer) (is : List Input) :
    (dealt (machine.run server is).2).length = (accepted server is).length := by
  induction is generalizing server with
  | nil => rfl
  | cons input is ih =>
    have hfirst : (dealt (server.step input).2).length =
        (server.acceptedBy input).toList.length := by
      rcases step_deals server input with ⟨haccepted, hnone⟩ | ⟨fd, l, loop, haccepted, hnew⟩
      · rw [hnone.dealt, haccepted]
        rfl
      · rw [hnew, (newConnection_deals (server.setLoop l loop) fd).2.2.1, haccepted]
        rfl
    rw [Machine.run_cons, dealt_append, List.length_append, ih]
    show (dealt (server.step input).2).length + _ = ((server.acceptedBy input).toList ++ _).length
    rw [hfirst, List.length_append]
    rfl

section Runs

variable {name ipPort : StdString} {acceptSocket_ numThreads : ℕ} {writeCompleteCallback_ : Bool}
  {is : List Input}

theorem dealt_run
    (his : machine.CanRun (started name ipPort acceptSocket_ numThreads writeCompleteCallback_) is) :
    let last := machine.run (started name ipPort acceptSocket_ numThreads writeCompleteCallback_) is
    Dealt numThreads last.2 last.1 := by
  refine Machine.run_induction (P := fun o server => Dealt numThreads o server)
    (fun _ _ _ h _ => h.step)
    ⟨rfl, rfl, fun _ => (Nat.zero_mod numThreads).symm, rfl, rfl, ?_⟩ his
  rintro id l ⟨conn, hconn, -⟩
  cases hconn

/-- Of `m` connections every loop of the pool has been given `m / n` or one more. -/
theorem count_dealt {n m : ℕ} {ds : List (ℕ × ℕ)} (hn : n ≠ 0)
    (hds : ds = (List.range m).map fun k => (k + 1, if n = 0 then 0 else k % n + 1)) {l : ℕ}
    (hl : 1 ≤ l) (hln : l ≤ n) :
    m / n ≤ ds.countP (fun d => d.2 = l) ∧ ds.countP (fun d => d.2 = l) ≤ m / n + 1 := by
  have hcount : ds.countP (fun d => d.2 = l) = Nat.count (fun k => k ≡ l - 1 [MOD n]) m := by
    rw [hds, List.countP_map]
    apply List.countP_congr
    intro k _
    have hl' : (l - 1) % n = l - 1 := Nat.mod_eq_of_lt (by omega)
    have hiff : k % n + 1 = l ↔ k ≡ l - 1 [MOD n] := by
      unfold Nat.ModEq
      rw [hl']
      omega
    simp [hn, hiff]
  rw [hcount, Nat.count_modEq_card m (Nat.pos_of_ne_zero hn)]
  split <;> omega

/-- The connections of a run are numbered in the order of their coming, and go to the loops of the
pool in turn, or stay with the base loop if there is no pool; so no loop of a pool gets more than
one connection more than another.  There is one for each descriptor that was accepted, and those
that exist belong to the loops that they were dealt to. -/
theorem dealt_in_turn
    (his : machine.CanRun (started name ipPort acceptSocket_ numThreads writeCompleteCallback_) is) :
    let last := machine.run (started name ipPort acceptSocket_ numThreads writeCompleteCallback_) is
    (dealt last.2).length =
        (accepted (started name ipPort acceptSocket_ numThreads writeCompleteCallback_) is).length ∧
      (∀ id conn, last.1.objects id = some conn → (id, conn.loop_) ∈ dealt last.2) ∧
      dealt last.2 = (List.range (dealt last.2).length).map (fun k =>
        (k + 1, if numThreads = 0 then 0 else k % numThreads + 1)) ∧
      ∀ l l', 1 ≤ l → l ≤ numThreads → 1 ≤ l' → l' ≤ numThreads →
        (dealt last.2).countP (fun d => d.2 = l) ≤
          (dealt last.2).countP (fun d => d.2 = l') + 1 := by
  intro last
  have hdealt := dealt_run his
  refine ⟨length_dealt _ is, fun id conn hconn => hdealt.placed ⟨conn, hconn, rfl⟩, hdealt.dealt,
    fun l l' hl hln hl' hln' => ?_⟩
  have hn : numThreads ≠ 0 := by omega
  have hcount := count_dealt hn hdealt.dealt hl hln
  have hcount' := count_dealt hn hdealt.dealt hl' hln'
  exact hcount.2.trans (Nat.add_le_add_right hcount'.1 1)

/-- Three connections come in one after the other. -/
def threeAccepted : List Input :=
  let accept (fd : ℕ) : List Input :=
    [.poll 0 [(3, {.EPOLLIN})], .handleEvent 0, .callBack 0 { accept := some fd },
      .doPendingFunctors 0, .pollAgain 0]
  accept 7 ++ accept 8 ++ accept 9

theorem dealt_in_turn_threeAccepted :
    let server := started (StdString.ofLiteral "GameServer") (StdString.ofLiteral "0.0.0.0:8888")
      3 2 true
    let last := machine.run server threeAccepted
    accepted server threeAccepted = [7, 8, 9] ∧ dealt last.2 = [(1, 1), (2, 2), (3, 1)] ∧
      [1, 2, 3].map (fun id => (last.1.objects id).map ServerConnection.loop_) =
        [some 1, some 2, some 1] ∧
      ∀ id conn, last.1.objects id = some conn → (id, conn.loop_) ∈ dealt last.2 :=
  ⟨by decide +kernel, by decide +kernel, by decide +kernel,
    (dealt_in_turn (by decide +kernel)).2.1⟩

end Runs

end TcpServer

end ArenaGame
