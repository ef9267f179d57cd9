import ArenaGame.Muduo.Equiv.ServerInvariant

/-!
# Every run of a server

The invariant is kept by each step of each loop, in any order of the steps.
-/

namespace ArenaGame

open ChannelIndex

/-- What the kernel reports calls for one reading callback at most. -/
def TcpServer.Input.Clear : TcpServer.Input → Prop
  | poll _ ready => ∀ report ∈ ready, ¬ Stray report.2
  | _ => True

instance : (input : TcpServer.Input) → Decidable input.Clear
  | .poll _ ready => inferInstanceAs (Decidable (∀ report ∈ ready, ¬ Stray report.2))
  | .handleEvent _ => isTrue trivial
  | .callBack _ _ => isTrue trivial
  | .doPendingFunctors _ => isTrue trivial
  | .callFunctor _ => isTrue trivial
  | .pollAgain _ => isTrue trivial
  | .send _ _ _ => isTrue trivial
  | .shutdown _ => isTrue trivial
  | .destroy _ => isTrue trivial

/-- The kernel takes at most what a write offers it, and the peer has not broken the connection. -/
def TcpServer.Input.Fits (server : TcpServer) : TcpServer.Input → Prop
  | callBack l calls =>
    match (server.loops l).callbacks with
    | (.connection id, .writeCallback_) :: _ =>
      match server.objects id with
      | some conn => calls.write.Fits conn.outputBuffer_.readableBytes
      | none => True
    | _ => True
  | send _ data result => result.Fits data.length
  | _ => True

instance (server : TcpServer) : (input : TcpServer.Input) → Decidable (input.Fits server)
  | .callBack _ _ => by
    unfold TcpServer.Input.Fits
    dsimp only
    split
    · split <;> infer_instance
    · infer_instance
  | .send _ data result => inferInstanceAs (Decidable (result.Fits data.length))
  | .poll _ _ => isTrue trivial
  | .handleEvent _ => isTrue trivial
  | .doPendingFunctors _ => isTrue trivial
  | .callFunctor _ => isTrue trivial
  | .pollAgain _ => isTrue trivial
  | .shutdown _ => isTrue trivial
  | .destroy _ => isTrue trivial

namespace TcpServer

variable {once fits : Prop} {o : List ServerEvent} {server : TcpServer} {l : ℕ}

/-! ### The steps of a loop -/

theorem setLoop_setLoop (server : TcpServer) (l : ℕ) (loop loop' : IoLoop) :
    (server.setLoop l loop).setLoop l loop' = server.setLoop l loop' := by
  unfold TcpServer.setLoop
  simp only [Function.update_idem]

/-- Only open connections are reported, each of them once. -/
theorem Single.poll (h : server.Single) (hwired : server.Wired) {ready : List (ℕ × EpollEvents)}
    (hready : (server.loops l).poller_.Ready ready) (hcallbacks : (server.loops l).callbacks = [])
    (hclear : ∀ report ∈ ready, ¬ Stray report.2) :
    (server.setLoop l { server.loops l with
      phase := .handling
      poller_ := ((server.loops l).poller_.poll ready).1
      activeChannels_ := ((server.loops l).poller_.poll ready).2 }).Single := by
  obtain ⟨hnodup, hactive⟩ := (hwired.watches l).active hready
  have hreports : IoLoop.reports { server.loops l with
      phase := .handling
      poller_ := ((server.loops l).poller_.poll ready).1
      activeChannels_ := ((server.loops l).poller_.poll ready).2 } =
        ((server.loops l).poller_.poll ready).2.map Prod.fst := by
    simp [IoLoop.reports, hcallbacks]
  constructor
  case reports =>
    intro l'
    rw [loops_setLoop]
    split
    · rw [hreports]
      exact hnodup
    · exact h.reports l'
  case clear =>
    intro l'
    rw [loops_setLoop]
    split
    · intro channel hmem
      obtain ⟨event, hevent, rfl⟩ := List.mem_map.mp hmem
      obtain ⟨report, hreport, hlookup⟩ := List.mem_filterMap.mp hevent
      obtain ⟨entry, -, rfl⟩ := Option.map_eq_some_iff.mp hlookup
      exact hclear report hreport
    · exact h.clear l'
  case reading =>
    intro l' id
    rw [loops_setLoop]
    split
    · rename_i heq
      rw [hreports, heq]
      intro hmem
      obtain ⟨channel, hchannel, hptr⟩ := List.mem_map.mp hmem
      obtain ⟨c, hc, hadded, -⟩ := hactive channel hchannel
      rcases channels_eq_some hc with ⟨hptr', -⟩ | ⟨id', conn, hptr', hconn, hloop, rfl⟩
      · rw [hptr] at hptr'
        cases hptr'
      · rw [hptr] at hptr'
        obtain rfl := ChannelPtr.connection.inj hptr'
        exact ⟨conn, hconn, h.added id conn hconn hadded, hloop⟩
    · exact h.reading l' id
  case added => exact h.added

theorem Inv.poll (h : server.Inv once fits o) (hphase : (server.loops l).phase = .polling)
    {ready : List (ℕ × EpollEvents)} (hready : (server.loops l).poller_.Ready ready)
    (hclear : once → ∀ report ∈ ready, ¬ Stray report.2) :
    (server.setLoop l { server.loops l with
      phase := .handling
      poller_ := ((server.loops l).poller_.poll ready).1
      activeChannels_ := ((server.loops l).poller_.poll ready).2 }).Inv once fits o := by
  have hfunctors := (h.phased l).executing (by rw [hphase]; exact fun heq => by cases heq)
  have hcallbacks := ((h.phased l).handling (by rw [hphase]; exact fun heq => by cases heq)).2
  refine h.setLoop (fun _ => rfl) ⟨fun hne => absurd rfl hne, fun _ => hfunctors⟩
    (h.wired.poll hready hcallbacks) fun ho => ?_
  exact (h.single ho).poll h.wired hready hcallbacks (hclear ho)

/-- The callbacks of the next active channel. -/
theorem Inv.handleEvent (h : server.Inv once fits o) (hphase : (server.loops l).phase = .handling)
    (hcallbacks : (server.loops l).callbacks = []) {channel : ChannelPtr × EpollEvents}
    {channels : List (ChannelPtr × EpollEvents)}
    (hactive : (server.loops l).activeChannels_ = channel :: channels) :
    let next := server.setLoop l { server.loops l with activeChannels_ := channels }
    (next.handleEvent l channel).2 = [] ∧ (next.handleEvent l channel).1.Inv once fits o := by
  intro next
  have hmem : channel ∈ (server.loops l).activeChannels_ := hactive ▸ List.mem_cons_self
  have hreg := h.wired.active l channel hmem
  have hguarded : next.setLoop l { next.loops l with
      callbacks := (Channel.handleEventWithGuard channel.2).map fun callback =>
        (channel.1, callback) } =
      server.setLoop l { server.loops l with
        activeChannels_ := channels
        callbacks := (Channel.handleEventWithGuard channel.2).map fun callback =>
          (channel.1, callback) } := by
    rw [setLoop_setLoop, show next.loops l = _ from loops_setLoop_self _ _ _]
  have hinv : (next.setLoop l { next.loops l with
      callbacks := (Channel.handleEventWithGuard channel.2).map fun callback =>
        (channel.1, callback) }).Inv once fits o := by
    rw [hguarded]
    refine h.setLoop (fun _ => rfl) ⟨fun hne => absurd hphase hne, (h.phased l).executing⟩ ?_
      fun ho => ?_
    · refine h.wired.setLoop rfl (fun channel' hin => ?_) fun callback hin => ?_
      · exact h.wired.active l channel' (hactive ▸ List.mem_cons_of_mem _ hin)
      · obtain ⟨_, -, rfl⟩ := List.mem_map.mp hin
        exact hreg
    · apply (h.single ho).setLoop
      · -- The channel is reported once more at most.
        have hle := Channel.filter_hears ((h.single ho).clear l channel hmem)
        have hold : (server.loops l).reports = channel.1 :: channels.map Prod.fst := by
          simp [IoLoop.reports, hcallbacks, hactive]
        have hnew : ∀ cs : List Channel.Callback,
            ((cs.map fun callback => (channel.1, callback)).filter fun callback =>
              callback.2.hears).map Prod.fst =
                (cs.filter Channel.Callback.hears).map fun _ => channel.1 := by
          intro cs
          rw [List.filter_map, List.map_map]
          rfl
        rw [hold]
        show ((((Channel.handleEventWithGuard channel.2).map fun callback =>
          (channel.1, callback)).filter fun callback => callback.2.hears).map Prod.fst ++
            channels.map Prod.fst).Sublist _
        rw [hnew, List.map_const']
        refine (List.Sublist.append_right (?_ : List.Sublist _ [channel.1]) _)
        exact List.replicate_sublist_replicate channel.1 |>.mpr hle
      · exact fun channel' hin => hactive ▸ List.mem_cons_of_mem _ hin
  unfold TcpServer.handleEvent
  obtain ⟨ptr, revents⟩ := channel
  cases ptr with
  | acceptChannel_ => exact ⟨rfl, hinv⟩
  | connection id =>
    obtain ⟨conn, hconn, -⟩ := hreg
    have hconn : next.objects id = some conn := hconn
    simp only [deref, hconn]
    exact ⟨trivial, hinv⟩

/-- The next callback of a channel. -/
theorem Inv.nextCallBack (h : server.Inv once fits o) (hphase : (server.loops l).phase = .handling)
    {ptr : ChannelPtr} {callback : Channel.Callback}
    {callbacks : List (ChannelPtr × Channel.Callback)}
    (hcallbacks : (server.loops l).callbacks = (ptr, callback) :: callbacks)
    {calls : SystemCalls} (haccept : server.Accepts calls.accept)
    (hfits : fits → Input.Fits server (.callBack l calls)) :
    let next := server.setLoop l { server.loops l with callbacks := callbacks }
    (next.callBack l calls (ptr, callback)).1.Inv once fits
      (o ++ (next.callBack l calls (ptr, callback)).2) := by
  intro next
  have hreg : server.Registered l ptr :=
    h.wired.callbacks l (ptr, callback) (hcallbacks ▸ List.mem_cons_self)
  have hnext : next.loops l = { server.loops l with callbacks := callbacks } :=
    loops_setLoop_self _ _ _
  have hreports : (next.loops l).reports.Sublist (server.loops l).reports := by
    rw [hnext]
    unfold IoLoop.reports
    rw [hcallbacks]
    exact List.Sublist.append_right (((List.sublist_cons_self _ _).filter _).map _) _
  have hinv : next.Inv once fits o := by
    refine h.setLoop (fun _ => rfl) ⟨fun hne => absurd hphase hne, (h.phased l).executing⟩ ?_
      fun ho => (h.single ho).setLoop (hnext ▸ hreports) fun _ hin => hin
    exact h.wired.setLoop rfl (h.wired.active l) fun callback' hin =>
      h.wired.callbacks l callback' (hcallbacks ▸ List.mem_cons_of_mem _ hin)
  refine hinv.callBack hreg haccept callback ?_ ?_
  · rintro hf rfl id conn rfl hconn
    have hconn : server.objects id = some conn := hconn
    have hoffered := hfits hf
    unfold Input.Fits at hoffered
    simpa only [hcallbacks, hconn] using hoffered
  rintro ho hhears id conn rfl hconn
  have hconn : server.objects id = some conn := hconn
  have hold : (server.loops l).reports = .connection id :: (next.loops l).reports := by
    rw [hnext]
    simp [IoLoop.reports, hcallbacks, hhears]
  obtain ⟨conn', hconn', hread, hloop⟩ := (h.single ho).reading l id (hold ▸ List.mem_cons_self)
  obtain rfl := Option.some.inj (hconn'.symm.trans hconn)
  refine ⟨hread, fun l' hin => ?_⟩
  -- The report is gone from this loop, and another loop has no report of its connection.
  by_cases hl : l' = l
  · subst hl
    have hnodup := (h.single ho).reports l'
    rw [hold, List.nodup_cons] at hnodup
    exact hnodup.1 hin
  · have hin : ChannelPtr.connection id ∈ (server.loops l').reports := by
      rwa [loops_setLoop, if_neg hl] at hin
    obtain ⟨conn₁, hconn₁, -, hloop₁⟩ := (h.single ho).reading l' id hin
    obtain rfl := Option.some.inj (hconn₁.symm.trans hconn)
    exact hl (hloop₁.symm.trans hloop)

/-- Every step of every loop keeps the invariant. -/
theorem Inv.step (h : server.Inv once fits o) {input : Input} (hpossible : server.Possible input)
    (hclear : once → input.Clear) (hfits : fits → input.Fits server) :
    (server.step input).1.Inv once fits (o ++ (server.step input).2) := by
  have hsilent : ∀ {server' : TcpServer}, server'.Inv once fits o → server'.Inv once fits (o ++ []) := by
    intro server' h'
    rwa [List.append_nil]
  cases input with
  | poll l ready =>
    obtain ⟨-, hphase, hready⟩ := hpossible
    exact hsilent (h.poll hphase hready hclear)
  | handleEvent l =>
    obtain ⟨-, hphase, hcallbacks, hactive⟩ := hpossible
    unfold TcpServer.step
    cases hcase : (server.loops l).activeChannels_ with
    | nil => exact absurd hcase hactive
    | cons channel channels =>
      obtain ⟨hevents, hinv⟩ := h.handleEvent hphase hcallbacks hcase
      simp only [hcase, hevents]
      exact hsilent hinv
  | callBack l calls =>
    obtain ⟨-, hphase, hcallbacks, haccept⟩ := hpossible
    unfold TcpServer.step
    cases hcase : (server.loops l).callbacks with
    | nil => exact absurd hcase hcallbacks
    | cons callback callbacks =>
      simp only [hcase]
      exact h.nextCallBack hphase hcase haccept hfits
  | doPendingFunctors l =>
    obtain ⟨-, hphase, hcallbacks, hactive⟩ := hpossible
    have hfunctors := (h.phased l).executing (by rw [hphase]; exact fun heq => by cases heq)
    apply hsilent
    refine h.setLoop (fun id => ?_) ⟨fun _ => ⟨hactive, hcallbacks⟩, fun hne => absurd rfl hne⟩
      (h.wired.setLoop rfl (h.wired.active l) (h.wired.callbacks l))
      fun ho => (h.single ho).setLoop (List.Sublist.refl _) fun _ hin => hin
    simp [IoLoop.calls, hfunctors]
  | callFunctor l =>
    obtain ⟨-, hphase, hfunctors⟩ := hpossible
    unfold TcpServer.step
    cases hcase : (server.loops l).functors with
    | nil => exact absurd hcase hfunctors
    | cons functor functors =>
      simp only [hcase]
      exact h.callFunctor hphase hcase
  | pollAgain l =>
    obtain ⟨-, hphase, hfunctors⟩ := hpossible
    have hidle := (h.phased l).handling (by rw [hphase]; exact fun heq => by cases heq)
    apply hsilent
    exact h.setLoop (fun _ => rfl) ⟨fun _ => hidle, fun _ => hfunctors⟩
      (h.wired.setLoop rfl (h.wired.active l) (h.wired.callbacks l))
      fun ho => (h.single ho).setLoop (List.Sublist.refl _) fun _ hin => hin
  | send id data result =>
    obtain ⟨conn, hconn⟩ := Option.isSome_iff_exists.mp hpossible
    simp only [TcpServer.step, deref, hconn]
    exact h.sent hconn (conn.toSendingConnection.sends_send data result) fun hf hflows =>
      SendingConnection.send_step hflows (hfits hf)
  | shutdown id =>
    obtain ⟨conn, hconn⟩ := Option.isSome_iff_exists.mp hpossible
    simp only [TcpServer.step, deref, hconn]
    exact h.sent hconn conn.toSendingConnection.sends_shutdown fun _ hflows =>
      SendingConnection.shutdown_step hflows
  | destroy id =>
    obtain ⟨hsome, hunreferenced⟩ := hpossible
    obtain ⟨conn, hconn⟩ := Option.isSome_iff_exists.mp hsome
    simp only [TcpServer.step, deref, hconn]
    exact hsilent (h.destroy hconn hunreferenced)

/-! ### Runs -/

section Runs

variable (name ipPort : StdString) (acceptSocket_ numThreads : ℕ) (writeCompleteCallback_ : Bool)

theorem view_started (id : ℕ) :
    (started name ipPort acceptSocket_ numThreads writeCompleteCallback_).view id =
      { created := 0 < id ∧ id < 1, object := none, mapped := none, calls := fun _ => [] } := by
  have hcalls : (fun l => ((started name ipPort acceptSocket_ numThreads
      writeCompleteCallback_).loops l).calls id) = fun _ => [] := by
    funext l
    rw [loops_started]
    split <;> rfl
  unfold view
  rw [hcalls]
  rfl

/-- A server that has just been started. -/
theorem Inv.started :
    (started name ipPort acceptSocket_ numThreads writeCompleteCallback_).Inv once fits [] where
  wired := Wired.started name ipPort acceptSocket_ numThreads writeCompleteCallback_
  phased l := by
    rw [loops_started]
    split
    · exact ⟨fun _ => ⟨rfl, rfl⟩, fun _ => rfl⟩
    · exact ⟨fun _ => ⟨rfl, rfl⟩, fun _ => rfl⟩
  names _ _ h := nomatch h
  nextConnId_ := Nat.one_pos
  nextConnId_le := by
    show 1 ≤ 2147483647
    omega
  baseLoop_ := rfl
  loops_ := by
    show List.range' 1 numThreads = List.range' 1 (List.range' 1 numThreads).length
    rw [List.length_range']
  settled id := by
    refine ⟨⟨.unborn, ?_, rfl⟩, fun _ h => (nomatch h), fun _ => List.prefix_refl [], fun _ => rfl⟩
    rw [view_started]
    refine ⟨fun hcreated => ?_, rfl, rfl, fun _ => rfl⟩
    have hcreated : 0 < id ∧ id < 1 := hcreated
    omega
  single _ := by
    constructor
    case reports =>
      intro l
      rw [loops_started]
      split <;> exact List.nodup_nil
    case clear =>
      intro l
      rw [loops_started]
      split <;> exact fun _ hmem => absurd hmem List.not_mem_nil
    case reading =>
      intro l id
      rw [loops_started]
      split <;> exact fun hmem => absurd hmem List.not_mem_nil
    case added => exact fun _ _ h => (nomatch h)
  good _ hmem := absurd hmem List.not_mem_nil

variable {name ipPort acceptSocket_ numThreads writeCompleteCallback_} {is : List Input}

theorem inv_run
    (his : machine.CanRun (started name ipPort acceptSocket_ numThreads writeCompleteCallback_) is) :
    let last := machine.run (started name ipPort acceptSocket_ numThreads writeCompleteCallback_) is
    last.1.Inv False False last.2 :=
  Machine.run_induction (P := fun o server => server.Inv False False o)
    (fun _ _ _ h hpossible => h.step hpossible False.elim False.elim) (.started ..) his

/-- The run of the machine that takes only some inputs. -/
theorem inv_run_restrict {C : TcpServer → Input → Prop}
    (hclear : ∀ server input, C server input → once → input.Clear)
    (hfits : ∀ server input, C server input → fits → input.Fits server)
    (his : (machine.restrict C).CanRun
      (started name ipPort acceptSocket_ numThreads writeCompleteCallback_) is) :
    let last := machine.run (started name ipPort acceptSocket_ numThreads writeCompleteCallback_) is
    last.1.Inv once fits last.2 := by
  have hrun := Machine.run_induction (P := fun o server => server.Inv once fits o)
    (fun _ _ _ h hpossible => h.step hpossible.1 (hclear _ _ hpossible.2) (hfits _ _ hpossible.2))
    (.started ..) his
  rwa [Machine.run_restrict] at hrun

end Runs

/-! ### What holds in every state -/

/-- A functor waits in the loop where it may run, and its connection exists. -/
theorem Inv.functor (h : server.Inv once fits o) {functor : BoundFunctor}
    (hmem : functor ∈ (server.loops l).functors ++ (server.loops l).pendingFunctors_) :
    ∃ conn, server.objects functor.conn = some conn ∧
      l = if functor.call = .removeConnectionInLoop then 0 else conn.loop_ := by
  have hcall : functor.call ∈ (server.view functor.conn).calls l :=
    List.mem_map.mpr ⟨functor, List.mem_filter.mpr ⟨hmem, decide_eq_true rfl⟩, rfl⟩
  have hdown : ∀ {conn : ServerConnection}, functor.call.DownAt conn.loop_ l →
      l = if functor.call = .removeConnectionInLoop then 0 else conn.loop_ := by
    intro conn hdown
    cases hcase : functor.call <;> rw [hcase] at hdown
    · exact hdown.elim
    · exact hdown
    · exact hdown
    · exact hdown
    · exact hdown
  obtain ⟨stage, hat, -⟩ := (h.settled functor.conn).stage
  obtain ⟨conn, hconn⟩ := hat.object_of_mem hcall
  refine ⟨conn, hconn, ?_⟩
  rcases hat.of_object hconn with ⟨-, ⟨-, hat⟩ | ⟨-, hat⟩ | ⟨-, hat⟩ | ⟨-, hat⟩⟩
  · by_cases hl : l = conn.loop_
    · rw [hl, hat.queued, List.mem_singleton] at hcall
      rw [hcall]
      exact hl
    · rw [hat.calls l hl] at hcall
      cases hcall
  · obtain ⟨hcallback, hl⟩ := hat.calls l _ hcall
    rw [if_neg fun heq => by rw [heq] at hcallback; exact hcallback]
    exact hl
  · exact hdown (hat.calls l _ hcall)
  · exact hdown (hat.calls l _ hcall)

/-- Whatever the loops do, and in whichever order: no pointer to a destroyed connection is used and
no call of `epoll_ctl` fails.  What a loop has left to do is about connections that exist, and it is
the loop to do it. -/
theorem never_dangles {name ipPort : StdString} {acceptSocket_ numThreads : ℕ}
    {writeCompleteCallback_ : Bool} {is : List Input}
    (his : machine.CanRun (started name ipPort acceptSocket_ numThreads writeCompleteCallback_) is) :
    let last := machine.run (started name ipPort acceptSocket_ numThreads writeCompleteCallback_) is
    .dangling ∉ last.2 ∧ (∀ event, .poller event ∉ last.2) ∧
      (∀ l, ∀ functor ∈ (last.1.loops l).functors ++ (last.1.loops l).pendingFunctors_,
        ∃ conn, last.1.objects functor.conn = some conn ∧
          l = if functor.call = .removeConnectionInLoop then 0 else conn.loop_) ∧
      ∀ l, ∀ id, .connection id ∈ (last.1.loops l).activeChannels_.map Prod.fst ++
          (last.1.loops l).callbacks.map Prod.fst →
        ∃ conn, last.1.objects id = some conn ∧ conn.loop_ = l := by
  have hinv := inv_run his
  refine ⟨fun hmem => hinv.good _ hmem trivial, fun event hmem => hinv.good _ hmem trivial,
    fun l functor hmem => hinv.functor hmem, fun l id hmem => ?_⟩
  rcases List.mem_append.mp hmem with hmem | hmem
  · obtain ⟨channel, hchannel, hptr⟩ := List.mem_map.mp hmem
    have hreg := hinv.wired.active l channel hchannel
    rw [hptr] at hreg
    obtain ⟨conn, hconn, hloop, -⟩ := hreg
    exact ⟨conn, hconn, hloop⟩
  · obtain ⟨callback, hcallback, hptr⟩ := List.mem_map.mp hmem
    have hreg := hinv.wired.callbacks l callback hcallback
    rw [hptr] at hreg
    obtain ⟨conn, hconn, hloop, -⟩ := hreg
    exact ⟨conn, hconn, hloop⟩

/-- A connection comes up on the loop 1 of two, gets a message and answers it; its peer closes it
while the answer is still being written. -/
def answeredAndClosed : List Input :=
  [.poll 0 [(3, {.EPOLLIN})], .handleEvent 0, .callBack 0 { accept := some 7 },
    .doPendingFunctors 0, .pollAgain 0,
    .poll 1 [], .doPendingFunctors 1, .callFunctor 1, .pollAgain 1,
    .poll 1 [(7, {.EPOLLIN})], .handleEvent 1, .callBack 1 { readFd := .read [1] },
    .send 1 [5] (.wrote 0), .doPendingFunctors 1, .pollAgain 1,
    .poll 1 [(7, {.EPOLLIN, .EPOLLOUT, .EPOLLHUP})], .handleEvent 1,
    .callBack 1 { readFd := .read [] }, .callBack 1 {}, .doPendingFunctors 1, .pollAgain 1,
    .poll 0 [], .doPendingFunctors 0, .callFunctor 0, .pollAgain 0,
    .poll 1 [], .doPendingFunctors 1, .callFunctor 1]

theorem never_dangles_answered :
    ServerEvent.dangling ∉ (machine.run
      (started (StdString.ofLiteral "GameServer") (StdString.ofLiteral "0.0.0.0:8888") 3 2 true)
      (answeredAndClosed ++ [.destroy 1])).2 :=
  (never_dangles (by decide +kernel)).1

end TcpServer

end ArenaGame
