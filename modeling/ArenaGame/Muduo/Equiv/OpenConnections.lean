import ArenaGame.Muduo.Equiv.UserCalls

/-!
# Open connections

What a run says about a connection to its user, to the kernel and to `connections_` is the same
thing; and when no loop has anything left to do, every connection is either open or ready to be
destroyed.
-/

namespace ArenaGame

open ChannelIndex

/-- Up, then messages, then down, as far as a connection has come. -/
def Orderly (cs : List Notice) : Prop :=
  cs = [] ∨ ∃ msgs : List (List UInt8),
    cs = .connection true :: msgs.map .message ∨
      cs = .connection true :: msgs.map .message ++ [.connection false]

namespace TcpServer

variable {once fits : Prop} {o : List ServerEvent} {server : TcpServer} {id l : ℕ}

/-! ### The kernel and the user -/

theorem Inv.lookup_epollfd (h : server.Inv once fits o) {conn : ServerConnection}
    (hconn : server.objects id = some conn) :
    (server.loops conn.loop_).poller_.epollfd_.lookup conn.fd_ =
      if conn.index_ = kAdded then some (conn.events_, .connection id) else none :=
  (h.wired.watches conn.loop_).epollfd_.lookup
    (show server.channels conn.loop_ (.connection id) = some conn.channel_ by
      rw [channels_connection hconn, if_pos rfl])

theorem mem_events_iff {conn : ServerConnection} :
    EpollFlag.EPOLLIN ∈ conn.events_ ↔ conn.isReading = true := by
  cases hr : conn.isReading <;> cases hw : conn.isWriting <;>
    simp [ServerConnection.events_, Channel.kReadEvent, Channel.kWriteEvent, hr, hw]

theorem mem_events_iff_writing {conn : ServerConnection} :
    EpollFlag.EPOLLOUT ∈ conn.events_ ↔ conn.isWriting = true := by
  cases hr : conn.isReading <;> cases hw : conn.isWriting <;>
    simp [ServerConnection.events_, Channel.kReadEvent, Channel.kWriteEvent, hr, hw]

/-- A connection that has been called back as up, and not as down, is watched for input, and is in
`connections_` under its name; no other connection is watched for input. -/
theorem Inv.up_iff (h : server.Inv once fits o) (id : ℕ) :
    (∃ msgs : List (List UInt8), notices id o = .connection true :: msgs.map .message) ↔
      ∃ conn, server.objects id = some conn ∧
        server.connections_.lookup conn.name_ = some id ∧
        (conn.state_ = .kConnected ∨ conn.state_ = .kDisconnecting) ∧
        (server.loops conn.loop_).poller_.epollfd_.lookup conn.fd_ =
          some (conn.events_, .connection id) ∧
        .EPOLLIN ∈ conn.events_ := by
  obtain ⟨stage, hat, hhistory⟩ := (h.settled id).stage
  -- The callback of the end tells a connection that is down from one that is up.
  have hnot : ∀ {msgs msgs' : List (List UInt8)} {rest : List Notice},
      notices id o = .connection true :: msgs.map .message →
      notices id o ≠ .connection true :: msgs'.map .message ++ .connection false :: rest := by
    intro msgs msgs' rest hup hdown
    have hmem : Notice.connection false ∈ msgs.map Notice.message := by
      rw [hup] at hdown
      rw [(List.cons.inj hdown).2]
      exact List.mem_append_right _ List.mem_cons_self
    obtain ⟨_, -, heq⟩ := List.mem_map.mp hmem
    cases heq
  constructor
  · rintro ⟨msgs, hup⟩
    cases stage with
    | unborn =>
      rw [show notices id o = [] from hhistory] at hup
      cases hup
    | connecting =>
      rw [show notices id o = [] from hhistory] at hup
      cases hup
    | established =>
      obtain ⟨-, conn, hat⟩ := hat
      have hname := ((h.settled id).conn conn hat.object).1
      refine ⟨conn, hat.object, ?_, hat.state, ?_, mem_events_iff.mpr hat.reading⟩
      · rw [hname]
        exact hat.mapped
      · rw [h.lookup_epollfd hat.object, if_pos hat.index]
    | closed =>
      obtain ⟨msgs', rest, hdown, -⟩ := hhistory
      exact absurd hdown (hnot hup)
    | removed =>
      obtain ⟨msgs', rest, hdown, -⟩ := hhistory
      exact absurd hdown (hnot hup)
    | destroyed =>
      obtain ⟨msgs', rest, hdown, -⟩ := hhistory
      exact absurd hdown (hnot hup)
  · rintro ⟨conn, hconn, -, -, -, hin⟩
    have hreading := mem_events_iff.mp hin
    rcases hat.open_or_idle hconn with ⟨rfl, -⟩ | ⟨hidle, -⟩
    · exact hhistory
    · rw [hidle] at hreading
      cases hreading

theorem Inv.up_of_open (h : server.Inv once fits o) {conn : ServerConnection}
    (hconn : server.objects id = some conn)
    (hstate : conn.state_ = .kConnected ∨ conn.state_ = .kDisconnecting) :
    ∃ msgs : List (List UInt8), notices id o = .connection true :: msgs.map .message := by
  obtain ⟨stage, hat, hhistory⟩ := (h.settled id).stage
  rcases hat.open_or_idle hconn with ⟨rfl, -⟩ | ⟨-, -, hidle⟩
  · exact hhistory
  · rcases hstate with hstate | hstate <;> rw [hstate] at hidle <;> rcases hidle with h | h <;>
      cases h

/-- The server knows a connection under its name only, and not longer than it exists. -/
theorem Inv.of_lookup (h : server.Inv once fits o) {name : StdString}
    (hlookup : server.connections_.lookup name = some id) :
    ∃ conn, server.objects id = some conn ∧ conn.name_ = name := by
  have hname := h.names name id hlookup
  have hmapped : (server.view id).mapped = some id := by
    rw [hname] at hlookup
    exact hlookup
  have hobject : ∃ conn, (server.view id).object = some conn := by
    obtain ⟨stage, hat, -⟩ := (h.settled id).stage
    cases stage with
    | unborn =>
      rw [hat.2.mapped] at hmapped
      cases hmapped
    | destroyed =>
      rw [hat.2.mapped] at hmapped
      cases hmapped
    | connecting => exact hat.2.imp fun _ hat => hat.object
    | established => exact hat.2.imp fun _ hat => hat.object
    | closed => exact hat.2.imp fun _ hat => hat.object
    | removed => exact hat.2.imp fun _ hat => hat.object
  obtain ⟨conn, hconn⟩ := hobject
  exact ⟨conn, hconn, ((h.settled id).conn conn hconn).1.trans hname.symm⟩

/-! ### When nothing is left to do -/

/-- No loop has anything left to do before it waits. -/
def Quiet (server : TcpServer) : Prop :=
  ∀ l ≤ server.threadPool_.loops_.length, (server.loops l).activeChannels_ = [] ∧
    (server.loops l).callbacks = [] ∧ (server.loops l).functors = [] ∧
    (server.loops l).pendingFunctors_ = []

instance (server : TcpServer) : Decidable server.Quiet :=
  inferInstanceAs (Decidable (∀ l ≤ server.threadPool_.loops_.length, _))

theorem Quiet.calls_eq_nil (hquiet : server.Quiet) (hl : server.IsLoop l) (id : ℕ) :
    (server.view id).calls l = [] := by
  obtain ⟨-, -, hfunctors, hpending⟩ := hquiet l hl
  show (server.loops l).calls id = []
  unfold IoLoop.calls
  rw [hfunctors, hpending]
  rfl

/-- Then a connection is open, or the last pointer to it is gone and no poller knows it. -/
theorem Inv.of_quiet (h : server.Inv once fits o) (hquiet : server.Quiet) {conn : ServerConnection}
    (hconn : server.objects id = some conn) :
    (conn.state_ = .kConnected ∨ conn.state_ = .kDisconnecting) ∧ conn.isReading = true ∧
        conn.index_ = kAdded ∧ server.connections_.lookup conn.name_ = some id ∨
      server.Possible (.destroy id) ∧ conn.state_ = .kDisconnected ∧
        (server.loops conn.loop_).poller_.channels_.lookup conn.fd_ = none ∧
        (server.loops conn.loop_).poller_.epollfd_.lookup conn.fd_ = none := by
  obtain ⟨stage, hat, -⟩ := (h.settled id).stage
  obtain ⟨hname, hloop⟩ := (h.settled id).conn conn hconn
  rcases hat.of_object hconn with ⟨-, ⟨-, hat⟩ | ⟨-, hat⟩ | ⟨-, hat⟩ | ⟨-, hat⟩⟩
  · have hqueued := hat.queued
    rw [hquiet.calls_eq_nil hloop] at hqueued
    cases hqueued
  · left
    refine ⟨hat.state, hat.reading, hat.index, ?_⟩
    rw [hname]
    exact hat.mapped
  · rcases hat.pending with ⟨-, hmem, -⟩ | ⟨-, hmem⟩
    · rw [hquiet.calls_eq_nil (Nat.zero_le _)] at hmem
      cases hmem
    · rw [hquiet.calls_eq_nil hloop] at hmem
      cases hmem
  · right
    refine ⟨⟨Option.isSome_iff_exists.mpr ⟨conn, hconn⟩, ?_, fun l hl => ?_⟩, hat.state, ?_, ?_⟩
    · intro hmem
      obtain ⟨name, hlookup⟩ := (UnorderedMap.mem_values server.connections_).mp hmem
      have hname := h.names name id hlookup
      rw [hname, show server.connections_.lookup (server.connName id) = none from hat.mapped]
        at hlookup
      cases hlookup
    · obtain ⟨-, hcallbacks, hfunctors, hpending⟩ := hquiet l hl
      rw [hcallbacks, hfunctors, hpending]
      exact ⟨fun _ hmem => absurd hmem List.not_mem_nil, fun _ hmem => absurd hmem List.not_mem_nil⟩
    · have hregistered := (h.wired.watches conn.loop_).channels_.lookup
        (show server.channels conn.loop_ (.connection id) = some conn.channel_ by
          rw [channels_connection hconn, if_pos rfl])
      rw [Channel.registered, if_pos (show conn.channel_.index_ = kNew from hat.index)]
        at hregistered
      exact hregistered
    · rw [h.lookup_epollfd hconn, hat.index]
      rfl

/-- The callbacks of one connection are in order. -/
theorem Inv.orderly (h : server.Inv True fits o) (id : ℕ) : Orderly (notices id o) := by
  have hdown : ∀ {cs : List Notice},
      (∃ (msgs : List (List UInt8)) (rest : List Notice),
        cs = .connection true :: msgs.map .message ++ .connection false :: rest ∧
          (True → rest = [])) → Orderly cs := by
    rintro cs ⟨msgs, rest, heq, hrest⟩
    exact Or.inr ⟨msgs, Or.inr (by rw [heq, hrest trivial])⟩
  obtain ⟨stage, -, hhistory⟩ := (h.settled id).stage
  cases stage with
  | unborn => exact Or.inl hhistory
  | connecting => exact Or.inl hhistory
  | established =>
    obtain ⟨msgs, heq⟩ := hhistory
    exact Or.inr ⟨msgs, Or.inl heq⟩
  | closed => exact hdown hhistory
  | removed => exact hdown hhistory
  | destroyed => exact hdown hhistory

/-! ### Every run -/

section Runs

variable {name ipPort : StdString} {acceptSocket_ numThreads : ℕ} {writeCompleteCallback_ : Bool}
  {is : List Input}

/-- In every run a connection is watched for input from the callback that it is up to the callback
that it is down, and as long it is in `connections_`. -/
theorem watched_iff_up
    (his : machine.CanRun
      (started name ipPort acceptSocket_ numThreads writeCompleteCallback_) is) :
    let last := machine.run (started name ipPort acceptSocket_ numThreads writeCompleteCallback_) is
    (∀ id, (∃ msgs : List (List UInt8),
        notices id last.2 = .connection true :: msgs.map .message) ↔
      ∃ conn, last.1.objects id = some conn ∧
        last.1.connections_.lookup conn.name_ = some id ∧
        (conn.state_ = .kConnected ∨ conn.state_ = .kDisconnecting) ∧
        (last.1.loops conn.loop_).poller_.epollfd_.lookup conn.fd_ =
          some (conn.events_, .connection id) ∧
        .EPOLLIN ∈ conn.events_) ∧
      ∀ name id, last.1.connections_.lookup name = some id →
        ∃ conn, last.1.objects id = some conn ∧ conn.name_ = name := by
  have hinv := inv_run his
  exact ⟨hinv.up_iff, fun name id hlookup => hinv.of_lookup hlookup⟩

theorem watched_iff_up_answered :
    let server := (machine.run
      (started (StdString.ofLiteral "GameServer") (StdString.ofLiteral "0.0.0.0:8888") 3 2 true)
      (answeredAndClosed.take 13)).1
    ∃ conn, server.objects 1 = some conn ∧
      server.connections_.lookup conn.name_ = some 1 ∧
      (conn.state_ = .kConnected ∨ conn.state_ = .kDisconnecting) ∧
      (server.loops conn.loop_).poller_.epollfd_.lookup conn.fd_ =
        some (conn.events_, .connection 1) ∧
      .EPOLLIN ∈ conn.events_ :=
  ((watched_iff_up (by decide +kernel)).1 1).mp ⟨[[1]], by decide +kernel⟩

/-- The user hears of a connection that it is up, then its messages, then that it is down, and
nothing after that. -/
theorem called_back_in_order
    (his : (machine.restrict fun _ input => input.Clear).CanRun
      (started name ipPort acceptSocket_ numThreads writeCompleteCallback_) is) (id : ℕ) :
    let events :=
      (machine.run (started name ipPort acceptSocket_ numThreads writeCompleteCallback_) is).2
    notices id events = [] ∨ ∃ msgs : List (List UInt8),
      notices id events = .connection true :: msgs.map .message ∨
        notices id events = .connection true :: msgs.map .message ++ [.connection false] := by
  have hinv : TcpServer.Inv True False _ _ :=
    inv_run_restrict (fun _ _ hclear _ => hclear) (fun _ _ _ => False.elim) his
  exact hinv.orderly id

theorem called_back_in_order_answered :
    let events := (machine.run
      (started (StdString.ofLiteral "GameServer") (StdString.ofLiteral "0.0.0.0:8888") 3 2 true)
      answeredAndClosed).2
    notices 1 events = [] ∨ ∃ msgs : List (List UInt8),
      notices 1 events = .connection true :: msgs.map .message ∨
        notices 1 events = .connection true :: msgs.map .message ++ [.connection false] :=
  called_back_in_order (by decide +kernel) 1

/-- What the kernel accepts from a connection are the strings that were sent over it while it was
`kConnected`, in their order and without gaps; and as long as the connection is open, the kernel
watches it for output exactly if bytes wait. -/
theorem written_in_order
    (his : (machine.restrict fun server input => input.Fits server).CanRun
      (started name ipPort acceptSocket_ numThreads writeCompleteCallback_) is) (id : ℕ) :
    let server := started name ipPort acceptSocket_ numThreads writeCompleteCallback_
    let last := machine.run server is
    SendEvent.sent (sendings id last.2) = handed id server is ∧
      SendEvent.written (sendings id last.2) <+: SendEvent.sent (sendings id last.2) ∧
      ∀ conn, last.1.objects id = some conn →
        SendEvent.written (sendings id last.2) ++ conn.outputBuffer_.readable =
            SendEvent.sent (sendings id last.2) ∧
          (conn.state_ = .kConnected ∨ conn.state_ = .kDisconnecting → ∃ events,
            (last.1.loops conn.loop_).poller_.epollfd_.lookup conn.fd_ =
              some (events, .connection id) ∧
            (.EPOLLOUT ∈ events ↔ conn.outputBuffer_.readable ≠ [])) := by
  have hinv : TcpServer.Inv False True _ _ :=
    inv_run_restrict (fun _ _ _ => False.elim) (fun _ _ hfits _ => hfits) his
  have hflow := (hinv.settled id).flow trivial
  refine ⟨sent_run _ id is, hflow.written_isPrefix, fun conn hconn => ?_⟩
  rw [hconn] at hflow
  refine ⟨hflow.1, fun hopen => ⟨conn.events_, ?_, ?_⟩⟩
  · obtain ⟨stage, hat, -⟩ := (hinv.settled id).stage
    rw [hinv.lookup_epollfd hconn]
    rcases hat.open_or_idle hconn with ⟨-, hestablished⟩ | ⟨-, -, hidle⟩
    · rw [if_pos hestablished.index]
    · rcases hidle with h | h <;> rw [h] at hopen <;> rcases hopen with h' | h' <;> cases h'
  · have hnot : conn.state_ ≠ .kDisconnected := by
      intro heq
      rw [heq] at hopen
      rcases hopen with h | h <;> cases h
    rw [← show conn.isWriting = true ↔ conn.outputBuffer_.readable ≠ [] from hflow.2 hnot]
    exact mem_events_iff_writing

/-- A connection comes up and is sent two bytes, of which the kernel takes the second when it is
ready for output. -/
def answeredInTwo : List Input :=
  [.poll 0 [(3, {.EPOLLIN})], .handleEvent 0, .callBack 0 { accept := some 7 },
    .doPendingFunctors 0, .pollAgain 0,
    .poll 1 [], .doPendingFunctors 1, .callFunctor 1, .pollAgain 1,
    .send 1 [5, 6] (.wrote 1),
    .poll 1 [(7, {.EPOLLOUT})], .handleEvent 1, .callBack 1 { write := .wrote 1 }]

theorem written_in_order_answeredInTwo :
    let server := started (StdString.ofLiteral "GameServer") (StdString.ofLiteral "0.0.0.0:8888")
      3 2 true
    let events := (machine.run server answeredInTwo).2
    handed 1 server answeredInTwo = [5, 6] ∧ SendEvent.written (sendings 1 events) = [5, 6] ∧
      SendEvent.sent (sendings 1 events) = handed 1 server answeredInTwo :=
  ⟨by decide +kernel, by decide +kernel, (written_in_order (by decide +kernel) 1).1⟩

/-- When the loops have nothing left to do, no connection is left behind: it is open, or it may be
destroyed and no poller knows it. -/
theorem nothing_left_behind
    (his : machine.CanRun
      (started name ipPort acceptSocket_ numThreads writeCompleteCallback_) is) :
    let server :=
      (machine.run (started name ipPort acceptSocket_ numThreads writeCompleteCallback_) is).1
    server.Quiet → ∀ id conn, server.objects id = some conn →
      (conn.state_ = .kConnected ∨ conn.state_ = .kDisconnecting) ∧ conn.isReading = true ∧
          conn.index_ = kAdded ∧ server.connections_.lookup conn.name_ = some id ∨
        server.Possible (.destroy id) ∧ conn.state_ = .kDisconnected ∧
          (server.loops conn.loop_).poller_.channels_.lookup conn.fd_ = none ∧
          (server.loops conn.loop_).poller_.epollfd_.lookup conn.fd_ = none :=
  fun hquiet _ _ hconn => (inv_run his).of_quiet hquiet hconn

theorem nothing_left_behind_answered :
    let server := (machine.run
      (started (StdString.ofLiteral "GameServer") (StdString.ofLiteral "0.0.0.0:8888") 3 2 true)
      answeredAndClosed).1
    ∃ conn, server.objects 1 = some conn ∧
      ((conn.state_ = .kConnected ∨ conn.state_ = .kDisconnecting) ∧ conn.isReading = true ∧
          conn.index_ = kAdded ∧ server.connections_.lookup conn.name_ = some 1 ∨
        server.Possible (.destroy 1) ∧ conn.state_ = .kDisconnected ∧
          (server.loops conn.loop_).poller_.channels_.lookup conn.fd_ = none ∧
          (server.loops conn.loop_).poller_.epollfd_.lookup conn.fd_ = none) := by
  intro server
  have hsome : (server.objects 1).isSome = true := by decide +kernel
  obtain ⟨conn, hconn⟩ := Option.isSome_iff_exists.mp hsome
  exact ⟨conn, hconn, nothing_left_behind (by decide +kernel) (by decide +kernel) 1 conn hconn⟩

end Runs

end TcpServer

end ArenaGame
