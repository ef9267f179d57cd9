import ArenaGame.Muduo.Equiv.Buffer
import ArenaGame.Muduo.SendingConnection

/-!
# Sent bytes leave in order, once, and before the half-close

A connection is watched for output exactly as long as its output buffer holds bytes (`Flows`), so
`sendInLoop` writes to the socket itself only when nothing waits in front of the new bytes, and
`shutdownInLoop` closes the writing side only when nothing is left.  Each step moves bytes from the
calls of `send` to the socket and does not change their order (`StepSpec.flow`).
-/

namespace ArenaGame

namespace SendEvent

def sentBytes : SendEvent → List UInt8
  | send data => data
  | _ => []

def writtenBytes : SendEvent → List UInt8
  | write data => data
  | _ => []

/-- The strings that were passed to `send` in the state `kConnected`. -/
def sent (events : List SendEvent) : List UInt8 := events.flatMap sentBytes

/-- The bytes that the kernel has accepted. -/
def written (events : List SendEvent) : List UInt8 := events.flatMap writtenBytes

@[simp] theorem sent_nil : sent [] = [] := rfl

@[simp] theorem written_nil : written [] = [] := rfl

@[simp] theorem sent_cons (e : SendEvent) (es : List SendEvent) :
    sent (e :: es) = e.sentBytes ++ sent es := rfl

@[simp] theorem written_cons (e : SendEvent) (es : List SendEvent) :
    written (e :: es) = e.writtenBytes ++ written es := rfl

@[simp] theorem sent_append (es es' : List SendEvent) : sent (es ++ es') = sent es ++ sent es' :=
  List.flatMap_append

@[simp] theorem written_append (es es' : List SendEvent) :
    written (es ++ es') = written es ++ written es' := List.flatMap_append

end SendEvent

/-- The strings that are passed to `send` before `shutdown` is called. -/
def SendInput.strings : List SendInput → List UInt8
  | [] => []
  | .send data _ :: inputs => data ++ strings inputs
  | .handleWrite _ :: inputs => strings inputs
  | .shutdown :: _ => []

open SendEvent

namespace SendingConnection

/-- Closing down is as on the receiving side, which knows nothing of the output buffer. -/
theorem toTcpConnection_shutdown (conn : SendingConnection) :
    conn.shutdown.1.toTcpConnection = conn.toTcpConnection.shutdown := by
  unfold shutdown TcpConnection.shutdown shutdownInLoop TcpConnection.shutdownInLoop
  split_ifs <;> rfl

/-- The bytes that wait in the output buffer. -/
def pending (conn : SendingConnection) : List UInt8 := conn.outputBuffer_.readable

/-- The connection is open, and it is watched for output if and only if bytes wait. -/
structure Flows (conn : SendingConnection) : Prop where
  open_ : conn.state_ = .kConnected ∨ conn.state_ = .kDisconnecting
  isWriting_iff : conn.isWriting = true ↔ conn.pending ≠ []

/-- `shutdown` has been called, and nothing waits. -/
def Drained (conn : SendingConnection) : Prop :=
  conn.state_ = .kDisconnecting ∧ conn.pending = []

/-- What a step does: the bytes flow, and the step that drains a connection after `shutdown` ends
with the half-close; no other step closes. -/
structure StepSpec (conn conn' : SendingConnection) (events : List SendEvent) : Prop where
  flows : conn'.Flows
  flow : written events ++ conn'.pending = conn.pending ++ sent events
  disconnecting : conn'.state_ = .kDisconnecting ↔
    conn.state_ = .kDisconnecting ∨ .shutdown ∈ events
  silent : conn.state_ = .kDisconnecting → sent events = []
  stays : conn.Drained → .shutdownWrite ∉ events ∧ conn'.Drained
  closes : ¬ conn.Drained → .shutdownWrite ∉ events ∧ ¬ conn'.Drained ∨
    conn'.Drained ∧ ∃ es, events = es ++ [.shutdownWrite] ∧ .shutdownWrite ∉ es

/-! ### `sendInLoop` -/

variable {conn : SendingConnection}

theorem length_pending (conn : SendingConnection) :
    conn.pending.length = conn.outputBuffer_.readableBytes := conn.outputBuffer_.length_readable

/-- Events that move no bytes and close nothing. -/
structure Idle (events : List SendEvent) : Prop where
  sent : sent events = []
  shutdown : .shutdown ∉ events
  shutdownWrite : .shutdownWrite ∉ events

theorem Idle.append {es es' : List SendEvent} (h : Idle es) (h' : Idle es') : Idle (es ++ es') where
  sent := by rw [sent_append, h.sent, h'.sent, List.append_nil]
  shutdown hmem := (List.mem_append.mp hmem).elim h.shutdown h'.shutdown
  shutdownWrite hmem := (List.mem_append.mp hmem).elim h.shutdownWrite h'.shutdownWrite

/-- The write at the start of `sendInLoop` takes a prefix of the bytes. -/
theorem writeDirectly_spec (conn : SendingConnection) {data : List UInt8} {result : WriteResult}
    (h : result.Fits data.length) :
    ∃ n events, conn.writeDirectly data result = (n, false, events) ∧ n ≤ data.length ∧
      written events = data.take n ∧ Idle events := by
  cases result with
  | wrote n =>
    refine ⟨n, _, rfl, h, ?_⟩
    split
    · exact ⟨by simp [writtenBytes], rfl, by simp, by simp⟩
    · exact ⟨by simp [writtenBytes], rfl, by simp, by simp⟩
  | failed errno =>
    obtain ⟨hpipe, hreset⟩ := h
    by_cases hblock : errno = .EWOULDBLOCK
    · exact ⟨0, [], by simp [writeDirectly, hblock], Nat.zero_le _, rfl, rfl, by simp, by simp⟩
    · exact ⟨0, [.logError], by simp [writeDirectly, hblock, hpipe, hreset], Nat.zero_le _, rfl,
        rfl, by simp, by simp⟩

/-- `sendInLoop` after its write: the rest of the bytes, if there is one, goes to the buffer. -/
theorem sendInLoop_eq {data : List UInt8} {result : WriteResult} {n : ℕ} {events : List SendEvent}
    (hopen : conn.state_ = .kConnected)
    (hwrite : (if !conn.isWriting ∧ conn.outputBuffer_.readableBytes = 0 then
        conn.writeDirectly data result else (0, false, [])) = (n, false, events)) :
    ∃ mark, written mark = [] ∧ Idle mark ∧ conn.sendInLoop data result =
      if 0 < data.length - n then
        ({ conn with
            outputBuffer_ := conn.outputBuffer_.append (data.drop n)
            isWriting := true },
          events ++ mark)
      else (conn, events) := by
  have hconn : ¬ conn.state_ = .kDisconnected := by
    rw [hopen]
    decide
  unfold sendInLoop
  rw [if_neg hconn, hwrite]
  simp only [Bool.not_false, true_and]
  by_cases hmark : conn.outputBuffer_.readableBytes + (data.length - n) ≥ conn.highWaterMark_ ∧
      conn.outputBuffer_.readableBytes < conn.highWaterMark_ ∧ conn.highWaterMarkCallback_ = true
  · rw [if_pos hmark]
    exact ⟨[.queueHighWaterMark _], rfl, ⟨rfl, by simp, by simp⟩, rfl⟩
  · rw [if_neg hmark]
    exact ⟨[], rfl, ⟨rfl, by simp, by simp⟩, rfl⟩

/-- `sendInLoop` puts the bytes behind those that wait. -/
theorem sendInLoop_spec (hopen : conn.state_ = .kConnected) (hflows : conn.Flows)
    {data : List UInt8} {result : WriteResult} (h : result.Fits data.length) :
    ∃ conn' events, conn.sendInLoop data result = (conn', events) ∧
      conn'.state_ = .kConnected ∧ conn'.Flows ∧
      written events ++ conn'.pending = conn.pending ++ data ∧ Idle events := by
  have hready : !conn.isWriting ∧ conn.outputBuffer_.readableBytes = 0 ↔ conn.pending = [] := by
    have hwriting := hflows.isWriting_iff
    rw [← conn.length_pending, List.length_eq_zero_iff]
    cases hw : conn.isWriting with
    | false => simp
    | true =>
      rw [hw] at hwriting
      exact iff_of_false (fun h => by cases h.1) (hwriting.mp rfl)
  -- the bytes written at once are the first ones, and then none waits in front of them
  obtain ⟨n, events, hwrite, hn, hwritten, hidle, hfront⟩ : ∃ n events,
      (if !conn.isWriting ∧ conn.outputBuffer_.readableBytes = 0 then
        conn.writeDirectly data result else (0, false, [])) = (n, false, events) ∧
      n ≤ data.length ∧ written events = data.take n ∧ Idle events ∧
      (data.take n ++ conn.pending = conn.pending ++ data.take n) := by
    by_cases hempty : conn.pending = []
    · rw [if_pos (hready.mpr hempty)]
      obtain ⟨n, events, hwrite, hn, hwritten, hidle⟩ := conn.writeDirectly_spec h
      exact ⟨n, events, hwrite, hn, hwritten, hidle, by rw [hempty, List.append_nil]; rfl⟩
    · rw [if_neg (fun hyes => hempty (hready.mp hyes))]
      exact ⟨0, [], rfl, Nat.zero_le _, rfl, ⟨rfl, by simp, by simp⟩, by simp⟩
  obtain ⟨mark, hmark, hmarkIdle, heq⟩ := sendInLoop_eq hopen hwrite
  rw [heq]
  split
  · rename_i hrest
    have hpending : ({ conn with
        outputBuffer_ := conn.outputBuffer_.append (data.drop n)
        isWriting := true } : SendingConnection).pending = conn.pending ++ data.drop n :=
      conn.outputBuffer_.readable_append _
    refine ⟨_, _, rfl, hopen, ⟨Or.inl hopen, iff_of_true rfl ?_⟩, ?_, hidle.append hmarkIdle⟩
    · rw [hpending]
      exact List.append_ne_nil_of_right_ne_nil _ (List.ne_nil_of_length_pos (by simpa using hrest))
    · rw [hpending, written_append, hmark, hwritten, List.append_nil, ← List.append_assoc, hfront,
        List.append_assoc, List.take_append_drop]
  · rename_i hall
    refine ⟨conn, events, rfl, hopen, hflows, ?_, hidle⟩
    rw [hwritten, hfront, List.take_of_length_le (by omega)]

/-! ### What is asked for -/

variable (conn) in
theorem sent_sendInLoop (data : List UInt8) (result : WriteResult) :
    sent (conn.sendInLoop data result).2 = [] := by
  have hdirect : sent (conn.writeDirectly data result).2.2 = [] := by
    unfold writeDirectly
    cases result with
    | wrote n =>
      dsimp only
      split
      · rfl
      · rfl
    | failed errno =>
      dsimp only
      split
      · rfl
      · rfl
  unfold sendInLoop
  split
  · rfl
  · dsimp only
    -- with the write at the start, and without it
    split
    · split
      · rw [sent_append, hdirect]
        split
        · rfl
        · rfl
      · exact hdirect
    · split
      · split
        · rfl
        · rfl
      · rfl

variable (conn) in
theorem sent_send (data : List UInt8) (result : WriteResult) :
    sent (conn.send data result).2 = if conn.state_ = .kConnected then data else [] := by
  unfold send
  split
  · rw [sent_cons, conn.sent_sendInLoop data result]
    exact List.append_nil data
  · rfl

variable (conn) in
theorem sent_shutdown : sent conn.shutdown.2 = [] := by
  unfold shutdown shutdownInLoop
  split
  · dsimp only
    split
    · rfl
    · rfl
  · rfl

variable (conn) in
theorem sent_handleWrite (result : WriteResult) :
    sent (conn.handleWrite result).2 = [] := by
  have hcomplete : ∀ b : Prop, [Decidable b] →
      sent (if b then [.queueWriteComplete] else []) = [] := by
    intro b _
    split
    · rfl
    · rfl
  unfold handleWrite shutdownInLoop
  split
  · cases result with
    | failed errno => rfl
    | wrote n =>
      dsimp only
      split
      · split
        · split
          · rw [sent_append, sent_append, hcomplete]
            rfl
          · rw [sent_append, hcomplete]
            rfl
        · rfl
      · rfl
  · rfl

theorem shutdown_notMem_send (h : conn.Flows) {data : List UInt8} {result : WriteResult}
    (hfits : result.Fits data.length) : .shutdown ∉ (conn.send data result).2 := by
  unfold send
  split
  · rename_i hopen
    obtain ⟨conn', events, heq, -, -, -, hidle⟩ := sendInLoop_spec hopen h hfits
    rw [heq]
    simpa using hidle.shutdown
  · exact List.not_mem_nil

variable (conn) in
theorem shutdown_notMem_handleWrite (result : WriteResult) :
    .shutdown ∉ (conn.handleWrite result).2 := by
  unfold handleWrite shutdownInLoop
  split
  · cases result with
    | failed errno => simp
    | wrote n =>
      dsimp only
      split
      · split
        · split
          · split <;> split <;> simp
          · split <;> simp
        · simp
      · simp
  · simp

variable (conn) in
theorem shutdown_mem_shutdown : .shutdown ∈ conn.shutdown.2 := by
  unfold shutdown
  split
  · exact List.mem_cons_self
  · exact List.mem_cons_self

/-! ### The steps -/

theorem Flows.connected_iff (h : conn.Flows) :
    conn.state_ = .kConnected ↔ ¬ conn.state_ = .kDisconnecting := by
  rcases h.open_ with hstate | hstate <;> rw [hstate] <;> decide

/-- A step that moves nothing. -/
theorem StepSpec.idle (h : conn.Flows) {events : List SendEvent} (hwritten : written events = [])
    (hidle : Idle events) : StepSpec conn conn events where
  flows := h
  flow := by rw [hwritten, hidle.sent, List.append_nil, List.nil_append]
  disconnecting := (or_iff_left hidle.shutdown).symm
  silent _ := hidle.sent
  stays hdrained := ⟨hidle.shutdownWrite, hdrained⟩
  closes hnot := Or.inl ⟨hidle.shutdownWrite, hnot⟩

theorem send_step (h : conn.Flows) {data : List UInt8} {result : WriteResult}
    (hfits : result.Fits data.length) :
    StepSpec conn (conn.send data result).1 (conn.send data result).2 := by
  unfold send
  by_cases hopen : conn.state_ = .kConnected
  · rw [if_pos hopen]
    obtain ⟨conn', events, heq, hopen', hflows', hflow, hidle⟩ := sendInLoop_spec hopen h hfits
    rw [heq]
    -- `send` does not change the state, so it can neither drain nor close the connection
    have hnot : ∀ {c : SendingConnection}, c.state_ = .kConnected → ¬ c.Drained := by
      rintro c hc ⟨hstate, -⟩
      rw [hc] at hstate
      cases hstate
    exact {
      flows := hflows'
      flow := by
        show written events ++ _ = _ ++ (data ++ sent events)
        rw [hidle.sent, List.append_nil]
        exact hflow
      disconnecting := by
        refine iff_of_false ?_ ?_
        · rw [hopen']
          decide
        · rw [hopen]
          simpa using hidle.shutdown
      silent := fun hstate => by
        rw [hopen] at hstate
        cases hstate
      stays := fun hdrained => absurd hdrained (hnot hopen)
      closes := fun _ => Or.inl ⟨by simpa using hidle.shutdownWrite, hnot hopen'⟩ }
  · rw [if_neg hopen]
    exact StepSpec.idle h rfl ⟨rfl, by simp, by simp⟩

/-- The writing side is closed if and only if nothing waits. -/
theorem shutdownInLoop_eq (h : conn.Flows) :
    conn.pending = [] ∧
        conn.shutdownInLoop = ({ conn with shutdownWrite := true }, [.shutdownWrite]) ∨
      conn.pending ≠ [] ∧ conn.shutdownInLoop = (conn, []) := by
  unfold shutdownInLoop
  by_cases hwait : conn.pending = []
  · have hwriting : conn.isWriting = false := by
      rw [← Bool.not_eq_true, h.isWriting_iff]
      exact not_not.mpr hwait
    exact Or.inl ⟨hwait, if_pos (by rw [hwriting]; rfl)⟩
  · have hwriting : conn.isWriting = true := h.isWriting_iff.mpr hwait
    exact Or.inr ⟨hwait, if_neg (by rw [hwriting]; decide)⟩

theorem shutdown_step (h : conn.Flows) : StepSpec conn conn.shutdown.1 conn.shutdown.2 := by
  unfold shutdown
  by_cases hopen : conn.state_ = .kConnected
  · rw [if_pos hopen]
    have hnot : ¬ conn.Drained := fun hdrained => h.connected_iff.mp hopen hdrained.1
    -- what waits decides: without it the writing side is closed at once
    have hflows : ({ conn with state_ := .kDisconnecting } : SendingConnection).Flows :=
      ⟨Or.inr rfl, h.isWriting_iff⟩
    rcases shutdownInLoop_eq hflows with ⟨hempty, heq⟩ | ⟨hwait, heq⟩
    · rw [heq]
      exact {
        flows := ⟨Or.inr rfl, h.isWriting_iff⟩
        flow := (List.append_nil _).symm
        disconnecting := iff_of_true rfl (Or.inr (List.mem_cons_self ..))
        silent := fun _ => rfl
        stays := fun hdrained => absurd hdrained hnot
        closes := fun _ => Or.inr ⟨⟨rfl, hempty⟩, [.shutdown], rfl, by simp⟩ }
    · rw [heq]
      exact {
        flows := hflows
        flow := (List.append_nil _).symm
        disconnecting := iff_of_true rfl (Or.inr (List.mem_cons_self ..))
        silent := fun _ => rfl
        stays := fun hdrained => absurd hdrained hnot
        closes := fun _ => Or.inl ⟨by simp, fun hdrained => hwait hdrained.2⟩ }
  · rw [if_neg hopen]
    have hstate : conn.state_ = .kDisconnecting :=
      not_not.mp fun hn => hopen (h.connected_iff.mpr hn)
    exact {
      flows := h
      flow := (List.append_nil _).symm
      disconnecting := iff_of_true hstate (Or.inl hstate)
      silent := fun _ => rfl
      stays := fun hdrained => ⟨by simp, hdrained⟩
      closes := fun hnot => Or.inl ⟨by simp, hnot⟩ }

/-- `handleWrite` when the kernel has taken some bytes. -/
theorem handleWrite_wrote (h : conn.Flows) (hwriting : conn.isWriting = true) {n : ℕ} (hn : 0 < n)
    (hle : n ≤ conn.outputBuffer_.readableBytes) :
    StepSpec conn (conn.handleWrite (.wrote n)).1 (conn.handleWrite (.wrote n)).2 := by
  have hwait : conn.pending ≠ [] := h.isWriting_iff.mp hwriting
  have hnot : ¬ conn.Drained := fun hdrained => hwait hdrained.2
  have htaken : conn.outputBuffer_.peek.take n = conn.pending.take n :=
    conn.outputBuffer_.take_peek hle
  have hrest : (conn.outputBuffer_.retrieve n).readable = conn.pending.drop n :=
    conn.outputBuffer_.readable_retrieve n
  unfold handleWrite
  rw [if_pos hwriting]
  simp only
  rw [if_pos hn, htaken, ← Buffer.length_readable, hrest]
  by_cases hall : (conn.pending.drop n).length = 0
  · have hempty : conn.pending.drop n = [] := List.length_eq_zero_iff.mp hall
    have htake : conn.pending.take n = conn.pending := by
      conv_rhs => rw [← List.take_append_drop n conn.pending, hempty, List.append_nil]
    have hstopped : ({ conn with
        outputBuffer_ := conn.outputBuffer_.retrieve n
        isWriting := false } : SendingConnection).Flows :=
      ⟨h.open_, iff_of_false Bool.false_ne_true (not_not.mpr (hrest.trans hempty))⟩
    -- the callback is queued in front of the half-close
    obtain ⟨complete, hcomplete, hquiet, hidle⟩ : ∃ complete,
        (if conn.writeCompleteCallback_ then [queueWriteComplete] else []) = complete ∧
        written complete = [] ∧ Idle complete := by
      split
      · exact ⟨_, rfl, rfl, rfl, by simp, by simp⟩
      · exact ⟨_, rfl, rfl, rfl, by simp, by simp⟩
    rw [if_pos hall, htake, hcomplete]
    by_cases hstate : conn.state_ = .kDisconnecting
    · rw [if_pos hstate]
      rcases shutdownInLoop_eq hstopped with ⟨-, heq⟩ | ⟨hne, -⟩
      · rw [heq]
        exact {
          flows := ⟨h.open_, hstopped.isWriting_iff⟩
          flow := by
            show written ([write conn.pending] ++ complete ++ [shutdownWrite]) ++
              (conn.outputBuffer_.retrieve n).readable =
                _ ++ sent ([write conn.pending] ++ complete ++ [shutdownWrite])
            simp [hquiet, hidle.sent, hrest, hempty, writtenBytes, sentBytes]
          disconnecting := iff_of_true hstate (Or.inl hstate)
          silent := fun _ => by simp [hidle.sent, sentBytes]
          stays := fun hdrained => absurd hdrained hnot
          closes := fun _ => Or.inr ⟨⟨hstate, hrest.trans hempty⟩, [write conn.pending] ++ complete,
            rfl, by simp [hidle.shutdownWrite]⟩ }
      · exact absurd (hrest.trans hempty) hne
    · rw [if_neg hstate]
      exact {
        flows := hstopped
        flow := by
          show written ([write conn.pending] ++ complete) ++ (conn.outputBuffer_.retrieve n).readable =
            _ ++ sent ([write conn.pending] ++ complete)
          simp [hquiet, hidle.sent, hrest, hempty, writtenBytes, sentBytes]
        disconnecting := (or_iff_left (by simp [hidle.shutdown])).symm
        silent := fun hdis => absurd hdis hstate
        stays := fun hdrained => absurd hdrained hnot
        closes := fun _ => Or.inl ⟨by simp [hidle.shutdownWrite],
          fun hdrained => hstate hdrained.1⟩ }
  · rw [if_neg hall]
    have hleft : conn.pending.drop n ≠ [] := fun hnil => hall (by rw [hnil]; rfl)
    exact {
      flows := ⟨h.open_, iff_of_true hwriting (by rw [pending, hrest]; exact hleft)⟩
      flow := by
        show (conn.pending.take n ++ []) ++ (conn.outputBuffer_.retrieve n).readable = _ ++ []
        rw [hrest, List.append_nil, List.append_nil, List.take_append_drop]
      disconnecting := (or_iff_left (by simp)).symm
      silent := fun _ => rfl
      stays := fun hdrained => absurd hdrained hnot
      closes := fun _ => Or.inl ⟨by simp, fun hdrained => hleft (hrest ▸ hdrained.2)⟩ }

/-- The bytes that `handleWrite` hands over leave the buffer. -/
theorem handleWrite_step (h : conn.Flows) {result : WriteResult}
    (hfits : result.Fits conn.outputBuffer_.readableBytes) :
    StepSpec conn (conn.handleWrite result).1 (conn.handleWrite result).2 := by
  have hlog : StepSpec conn conn [.logError] := StepSpec.idle h rfl ⟨rfl, by simp, by simp⟩
  by_cases hwriting : conn.isWriting = true
  · cases result with
    | failed errno =>
      unfold handleWrite
      rw [if_pos hwriting]
      exact hlog
    | wrote n =>
      rcases Nat.eq_zero_or_pos n with rfl | hn
      · unfold handleWrite
        rw [if_pos hwriting]
        exact hlog
      · exact handleWrite_wrote h hwriting hn hfits
  · unfold handleWrite
    rw [if_neg hwriting]
    exact hlog

/-! ### Every run -/

/-- The invariant, for everything that has happened so far. -/
structure SendInv (events : List SendEvent) (conn : SendingConnection) : Prop where
  flows : conn.Flows
  flow : written events ++ conn.pending = sent events
  disconnecting : conn.state_ = .kDisconnecting ↔ .shutdown ∈ events
  open_ : ¬ conn.Drained → .shutdownWrite ∉ events
  closed : conn.Drained → events.count .shutdownWrite = 1
  /-- Everything that was sent has left before the half-close. -/
  before : ∀ es es', events = es ++ .shutdownWrite :: es' → written es = sent events

theorem step_spec (h : conn.Flows) {input : SendInput} (henabled : machine.Enabled conn input) :
    StepSpec conn (machine.step conn input).1 (machine.step conn input).2 := by
  cases input with
  | send data result => exact send_step h henabled
  | handleWrite result => exact handleWrite_step h henabled
  | shutdown => exact shutdown_step h

theorem SendInv.step {events : List SendEvent} (h : SendInv events conn) {input : SendInput}
    (henabled : machine.Enabled conn input) :
    SendInv (events ++ (machine.step conn input).2) (machine.step conn input).1 := by
  have hspec := step_spec h.flows henabled
  generalize machine.step conn input = next at hspec ⊢
  obtain ⟨conn', new⟩ := next
  have hflow : written (events ++ new) ++ conn'.pending = sent (events ++ new) := by
    rw [written_append, sent_append, List.append_assoc, hspec.flow, ← List.append_assoc, h.flow]
  refine ⟨hspec.flows, hflow, ?_, ?_, ?_, ?_⟩
  · rw [hspec.disconnecting, h.disconnecting, List.mem_append]
  · intro hnot hmem
    by_cases hdrained : conn.Drained
    · exact hnot (hspec.stays hdrained).2
    · rcases hspec.closes hdrained with ⟨hno, -⟩ | ⟨hdrained', -⟩
      · exact (List.mem_append.mp hmem).elim (h.open_ hdrained) hno
      · exact hnot hdrained'
  · intro hdrained'
    rw [List.count_append]
    by_cases hdrained : conn.Drained
    · rw [h.closed hdrained, List.count_eq_zero.mpr (hspec.stays hdrained).1]
    · rcases hspec.closes hdrained with ⟨-, hnot⟩ | ⟨-, es, rfl, hes⟩
      · exact absurd hdrained' hnot
      · rw [List.count_eq_zero.mpr (h.open_ hdrained), List.count_append,
          List.count_eq_zero.mpr hes]
        rfl
  · intro es es' heq
    by_cases hdrained : conn.Drained
    · -- the half-close is behind this step
      obtain ⟨hno, -⟩ := hspec.stays hdrained
      rw [sent_append, hspec.silent hdrained.1, List.append_nil]
      rcases List.append_eq_append_iff.mp heq with ⟨a, -, hnew⟩ | ⟨c, hevents, hc⟩
      · rw [hnew] at hno
        simp at hno
      · cases c with
        | nil =>
          rw [List.nil_append] at hc
          rw [← hc] at hno
          simp at hno
        | cons e c =>
          obtain ⟨rfl, -⟩ := List.cons.inj hc
          exact h.before es c hevents
    · have hold := h.open_ hdrained
      rcases hspec.closes hdrained with ⟨hno, -⟩ | ⟨hdrained', new', rfl, hnew'⟩
      · exfalso
        have hmem : .shutdownWrite ∈ events ++ new := by
          rw [heq]
          simp
        exact (List.mem_append.mp hmem).elim hold hno
      · -- this step closes, at its end
        have hnone : .shutdownWrite ∉ events ++ new' := fun hmem =>
          (List.mem_append.mp hmem).elim hold hnew'
        rw [← List.append_assoc] at heq
        have hes : events ++ new' = es :=
          ((List.append_cons_inj_of_notMem hnone List.not_mem_nil).mp heq).1
        rw [hdrained'.2, List.append_nil] at hflow
        rw [← hes, ← hflow]
        simp [writtenBytes]

/-- The calls that are put out are those that are made, and `send` is heard until `shutdown` is
called. -/
theorem calls_run {inputs : List SendInput} (h : conn.Flows) (hrun : machine.CanRun conn inputs) :
    sent (machine.run conn inputs).2 =
        (if conn.state_ = .kConnected then SendInput.strings inputs else []) ∧
      (.shutdown ∈ (machine.run conn inputs).2 ↔ .shutdown ∈ inputs) := by
  induction inputs generalizing conn with
  | nil => exact ⟨(ite_self []).symm, iff_of_false List.not_mem_nil List.not_mem_nil⟩
  | cons input inputs ih =>
    obtain ⟨henabled, hrest⟩ := hrun
    have hspec := step_spec h henabled
    obtain ⟨hsent, hshutdown⟩ := ih hspec.flows hrest
    have hopen := hspec.flows.connected_iff
    rw [hspec.disconnecting, not_or, ← h.connected_iff] at hopen
    rw [Machine.run_cons, sent_append, hsent, List.mem_append, hshutdown, List.mem_cons]
    simp only [hopen]
    cases input with
    | send data result =>
      have hno : .shutdown ∉ (conn.send data result).2 := shutdown_notMem_send h henabled
      refine ⟨?_, or_congr_left (iff_of_false hno nofun)⟩
      rw [show sent (machine.step conn (.send data result)).2 = _ from conn.sent_send data result]
      simp only [show SendEvent.shutdown ∉ (machine.step conn (.send data result)).2 from hno,
        not_false_eq_true, and_true]
      split
      · rfl
      · rfl
    | handleWrite result =>
      have hno : .shutdown ∉ (conn.handleWrite result).2 := conn.shutdown_notMem_handleWrite result
      refine ⟨?_, or_congr_left (iff_of_false hno nofun)⟩
      rw [show sent (machine.step conn (.handleWrite result)).2 = _ from
        conn.sent_handleWrite result]
      simp only [show SendEvent.shutdown ∉ (machine.step conn (.handleWrite result)).2 from hno,
        not_false_eq_true, and_true]
      rfl
    | shutdown =>
      have hyes : .shutdown ∈ (machine.step conn .shutdown).2 := conn.shutdown_mem_shutdown
      refine ⟨?_, or_congr_left (iff_of_true hyes rfl)⟩
      rw [show sent (machine.step conn .shutdown).2 = _ from conn.sent_shutdown]
      simp only [hyes, not_true, and_false, if_false]
      exact (ite_self []).symm

/-- **Sent bytes leave in order, once, and before the half-close.**  In every run from an established
connection, which is `kConnected` until `shutdown` is called: the bytes that the kernel has accepted,
followed by those that wait, are the strings that were passed to `send` until then; the channel is
watched for output if and only if bytes wait; and the writing side is closed at most once, after a
call of `shutdown` and when everything sent has left, and as soon as this is so. -/
theorem sent_in_order (hstate : conn.state_ = .kConnected) (hwriting : conn.isWriting = false)
    (hempty : conn.outputBuffer_.readable = []) {inputs : List SendInput}
    (hrun : machine.CanRun conn inputs) :
    let conn' := (machine.run conn inputs).1
    let events := (machine.run conn inputs).2
    (conn'.state_ = .kConnected ↔ .shutdown ∉ inputs) ∧
      written events ++ conn'.outputBuffer_.readable = SendInput.strings inputs ∧
      (conn'.isWriting = true ↔ conn'.outputBuffer_.readable ≠ []) ∧
      events.count .shutdownWrite ≤ 1 ∧
      (.shutdownWrite ∈ events → .shutdown ∈ inputs ∧ conn'.outputBuffer_.readable = []) ∧
      (.shutdown ∈ inputs → conn'.outputBuffer_.readable = [] → .shutdownWrite ∈ events) ∧
      ∀ es es', events = es ++ .shutdownWrite :: es' → written es = SendInput.strings inputs := by
  have hflows : conn.Flows := by
    refine ⟨Or.inl hstate, ?_⟩
    rw [hwriting]
    exact iff_of_false Bool.false_ne_true (not_not.mpr hempty)
  have hnot : ¬ conn.Drained := by
    rintro ⟨hdis, -⟩
    rw [hstate] at hdis
    cases hdis
  have hinv : SendInv (machine.run conn inputs).2 (machine.run conn inputs).1 := by
    -- the invariant holds of a fresh connection, and every step keeps it
    refine Machine.run_induction (fun o c i h hi => h.step hi) ?_ hrun
    refine ⟨hflows, hempty, ?_, fun _ => List.not_mem_nil,
      fun hdrained => absurd hdrained hnot, ?_⟩
    · rw [hstate]
      exact iff_of_false (by decide) List.not_mem_nil
    · intro es es' heq
      exact absurd heq.symm (by simp)
  obtain ⟨hsent, hshutdown⟩ := calls_run hflows hrun
  rw [if_pos hstate] at hsent
  intro conn' events
  have hdisconnecting : conn'.state_ = .kDisconnecting ↔ .shutdown ∈ inputs :=
    hinv.disconnecting.trans hshutdown
  refine ⟨?_, hinv.flow.trans hsent, hinv.flows.isWriting_iff, ?_, fun hclosed => ?_,
    fun hcalled hnone => ?_, fun es es' heq => (hinv.before es es' heq).trans hsent⟩
  · rw [← hdisconnecting]
    exact hinv.flows.connected_iff
  · by_cases hdrained : conn'.Drained
    · exact (hinv.closed hdrained).le
    · rw [List.count_eq_zero.mpr (hinv.open_ hdrained)]
      exact Nat.zero_le 1
  · have hdrained : conn'.Drained := not_not.mp fun hno => hinv.open_ hno hclosed
    exact ⟨hdisconnecting.mp hdrained.1, hdrained.2⟩
  · have hone := hinv.closed ⟨hdisconnecting.mpr hcalled, hnone⟩
    exact List.count_pos_iff.mp (by rw [hone]; exact Nat.one_pos)

/-- A connection after `connectEstablished`. -/
def established : SendingConnection := { TcpConnection.connectEstablished {} with }

/-- The kernel takes two of three bytes; `shutdown` waits for the third. -/
def backlog : List SendInput :=
  [.send [1, 2, 3] (.wrote 2), .shutdown, .send [4] (.wrote 1), .handleWrite (.wrote 1)]

theorem sent_in_order_backlog :
    SendInput.strings backlog = [1, 2, 3] ∧
      (machine.run established backlog).2 =
        [.send [1, 2, 3], .write [1, 2], .shutdown, .write [3], .shutdownWrite] ∧
      ∀ es es', (machine.run established backlog).2 = es ++ .shutdownWrite :: es' →
        written es = SendInput.strings backlog := by
  have hrun : machine.CanRun established backlog :=
    ⟨by show 2 ≤ 3; decide, trivial, by show 1 ≤ 1; decide,
      by show 1 ≤ Buffer.readableBytes _; decide +kernel, trivial⟩
  obtain ⟨-, -, -, -, -, -, hbefore⟩ :=
    sent_in_order rfl rfl (Buffer.readable_ofSize _) hrun
  exact ⟨rfl, by decide +kernel, hbefore⟩

end SendingConnection

end ArenaGame
