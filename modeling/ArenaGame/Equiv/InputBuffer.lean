import ArenaGame.Equiv.Framing
import ArenaGame.Common.FrameWriter
import ArenaGame.Muduo.TcpConnection

/-!
# How much input the server keeps

After every read the input buffer holds what the frames of the received bytes leave
(`readable_afterReads`).  That is less than a frame as long as the next length is in range
(`length_lt_of_not_halt`).  Behind a length out of range nothing is consumed any more, but the
connection goes on reading: `shutdown` closes only the other direction.
-/

namespace ArenaGame

open GameProtocol BinaryReader

/-- A stream that is not broken here leaves less than a frame. -/
theorem length_lt_of_not_halt {s : List UInt8} (hrest : frameCutter.rest s = s)
    (h : cutFrame s ≠ .halt) : s.length < MAX_FRAME := by
  have hitem : ∀ f n, cutFrame s ≠ .item f n := by
    intro f n
    rw [← hrest]
    exact Cutter.cut_rest_ne_item (c := frameCutter) s f n
  have hheader : HEADER_SIZE < MAX_FRAME := by decide
  unfold cutFrame at h hitem
  simp only at h hitem
  split_ifs at h hitem with h₁ h₂ h₃
  · omega
  · exact absurd rfl h
  · omega
  · exact absurd rfl (hitem _ _)

namespace TcpConnection

section Server

variable {σ : Type} (switch : UInt16 → BinaryReader → σ → σ × Bool) (closed : σ → σ)

/-- A handler of the server; it may shut down the connection of its message. -/
def handle (msgType : UInt16) (reader : BinaryReader) (st : TcpConnection × σ) :
    TcpConnection × σ :=
  let handled := switch msgType reader st.2
  (if handled.2 then st.1.shutdown else st.1, handled.1)

/-- The message callback of the server's connections. -/
def serverMessage : Buffer → TcpConnection × σ → Buffer × TcpConnection × σ :=
  onMessage (handle switch) fun st => (st.1.shutdown, st.2)

/-- A read of a connection of the server. -/
def serverRead : TcpConnection × σ → List UInt8 → TcpConnection × σ :=
  onReadable (serverMessage switch) closed

theorem isReading_foldl_handle (calls : List (UInt16 × BinaryReader)) (st : TcpConnection × σ) :
    (calls.foldl (call (handle switch)) st).1.isReading = st.1.isReading := by
  induction calls generalizing st with
  | nil => rfl
  | cons c calls ih =>
    rw [List.foldl_cons, ih]
    unfold call handle
    dsimp only
    split_ifs
    · exact isReading_shutdown st.1
    · rfl

/-- A call of `onMessage` never stops the reading. -/
theorem isReading_serverMessage (buf : Buffer) (st : TcpConnection × σ) :
    (serverMessage switch buf st).2.1.isReading = st.1.isReading := by
  obtain ⟨-, calls, -, hst⟩ := onMessage_ran (handle switch) (fun st => (st.1.shutdown, st.2)) buf st
  have hcalls := isReading_foldl_handle switch calls st
  unfold serverMessage
  rw [hst]
  cases frameCutter.cut (frameCutter.rest buf.readable) with
  | wait => exact hcalls
  | halt => exact (isReading_shutdown _).trans hcalls
  | item f n => exact hcalls

/-- The bytes that arrive before the peer closes the connection. -/
def received (chunks : List (List UInt8)) : List UInt8 := (chunks.takeWhile (· ≠ [])).flatten

theorem received_cons {data : List UInt8} (h : data ≠ []) (chunks : List (List UInt8)) :
    received (data :: chunks) = data ++ received chunks := by
  simp [received, h]

theorem received_nil_cons (chunks : List (List UInt8)) : received ([] :: chunks) = [] := by
  simp [received]

theorem foldl_serverRead_of_not_reading (chunks : List (List UInt8)) {st : TcpConnection × σ}
    (h : st.1.isReading = false) : chunks.foldl (serverRead switch closed) st = st := by
  induction chunks with
  | nil => rfl
  | cons data chunks ih =>
    have hread : serverRead switch closed st data = st := by
      unfold serverRead onReadable
      rw [h]
      rfl
    rw [List.foldl_cons, hread, ih]

/-- What the input buffer holds after any reads. -/
theorem readable_foldl_serverRead (chunks : List (List UInt8)) (st : TcpConnection × σ)
    (hreading : st.1.isReading = true)
    (hheld : frameCutter.rest st.1.inputBuffer_.readable = st.1.inputBuffer_.readable) :
    (chunks.foldl (serverRead switch closed) st).1.inputBuffer_.readable =
      frameCutter.rest (st.1.inputBuffer_.readable ++ received chunks) := by
  induction chunks generalizing st with
  | nil =>
    simp only [received, List.takeWhile_nil, List.flatten_nil, List.append_nil]
    exact hheld.symm
  | cons data chunks ih =>
    rw [List.foldl_cons]
    by_cases hdata : data = []
    · -- the peer closes the connection, and nothing is read any more
      have hread : serverRead switch closed st data = (st.1.handleClose, closed st.2) := by
        simp [serverRead, onReadable, handleRead, hreading, hdata]
      rw [hread, foldl_serverRead_of_not_reading switch closed chunks rfl]
      rw [hdata, received_nil_cons, List.append_nil]
      exact hheld.symm
    · have hpos : data.length > 0 := List.length_pos_iff.mpr hdata
      set called := serverMessage switch (st.1.inputBuffer_.readFd data) st with hcalled
      have hread : serverRead switch closed st data =
          ({ called.2.1 with inputBuffer_ := called.1 }, called.2.2) := by
        simp [serverRead, onReadable, handleRead, hreading, hpos, hcalled]
      have hleft : called.1.readable =
          frameCutter.rest (st.1.inputBuffer_.readable ++ data) := by
        rw [← Buffer.readable_readFd]
        exact (onMessage_ran _ _ _ st).1
      have hrest : frameCutter.rest called.1.readable = called.1.readable := by
        rw [hleft]
        exact Cutter.rest_rest _
      have hreading' : called.2.1.isReading = true :=
        (isReading_serverMessage switch _ st).trans hreading
      rw [hread, ih ({ called.2.1 with inputBuffer_ := called.1 }, called.2.2) hreading' hrest,
        received_cons hdata, ← List.append_assoc,
        Cutter.rest_append (st.1.inputBuffer_.readable ++ data), hleft]

/-- A connection of the server after some reads; an empty chunk is the end of the input. -/
def afterReads (s : σ) (chunks : List (List UInt8)) : TcpConnection × σ :=
  chunks.foldl (serverRead switch closed) (connectEstablished {}, s)

theorem readable_afterReads (s : σ) (chunks : List (List UInt8)) :
    (afterReads switch closed s chunks).1.inputBuffer_.readable =
      frameCutter.rest (received chunks) := by
  have hempty : (connectEstablished {}).inputBuffer_.readable = [] := Buffer.readable_ofSize _
  unfold afterReads
  rw [readable_foldl_serverRead switch closed chunks (connectEstablished {}, s) rfl
    (by rw [hempty, frameCutter_rest_nil])]
  rw [hempty, List.nil_append]

/-- The length of a frame that cannot be. -/
def InvalidLength (s : List UInt8) : Prop :=
  LittleEndian.ofBytes (s.take 4) < HEADER_SIZE ∨ MAX_FRAME < LittleEndian.ofBytes (s.take 4)

/-- The stream has a length out of range behind whole frames, and from there on as many bytes as
the longest frame. -/
def Hoarded (s : List UInt8) : Prop :=
  ∃ (fs : List Frame) (tail : List UInt8), (∀ f ∈ fs, SmallFrame f) ∧
    s = fs.flatMap frameBytes ++ tail ∧ InvalidLength tail ∧ MAX_FRAME ≤ tail.length

theorem received_take (chunks : List (List UInt8)) (k : ℕ) :
    ∃ t, received chunks = received (chunks.take k) ++ t := by
  induction chunks generalizing k with
  | nil => exact ⟨[], by simp [received]⟩
  | cons data chunks ih =>
    cases k with
    | zero => exact ⟨received (data :: chunks), by simp [received]⟩
    | succ k =>
      obtain ⟨t, ht⟩ := ih k
      by_cases hdata : data = []
      · exact ⟨[], by rw [hdata, List.take_succ_cons, received_nil_cons, received_nil_cons]; rfl⟩
      · refine ⟨t, ?_⟩
        rw [List.take_succ_cons, received_cons hdata, received_cons hdata, ht, List.append_assoc]

theorem rest_of_hoarded (fs : List Frame) (tail : List UInt8) (hfs : ∀ f ∈ fs, SmallFrame f)
    (hinvalid : InvalidLength tail) (hlen : MAX_FRAME ≤ tail.length) :
    frameCutter.rest (fs.flatMap frameBytes ++ tail) = tail := by
  have hheader : HEADER_SIZE ≤ MAX_FRAME := by decide
  have hhalt : frameCutter.cut tail = .halt :=
    cutFrame_eq_halt_iff.mpr ⟨hheader.trans hlen, hinvalid⟩
  have hrun := congrArg Prod.snd (run_frames hfs tail)
  rw [Cutter.rest, hrun]
  exact Cutter.rest_of_not_item (by simp [hhalt])

/-- **The server hoards the input behind a length out of range**, and only that: the input buffer
stays below the length of a frame after every read if and only if no invalid length is followed by
that many bytes. -/
theorem readableBytes_lt_iff (s : σ) (chunks : List (List UInt8)) :
    (∀ k, (afterReads switch closed s (chunks.take k)).1.inputBuffer_.readableBytes < MAX_FRAME) ↔
      ¬ Hoarded (received chunks) := by
  have hunread : ∀ k, (afterReads switch closed s (chunks.take k)).1.inputBuffer_.readableBytes =
      (frameCutter.rest (received (chunks.take k))).length := by
    intro k
    rw [← Buffer.length_readable, readable_afterReads]
  constructor
  · rintro hall ⟨fs, tail, hfs, hs, hinvalid, hlen⟩
    have hlast := hall chunks.length
    rw [hunread, List.take_length, hs, rest_of_hoarded fs tail hfs hinvalid hlen] at hlast
    omega
  · intro hnot k
    rw [hunread]
    by_contra hlen
    obtain ⟨t, ht⟩ := received_take chunks k
    set s' := received (chunks.take k)
    have hhalt : cutFrame (frameCutter.rest s') = .halt := by
      by_contra hne
      exact hlen (length_lt_of_not_halt (Cutter.rest_rest s') hne)
    obtain ⟨hheader, hinvalid⟩ := cutFrame_eq_halt_iff.mp hhalt
    refine hnot ⟨frames s', frameCutter.rest s' ++ t, fun f hf => smallFrame_of_mem_frames hf, ?_,
      ?_, ?_⟩
    · rw [← List.append_assoc, frames_append_rest, ht]
    · unfold InvalidLength
      rwa [(take_append_of_header hheader t).1]
    · rw [List.length_append]
      omega

/-- Zero bytes are an invalid length. -/
theorem invalidLength_zeros {n : ℕ} (h : 4 ≤ n) : InvalidLength (List.replicate n 0) := by
  left
  rw [List.take_replicate, Nat.min_eq_left h]
  decide

/-- Six zero bytes make the server shut the connection down; then it keeps all that arrives. -/
theorem not_readableBytes_lt :
    ¬ ∀ chunks : List (List UInt8), ∀ k,
      (afterReads (fun _ _ s => (s, false)) id () (chunks.take k)).1.inputBuffer_.readableBytes <
        MAX_FRAME := by
  intro h
  have hlast := h [List.replicate HEADER_SIZE 0, List.replicate MAX_FRAME 0] 2
  have hheader : List.replicate HEADER_SIZE (0 : UInt8) ≠ [] := by decide
  have hmax : List.replicate MAX_FRAME (0 : UInt8) ≠ [] :=
    List.ne_nil_of_length_pos (by rw [List.length_replicate]; decide)
  have hreceived : received [List.replicate HEADER_SIZE 0, List.replicate MAX_FRAME 0] =
      List.replicate (HEADER_SIZE + MAX_FRAME) 0 := by
    rw [received_cons hheader, received_cons hmax, List.replicate_add]
    exact congrArg _ (List.append_nil _)
  have hrest := rest_of_hoarded [] (List.replicate (HEADER_SIZE + MAX_FRAME) 0)
    (List.forall_mem_nil _) (invalidLength_zeros (by decide))
    (by rw [List.length_replicate]; exact Nat.le_add_left _ _)
  rw [List.flatMap_nil, List.nil_append] at hrest
  rw [← Buffer.length_readable, readable_afterReads, List.take_succ_cons, List.take_succ_cons,
    List.take_zero, hreceived, hrest, List.length_replicate] at hlast
  exact absurd hlast (by decide)

end Server

end TcpConnection

end ArenaGame
