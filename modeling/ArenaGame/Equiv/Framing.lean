import ArenaGame.Client.GameClient
import ArenaGame.Common.Equiv.BinaryStream
import ArenaGame.Common.Framing
import ArenaGame.Muduo.Equiv.Buffer

/-!
# Frame extraction does not depend on how the stream is cut

Both receive loops are run with a log of the frames they hand to their handlers (`logged`).  One
call appends the frames of the held bytes to the log and keeps what `frameCutter` leaves
(`onMessage_logged`, `processBuffer_logged`); the chunks of a stream are then glued together by
`Cutter.foldl_feed`.
-/

namespace ArenaGame

open GameProtocol LittleEndian BinaryReader

theorem remaining_ofPointer {data : List UInt8} {n : ℕ} (h : n ≤ data.length) :
    (ofPointer data n h).remaining = data.take n := by
  simp [remaining, ofPointer]

/-- The two reads of a header return its first four and its next two bytes. -/
theorem readHeader_eq {hdr : BinaryReader} {bs cs : List UInt8} (hbs : bs.length = 4)
    (hcs : cs.length = 2) (h : hdr.remaining = bs ++ cs) :
    (readHeader hdr).1.toNat = LittleEndian.ofBytes bs ∧
      (readHeader hdr).2 = UInt16.ofNat (LittleEndian.ofBytes cs) := by
  have h32 : LittleEndian.ofBytes bs < UInt32.size := by
    simpa [hbs, UInt32.size] using LittleEndian.ofBytes_lt bs
  have h16 : LittleEndian.ofBytes cs < UInt16.size := by
    simpa [hcs, UInt16.size] using LittleEndian.ofBytes_lt cs
  have hall : hdr.has (bs ++ cs).length = true := by rw [has_iff, h]
  have hreads := reads_advance hdr _ hall
  rw [h, List.take_length] at hreads
  obtain ⟨r₁, h₁, h₂⟩ := reads_append.mp hreads
  have hread32 : readU32 hdr = (some (UInt32.ofNat (LittleEndian.ofBytes bs)), r₁) := by
    apply yields_readU32.mpr
    rw [UInt32.toNat_ofNat_of_lt' h32, toBytes_ofBytes_of_length hbs]
    exact h₁
  have hread16 : readU16 r₁ =
      (some (UInt16.ofNat (LittleEndian.ofBytes cs)), hdr.advance _ hall) := by
    apply yields_readU16.mpr
    rw [UInt16.toNat_ofNat_of_lt' h16, toBytes_ofBytes_of_length hcs]
    exact h₂
  simp only [readHeader, hread32, hread16, Option.getD_some]
  exact ⟨UInt32.toNat_ofNat_of_lt' h32, trivial⟩

/-- What the two comparisons of a receive loop find is the verdict of `cutFrame`. -/
theorem cutFrame_eq_of_header {data s : List UInt8} (hdata : HEADER_SIZE ≤ data.length)
    (hs : HEADER_SIZE ≤ s.length) (heq : data.take HEADER_SIZE = s.take HEADER_SIZE) :
    let header := readHeader (ofPointer data HEADER_SIZE hdata)
    cutFrame s =
      if header.1.toNat < HEADER_SIZE ∨ header.1.toNat > MAX_FRAME then .halt
      else if s.length < header.1.toNat then .wait
      else .item (header.2, (s.drop HEADER_SIZE).take (header.1.toNat - HEADER_SIZE))
        header.1.toNat := by
  have hlen : 6 ≤ s.length := hs
  have hremaining : (ofPointer data HEADER_SIZE hdata).remaining =
      s.take 4 ++ (s.drop 4).take 2 := by
    rw [remaining_ofPointer, heq, ← List.take_add, HEADER_SIZE]
  obtain ⟨htotal, htype⟩ := readHeader_eq (by simp; omega) (by simp; omega) hremaining
  simp only [cutFrame, htotal, htype]
  rw [if_neg (by omega)]

section Calls

variable {σ : Type}

/-- One call of a handler switch. -/
def call (switch : UInt16 → BinaryReader → σ → σ) (s : σ) (c : UInt16 × BinaryReader) : σ :=
  switch c.1 c.2 s

/-- What a handler sees of its call. -/
def seen (c : UInt16 × BinaryReader) : Frame := (c.1, c.2.remaining)

/-- `close` is called if the front of the stream is broken. -/
def whenHalted : Cut Frame → (σ → σ) → σ → σ
  | .halt, close, s => close s
  | _, _, s => s

/-- What a loop leaves behind and has done, from its calls. -/
def Ran (held left : List UInt8) (switch : UInt16 → BinaryReader → σ → σ) (close : σ → σ)
    (s s' : σ) : Prop :=
  left = frameCutter.rest held ∧
    ∃ calls : List (UInt16 × BinaryReader), calls.map seen = frameCutter.items held ∧
      s' = whenHalted (frameCutter.cut (frameCutter.rest held)) close (calls.foldl (call switch) s)

variable {switch : UInt16 → BinaryReader → σ → σ} {close : σ → σ}

/-- A loop that stops at once has made no call. -/
theorem ran_of_not_item {held : List UInt8} (h : ∀ f n, frameCutter.cut held ≠ .item f n) (s : σ) :
    Ran held held switch close s (whenHalted (frameCutter.cut held) close s) := by
  have hrest := Cutter.rest_of_not_item h
  refine ⟨hrest.symm, [], (Cutter.items_of_not_item h).symm, ?_⟩
  rw [hrest]
  rfl

theorem ran_of_halt {held : List UInt8} (h : cutFrame held = .halt) (s : σ) :
    Ran held held switch close s (close s) := by
  have hcut : frameCutter.cut held = .halt := h
  have hran : Ran held held switch close s _ := ran_of_not_item (by simp [hcut]) s
  rwa [hcut] at hran

theorem ran_of_wait {held : List UInt8} (h : cutFrame held = .wait) (s : σ) :
    Ran held held switch close s s := by
  have hcut : frameCutter.cut held = .wait := h
  have hran : Ran held held switch close s _ := ran_of_not_item (by simp [hcut]) s
  rwa [hcut] at hran

/-- A call for the frame at the front, and what the loop does behind it. -/
theorem Ran.cons {held left : List UInt8} {c : UInt16 × BinaryReader} {n : ℕ} {s s' : σ}
    (hitem : cutFrame held = .item (seen c) n)
    (hran : Ran (held.drop n) left switch close (call switch s c) s') :
    Ran held left switch close s s' := by
  have hcut : frameCutter.cut held = .item (seen c) n := hitem
  obtain ⟨hleft, calls, hcalls, hs'⟩ := hran
  refine ⟨by rw [hleft, Cutter.rest_of_item hcut], c :: calls, ?_, ?_⟩
  · rw [List.map_cons, hcalls, Cutter.items_of_item hcut]
  · rw [hs', Cutter.rest_of_item hcut, List.foldl_cons]

/-- One call of the server's loop. -/
theorem onMessage_ran (switch : UInt16 → BinaryReader → σ → σ) (shutdown : σ → σ) (buf : Buffer)
    (s : σ) :
    Ran buf.readable (onMessage switch shutdown buf s).1.readable switch shutdown s
      (onMessage switch shutdown buf s).2 := by
  induction hn : buf.readableBytes using Nat.strong_induction_on generalizing buf s with
  | _ n ih =>
    have hlength := buf.length_readable
    rw [onMessage]
    split
    · rename_i hheader
      have hcut := cutFrame_eq_of_header (buf.le_length_peek hheader)
        (hlength ▸ hheader) (buf.take_peek hheader)
      rcases hread : readHeader (ofPointer buf.peek HEADER_SIZE (buf.le_length_peek hheader))
        with ⟨totalLen, msgType⟩
      simp only [hread] at hcut ⊢
      split
      · -- a length out of range
        rename_i hrange
        rw [if_pos hrange] at hcut
        exact ran_of_halt hcut s
      · rename_i hrange
        rw [if_neg hrange] at hcut
        split
        · -- an incomplete frame
          rename_i hframe
          rw [if_pos (hlength ▸ hframe)] at hcut
          exact ran_of_wait hcut s
        · -- one frame goes to the switch, the loop goes on behind it
          rename_i hframe
          rw [if_neg (hlength ▸ hframe)] at hcut
          have hpayload : totalLen.toNat - HEADER_SIZE ≤
              (buf.retrieve HEADER_SIZE).readableBytes := by
            rw [Buffer.readableBytes_retrieve]
            omega
          have hrest : ((buf.retrieve HEADER_SIZE).retrieve
              (totalLen.toNat - HEADER_SIZE)).readable = buf.readable.drop totalLen.toNat := by
            rw [Buffer.readable_retrieve, Buffer.readable_retrieve, List.drop_drop]
            congr 1
            omega
          have hdecr : ((buf.retrieve HEADER_SIZE).retrieve
              (totalLen.toNat - HEADER_SIZE)).readableBytes < n := by
            have : 0 < HEADER_SIZE := by decide
            rw [Buffer.readableBytes_retrieve, Buffer.readableBytes_retrieve]
            omega
          have hseen : ((buf.readable.drop HEADER_SIZE).take (totalLen.toNat - HEADER_SIZE)) =
              (ofPointer (buf.retrieve HEADER_SIZE).peek (totalLen.toNat - HEADER_SIZE)
                (Buffer.le_length_peek _ hpayload)).remaining := by
            rw [remaining_ofPointer, Buffer.take_peek _ hpayload, Buffer.readable_retrieve]
          rw [hseen] at hcut
          apply Ran.cons (c := (msgType, _)) hcut
          rw [← hrest]
          exact ih _ hdecr _ _ rfl
    · rename_i hheader
      exact ran_of_wait (cutFrame_of_short (hlength ▸ hheader)) s

/-- One call of the client's loop. -/
theorem processBuffer_ran (dispatch : UInt16 → BinaryReader → σ → σ) (close : σ → σ)
    (recvBuf : List UInt8) (s : σ) :
    Ran recvBuf (GameClient.processBuffer dispatch close recvBuf s).1 dispatch close s
      (GameClient.processBuffer dispatch close recvBuf s).2 := by
  -- every round of the loop takes a whole frame off, so on the length of the buffer
  induction hn : recvBuf.length using Nat.strong_induction_on generalizing recvBuf s with
  | _ n ih =>
    rw [GameClient.processBuffer]
    split
    · rename_i hheader
      have hcut := cutFrame_eq_of_header hheader hheader rfl
      rcases hread : readHeader (ofPointer recvBuf HEADER_SIZE hheader) with ⟨totalLen, msgType⟩
      simp only [hread] at hcut ⊢
      split
      · rename_i hrange
        rw [if_pos hrange] at hcut
        exact ran_of_halt hcut s
      · rename_i hrange
        rw [if_neg hrange] at hcut
        split
        · rename_i hframe
          rw [if_pos hframe] at hcut
          exact ran_of_wait hcut s
        · rename_i hframe
          rw [if_neg hframe] at hcut
          have hrest : (recvBuf.drop HEADER_SIZE).drop (totalLen.toNat - HEADER_SIZE) =
              recvBuf.drop totalLen.toNat := by
            rw [List.drop_drop]
            congr 1
            omega
          have hdecr : (recvBuf.drop totalLen.toNat).length < n := by
            have : 0 < HEADER_SIZE := by decide
            rw [List.length_drop]
            omega
          have hpayload : totalLen.toNat - HEADER_SIZE ≤ (recvBuf.drop HEADER_SIZE).length := by
            rw [List.length_drop]
            omega
          rw [← remaining_ofPointer hpayload] at hcut
          rw [hrest]
          exact Ran.cons (c := (msgType, _)) hcut (ih _ hdecr _ _ rfl)
    · rename_i hheader
      exact ran_of_wait (cutFrame_of_short hheader) s

/-- Two calls of a loop, the first of which has not met a broken front. -/
theorem Ran.append {held left left' t : List UInt8} {s s' s'' : σ}
    (h : Ran held left switch close s s') (hcut : frameCutter.cut left ≠ .halt)
    (h' : Ran (left ++ t) left' switch close s' s'') :
    Ran (held ++ t) left' switch close s s'' := by
  obtain ⟨hleft, calls, hcalls, hs'⟩ := h
  obtain ⟨hleft', calls', hcalls', hs''⟩ := h'
  subst hleft
  have hnot : s' = calls.foldl (call switch) s := by
    rw [hs']
    cases hc : frameCutter.cut (frameCutter.rest held) with
    | halt => exact absurd hc hcut
    | wait => rfl
    | item f n => rfl
  refine ⟨by rw [hleft', ← Cutter.rest_append], calls ++ calls', ?_, ?_⟩
  · rw [List.map_append, hcalls, hcalls', ← Cutter.items_append]
  · rw [hs'', ← Cutter.rest_append, List.foldl_append, ← hnot]

/-- A loop that is called after every chunk does what one call on the whole stream would do, if
the stream is not broken. -/
theorem ran_foldl {H D : Type} (readable : H → List UInt8) (data : D → List UInt8)
    (receive : H × σ → D → H × σ)
    (hran : ∀ st d, Ran (readable st.1 ++ data d) (readable (receive st d).1) switch close st.2
      (receive st d).2)
    (chunks : List D) (st : H × σ) (hheld : frameCutter.cut (readable st.1) = .wait)
    (hend : frameCutter.cut (frameCutter.rest (readable st.1 ++ (chunks.map data).flatten)) ≠
      .halt) :
    Ran (readable st.1 ++ (chunks.map data).flatten) (readable (chunks.foldl receive st).1) switch
      close st.2 (chunks.foldl receive st).2 := by
  induction chunks generalizing st with
  | nil =>
    rw [List.map_nil, List.flatten_nil, List.append_nil]
    exact ran_of_wait hheld st.2
  | cons d chunks ih =>
    have hfirst := hran st d
    rw [List.map_cons, List.flatten_cons, ← List.append_assoc] at hend ⊢
    have hcut : frameCutter.cut (frameCutter.rest (readable st.1 ++ data d)) ≠ .halt :=
      fun h => hend (Cutter.cut_rest_append_of_halt h _)
    have hleft := hfirst.1
    have hwait : frameCutter.cut (readable (receive st d).1) = .wait := by
      rw [hleft]
      cases hc : frameCutter.cut (frameCutter.rest (readable st.1 ++ data d)) with
      | halt => exact absurd hc hcut
      | wait => rfl
      | item f n => exact absurd hc (Cutter.cut_rest_ne_item _ f n)
    refine hfirst.append (by rw [hwait]; simp) (ih (receive st d) hwait ?_)
    rw [hleft, ← Cutter.rest_append]
    exact hend

end Calls

section Logged

variable {σ : Type}

/-- A handler switch that also writes down what it is handed. -/
def logged (switch : UInt16 → BinaryReader → σ → σ) (msgType : UInt16) (reader : BinaryReader)
    (st : σ × List Frame) : σ × List Frame :=
  (switch msgType reader st.1, st.2 ++ [(msgType, reader.remaining)])

def keepLog (f : σ → σ) (st : σ × List Frame) : σ × List Frame := (f st.1, st.2)

theorem foldl_call_logged (switch : UInt16 → BinaryReader → σ → σ)
    (calls : List (UInt16 × BinaryReader)) (st : σ × List Frame) :
    calls.foldl (call (logged switch)) st =
      (calls.foldl (call switch) st.1, st.2 ++ calls.map seen) := by
  induction calls generalizing st with
  | nil => simp
  | cons c calls ih =>
    rw [List.foldl_cons, ih, List.foldl_cons, List.map_cons, List.append_cons]
    rfl

@[simp] theorem whenHalted_keepLog (cut : Cut Frame) (close : σ → σ) (st : σ × List Frame) :
    whenHalted cut (keepLog close) st = (whenHalted cut close st.1, st.2) := by
  cases cut <;> rfl

/-- A loop with a log appends the frames of the held bytes to it. -/
theorem Ran.log_eq {held left : List UInt8} {switch : UInt16 → BinaryReader → σ → σ}
    {close : σ → σ} {st st' : σ × List Frame}
    (h : Ran held left (logged switch) (keepLog close) st st') :
    st'.2 = st.2 ++ frameCutter.items held := by
  obtain ⟨-, calls, hcalls, rfl⟩ := h
  rw [whenHalted_keepLog, foldl_call_logged, hcalls]

/-- One call of the server's loop, seen through the log. -/
theorem onMessage_logged (switch : UInt16 → BinaryReader → σ → σ) (shutdown : σ → σ)
    (buf : Buffer) (st : σ × List Frame) :
    (onMessage (logged switch) (keepLog shutdown) buf st).1.readable =
        frameCutter.rest buf.readable ∧
      (onMessage (logged switch) (keepLog shutdown) buf st).2.2 =
        st.2 ++ frameCutter.items buf.readable := by
  have hran := onMessage_ran (logged switch) (keepLog shutdown) buf st
  exact ⟨hran.1, hran.log_eq⟩

/-- One call of the client's loop, seen through the log. -/
theorem processBuffer_logged (dispatch : UInt16 → BinaryReader → σ → σ) (close : σ → σ)
    (recvBuf : List UInt8) (st : σ × List Frame) :
    (GameClient.processBuffer (logged dispatch) (keepLog close) recvBuf st).1 =
        frameCutter.rest recvBuf ∧
      (GameClient.processBuffer (logged dispatch) (keepLog close) recvBuf st).2.2 =
        st.2 ++ frameCutter.items recvBuf := by
  have hran := processBuffer_ran (logged dispatch) (keepLog close) recvBuf st
  exact ⟨hran.1, hran.log_eq⟩

/-- How a chunk enters the server's buffer. -/
inductive Delivery where
  | append (data : List UInt8)
  | readFd (data : List UInt8)

def Delivery.data : Delivery → List UInt8
  | .append data => data
  | .readFd data => data

def Delivery.into (buf : Buffer) : Delivery → Buffer
  | .append data => buf.append data
  | .readFd data => buf.readFd data

theorem Delivery.readable_into (buf : Buffer) (d : Delivery) :
    (d.into buf).readable = buf.readable ++ d.data := by
  cases d with
  | append data => exact buf.readable_append data
  | readFd data => exact buf.readable_readFd data

/-- `onMessage` after every chunk, with the log of what the switch was handed. -/
def serverReceive (switch : UInt16 → BinaryReader → σ → σ) (shutdown : σ → σ)
    (st : Buffer × σ × List Frame) (d : Delivery) : Buffer × σ × List Frame :=
  onMessage (logged switch) (keepLog shutdown) (d.into st.1) st.2

/-- `onReadyRead` for every chunk, with the log of what was extracted. -/
def clientReceive (dispatch : UInt16 → BinaryReader → σ → σ) (close : σ → σ)
    (st : List UInt8 × σ × List Frame) (data : List UInt8) : List UInt8 × σ × List Frame :=
  GameClient.onReadyRead (logged dispatch) (keepLog close) st.1 st.2 data

theorem foldl_serverReceive (switch : UInt16 → BinaryReader → σ → σ) (shutdown : σ → σ)
    (chunks : List Delivery) (st : Buffer × σ × List Frame) :
    let st' := chunks.foldl (serverReceive switch shutdown) st
    (st'.2.2, st'.1.readable) =
      (chunks.map Delivery.data).foldl frameCutter.feed (st.2.2, st.1.readable) := by
  induction chunks generalizing st with
  | nil => rfl
  | cons d chunks ih =>
    obtain ⟨hbuf, hlog⟩ := onMessage_logged switch shutdown (d.into st.1) st.2
    rw [Delivery.readable_into] at hbuf hlog
    have hfeed : frameCutter.feed (st.2.2, st.1.readable) d.data =
        ((serverReceive switch shutdown st d).2.2,
          (serverReceive switch shutdown st d).1.readable) := Prod.ext hlog.symm hbuf.symm
    rw [List.foldl_cons, List.map_cons, List.foldl_cons, hfeed]
    exact ih _

theorem foldl_clientReceive (dispatch : UInt16 → BinaryReader → σ → σ) (close : σ → σ)
    (chunks : List (List UInt8)) (st : List UInt8 × σ × List Frame) :
    let st' := chunks.foldl (clientReceive dispatch close) st
    (st'.2.2, st'.1) = chunks.foldl frameCutter.feed (st.2.2, st.1) := by
  induction chunks generalizing st with
  | nil => rfl
  | cons data chunks ih =>
    obtain ⟨hbuf, hlog⟩ := processBuffer_logged dispatch close (st.1 ++ data) st.2
    have hfeed : frameCutter.feed (st.2.2, st.1) data =
        ((clientReceive dispatch close st data).2.2,
          (clientReceive dispatch close st data).1) := Prod.ext hlog.symm hbuf.symm
    rw [List.foldl_cons, List.foldl_cons, hfeed]
    exact ih _

end Logged

/-- **Frame extraction does not depend on the chunks.**  However a byte string is cut into chunks,
the handler switch of the server and the handler table of the client are handed exactly the frames
of the whole string, and nothing more once a length is out of range. -/
theorem dispatched_eq_frames {σ τ : Type} (switch : UInt16 → BinaryReader → σ → σ)
    (shutdown : σ → σ) (s₀ : σ) (handlers_ : UInt16 → Option (BinaryReader → τ → τ))
    (close : τ → τ) (t₀ : τ) (initialSize : ℕ) (s : List UInt8) :
    (∀ chunks : List Delivery, (chunks.map Delivery.data).flatten = s →
      (chunks.foldl (serverReceive switch shutdown) (.ofSize initialSize, s₀, [])).2.2 =
        frames s) ∧
    (∀ chunks : List (List UInt8), chunks.flatten = s →
      (chunks.foldl (clientReceive (GameClient.dispatch handlers_) close) ([], t₀, [])).2.2 =
        frames s) ∧
    (frameCutter.cut (frameCutter.rest s) = .halt → ∀ t, frames (s ++ t) = frames s) := by
  refine ⟨?_, ?_, fun h t => Cutter.items_append_of_halt h t⟩
  · rintro chunks rfl
    have hrun := foldl_serverReceive switch shutdown chunks (.ofSize initialSize, s₀, [])
    simp only [Buffer.readable_ofSize] at hrun
    rw [← frameCutter_run_nil, Cutter.foldl_feed, List.nil_append] at hrun
    exact congrArg Prod.fst hrun
  · rintro chunks rfl
    have hrun := foldl_clientReceive (GameClient.dispatch handlers_) close chunks ([], t₀, [])
    simp only at hrun
    rw [← frameCutter_run_nil, Cutter.foldl_feed, List.nil_append] at hrun
    exact congrArg Prod.fst hrun

end ArenaGame
