import ArenaGame.Equiv.Framing
import ArenaGame.Server.Equiv.Handlers

/-!
# Sender and receiver agree on framing

The bytes of a sender are the frames of its messages in a row (`bytesTo_sendToConnection`), so the
receive loop at the other end calls its handlers for these messages and nothing is left, whatever
the chunks are (`ran_frames`).
-/

namespace ArenaGame

open GameProtocol GameMessages BinaryReader

section Run

variable {σ H D : Type} {switch : UInt16 → BinaryReader → σ → σ} {close : σ → σ}

/-- What a receive loop does with the bytes of small frames: one call for each, and no more. -/
theorem ran_frames (readable : H → List UInt8) (data : D → List UInt8)
    (receive : H × σ → D → H × σ)
    (hran : ∀ st d, Ran (readable st.1 ++ data d) (readable (receive st d).1) switch close st.2
      (receive st d).2)
    {messages : List Frame} (hsmall : ∀ f ∈ messages, SmallFrame f) {chunks : List D}
    (hchunks : (chunks.map data).flatten = messages.flatMap frameBytes) (st : H × σ)
    (hempty : readable st.1 = []) :
    readable (chunks.foldl receive st).1 = [] ∧
      ∃ calls : List (UInt16 × BinaryReader), calls.map seen = messages ∧
        (chunks.foldl receive st).2 = calls.foldl (call switch) st.2 := by
  have hitems : frameCutter.items (messages.flatMap frameBytes) = messages :=
    congrArg Prod.fst (run_whole_frames hsmall)
  have hrest : frameCutter.rest (messages.flatMap frameBytes) = [] :=
    congrArg Prod.snd (run_whole_frames hsmall)
  have hwait : frameCutter.cut [] = .wait := cutFrame_of_short (s := []) (by decide)
  have hall := ran_foldl readable data receive hran chunks st (by rw [hempty]; exact hwait)
    (by rw [hempty, List.nil_append, hchunks, hrest, hwait]; simp)
  rw [hempty, List.nil_append, hchunks] at hall
  obtain ⟨hleft, calls, hcalls, hst⟩ := hall
  rw [hrest, hwait] at hst
  exact ⟨hleft.trans hrest, calls, hcalls.trans hitems, hst⟩

end Run

/-! ### What the handlers are called with -/

section Handlers

variable {τ : Type} (handlers_ : UInt16 → Option (BinaryReader → τ → τ))

/-- Handlers that also write down what they are called with. -/
def loggedHandlers (msgType : UInt16) : Option (BinaryReader → τ × List Frame → τ × List Frame) :=
  (handlers_ msgType).map fun handler reader st =>
    (handler reader st.1, st.2 ++ [(msgType, reader.remaining)])

/-- A registered handler is called with every frame of its type. -/
theorem foldl_call_loggedHandlers (calls : List (UInt16 × BinaryReader))
    (h : ∀ f ∈ calls.map seen, handlers_ f.1 ≠ none) (st : τ × List Frame) :
    (calls.foldl (call (GameClient.dispatch (loggedHandlers handlers_))) st).2 =
      st.2 ++ calls.map seen := by
  induction calls generalizing st with
  | nil => simp
  | cons c calls ih =>
    obtain ⟨handler, hhandler⟩ : ∃ handler, handlers_ c.1 = some handler :=
      Option.ne_none_iff_exists'.mp (h (seen c) (by simp))
    have hcall : call (GameClient.dispatch (loggedHandlers handlers_)) st c =
        (handler c.2 st.1, st.2 ++ [seen c]) := by
      simp [call, GameClient.dispatch, loggedHandlers, hhandler, seen]
    rw [List.foldl_cons, hcall, ih fun f hf => h f (by simp at hf ⊢; exact Or.inr hf),
      List.map_cons, List.append_assoc, List.singleton_append]

end Handlers

/-- Calls that leave the second component alone. -/
theorem foldl_call_map_id {σ ρ : Type} (switch : UInt16 → BinaryReader → σ → σ)
    (calls : List (UInt16 × BinaryReader)) (st : σ × ρ) :
    (calls.foldl (call fun msgType reader => Prod.map (switch msgType reader) id) st).2 = st.2 := by
  induction calls generalizing st with
  | nil => rfl
  | cons c calls ih =>
    rw [List.foldl_cons, ih]
    rfl

/-! ### The senders -/

namespace GameServer

variable {srv : GameServer} {connId : UInt64}

theorem sendToConnection_small (hconn : connId ∈ srv.connections_) {m : Frame}
    (h : SmallFrame m) : srv.sendToConnection connId m.1 m.2 = [.send connId m] := by
  unfold SmallFrame at h
  unfold sendToConnection
  rw [if_neg (by simpa using hconn)]
  exact if_neg (Nat.not_lt.mpr h)

/-- The server passes the frames of its messages to `send`, one behind the other. -/
theorem bytesTo_sendToConnection (hconn : connId ∈ srv.connections_) {messages : List Frame}
    (h : ∀ m ∈ messages, SmallFrame m) :
    bytesTo connId (messages.flatMap fun m => srv.sendToConnection connId m.1 m.2) =
      messages.flatMap frameBytes := by
  unfold bytesTo
  congr 1
  induction messages with
  | nil => rfl
  | cons m messages ih =>
    rw [List.flatMap_cons, framesTo_append, ih fun m' hm' => h m' (List.mem_cons_of_mem _ hm'),
      sendToConnection_small hconn (h m (List.mem_cons_self ..))]
    simp [framesTo]

end GameServer

/-- A payload that `encode` has produced fits into a frame. -/
theorem smallFrame_of_encoded {m : Frame} {t : MessageType} {v : t.Value}
    (h : t.encoded v = some m.2) : SmallFrame m := by
  obtain ⟨hfits, hpayload⟩ := encoded_eq_some_iff.mp h
  unfold SmallFrame
  rw [hpayload]
  exact length_bytes_le hfits

/-- **Sender and receiver agree on framing.**  The client's handlers are called with the messages
that the server has sent, and the server's switch with the messages that the client has sent, in
order and with nothing left over, however the bytes are cut into chunks; the branch for an invalid
length is not reached. -/
theorem received_eq_sent {σ τ : Type} (srv : GameServer) (connId : UInt64)
    (hconn : connId ∈ srv.connections_) (handlers_ : UInt16 → Option (BinaryReader → τ → τ))
    (close : τ → τ) (t₀ : τ) (switch : UInt16 → BinaryReader → σ → σ) (shutdown : σ → σ) (s₀ : σ)
    (initialSize : ℕ) :
    (∀ messages : List Frame, (∀ m ∈ messages, m.2.length ≤ MAX_FRAME - HEADER_SIZE) →
      (∀ m ∈ messages, handlers_ m.1 ≠ none) →
      ∀ chunks : List (List UInt8),
        chunks.flatten = GameServer.bytesTo connId
          (messages.flatMap fun m => srv.sendToConnection connId m.1 m.2) →
        let st := chunks.foldl (fun st data => GameClient.onReadyRead
          (GameClient.dispatch (loggedHandlers handlers_)) (keepLog close) st.1 st.2 data)
          ([], t₀, [])
        st.2.2 = messages ∧ st.1 = []) ∧
    (∀ messages : List Frame, (∀ m ∈ messages, ∃ (t : MessageType) (v : t.Value),
        t.encoded v = some m.2) →
      ∀ chunks : List Delivery,
        (chunks.map Delivery.data).flatten =
          messages.flatMap (fun m => GameClient.sendMessage true m.1 m.2) →
        let st := chunks.foldl
          (serverReceive (fun msgType reader => Prod.map (switch msgType reader) id)
            fun st => (shutdown st.1, true))
          (.ofSize initialSize, (s₀, false), [])
        st.2.2 = messages ∧ st.1.readable = [] ∧ st.2.1.2 = false) := by
  constructor
  -- the client's side: one `onReadyRead` for each chunk
  · intro messages hsmall hhandlers chunks hchunks
    rw [GameServer.bytesTo_sendToConnection hconn hsmall] at hchunks
    obtain ⟨hleft, calls, hcalls, hst⟩ :=
      ran_frames id id
        (fun st data => GameClient.onReadyRead
          (GameClient.dispatch (loggedHandlers handlers_)) (keepLog close) st.1 st.2 data)
        (fun st data => processBuffer_ran _ _ (st.1 ++ data) st.2) hsmall
        (by rw [List.map_id]; exact hchunks) ([], t₀, []) rfl
    refine ⟨?_, hleft⟩
    rw [hst, foldl_call_loggedHandlers handlers_ calls (by rwa [hcalls]), hcalls, List.nil_append]
  -- the server's side: muduo puts each chunk into the input buffer and calls `onMessage`
  · intro messages hencoded chunks hchunks
    have hsmall : ∀ m ∈ messages, SmallFrame m := by
      intro m hm
      obtain ⟨t, v, hv⟩ := hencoded m hm
      exact smallFrame_of_encoded hv
    obtain ⟨hleft, calls, hcalls, hst⟩ :=
      ran_frames Buffer.readable Delivery.data
        (serverReceive (fun msgType reader => Prod.map (switch msgType reader) id)
          fun st => (shutdown st.1, true))
        (fun st d => by rw [← Delivery.readable_into]; exact onMessage_ran _ _ (d.into st.1) st.2)
        hsmall hchunks (.ofSize initialSize, (s₀, false), []) (Buffer.readable_ofSize _)
    rw [foldl_call_logged] at hst
    refine ⟨?_, hleft, ?_⟩
    · rw [hst, hcalls, List.nil_append]
    · rw [hst]
      exact foldl_call_map_id switch calls (s₀, false)

/-- Two accepting answers in three chunks. -/
theorem received_eq_sent_two_answers :
    let st := [[7, 0, 0, 0], [0x31, 0, 1, 7, 0, 0], [0, 0x34, 0, 1]].foldl
      (fun st data => GameClient.onReadyRead
        (GameClient.dispatch (loggedHandlers fun _ => some fun _ t => t)) (keepLog id) st.1 st.2 data)
      ([], (), [])
    st.2.2 = [(MSG_MATCH_JOIN_RSP, [1]), (MSG_MATCH_CANCEL_RSP, [1])] ∧ st.1 = [] :=
  (received_eq_sent (σ := Unit) (((GameServer.init none).get rfl).onConnected 1).1 1 (by decide)
    (fun _ => some fun _ t => t) id () (fun _ _ s => s) id () kInitialSize).1 _ (by decide) (by simp) _
    (by decide)

end ArenaGame
