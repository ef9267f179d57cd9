import ArenaGame.Common.Equiv.BinaryStream
import ArenaGame.Common.Framing

/-!
# The bytes of a frame

`GameServer::sendToConnection` and `GameClient::sendMessage` fill their `BinaryWriter frame` with the
same three calls; `frameBytes` is what they hand to the connection.  A frame whose payload has at
most `MAX_FRAME - HEADER_SIZE` bytes is cut off its bytes again (`cutFrame_frameBytes`), and what
`cutFrame` cuts off is the bytes of the frame that it returns (`take_eq_frameBytes`).
-/

namespace ArenaGame

open GameProtocol BinaryWriter LittleEndian

/-- `frame.writeU32(HEADER_SIZE + payload.size()); frame.writeU16(type);`
`frame.writeBytes(payload.ptr(), payload.size());` -/
def writeFrame (msgType : UInt16) (payload : List UInt8) : Write Unit := do
  writeU32 (UInt32.ofNat (HEADER_SIZE + payload.length))
  writeU16 msgType
  writeBytes payload

/-- The content of the writer of a frame. -/
def frameBytes (f : Frame) : List UInt8 := ((writeFrame f.1 f.2).run {}).2.buf_

/-- The frame has room for its payload. -/
def SmallFrame (f : Frame) : Prop := f.2.length ≤ MAX_FRAME - HEADER_SIZE

theorem frameBytes_eq {f : Frame} (h : SmallFrame f) :
    frameBytes f = toBytes 4 (HEADER_SIZE + f.2.length) ++ toBytes 2 f.1.toNat ++ f.2 := by
  have hsize : (UInt32.ofNat (HEADER_SIZE + f.2.length)).toNat = HEADER_SIZE + f.2.length := by
    apply UInt32.toNat_ofNat_of_lt'
    unfold SmallFrame MAX_FRAME HEADER_SIZE at h
    rw [show UInt32.size = 4294967296 from rfl, HEADER_SIZE]
    omega
  unfold frameBytes writeFrame
  simp only [StateT.run_bind, run_writeU32, run_writeU16, run_writeBytes, pure_bind, hsize]
  rfl

theorem length_frameBytes {f : Frame} (h : SmallFrame f) :
    (frameBytes f).length = HEADER_SIZE + f.2.length := by
  rw [frameBytes_eq h]
  simp [HEADER_SIZE]
  omega

/-- A receiver cuts off what a sender has written. -/
theorem cutFrame_frameBytes {f : Frame} (h : SmallFrame f) :
    cutFrame (frameBytes f) = .item f (frameBytes f).length := by
  have hlen := length_frameBytes h
  have hsmall : HEADER_SIZE + f.2.length ≤ MAX_FRAME := by
    unfold SmallFrame MAX_FRAME HEADER_SIZE at *
    omega
  have h32 : HEADER_SIZE + f.2.length < 256 ^ 4 := lt_of_le_of_lt hsmall (by decide)
  have h16 : f.1.toNat < 256 ^ 2 := f.1.toNat_lt
  refine cutFrame_eq_item_iff.mpr ⟨?_, by omega, by omega, le_rfl, ?_⟩
  · rw [hlen, frameBytes_eq h, List.append_assoc, List.take_left' (length_toBytes 4 _),
      ofBytes_toBytes h32]
  · have htype : ((frameBytes f).drop 4).take 2 = toBytes 2 f.1.toNat := by
      rw [frameBytes_eq h, List.append_assoc, List.drop_left' (length_toBytes 4 _),
        List.take_left' (length_toBytes 2 _)]
    have hpayload : (frameBytes f).drop HEADER_SIZE = f.2 := by
      rw [frameBytes_eq h]
      exact List.drop_left' (by simp [HEADER_SIZE])
    rw [htype, ofBytes_toBytes h16, UInt16.ofNat_toNat, hpayload, hlen, Nat.add_sub_cancel_left,
      List.take_length]

theorem take_eq_append_of_header {s : List UInt8} {n : ℕ} (h : HEADER_SIZE ≤ n) :
    s.take n = s.take 4 ++ (s.drop 4).take 2 ++ (s.drop HEADER_SIZE).take (n - HEADER_SIZE) := by
  have hn : n = 4 + 2 + (n - HEADER_SIZE) := by
    unfold HEADER_SIZE at *
    omega
  conv_lhs => rw [hn, List.take_add, List.take_add]
  rfl

/-- What is cut off is the spelling of the frame. -/
theorem take_eq_frameBytes {s : List UInt8} {f : Frame} {n : ℕ} (h : cutFrame s = .item f n) :
    s.take n = frameBytes f ∧ SmallFrame f := by
  obtain ⟨hn, hheader, hmax, hlen, rfl⟩ := cutFrame_eq_item_iff.mp h
  have h4 : (s.take 4).length = 4 := by
    unfold HEADER_SIZE at hheader
    simp
    omega
  have h2 : ((s.drop 4).take 2).length = 2 := by
    unfold HEADER_SIZE at hheader
    simp
    omega
  have hsize : HEADER_SIZE + ((s.drop HEADER_SIZE).take (n - HEADER_SIZE)).length = n := by
    simp
    omega
  have htype : (UInt16.ofNat (ofBytes ((s.drop 4).take 2))).toNat = ofBytes ((s.drop 4).take 2) := by
    apply UInt16.toNat_ofNat_of_lt'
    simpa [h2, UInt16.size] using ofBytes_lt ((s.drop 4).take 2)
  have hsmall : SmallFrame (UInt16.ofNat (ofBytes ((s.drop 4).take 2)),
      (s.drop HEADER_SIZE).take (n - HEADER_SIZE)) := by
    unfold SmallFrame
    simp
    omega
  refine ⟨?_, hsmall⟩
  rw [frameBytes_eq hsmall, hsize, htype, hn, toBytes_ofBytes_of_length h4,
    toBytes_ofBytes_of_length h2, ← hn]
  exact take_eq_append_of_header hheader

/-- The bytes of small frames in a row are cut into these frames, whatever follows. -/
theorem run_frames {fs : List Frame} (h : ∀ f ∈ fs, SmallFrame f) (t : List UInt8) :
    frameCutter.run (fs.flatMap frameBytes ++ t) =
      (fs ++ frameCutter.items t, frameCutter.rest t) :=
  Cutter.run_flatMap (fun f hf => cutFrame_frameBytes (h f hf)) t

theorem run_whole_frames {fs : List Frame} (h : ∀ f ∈ fs, SmallFrame f) :
    frameCutter.run (fs.flatMap frameBytes) = (fs, []) := by
  have hrun := run_frames h []
  rwa [List.append_nil, frameCutter_items_nil, frameCutter_rest_nil, List.append_nil] at hrun

/-- Every stream is its frames with what is left behind them. -/
theorem frames_append_rest (s : List UInt8) :
    (frames s).flatMap frameBytes ++ frameCutter.rest s = s :=
  Cutter.flatMap_items_append_rest (fun _ _ _ h => (take_eq_frameBytes h).1) s

theorem smallFrame_of_mem_frames {s : List UInt8} {f : Frame} (h : f ∈ frames s) :
    SmallFrame f := by
  unfold frames at h
  induction s using Cutter.run_induction (c := frameCutter) with
  | item s f' n hcut ih =>
    rw [Cutter.items_of_item hcut] at h
    rcases List.mem_cons.mp h with rfl | h
    · exact (take_eq_frameBytes hcut).2
    · exact ih h
  | stop s hstop =>
    rw [Cutter.items_of_not_item hstop] at h
    exact absurd h (List.not_mem_nil)

end ArenaGame
