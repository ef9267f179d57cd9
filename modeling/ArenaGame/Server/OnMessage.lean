import ArenaGame.Common.BinaryStream
import ArenaGame.Muduo.Buffer

/-!
# The receive loop of the server (`GameServer::onMessage`)

The loop cuts frames off the receive buffer and hands each to the handler switch.  It is generic in
the switch and in what `conn->shutdown()` does, since neither touches the buffer; `GameServer` puts
its own handlers in.
-/

namespace ArenaGame

open GameProtocol

/-- `hdr.readU32(totalLen); hdr.readU16(msgType);` on variables that start at 0. -/
def readHeader (hdr : BinaryReader) : UInt32 × UInt16 :=
  let (totalLen, hdr) := BinaryReader.readU32 hdr
  let (msgType, _) := BinaryReader.readU16 hdr
  (totalLen.getD 0, msgType.getD 0)

namespace Buffer

theorem le_length_peek (b : Buffer) {n : ℕ} (h : n ≤ b.readableBytes) : n ≤ b.peek.length := by
  have := b.writer_le
  unfold readableBytes at h
  simp only [peek, List.length_drop]
  omega

theorem readableBytes_retrieve (b : Buffer) (n : ℕ) :
    (b.retrieve n).readableBytes = b.readableBytes - n := by
  unfold retrieve
  split
  · simp only [readableBytes]
    omega
  · simp only [readableBytes, retrieveAll] at *
    omega

end Buffer

variable {σ : Type} (switch : UInt16 → BinaryReader → σ → σ) (shutdown : σ → σ)

def onMessage (buf : Buffer) (s : σ) : Buffer × σ :=
  if hheader : HEADER_SIZE ≤ buf.readableBytes then
    let hdr := BinaryReader.ofPointer buf.peek HEADER_SIZE (buf.le_length_peek hheader)
    let (totalLen, msgType) := readHeader hdr
    if totalLen.toNat < HEADER_SIZE ∨ totalLen.toNat > MAX_FRAME then (buf, shutdown s)
    else if hframe : buf.readableBytes < totalLen.toNat then (buf, s)
    else
      let payloadBuf := buf.retrieve HEADER_SIZE
      let payloadLen := totalLen.toNat - HEADER_SIZE
      have hpayload : payloadLen ≤ payloadBuf.readableBytes := by
        rw [Buffer.readableBytes_retrieve]
        exact Nat.sub_le_sub_right (Nat.not_lt.mp hframe) _
      let reader := BinaryReader.ofPointer payloadBuf.peek payloadLen
        (payloadBuf.le_length_peek hpayload)
      onMessage (payloadBuf.retrieve payloadLen) (switch msgType reader s)
  else (buf, s)
termination_by buf.readableBytes
decreasing_by
  have : 0 < HEADER_SIZE := by decide
  rw [Buffer.readableBytes_retrieve, Buffer.readableBytes_retrieve]
  omega

end ArenaGame
