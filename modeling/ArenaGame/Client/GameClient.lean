import ArenaGame.Common.FrameWriter
import ArenaGame.Server.OnMessage

/-!
# Sending and receiving at the client (`ArenaClient/network/GameClinet.cc`)

`recvBuf_` is a `QByteArray`; `processBuffer` cuts frames off its front and runs the registered
handler of each.  `dispatch` is the look-up in `handlers_` with the call, `close` is
`socket_->close()`.
-/

namespace ArenaGame

open GameProtocol

namespace GameClient

/-- `sendMessage`: the bytes that it writes to the socket. -/
def sendMessage (isConnected : Bool) (type : UInt16) (payload : List UInt8) : List UInt8 :=
  if !isConnected then [] else frameBytes (type, payload)

/-- `auto it = handlers_.find(msgType); if (it != handlers_.end()) it->second(reader);` -/
def dispatch {σ : Type} (handlers_ : UInt16 → Option (BinaryReader → σ → σ)) (msgType : UInt16)
    (reader : BinaryReader) (s : σ) : σ :=
  match handlers_ msgType with
  | some handler => handler reader s
  | none => s

variable {σ : Type} (dispatch : UInt16 → BinaryReader → σ → σ) (close : σ → σ)

def processBuffer (recvBuf_ : List UInt8) (s : σ) : List UInt8 × σ :=
  if hheader : HEADER_SIZE ≤ recvBuf_.length then
    let hdr := BinaryReader.ofPointer recvBuf_ HEADER_SIZE hheader
    let (totalLen, msgType) := readHeader hdr
    if totalLen.toNat < HEADER_SIZE ∨ totalLen.toNat > MAX_FRAME then (recvBuf_, close s)
    else if hframe : recvBuf_.length < totalLen.toNat then (recvBuf_, s)
    else
      let payload := recvBuf_.drop HEADER_SIZE
      let payloadLen := totalLen.toNat - HEADER_SIZE
      let reader := BinaryReader.ofPointer payload payloadLen (by
        rw [List.length_drop]
        exact Nat.sub_le_sub_right (Nat.not_lt.mp hframe) _)
      processBuffer (payload.drop payloadLen) (dispatch msgType reader s)
  else (recvBuf_, s)
termination_by recvBuf_.length
decreasing_by
  have : 0 < HEADER_SIZE := by decide
  rw [List.length_drop, List.length_drop]
  omega

/-- `onReadyRead`: `data` is what `socket_->readAll()` returned. -/
def onReadyRead (recvBuf_ : List UInt8) (s : σ) (data : List UInt8) : List UInt8 × σ :=
  processBuffer dispatch close (recvBuf_ ++ data) s

end GameClient

end ArenaGame
