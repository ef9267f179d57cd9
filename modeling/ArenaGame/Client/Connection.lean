import ArenaGame.Equiv.Framing
import ArenaGame.Util.Machine

/-!
# The connections of one client (`ArenaClient/network/GameClinet.cc`)

`LoginScene` connects the same `GameClient` again after its socket was disconnected, so the object
lives through many connections.  The socket delivers the bytes of the current connection only.  What
the machine puts out are the frames that `processBuffer` hands to the handlers.
-/

namespace ArenaGame

/-- A `GameClient`; `scenes` is what its handlers and the slots of its signals act on. -/
structure GameClient (σ : Type) where
  /-- `socket_->state() == QAbstractSocket::ConnectedState` -/
  isConnected : Bool := false
  recvBuf_ : List UInt8 := []
  scenes : σ

namespace GameClient

/-- What the socket signals; `readAll` returns `data`. -/
inductive Event
  | connected
  | readyRead (data : List UInt8)
  /-- The peer, an error or `disconnect` has ended the connection. -/
  | disconnected

/-- The slots that are connected to the signals of a `GameClient`, and its handlers. -/
structure Slots (σ : Type) where
  connected : σ → σ
  disconnected : σ → σ
  handlers_ : UInt16 → Option (BinaryReader → σ → σ)

variable {σ : Type} (slots : Slots σ)

/-- A handler is run while the socket is what it is. -/
def handle (msgType : UInt16) (reader : BinaryReader) (st : Bool × σ) : Bool × σ :=
  (st.1, dispatch slots.handlers_ msgType reader st.2)

/-- `socket_->close()` -/
def close (st : Bool × σ) : Bool × σ := (false, slots.disconnected st.2)

def step (client : GameClient σ) : Event → GameClient σ × List Frame
  | .connected => ({ client with isConnected := true, scenes := slots.connected client.scenes }, [])
  | .readyRead data =>
    let read := onReadyRead (logged (handle slots)) (keepLog (close slots)) client.recvBuf_
      ((client.isConnected, client.scenes), []) data
    ({ recvBuf_ := read.1, isConnected := read.2.1.1, scenes := read.2.1.2 }, read.2.2)
  | .disconnected =>
    ({ client with isConnected := false, scenes := slots.disconnected client.scenes }, [])

def Event.Possible (client : GameClient σ) : Event → Prop
  | connected => client.isConnected = false
  | readyRead _ => client.isConnected = true
  | disconnected => client.isConnected = true

instance (client : GameClient σ) (event : Event) : Decidable (event.Possible client) := by
  cases event <;> unfold Event.Possible <;> infer_instance

def machine : Machine (GameClient σ) Event Frame where
  step := step slots
  Enabled client event := event.Possible client

instance (client : GameClient σ) (event : Event) :
    Decidable ((machine slots).Enabled client event) :=
  inferInstanceAs (Decidable (event.Possible client))

/-- The bytes that an event brings. -/
def Event.data : Event → List UInt8
  | readyRead data => data
  | _ => []

/-- One connection up to its end. -/
def epoch (chunks : List (List UInt8)) : List Event := .connected :: chunks.map .readyRead

end GameClient

end ArenaGame
