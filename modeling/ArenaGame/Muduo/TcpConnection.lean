import ArenaGame.Muduo.Buffer

/-!
# The receiving side of a connection (`muduo/TcpConnection.h`, `muduo/TcpConnection.cc`)

Of a connection there is what decides whether it goes on reading: its state, what its channel is
watched for, and the input buffer.  The callbacks act on the connection and on a state of their
own; tasks that are handed to the loop run at once, since everything here runs in the loop's thread.
-/

namespace ArenaGame

inductive StateE
  | kDisconnected
  | kConnecting
  | kConnected
  | kDisconnecting
deriving DecidableEq

structure TcpConnection where
  state_ : StateE := .kConnecting
  /-- `channel_` is watched for input, or for output. -/
  isReading : Bool := false
  isWriting : Bool := false
  /-- `socket_->shutdownWrite()` has been called. -/
  shutdownWrite : Bool := false
  inputBuffer_ : Buffer := .ofSize kInitialSize

namespace TcpConnection

variable (conn : TcpConnection)

def shutdownInLoop : TcpConnection :=
  if !conn.isWriting then { conn with shutdownWrite := true } else conn

def shutdown : TcpConnection :=
  if conn.state_ = .kConnected then { conn with state_ := .kDisconnecting }.shutdownInLoop else conn

def connectEstablished : TcpConnection := { conn with state_ := .kConnected, isReading := true }

/-- `handleClose` without its callbacks. -/
def handleClose : TcpConnection :=
  { conn with state_ := .kDisconnected, isReading := false, isWriting := false }

@[simp] theorem isReading_shutdown : conn.shutdown.isReading = conn.isReading := by
  unfold shutdown shutdownInLoop
  split_ifs <;> rfl

section Read

variable {σ : Type}
  (messageCallback_ : Buffer → TcpConnection × σ → Buffer × TcpConnection × σ)
  (closeCallback_ : σ → σ)

/-- `handleRead`; `data` is what `readFd` has read, nothing if the peer has closed the connection. -/
def handleRead (st : TcpConnection × σ) (data : List UInt8) : TcpConnection × σ :=
  if data.length > 0 then
    let called := messageCallback_ (st.1.inputBuffer_.readFd data) st
    ({ called.2.1 with inputBuffer_ := called.1 }, called.2.2)
  else (st.1.handleClose, closeCallback_ st.2)

/-- The loop calls `handleRead` as long as the channel is watched for input. -/
def onReadable (st : TcpConnection × σ) (data : List UInt8) : TcpConnection × σ :=
  if st.1.isReading then handleRead messageCallback_ closeCallback_ st data else st

end Read

end TcpConnection

end ArenaGame
