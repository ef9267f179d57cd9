import ArenaGame.Muduo.TcpConnection
import ArenaGame.Util.Machine

/-!
# The sending side of a connection (`muduo/TcpConnection.h`, `muduo/TcpConnection.cc`)

`send`, `handleWrite` and `shutdown` on the loop's thread.  What the kernel answers to `::write` is
an input of the step; what the connection is asked for and what it does to its socket and its loop
is put out.
-/

namespace ArenaGame

inductive Errno
  | EWOULDBLOCK
  | EPIPE
  | ECONNRESET
  | other (code : ℕ)
deriving DecidableEq

/-- What `::write` returns. -/
inductive WriteResult
  | wrote (n : ℕ)
  | failed (errno : Errno)
deriving DecidableEq

inductive SendEvent
  /-- `send` is called in the state `kConnected`. -/
  | send (data : List UInt8)
  /-- `shutdown` is called. -/
  | shutdown
  /-- The kernel accepts these bytes. -/
  | write (data : List UInt8)
  | shutdownWrite
  | queueWriteComplete
  | queueHighWaterMark (len : ℕ)
  | logError
deriving DecidableEq

structure SendingConnection extends TcpConnection where
  outputBuffer_ : Buffer := .ofSize kInitialSize
  highWaterMark_ : ℕ := 64 * 1024 * 1024
  /-- The callbacks are set. -/
  writeCompleteCallback_ : Bool := false
  highWaterMarkCallback_ : Bool := false

namespace SendingConnection

variable (conn : SendingConnection)

/-- The write at the start of `sendInLoop`: `nwrote` and `faultError`. -/
def writeDirectly (data : List UInt8) : WriteResult → ℕ × Bool × List SendEvent
  | .wrote n =>
    let complete :=
      if data.length - n = 0 ∧ conn.writeCompleteCallback_ then [.queueWriteComplete] else []
    (n, false, .write (data.take n) :: complete)
  | .failed errno =>
    if errno ≠ .EWOULDBLOCK then (0, errno = .EPIPE ∨ errno = .ECONNRESET, [.logError])
    else (0, false, [])

def sendInLoop (data : List UInt8) (result : WriteResult) : SendingConnection × List SendEvent :=
  if conn.state_ = .kDisconnected then (conn, [.logError])
  else
    let (nwrote, faultError, events) :=
      if !conn.isWriting ∧ conn.outputBuffer_.readableBytes = 0 then
        conn.writeDirectly data result
      else (0, false, [])
    let remaining := data.length - nwrote
    if !faultError ∧ remaining > 0 then
      let oldLen := conn.outputBuffer_.readableBytes
      let mark :=
        if oldLen + remaining ≥ conn.highWaterMark_ ∧ oldLen < conn.highWaterMark_ ∧
            conn.highWaterMarkCallback_ then
          [.queueHighWaterMark (oldLen + remaining)]
        else []
      ({ conn with
          outputBuffer_ := conn.outputBuffer_.append (data.drop nwrote)
          isWriting := true },
        events ++ mark)
    else (conn, events)

def send (data : List UInt8) (result : WriteResult) : SendingConnection × List SendEvent :=
  if conn.state_ = .kConnected then
    let (conn, events) := conn.sendInLoop data result
    (conn, .send data :: events)
  else (conn, [])

def shutdownInLoop : SendingConnection × List SendEvent :=
  if !conn.isWriting then ({ conn with shutdownWrite := true }, [.shutdownWrite]) else (conn, [])

def shutdown : SendingConnection × List SendEvent :=
  if conn.state_ = .kConnected then
    let (conn, events) := { conn with state_ := .kDisconnecting }.shutdownInLoop
    (conn, .shutdown :: events)
  else (conn, [.shutdown])

/-- `handleWrite`; `writeFd` offers all readable bytes of the output buffer. -/
def handleWrite (result : WriteResult) : SendingConnection × List SendEvent :=
  if conn.isWriting then
    match result with
    | .wrote n =>
      if n > 0 then
        let events := [.write (conn.outputBuffer_.peek.take n)]
        let conn := { conn with outputBuffer_ := conn.outputBuffer_.retrieve n }
        if conn.outputBuffer_.readableBytes = 0 then
          let conn := { conn with isWriting := false }
          let complete := if conn.writeCompleteCallback_ then [.queueWriteComplete] else []
          if conn.state_ = .kDisconnecting then
            let (conn, closing) := conn.shutdownInLoop
            (conn, events ++ complete ++ closing)
          else (conn, events ++ complete)
        else (conn, events)
      else (conn, [.logError])
    | .failed _ => (conn, [.logError])
  else (conn, [.logError])

end SendingConnection

/-- What happens on the loop's thread. -/
inductive SendInput
  | send (data : List UInt8) (result : WriteResult)
  | handleWrite (result : WriteResult)
  | shutdown
deriving DecidableEq

/-- The kernel takes at most what it is offered, and the peer has not broken the connection. -/
def WriteResult.Fits (offered : ℕ) : WriteResult → Prop
  | .wrote n => n ≤ offered
  | .failed errno => errno ≠ .EPIPE ∧ errno ≠ .ECONNRESET

instance (offered : ℕ) : (result : WriteResult) → Decidable (result.Fits offered)
  | .wrote n => inferInstanceAs (Decidable (n ≤ offered))
  | .failed errno => inferInstanceAs (Decidable (errno ≠ .EPIPE ∧ errno ≠ .ECONNRESET))

namespace SendingConnection

def machine : Machine SendingConnection SendInput SendEvent where
  step conn input :=
    match input with
    | .send data result => conn.send data result
    | .handleWrite result => conn.handleWrite result
    | .shutdown => conn.shutdown
  Enabled conn input :=
    match input with
    | .send data result => result.Fits data.length
    | .handleWrite result => result.Fits conn.outputBuffer_.readableBytes
    | .shutdown => True

end SendingConnection

end ArenaGame
