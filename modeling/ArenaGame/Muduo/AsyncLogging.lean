import ArenaGame.Util.Machine

/-!
# Asynchronous logging (`muduo/LogStream.h`, `muduo/AsyncLogging.h`, `muduo/AsyncLogging.cc`)

Any thread may append a line, and one writer thread writes full buffers out.  What is done under the
mutex is one step: an `append`, and the writer's swap.  The other steps of the writer are its two
tests of `running_`, the writing of each buffer, and the recycling.  `wait_for` may time out, so the
swap is possible whenever the writer waits.

A pointer is an `Option`, and moving from it leaves `none`.  An access through a null pointer is put
out as `nullDereference`.
-/

namespace ArenaGame

/-- `FixedBuffer<SIZE>`: the bytes between `data_` and `cur_`. -/
structure FixedBuffer (SIZE : ℕ) where
  bytes : List UInt8
  length_le : bytes.length ≤ SIZE

namespace FixedBuffer

variable {SIZE : ℕ}

def empty : FixedBuffer SIZE := ⟨[], Nat.zero_le _⟩

def avail (buffer : FixedBuffer SIZE) : ℕ := SIZE - buffer.bytes.length

def append (buffer : FixedBuffer SIZE) (buf : List UInt8) : FixedBuffer SIZE :=
  if h : buffer.avail > buf.length then
    { bytes := buffer.bytes ++ buf
      length_le := by
        unfold avail at h
        rw [List.length_append]
        omega }
  else buffer

def reset (_ : FixedBuffer SIZE) : FixedBuffer SIZE := empty

end FixedBuffer

def kLargeBuffer : ℕ := 4000 * 1000

abbrev LogBuffer := FixedBuffer kLargeBuffer

inductive LogEvent
  /-- `append` has returned. -/
  | appended (line : List UInt8)
  | file (bytes : List UInt8)
  | stdout (bytes : List UInt8)
  | nullDereference
deriving DecidableEq

/-- Where the writer is in `threadFunc`. -/
inductive WriterPc
  /-- In front of `while(running_)`. -/
  | test
  /-- Between this test and the swap. -/
  | waiting
  /-- In front of `fopen`. -/
  | opening
  /-- In the loop that writes, with `i` buffers behind it. -/
  | writing (fp : Bool) (i : ℕ)
  | recycling
  /-- In front of `if (!running_)`. -/
  | last
  | finished
deriving DecidableEq

structure AsyncLogging where
  running_ : Bool
  currentBuffer_ : Option LogBuffer
  nextBuffer_ : Option LogBuffer
  buffers_ : List (Option LogBuffer)
  /-- The local variables of `threadFunc`. -/
  newBuffer1 : Option LogBuffer
  newBuffer2 : Option LogBuffer
  buffersToWrite : List (Option LogBuffer)
  pc : WriterPc

namespace AsyncLogging

/-- After `start`. -/
def started : AsyncLogging where
  running_ := true
  currentBuffer_ := some .empty
  nextBuffer_ := some .empty
  buffers_ := []
  newBuffer1 := some .empty
  newBuffer2 := some .empty
  buffersToWrite := []
  pc := .test

variable (log : AsyncLogging)

def append (line : List UInt8) : AsyncLogging × List LogEvent :=
  match log.currentBuffer_ with
  | none => (log, [.nullDereference])
  | some current =>
    if current.avail > line.length then
      ({ log with currentBuffer_ := some (current.append line) }, [.appended line])
    else
      let next := log.nextBuffer_.getD .empty
      ({ log with
          buffers_ := log.buffers_ ++ [some current]
          currentBuffer_ := some (next.append line)
          nextBuffer_ := none }, [.appended line])

/-- `stop`, up to the join. -/
def stop : AsyncLogging := { log with running_ := false }

/-- The locked section of the writer. -/
def swap : AsyncLogging :=
  let buffersToWrite := log.buffers_ ++ [log.currentBuffer_]
  { log with
    currentBuffer_ := log.newBuffer1
    newBuffer1 := none
    buffersToWrite := buffersToWrite
    buffers_ := log.buffersToWrite
    nextBuffer_ := if log.nextBuffer_.isNone then log.newBuffer2 else log.nextBuffer_
    newBuffer2 := if log.nextBuffer_.isNone then none else log.newBuffer2
    pc := if buffersToWrite.isEmpty then .test else .opening }

/-- The loop that recycles: the spare buffers that are missing are taken from those written. -/
def recycle (newBuffer1 newBuffer2 : Option LogBuffer) :
    List (Option LogBuffer) → Option LogBuffer × Option LogBuffer × List LogEvent
  | [] => (newBuffer1, newBuffer2, [])
  | none :: _ => (newBuffer1, newBuffer2, [.nullDereference])
  | some buffer :: buffers =>
    let buffer := buffer.reset
    if newBuffer1.isNone then recycle (some buffer) newBuffer2 buffers
    else if newBuffer2.isNone then recycle newBuffer1 (some buffer) buffers
    else recycle newBuffer1 newBuffer2 buffers

/-- A step of the writer; `fopened` is whether `fopen` succeeds. -/
def write (fopened : Bool) : AsyncLogging × List LogEvent :=
  match log.pc with
  | .test => ({ log with pc := if log.running_ then .waiting else .finished }, [])
  | .waiting => (log.swap, [])
  | .opening => ({ log with pc := .writing fopened 0 }, [])
  | .writing fp i =>
    match log.buffersToWrite[i]? with
    | none => ({ log with pc := .recycling }, [])
    | some none => (log, [.nullDereference])
    | some (some buffer) =>
      ({ log with pc := .writing fp (i + 1) },
        (if fp then [.file buffer.bytes] else []) ++ [.stdout buffer.bytes])
  | .recycling =>
    let (newBuffer1, newBuffer2, events) :=
      recycle log.newBuffer1 log.newBuffer2 log.buffersToWrite
    ({ log with
        newBuffer1 := newBuffer1
        newBuffer2 := newBuffer2
        buffersToWrite := []
        pc := .last }, events)
  | .last => ({ log with pc := if !log.running_ then .finished else .test }, [])
  | .finished => (log, [])

end AsyncLogging

inductive LogInput
  | append (line : List UInt8)
  | stop
  | write (fopened : Bool)
deriving DecidableEq

def AsyncLogging.machine : Machine AsyncLogging LogInput LogEvent where
  step log input :=
    match input with
    | .append line => log.append line
    | .stop => (log.stop, [])
    | .write fopened => log.write fopened
  Enabled log input :=
    match input with
    | .append line => line.length < kLargeBuffer
    | .stop => True
    | .write _ => log.pc ≠ .finished

instance (log : AsyncLogging) :
    (input : LogInput) → Decidable (AsyncLogging.machine.Enabled log input)
  | .append line => inferInstanceAs (Decidable (line.length < kLargeBuffer))
  | .stop => isTrue trivial
  | .write _ => inferInstanceAs (Decidable (log.pc ≠ .finished))

end ArenaGame
