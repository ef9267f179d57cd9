import ArenaGame.Muduo.Buffer
import ArenaGame.Util.Machine
import Mathlib.Data.List.Basic

/-!
# The buffer with the indexes of the source (`muduo/Buffer.h`, `muduo/Buffer.cc`)

The indexes are of type `size_t`, whose arithmetic wraps around, and nothing says that they are in
order.  A copy that leaves the vector is a fault, and so is a vector that gets too large.
-/

namespace ArenaGame

inductive BufferFault
  /-- A copy touches a byte outside of the vector, or starts to write inside of what it reads. -/
  | outOfBounds
  /-- The vector throws `std::length_error`. -/
  | lengthError
deriving DecidableEq

structure RawBuffer where
  buffer_ : List UInt8
  readerIndex_ : UInt64
  writerIndex_ : UInt64
deriving DecidableEq

namespace RawBuffer

/-! ### The vector -/

/-- The largest size of an object. -/
def maxSize : ℕ := 2 ^ 63 - 1

def resize (buffer : List UInt8) (size : UInt64) : Except BufferFault (List UInt8) :=
  if size.toNat ≤ maxSize then
    .ok (buffer.take size.toNat ++ List.replicate (size.toNat - buffer.length) 0)
  else .error .lengthError

/-- `std::copy` of `data` into the vector from index `at_` on. -/
def copyIn (buffer : List UInt8) (at_ : UInt64) (data : List UInt8) :
    Except BufferFault (List UInt8) :=
  if at_.toNat + data.length ≤ buffer.length then .ok (copyTo buffer at_.toNat data)
  else .error .outOfBounds

/-- `std::copy` of the bytes from `first` to `last` to index `at_` of the same vector. -/
def copyWithin (buffer : List UInt8) (first last at_ : UInt64) : Except BufferFault (List UInt8) :=
  if first ≤ last ∧ last.toNat ≤ buffer.length ∧ ¬ (first ≤ at_ ∧ at_ < last) then
    copyIn buffer at_ ((buffer.drop first.toNat).take (last.toNat - first.toNat))
  else .error .outOfBounds

/-! ### The operations -/

def prepend : UInt64 := .ofNat kCheapPrepend

/-- `Buffer(initialSize)`. -/
def ofSize (initialSize : UInt64) : Except BufferFault RawBuffer := do
  let buffer ← resize [] (prepend + initialSize)
  return ⟨buffer, prepend, prepend⟩

variable (b : RawBuffer)

def size : UInt64 := .ofNat b.buffer_.length

def readableBytes : UInt64 := b.writerIndex_ - b.readerIndex_

def writableBytes : UInt64 := b.size - b.writerIndex_

def prependableBytes : UInt64 := b.readerIndex_

def retrieveAll : RawBuffer := { b with readerIndex_ := prepend, writerIndex_ := prepend }

def retrieve (len : UInt64) : RawBuffer :=
  if len < b.readableBytes then { b with readerIndex_ := b.readerIndex_ + len } else b.retrieveAll

def retrieveAsString (len : UInt64) : Except BufferFault (List UInt8 × RawBuffer) :=
  if b.readerIndex_.toNat + len.toNat ≤ b.buffer_.length then
    .ok ((b.buffer_.drop b.readerIndex_.toNat).take len.toNat, b.retrieve len)
  else .error .outOfBounds

def makeSpace (len : UInt64) : Except BufferFault RawBuffer :=
  if b.writableBytes + b.prependableBytes < len + prepend then do
    let buffer ← resize b.buffer_ (b.writerIndex_ + len)
    return { b with buffer_ := buffer }
  else do
    let readable := b.readableBytes
    let buffer ← copyWithin b.buffer_ b.readerIndex_ b.writerIndex_ prepend
    return ⟨buffer, prepend, prepend + readable⟩

def ensureWritableBytes (len : UInt64) : Except BufferFault RawBuffer :=
  if b.writableBytes < len then b.makeSpace len else return b

def append (data : List UInt8) : Except BufferFault RawBuffer := do
  let len := UInt64.ofNat data.length
  let b ← b.ensureWritableBytes len
  let buffer ← copyIn b.buffer_ b.writerIndex_ data
  return { b with buffer_ := buffer, writerIndex_ := b.writerIndex_ + len }

/-- `sizeof extrabuf`. -/
def extrabufSize : UInt64 := 65536

/-- The space that `readFd` offers to `readv`. -/
def offered : ℕ :=
  if b.writableBytes < extrabufSize then b.writableBytes.toNat + extrabufSize.toNat
  else b.writableBytes.toNat

/-- `readFd`: `data` is what `readv` delivered, or `none` if it failed. -/
def readFd (data : Option (List UInt8)) : Except BufferFault RawBuffer :=
  match data with
  | none => return b
  | some data => do
    let writable := b.writableBytes
    let n := UInt64.ofNat data.length
    let buffer ← copyIn b.buffer_ b.writerIndex_ (data.take writable.toNat)
    let b := { b with buffer_ := buffer }
    if n ≤ writable then return { b with writerIndex_ := b.writerIndex_ + n }
    else append { b with writerIndex_ := b.size } (data.drop writable.toNat)

end RawBuffer

inductive BufferOp
  | append (data : List UInt8)
  | readFd (data : Option (List UInt8))
  | retrieve (len : UInt64)
  | retrieveAll
  | retrieveAsString (len : UInt64)
deriving DecidableEq

namespace RawBuffer

/-- An operation, and the string that it returns. -/
def step (b : RawBuffer) : BufferOp → Except BufferFault RawBuffer × List (List UInt8)
  | .append data => (b.append data, [])
  | .readFd data => (b.readFd data, [])
  | .retrieve len => (.ok (b.retrieve len), [])
  | .retrieveAll => (.ok b.retrieveAll, [])
  | .retrieveAsString len =>
    match b.retrieveAsString len with
    | .ok (result, b) => (.ok b, [result])
    | .error fault => (.error fault, [])

/-- What the caller and the kernel have to respect. -/
def Allows (b : RawBuffer) : BufferOp → Prop
  | .append data => data.length ≤ maxSize
  | .readFd data => (data.getD []).length ≤ b.offered
  | .retrieveAsString len => len ≤ b.readableBytes
  | _ => True

instance (b : RawBuffer) : (op : BufferOp) → Decidable (b.Allows op)
  | .append data => inferInstanceAs (Decidable (data.length ≤ maxSize))
  | .readFd data => inferInstanceAs (Decidable ((data.getD []).length ≤ b.offered))
  | .retrieve _ => isTrue trivial
  | .retrieveAll => isTrue trivial
  | .retrieveAsString len => inferInstanceAs (Decidable (len ≤ b.readableBytes))

/-- One operation after the other, up to a fault. -/
def machine : Machine (Except BufferFault RawBuffer) BufferOp (List UInt8) where
  step state op :=
    match state with
    | .ok b => b.step op
    | .error fault => (.error fault, [])
  Enabled state op :=
    match state with
    | .ok b => b.Allows op
    | .error _ => False

instance : (state : Except BufferFault RawBuffer) → (op : BufferOp) →
    Decidable (machine.Enabled state op)
  | .ok b, op => inferInstanceAs (Decidable (b.Allows op))
  | .error _, _ => isFalse id

end RawBuffer

end ArenaGame
