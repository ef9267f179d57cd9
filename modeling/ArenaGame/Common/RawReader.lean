import ArenaGame.Common.BinaryStream
import ArenaGame.Util.Machine

/-!
# The binary reader with the indexes of the source (`common/BinaryStream.h`)

The size and the position are of type `size_t`, whose arithmetic wraps around, and nothing keeps the
position inside of the buffer.  A call puts down the subtractions of `has` and the bytes that it
accesses.
-/

namespace ArenaGame

open GameProtocol

structure RawReader where
  /-- What is behind the pointer; an access behind its end is a 0. -/
  data_ : List UInt8
  len_ : UInt64
  pos_ : UInt64
deriving DecidableEq

inductive ReaderEvent
  /-- The subtraction of `has`. -/
  | subtracted (minuend subtrahend : UInt64)
  /-- The access `data_[index]`. -/
  | accessed (index : UInt64)
deriving DecidableEq

/-- A call on a `RawReader`, with the events so far; `none` is the `false` of the source. -/
abbrev RawRead := OptionT (StateM (RawReader × List ReaderEvent))

namespace RawReader

/-- `BinaryReader(data, size)`. -/
def ofPointer (data : List UInt8) (size : UInt64) : RawReader := ⟨data, size, 0⟩

def has (count : UInt64) : RawRead Bool := fun s =>
  (some (decide (count ≤ s.1.len_ - s.1.pos_)), (s.1, s.2 ++ [.subtracted s.1.len_ s.1.pos_]))

/-- The access `data_[pos_ + index]`. -/
def dataAt (index : UInt64) : RawRead UInt8 := fun s =>
  (some (s.1.data_.getD (s.1.pos_ + index).toNat 0), (s.1, s.2 ++ [.accessed (s.1.pos_ + index)]))

/-- `pos_ += count`. -/
def advance (count : UInt64) : RawRead Unit := fun s =>
  (some (), ({ s.1 with pos_ := s.1.pos_ + count }, s.2))

def readU8 : RawRead UInt8 := do
  guard (← has 1)
  let value ← dataAt 0
  advance 1
  return value

/-- The template behind `readU16`, `readU32` and `readU64`. -/
def readUnsigned (size : ℕ) : RawRead (BitVec (size * 8)) := do
  guard (← has (.ofNat size))
  let value ← (List.range size).foldlM (fun value index => do
    let byte ← dataAt (.ofNat index)
    return value ||| byte.toBitVec.setWidth (size * 8) <<< (index * 8)) 0
  advance (.ofNat size)
  return value

def readU16 : RawRead UInt16 := UInt16.ofBitVec <$> readUnsigned 2
def readU32 : RawRead UInt32 := UInt32.ofBitVec <$> readUnsigned 4
def readU64 : RawRead UInt64 := UInt64.ofBitVec <$> readUnsigned 8

/-- `value.assign(data_ + pos_, length)` copies byte after byte. -/
def readString : RawRead StdString := do
  let length ← readU32
  guard (¬ length.toNat > kMaxStringBytes)
  guard (← has length.toUInt64)
  let value ← (List.range length.toNat).foldlM (fun value index => do
    let byte ← dataAt (.ofNat index)
    return value ++ [byte]) []
  advance length.toUInt64
  return value

end RawReader

inductive ReaderCall
  | readU8
  | readU16
  | readU32
  | readU64
  | readString
deriving DecidableEq

inductive ReaderValue
  | u8 (value : UInt8)
  | u16 (value : UInt16)
  | u32 (value : UInt32)
  | u64 (value : UInt64)
  | string (value : StdString)
deriving DecidableEq

inductive ReaderOutput
  | did (event : ReaderEvent)
  /-- The call returned, and set the value if it returned `true`. -/
  | returned (value : Option ReaderValue)
deriving DecidableEq

namespace RawReader

def read : ReaderCall → RawRead ReaderValue
  | .readU8 => .u8 <$> readU8
  | .readU16 => .u16 <$> readU16
  | .readU32 => .u32 <$> readU32
  | .readU64 => .u64 <$> readU64
  | .readString => .string <$> readString

def step (r : RawReader) (call : ReaderCall) : RawReader × List ReaderOutput :=
  let called := read call (r, [])
  (called.2.1, called.2.2.map .did ++ [.returned called.1])

/-- One call after the other. -/
def machine : Machine RawReader ReaderCall ReaderOutput where
  step := step
  Enabled _ _ := True

end RawReader

end ArenaGame
