import ArenaGame.Common.GameProtocol

/-!
# Binary writer and reader (`common/BinaryStream.h`)

`BinaryWriter` appends to a byte vector; its calls are actions of the state monad `Write`.

`BinaryReader` walks over the first `len_` bytes behind a pointer.  The structure carries the two
facts that keep it inside its buffer (`len_le`, `pos_le`), so the unsigned subtraction of `has`
cannot wrap and `byte` is only ever applied below `len_`.  Its calls are actions of `Read`: a
failed call returns `none` and leaves the reader where the source leaves it.
-/

namespace ArenaGame

open GameProtocol

/-- A `std::string`: any byte string. -/
abbrev StdString := List UInt8

/-- The bytes of an ASCII string literal of the source. -/
def StdString.ofLiteral (text : String) : StdString :=
  text.toList.map fun c => UInt8.ofNat c.toNat

structure BinaryWriter where
  buf_ : List UInt8 := []

/-- A call on a `BinaryWriter`. -/
abbrev Write := StateM BinaryWriter

namespace BinaryWriter

def size (w : BinaryWriter) : ℕ := w.buf_.length

def writeU8 (value : UInt8) : Write Unit :=
  modify fun w => { w with buf_ := w.buf_ ++ [value] }

/-- The template behind `writeU16`, `writeU32` and `writeU64`. -/
def writeUnsigned (size : ℕ) (value : BitVec (size * 8)) : Write Unit :=
  (List.range size).forM fun index =>
    writeU8 (UInt8.ofBitVec (((value >>> (index * 8)) &&& 0xFF).setWidth 8))

def writeU16 (value : UInt16) : Write Unit := writeUnsigned 2 value.toBitVec
def writeU32 (value : UInt32) : Write Unit := writeUnsigned 4 value.toBitVec
def writeU64 (value : UInt64) : Write Unit := writeUnsigned 8 value.toBitVec

def writeBytes (data : List UInt8) : Write Unit :=
  if data.length = 0 then pure ()
  else modify fun w => { w with buf_ := w.buf_ ++ data }

def writeString (value : StdString) : Write Bool :=
  if value.length > kMaxStringBytes ∨ value.length > UInt32.size - 1 then
    return false
  else do
    writeU32 (UInt32.ofNat value.length)
    writeBytes value
    return true

end BinaryWriter

structure BinaryReader where
  data_ : List UInt8
  len_ : ℕ
  pos_ : ℕ
  /-- The pointer handed to the constructor has `len_` bytes behind it. -/
  len_le : len_ ≤ data_.length
  pos_le : pos_ ≤ len_

/-- A call on a `BinaryReader`; `none` is the `false` of the source. -/
abbrev Read := OptionT (StateM BinaryReader)

namespace BinaryReader

/-- `BinaryReader(data, size)`. -/
def ofPointer (data : List UInt8) (size : ℕ) (h : size ≤ data.length) : BinaryReader :=
  ⟨data, size, 0, h, Nat.zero_le _⟩

/-- A reader over a whole byte string. -/
def ofBytes (data : List UInt8) : BinaryReader := ofPointer data data.length le_rfl

def has (r : BinaryReader) (count : ℕ) : Bool := decide (count ≤ r.len_ - r.pos_)

/-- The access `data_[i]`. -/
def byte (r : BinaryReader) (i : ℕ) (h : i < r.len_) : UInt8 :=
  r.data_.get ⟨i, lt_of_lt_of_le h r.len_le⟩

theorem pos_add_le {r : BinaryReader} {n : ℕ} (h : r.has n = true) : r.pos_ + n ≤ r.len_ := by
  have hn := of_decide_eq_true h
  have hp := r.pos_le
  omega

/-- `pos_ += n`, guarded by `has n`. -/
def advance (r : BinaryReader) (n : ℕ) (h : r.has n = true) : BinaryReader :=
  { r with pos_ := r.pos_ + n, pos_le := pos_add_le h }

def eof : Read Bool := fun r => (some (decide (r.pos_ ≥ r.len_)), r)

def readU8 : Read UInt8 := fun r =>
  if h : r.has 1 = true then
    (some (r.byte r.pos_ (by have := pos_add_le h; omega)), r.advance 1 h)
  else (none, r)

/-- The loop of `readUnsigned`: the `size` bytes at `pos_`, or-ed together. -/
def unsignedAt (r : BinaryReader) (size : ℕ) (h : r.has size = true) : BitVec (size * 8) :=
  (List.finRange size).foldl
    (fun value (index : Fin size) =>
      value ||| (r.byte (r.pos_ + index) (by
          have := pos_add_le h; have := index.isLt; omega)).toBitVec.setWidth (size * 8)
        <<< (index.val * 8)) 0

/-- The template behind `readU16`, `readU32` and `readU64`. -/
def readUnsigned (size : ℕ) : Read (BitVec (size * 8)) := fun r =>
  if h : r.has size = true then (some (r.unsignedAt size h), r.advance size h) else (none, r)

def readU16 : Read UInt16 := UInt16.ofBitVec <$> readUnsigned 2
def readU32 : Read UInt32 := UInt32.ofBitVec <$> readUnsigned 4
def readU64 : Read UInt64 := UInt64.ofBitVec <$> readUnsigned 8

/-- `value.assign(data_ + pos_, length); pos_ += length`, guarded by `has length`. -/
def readBytes (length : ℕ) : Read StdString := fun r =>
  if h : r.has length = true then
    (some ((r.data_.drop r.pos_).take length), r.advance length h)
  else (none, r)

def readString : Read StdString := do
  let length ← readU32
  guard (¬ length.toNat > kMaxStringBytes)
  readBytes length.toNat

end BinaryReader

end ArenaGame
