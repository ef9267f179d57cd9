import Mathlib.Algebra.Order.Group.Nat

/-!
# The receive buffer (`muduo/Buffer.h`, `muduo/Buffer.cc`)

A vector with two indexes: the bytes between `readerIndex_` and `writerIndex_` were received and
not consumed yet.  The structure carries the order of the indexes, so no subtraction of the source
wraps and no copy leaves the vector.
-/

namespace ArenaGame

def kCheapPrepend : ℕ := 8

def kInitialSize : ℕ := 1024

structure Buffer where
  buffer_ : List UInt8
  readerIndex_ : ℕ
  writerIndex_ : ℕ
  prepend_le : kCheapPrepend ≤ readerIndex_
  reader_le : readerIndex_ ≤ writerIndex_
  writer_le : writerIndex_ ≤ buffer_.length

/-- `std::copy` of `data` into the vector from index `at_` on. -/
def copyTo (buffer : List UInt8) (at_ : ℕ) (data : List UInt8) : List UInt8 :=
  buffer.take at_ ++ data ++ buffer.drop (at_ + data.length)

theorem length_copyTo {buffer data : List UInt8} {at_ : ℕ} (h : at_ + data.length ≤ buffer.length) :
    (copyTo buffer at_ data).length = buffer.length := by
  simp [copyTo]
  omega

namespace Buffer

/-- `Buffer(initialSize)`. -/
def ofSize (initialSize : ℕ) : Buffer where
  buffer_ := List.replicate (kCheapPrepend + initialSize) 0
  readerIndex_ := kCheapPrepend
  writerIndex_ := kCheapPrepend
  prepend_le := le_rfl
  reader_le := le_rfl
  writer_le := by simp

def readableBytes (b : Buffer) : ℕ := b.writerIndex_ - b.readerIndex_

def writableBytes (b : Buffer) : ℕ := b.buffer_.length - b.writerIndex_

def prependableBytes (b : Buffer) : ℕ := b.readerIndex_

/-- The vector from the pointer that `peek` returns on. -/
def peek (b : Buffer) : List UInt8 := b.buffer_.drop b.readerIndex_

def retrieveAll (b : Buffer) : Buffer where
  buffer_ := b.buffer_
  readerIndex_ := kCheapPrepend
  writerIndex_ := kCheapPrepend
  prepend_le := le_rfl
  reader_le := le_rfl
  writer_le := b.prepend_le.trans (b.reader_le.trans b.writer_le)

def retrieve (b : Buffer) (len : ℕ) : Buffer :=
  if h : len < b.readableBytes then
    { b with
      readerIndex_ := b.readerIndex_ + len
      prepend_le := b.prepend_le.trans (Nat.le_add_right _ _)
      reader_le := by unfold readableBytes at h; omega }
  else b.retrieveAll

/-- `makeSpace(len)`: grow the vector, or move the readable bytes to its front. -/
def makeSpace (b : Buffer) (len : ℕ) : Buffer :=
  if b.writableBytes + b.prependableBytes < len + kCheapPrepend then
    { b with
      buffer_ := b.buffer_.take (b.writerIndex_ + len) ++
        List.replicate (b.writerIndex_ + len - b.buffer_.length) 0
      writer_le := by have := b.writer_le; simp; omega }
  else
    let readable := b.readableBytes
    { buffer_ := copyTo b.buffer_ kCheapPrepend (b.peek.take readable)
      readerIndex_ := kCheapPrepend
      writerIndex_ := kCheapPrepend + readable
      prepend_le := le_rfl
      reader_le := Nat.le_add_right _ _
      writer_le := by
        have hp := b.prepend_le
        have hr := b.reader_le
        have hw := b.writer_le
        have hread : readable = b.writerIndex_ - b.readerIndex_ := rfl
        rw [length_copyTo (by simp [peek]; omega)]
        omega }

def ensureWritableBytes (b : Buffer) (len : ℕ) : Buffer :=
  if b.writableBytes < len then b.makeSpace len else b

theorem le_writableBytes_ensure (b : Buffer) (len : ℕ) :
    len ≤ (b.ensureWritableBytes len).writableBytes := by
  have hp := b.prepend_le
  have hr := b.reader_le
  have hw := b.writer_le
  unfold ensureWritableBytes
  split
  · unfold makeSpace
    split
    · simp [writableBytes]
      omega
    · rename_i hspace
      unfold writableBytes prependableBytes at hspace
      have hread : b.readableBytes = b.writerIndex_ - b.readerIndex_ := rfl
      simp only [writableBytes]
      rw [length_copyTo (by simp [peek]; omega)]
      omega
  · omega

/-- Copy `data` behind the readable bytes and move `writerIndex_` over it. -/
def fill (b : Buffer) (data : List UInt8) (h : data.length ≤ b.writableBytes) : Buffer :=
  have hdata : b.writerIndex_ + data.length ≤ b.buffer_.length := by
    have hw := b.writer_le
    unfold writableBytes at h
    omega
  { b with
    buffer_ := copyTo b.buffer_ b.writerIndex_ data
    writerIndex_ := b.writerIndex_ + data.length
    reader_le := b.reader_le.trans (Nat.le_add_right _ _)
    writer_le := by rw [length_copyTo hdata]; exact hdata }

def append (b : Buffer) (data : List UInt8) : Buffer :=
  (b.ensureWritableBytes data.length).fill data (b.le_writableBytes_ensure data.length)

/-- `readFd`: `data` is what `readv` delivered.  It first fills the writable part of the vector; the
rest lands in `extrabuf` and is appended. -/
def readFd (b : Buffer) (data : List UInt8) : Buffer :=
  if h : data.length ≤ b.writableBytes then b.fill data h
  else
    (b.fill (data.take b.writableBytes) (List.length_take_le _ _)).append
      (data.drop b.writableBytes)

end Buffer

end ArenaGame
