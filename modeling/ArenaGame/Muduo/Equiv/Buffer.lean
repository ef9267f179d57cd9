import ArenaGame.Muduo.Buffer

/-!
# The receive buffer is a byte queue

`Buffer.readable` is the byte string a buffer stands for.  Every operation acts on it as on a queue:
`append` and `readFd` put bytes at its end, `retrieve` takes bytes off its front.
-/

namespace ArenaGame.Buffer

/-- The received and not yet consumed bytes. -/
def readable (b : Buffer) : List UInt8 := b.peek.take b.readableBytes

theorem length_readable (b : Buffer) : b.readable.length = b.readableBytes := by
  have hw := b.writer_le
  simp [readable, peek, readableBytes]
  omega

@[simp] theorem readable_ofSize (n : ℕ) : (ofSize n).readable = [] := by
  simp [readable, readableBytes, ofSize]

theorem take_peek (b : Buffer) {n : ℕ} (h : n ≤ b.readableBytes) :
    b.peek.take n = b.readable.take n := by
  rw [readable, List.take_take, Nat.min_eq_left h]

theorem readable_retrieve (b : Buffer) (n : ℕ) : (b.retrieve n).readable = b.readable.drop n := by
  unfold retrieve
  split
  · rename_i h
    have hread : b.readableBytes = b.writerIndex_ - b.readerIndex_ := rfl
    simp only [readable, peek, readableBytes]
    rw [← List.drop_drop, List.drop_take]
    congr 1
    omega
  · rename_i h
    rw [List.drop_eq_nil_of_le (by rw [length_readable]; omega)]
    simp [readable, retrieveAll, readableBytes]

theorem drop_copyTo_of_le {buffer data : List UInt8} {i n : ℕ} (h : i ≤ n) (hn : n ≤ buffer.length) :
    (copyTo buffer n data).drop i = (buffer.take n).drop i ++ data ++
      buffer.drop (n + data.length) := by
  unfold copyTo
  rw [List.append_assoc, List.drop_append_of_le_length (by simp; omega), List.append_assoc]

theorem readable_fill (b : Buffer) (data : List UInt8) (h : data.length ≤ b.writableBytes) :
    (b.fill data h).readable = b.readable ++ data := by
  have htake : (b.buffer_.take b.writerIndex_).drop b.readerIndex_ = b.readable := by
    rw [readable, peek, readableBytes, List.drop_take]
  have hcount : (b.fill data h).readableBytes = (b.readable ++ data).length := by
    have := b.reader_le
    rw [List.length_append, length_readable]
    simp only [readableBytes, fill]
    omega
  rw [readable, hcount, peek, fill, drop_copyTo_of_le b.reader_le b.writer_le, htake,
    List.take_left']
  rfl

theorem readable_makeSpace (b : Buffer) (n : ℕ) : (b.makeSpace n).readable = b.readable := by
  have hp := b.prepend_le
  have hr := b.reader_le
  have hw := b.writer_le
  unfold makeSpace
  split
  · simp only [readable, peek, readableBytes]
    rw [List.drop_append_of_le_length (by simp; omega), List.take_append_of_le_length (by
      simp; omega), List.drop_take, List.take_take]
    congr 1
    omega
  · have hfront : (b.buffer_.take kCheapPrepend).length = kCheapPrepend := by simp; omega
    have hlen := b.length_readable
    rw [readable] at hlen
    simp only [readable, peek, readableBytes, copyTo] at hlen ⊢
    rw [List.append_assoc, List.drop_left' hfront, List.take_left' (by rw [hlen]; omega)]

theorem readable_ensureWritableBytes (b : Buffer) (n : ℕ) :
    (b.ensureWritableBytes n).readable = b.readable := by
  unfold ensureWritableBytes
  split
  · exact readable_makeSpace b n
  · rfl

theorem readable_append (b : Buffer) (data : List UInt8) :
    (b.append data).readable = b.readable ++ data := by
  rw [append, readable_fill, readable_ensureWritableBytes]

theorem readable_readFd (b : Buffer) (data : List UInt8) :
    (b.readFd data).readable = b.readable ++ data := by
  unfold readFd
  split
  · rw [readable_fill]
  · rw [readable_append, readable_fill, List.append_assoc, List.take_append_drop]

end ArenaGame.Buffer
