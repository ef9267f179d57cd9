import ArenaGame.Muduo.Equiv.Buffer
import ArenaGame.Muduo.RawBuffer

/-!
# The operations of the buffer are safe

Three levels: a `RawBuffer` has the indexes of the source, a `Buffer` carries the order of its
indexes, and a queue is a list of bytes.  As long as the vector does not get too large, every
operation on the raw buffer does what it does on the `Buffer` (`step_toRaw`), so none leaves the
vector; and there it acts as on a queue.

The constructor adds `kCheapPrepend` to the size it is given, and this sum may wrap around.
-/

namespace ArenaGame

/-! ### The abstract queue -/

/-- What the operations are for. -/
def byteQueue : Machine (List UInt8) BufferOp (List UInt8) where
  step queue op :=
    match op with
    | .append data => (queue ++ data, [])
    | .readFd data => (queue ++ data.getD [], [])
    | .retrieve len => (queue.drop len.toNat, [])
    | .retrieveAll => ([], [])
    | .retrieveAsString len => (queue.drop len.toNat, [queue.take len.toNat])
  Enabled _ _ := True

namespace Buffer

/-! ### The buffer without its proofs -/

def toRaw (b : Buffer) : RawBuffer := ⟨b.buffer_, .ofNat b.readerIndex_, .ofNat b.writerIndex_⟩

open RawBuffer

/-- The raw buffer, if the vector is not too large. -/
def checked (b : Buffer) : Except BufferFault RawBuffer :=
  if b.buffer_.length ≤ maxSize then .ok b.toRaw else .error .lengthError

variable {b : Buffer}

theorem checked_of_le (h : b.buffer_.length ≤ maxSize) : b.checked = .ok b.toRaw := if_pos h

theorem checked_of_lt (h : maxSize < b.buffer_.length) : b.checked = .error .lengthError :=
  if_neg (not_le.mpr h)

theorem readableBytes_toRaw (b : Buffer) : b.toRaw.readableBytes = .ofNat b.readableBytes :=
  (UInt64.ofNat_sub b.reader_le).symm

theorem writableBytes_toRaw (b : Buffer) : b.toRaw.writableBytes = .ofNat b.writableBytes :=
  (UInt64.ofNat_sub b.writer_le).symm

theorem lt_size_of_le {n : ℕ} (h : n ≤ 2 * maxSize) : n < UInt64.size := by
  unfold maxSize at h
  show n < 2 ^ 64
  omega

theorem toNat_ofNat_of_le {n : ℕ} (h : n ≤ 2 * maxSize) : (UInt64.ofNat n).toNat = n :=
  UInt64.toNat_ofNat_of_lt' (lt_size_of_le h)

theorem ofNat_lt_ofNat {m n : ℕ} (hm : m ≤ 2 * maxSize) (hn : n ≤ 2 * maxSize) :
    UInt64.ofNat m < UInt64.ofNat n ↔ m < n :=
  UInt64.ofNat_lt_iff_lt (lt_size_of_le hm) (lt_size_of_le hn)

theorem readableBytes_le (b : Buffer) : b.readableBytes ≤ b.buffer_.length :=
  (Nat.sub_le _ _).trans b.writer_le

theorem retrieve_toRaw (h : b.buffer_.length ≤ maxSize) (len : UInt64) :
    b.toRaw.retrieve len = (b.retrieve len.toNat).toRaw := by
  have hle := b.readableBytes_le
  have hiff : len < b.toRaw.readableBytes ↔ len.toNat < b.readableBytes := by
    rw [readableBytes_toRaw]
    exact UInt64.lt_ofNat_iff (lt_size_of_le (by omega))
  unfold RawBuffer.retrieve retrieve
  by_cases hlt : len.toNat < b.readableBytes
  · rw [if_pos (hiff.mpr hlt), dif_pos hlt]
    show RawBuffer.mk _ (.ofNat b.readerIndex_ + len) _ = RawBuffer.mk _ (.ofNat (_ + _)) _
    rw [UInt64.ofNat_add, UInt64.ofNat_toNat]
    rfl
  · rw [if_neg (mt hiff.mp hlt), dif_neg hlt]
    rfl

theorem copyIn_ofNat {buffer data : List UInt8} {at_ : ℕ} (h : at_ + data.length ≤ buffer.length)
    (hmax : buffer.length ≤ maxSize) :
    copyIn buffer (.ofNat at_) data = .ok (copyTo buffer at_ data) := by
  unfold copyIn
  rw [toNat_ofNat_of_le (by omega), if_pos h]

theorem resize_ofNat {buffer : List UInt8} {size : ℕ} (h : size ≤ 2 * maxSize) :
    resize buffer (.ofNat size) =
      if size ≤ maxSize then .ok (buffer.take size ++ List.replicate (size - buffer.length) 0)
      else .error .lengthError := by
  unfold resize
  rw [toNat_ofNat_of_le h]

/-- The move to the front starts to write in front of what it reads. -/
theorem copyWithin_ofNat {buffer : List UInt8} {first last at_ : ℕ} (hlt : at_ < first)
    (hle : first ≤ last) (hlast : last ≤ buffer.length) (hmax : buffer.length ≤ maxSize) :
    copyWithin buffer (.ofNat first) (.ofNat last) (.ofNat at_) =
      .ok (copyTo buffer at_ ((buffer.drop first).take (last - first))) := by
  have hordered : UInt64.ofNat first ≤ .ofNat last :=
    (UInt64.ofNat_le_iff_le (lt_size_of_le (by omega)) (lt_size_of_le (by omega))).mpr hle
  have hfront : ¬ (UInt64.ofNat first ≤ .ofNat at_ ∧ UInt64.ofNat at_ < .ofNat last) := by
    intro hinside
    have := (UInt64.ofNat_le_iff_le (lt_size_of_le (by omega)) (lt_size_of_le (by omega))).mp
      hinside.1
    omega
  unfold copyWithin
  rw [toNat_ofNat_of_le (by omega), toNat_ofNat_of_le (by omega),
    if_pos ⟨hordered, hlast, hfront⟩]
  exact copyIn_ofNat (by simp; omega) hmax

/-! ### Growth -/

theorem makeSpace_grow {len : ℕ}
    (hgrow : b.writableBytes + b.prependableBytes < len + kCheapPrepend) :
    (b.makeSpace len).buffer_ = b.buffer_.take (b.writerIndex_ + len) ++
        List.replicate (b.writerIndex_ + len - b.buffer_.length) 0 ∧
      (b.makeSpace len).readerIndex_ = b.readerIndex_ ∧
      (b.makeSpace len).writerIndex_ = b.writerIndex_ := by
  unfold makeSpace
  rw [if_pos hgrow]
  exact ⟨rfl, rfl, rfl⟩

theorem makeSpace_move {len : ℕ}
    (hmove : ¬ b.writableBytes + b.prependableBytes < len + kCheapPrepend) :
    (b.makeSpace len).buffer_ = copyTo b.buffer_ kCheapPrepend (b.peek.take b.readableBytes) ∧
      (b.makeSpace len).readerIndex_ = kCheapPrepend ∧
      (b.makeSpace len).writerIndex_ = kCheapPrepend + b.readableBytes := by
  unfold makeSpace
  rw [if_neg hmove]
  exact ⟨rfl, rfl, rfl⟩

theorem makeSpace_toRaw (h : b.buffer_.length ≤ maxSize) {len : ℕ} (hlen : len ≤ maxSize)
    (hfull : b.writableBytes < len) :
    b.toRaw.makeSpace (.ofNat len) = (b.makeSpace len).checked := by
  have hp := b.prepend_le
  have hr := b.reader_le
  have hw := b.writer_le
  have hwritable : b.writableBytes = b.buffer_.length - b.writerIndex_ := rfl
  have hprependable : b.prependableBytes = b.readerIndex_ := rfl
  have hiff : b.toRaw.writableBytes + b.toRaw.prependableBytes < .ofNat len + prepend ↔
      b.writableBytes + b.prependableBytes < len + kCheapPrepend := by
    rw [writableBytes_toRaw]
    show UInt64.ofNat _ + .ofNat b.prependableBytes < .ofNat len + .ofNat kCheapPrepend ↔ _
    rw [← UInt64.ofNat_add, ← UInt64.ofNat_add]
    apply ofNat_lt_ofNat (by omega)
    unfold maxSize at hlen ⊢
    unfold kCheapPrepend
    omega
  unfold RawBuffer.makeSpace
  by_cases hgrow : b.writableBytes + b.prependableBytes < len + kCheapPrepend
  · obtain ⟨hbuffer, hreader, hwriter⟩ := makeSpace_grow hgrow
    have hsize : (b.makeSpace len).buffer_.length = b.writerIndex_ + len := by
      rw [hbuffer]
      simp
      omega
    have hsum : b.toRaw.writerIndex_ + .ofNat len = .ofNat (b.writerIndex_ + len) :=
      (UInt64.ofNat_add _ _).symm
    rw [if_pos (hiff.mpr hgrow), hsum, resize_ofNat (by omega)]
    unfold checked toRaw
    rw [hsize, hbuffer, hreader, hwriter]
    split <;> rfl
  · obtain ⟨hbuffer, hreader, hwriter⟩ := makeSpace_move hgrow
    have hread : b.readableBytes = b.writerIndex_ - b.readerIndex_ := rfl
    have hsize : (b.makeSpace len).buffer_.length = b.buffer_.length := by
      rw [hbuffer, length_copyTo (by simp [peek]; omega)]
    -- the readable bytes do not start at the front already, or the vector would have to grow
    have hcopy : copyWithin b.toRaw.buffer_ b.toRaw.readerIndex_ b.toRaw.writerIndex_ prepend =
        .ok (copyTo b.buffer_ kCheapPrepend (b.peek.take b.readableBytes)) :=
      copyWithin_ofNat (by omega) hr hw h
    rw [if_neg (mt hiff.mp hgrow), hcopy, readableBytes_toRaw, checked_of_le (by omega)]
    unfold toRaw
    rw [hbuffer, hreader, hwriter, UInt64.ofNat_add]
    rfl

theorem ensureWritableBytes_toRaw (h : b.buffer_.length ≤ maxSize) {len : ℕ}
    (hlen : len ≤ maxSize) :
    b.toRaw.ensureWritableBytes (.ofNat len) = (b.ensureWritableBytes len).checked := by
  have hw : b.writableBytes ≤ b.buffer_.length := Nat.sub_le _ _
  unfold RawBuffer.ensureWritableBytes ensureWritableBytes
  by_cases hfull : b.writableBytes < len
  · have hfull' : b.toRaw.writableBytes < .ofNat len := by
      rw [writableBytes_toRaw]
      exact (ofNat_lt_ofNat (by omega) (by omega)).mpr hfull
    rw [if_pos hfull', if_pos hfull]
    exact makeSpace_toRaw h hlen hfull
  · have hfits : ¬ b.toRaw.writableBytes < .ofNat len := by
      rw [writableBytes_toRaw]
      exact mt (ofNat_lt_ofNat (by omega) (by omega)).mp hfull
    rw [if_neg hfits, if_neg hfull, checked_of_le h]
    rfl

/-! ### Writing -/

theorem fill_toRaw (h : b.buffer_.length ≤ maxSize) {data : List UInt8}
    (hdata : data.length ≤ b.writableBytes) :
    copyIn b.toRaw.buffer_ b.toRaw.writerIndex_ data = .ok (b.fill data hdata).buffer_ ∧
      (b.fill data hdata).toRaw = { b.toRaw with
        buffer_ := (b.fill data hdata).buffer_
        writerIndex_ := b.toRaw.writerIndex_ + .ofNat data.length } := by
  have hw := b.writer_le
  have hwritable : b.writableBytes = b.buffer_.length - b.writerIndex_ := rfl
  refine ⟨copyIn_ofNat (show b.writerIndex_ + data.length ≤ b.buffer_.length by omega) h, ?_⟩
  show RawBuffer.mk _ _ (.ofNat (_ + _)) = RawBuffer.mk _ _ _
  rw [UInt64.ofNat_add]
  rfl

theorem length_fill {data : List UInt8} (hdata : data.length ≤ b.writableBytes) :
    (b.fill data hdata).buffer_.length = b.buffer_.length := by
  have hw := b.writer_le
  have hwritable : b.writableBytes = b.buffer_.length - b.writerIndex_ := rfl
  exact length_copyTo (by omega)

theorem append_toRaw (h : b.buffer_.length ≤ maxSize) {data : List UInt8}
    (hdata : data.length ≤ maxSize) : b.toRaw.append data = (b.append data).checked := by
  have hsize : (b.append data).buffer_.length =
      (b.ensureWritableBytes data.length).buffer_.length := length_fill _
  unfold RawBuffer.append
  simp only
  rw [ensureWritableBytes_toRaw h hdata]
  by_cases hmax : (b.ensureWritableBytes data.length).buffer_.length ≤ maxSize
  · obtain ⟨hcopy, hfill⟩ := fill_toRaw hmax (b.le_writableBytes_ensure data.length)
    rw [checked_of_le hmax, checked_of_le (hsize.trans_le hmax)]
    show (copyIn _ _ data >>= _) = _
    rw [hcopy]
    exact congrArg Except.ok hfill.symm
  · rw [checked_of_lt (not_le.mp hmax), checked_of_lt (hsize ▸ not_le.mp hmax)]
    rfl

/-- What does not fit into the vector fits into `extrabuf`. -/
theorem length_le_of_offered (h : b.buffer_.length ≤ maxSize) {data : List UInt8}
    (hdata : data.length ≤ b.toRaw.offered) : data.length ≤ b.writableBytes + 65536 := by
  have hle : b.writableBytes ≤ b.buffer_.length := Nat.sub_le _ _
  have hwritable : b.toRaw.writableBytes.toNat = b.writableBytes := by
    rw [writableBytes_toRaw, toNat_ofNat_of_le (by omega)]
  unfold offered at hdata
  rw [hwritable] at hdata
  split at hdata
  · exact hdata
  · omega

theorem readFd_toRaw (h : b.buffer_.length ≤ maxSize) {data : List UInt8}
    (hdata : data.length ≤ b.toRaw.offered) :
    b.toRaw.readFd (some data) = (b.readFd data).checked := by
  have hmost := length_le_of_offered h hdata
  have hw := b.writer_le
  have hwritable : b.writableBytes = b.buffer_.length - b.writerIndex_ := rfl
  have hraw : b.toRaw.writableBytes.toNat = b.writableBytes := by
    rw [writableBytes_toRaw, toNat_ofNat_of_le (by omega)]
  have hcount : UInt64.ofNat data.length ≤ b.toRaw.writableBytes ↔
      data.length ≤ b.writableBytes := by
    rw [writableBytes_toRaw]
    refine UInt64.ofNat_le_iff_le (lt_size_of_le ?_) (lt_size_of_le (by omega))
    unfold maxSize at h ⊢
    omega
  unfold RawBuffer.readFd
  simp only
  rw [hraw]
  by_cases hfits : data.length ≤ b.writableBytes
  · obtain ⟨hcopy, hfill⟩ := fill_toRaw h hfits
    have hread : b.readFd data = b.fill data hfits := dif_pos hfits
    rw [List.take_of_length_le hfits, hcopy, hread, checked_of_le ((length_fill hfits).trans_le h)]
    show (if _ then _ else _) = _
    rw [if_pos (hcount.mpr hfits)]
    exact congrArg Except.ok hfill.symm
  · -- the vector is filled up, and the rest is appended from `extrabuf`
    have htake := List.length_take_le b.writableBytes data
    have hread : b.readFd data =
        (b.fill (data.take b.writableBytes) htake).append (data.drop b.writableBytes) :=
      dif_neg hfits
    have hfilled : (b.fill (data.take b.writableBytes) htake).writerIndex_ =
        (b.fill (data.take b.writableBytes) htake).buffer_.length := by
      rw [length_fill]
      show b.writerIndex_ + (data.take b.writableBytes).length = b.buffer_.length
      rw [List.length_take]
      omega
    obtain ⟨hcopy, -⟩ := fill_toRaw h htake
    rw [hcopy, hread]
    show (if _ then _ else RawBuffer.append ⟨_, _, .ofNat _⟩ _) = _
    rw [if_neg (mt hcount.mp hfits), ← hfilled]
    apply append_toRaw ((length_fill htake).trans_le h)
    rw [List.length_drop]
    unfold maxSize
    omega

/-! ### Every operation -/

/-- The operation on a `Buffer`. -/
def after (b : Buffer) : BufferOp → Buffer
  | .append data => b.append data
  | .readFd data => (data.map b.readFd).getD b
  | .retrieve len => b.retrieve len.toNat
  | .retrieveAll => b.retrieveAll
  | .retrieveAsString len => b.retrieve len.toNat

/-- How many bytes it puts into the buffer. -/
def added : BufferOp → ℕ
  | .append data => data.length
  | .readFd data => (data.getD []).length
  | _ => 0

def allAdded : List BufferOp → ℕ
  | [] => 0
  | op :: ops => added op + allAdded ops

theorem length_makeSpace_le (len : ℕ) :
    (b.makeSpace len).buffer_.length ≤ b.buffer_.length + len := by
  have hp := b.prepend_le
  have hr := b.reader_le
  have hw := b.writer_le
  by_cases hgrow : b.writableBytes + b.prependableBytes < len + kCheapPrepend
  · rw [(makeSpace_grow hgrow).1]
    simp
    omega
  · have hread : b.readableBytes = b.writerIndex_ - b.readerIndex_ := rfl
    rw [(makeSpace_move hgrow).1, length_copyTo (by simp [peek]; omega)]
    omega

theorem length_append_le (data : List UInt8) :
    (b.append data).buffer_.length ≤ b.buffer_.length + data.length := by
  have hsize : (b.append data).buffer_.length =
      (b.ensureWritableBytes data.length).buffer_.length := length_fill _
  rw [hsize]
  unfold ensureWritableBytes
  split
  · exact length_makeSpace_le _
  · omega

theorem length_readFd_le (data : List UInt8) :
    (b.readFd data).buffer_.length ≤ b.buffer_.length + data.length := by
  unfold readFd
  split
  · rw [length_fill]
    omega
  · refine (length_append_le _).trans ?_
    rw [length_fill, List.length_drop]
    omega

theorem length_retrieve (len : ℕ) : (b.retrieve len).buffer_.length = b.buffer_.length := by
  unfold retrieve
  split <;> rfl

theorem length_after_le (op : BufferOp) :
    (b.after op).buffer_.length ≤ b.buffer_.length + added op := by
  cases op with
  | append data => exact length_append_le data
  | readFd data =>
    cases data with
    | none => exact Nat.le_refl _
    | some data => exact length_readFd_le data
  | retrieve len => exact (length_retrieve _).le
  | retrieveAll => exact Nat.le_refl _
  | retrieveAsString len => exact (length_retrieve _).le

/-- It acts as on a queue. -/
theorem readable_after (b : Buffer) (op : BufferOp) :
    (b.after op).readable = (byteQueue.step b.readable op).1 := by
  cases op with
  | append data => exact readable_append b data
  | readFd data =>
    cases data with
    | none => exact (List.append_nil _).symm
    | some data => exact readable_readFd b data
  | retrieve len => exact readable_retrieve b len.toNat
  | retrieveAll =>
    show (b.buffer_.drop kCheapPrepend).take (kCheapPrepend - kCheapPrepend) = []
    rw [Nat.sub_self, List.take_zero]
  | retrieveAsString len => exact readable_retrieve b len.toNat

/-- The raw buffer does what the `Buffer` does, and returns what a queue returns. -/
theorem step_toRaw (h : b.buffer_.length ≤ maxSize) {op : BufferOp} (hallows : b.toRaw.Allows op) :
    b.toRaw.step op = ((b.after op).checked, (byteQueue.step b.readable op).2) := by
  cases op with
  | append data => exact Prod.ext (append_toRaw h hallows) rfl
  | readFd data =>
    cases data with
    | none => exact Prod.ext (checked_of_le h).symm rfl
    | some data => exact Prod.ext (readFd_toRaw h hallows) rfl
  | retrieve len =>
    refine Prod.ext ?_ rfl
    show Except.ok (b.toRaw.retrieve len) = (b.retrieve len.toNat).checked
    rw [retrieve_toRaw h, checked_of_le ((length_retrieve _).trans_le h)]
  | retrieveAll => exact Prod.ext (checked_of_le (b := b.retrieveAll) h).symm rfl
  | retrieveAsString len =>
    have hr := b.reader_le
    have hw := b.writer_le
    have hle := b.readableBytes_le
    have hread : b.readableBytes = b.writerIndex_ - b.readerIndex_ := rfl
    -- the string is copied out of the readable bytes
    have hlen : len.toNat ≤ b.readableBytes := by
      have hraw : len.toNat ≤ b.toRaw.readableBytes.toNat := UInt64.le_iff_toNat_le.mp hallows
      rwa [readableBytes_toRaw, toNat_ofNat_of_le (by omega)] at hraw
    have hreader : b.toRaw.readerIndex_.toNat = b.readerIndex_ := toNat_ofNat_of_le (by omega)
    have hinside : b.readerIndex_ + len.toNat ≤ b.toRaw.buffer_.length := by
      show _ ≤ b.buffer_.length
      omega
    have hstring : b.toRaw.retrieveAsString len =
        .ok (b.readable.take len.toNat, (b.retrieve len.toNat).toRaw) := by
      unfold retrieveAsString
      rw [hreader, if_pos hinside, retrieve_toRaw h, ← take_peek b hlen]
      rfl
    unfold RawBuffer.step
    simp only
    rw [hstring, after, checked_of_le ((length_retrieve _).trans_le h)]
    rfl

/-! ### Every sequence of operations -/

/-- A run of the raw buffer comes to what the queue comes to, unless more than `maxSize` bytes were
put into it. -/
structure ComesTo (bound : ℕ) (queue : List UInt8 × List (List UInt8))
    (raw : Except BufferFault RawBuffer × List (List UInt8)) : Prop where
  ok : ∀ r, raw.1 = .ok r → (∃ b : Buffer, b.buffer_.length ≤ maxSize ∧ b.toRaw = r ∧
    b.readable = queue.1) ∧ raw.2 = queue.2
  error : ∀ fault, raw.1 = .error fault → fault = .lengthError ∧ maxSize < bound

theorem comesTo_run {ops : List BufferOp} {bound : ℕ}
    (hbound : b.buffer_.length + allAdded ops ≤ bound)
    (hrun : machine.CanRun b.checked ops) :
    ComesTo bound (byteQueue.run b.readable ops) (machine.run b.checked ops) := by
  -- on the operations; a vector that is too large ends the run
  induction ops generalizing b with
  | nil =>
    by_cases h : b.buffer_.length ≤ maxSize
    · rw [checked_of_le h]
      exact ⟨fun r heq => ⟨⟨b, h, Except.ok.inj heq, rfl⟩, rfl⟩, fun _ heq => by cases heq⟩
    · rw [checked_of_lt (not_le.mp h)]
      refine ⟨fun _ heq => (by cases heq), fun fault heq => ⟨(Except.error.inj heq).symm, ?_⟩⟩
      omega
  | cons op ops ih =>
    by_cases h : b.buffer_.length ≤ maxSize
    · rw [checked_of_le h] at hrun ⊢
      obtain ⟨hallows, hrest⟩ := hrun
      have hstep : machine.step (.ok b.toRaw) op = _ := step_toRaw h hallows
      rw [hstep] at hrest
      rw [allAdded] at hbound
      have hlen := b.length_after_le op
      have hend := ih (by omega) hrest
      rw [Machine.run_cons, Machine.run_cons, hstep, ← readable_after]
      exact ⟨fun r heq => ⟨(hend.ok r heq).1, by rw [(hend.ok r heq).2]⟩, hend.error⟩
    · rw [checked_of_lt (not_le.mp h)] at hrun
      exact absurd hrun.1 id

end Buffer

namespace RawBuffer

/-- The received and not yet consumed bytes. -/
def readable (b : RawBuffer) : List UInt8 :=
  (b.buffer_.drop b.readerIndex_.toNat).take b.readableBytes.toNat

theorem ofSize_checked {initialSize : UInt64} (h : kCheapPrepend + initialSize.toNat < 2 ^ 64) :
    ofSize initialSize = (Buffer.ofSize initialSize.toNat).checked := by
  have hsum : prepend + initialSize = .ofNat (kCheapPrepend + initialSize.toNat) := by
    rw [UInt64.ofNat_add, UInt64.ofNat_toNat]
    rfl
  have hlen : (Buffer.ofSize initialSize.toNat).buffer_.length =
      kCheapPrepend + initialSize.toNat := List.length_replicate
  unfold ofSize resize
  rw [hsum, UInt64.toNat_ofNat_of_lt' h]
  unfold Buffer.checked
  rw [hlen]
  split
  · show Except.ok (RawBuffer.mk _ _ _) = .ok (RawBuffer.mk _ _ _)
    rw [List.take_nil, List.nil_append]
    rfl
  · rfl

theorem readable_toRaw {b : Buffer} (h : b.buffer_.length ≤ maxSize) :
    b.toRaw.readable = b.readable := by
  have hr := b.reader_le
  have hw := b.writer_le
  have hle := b.readableBytes_le
  have hreader : b.toRaw.readerIndex_.toNat = b.readerIndex_ :=
    Buffer.toNat_ofNat_of_le (by omega)
  unfold readable
  rw [hreader, Buffer.readableBytes_toRaw, Buffer.toNat_ofNat_of_le (by omega)]
  rfl

/-- **The buffer is a byte queue.**  From every initial size whose sum with `kCheapPrepend` does not
wrap around, and after every sequence of operations: the indexes are in order and within the vector,
the readable bytes are those of the queue, and so are the strings that were returned.  No copy
leaves the vector; the only fault is a vector that would get too large, after too many bytes. -/
theorem buffer_is_queue {initialSize : UInt64} (h : kCheapPrepend + initialSize.toNat < 2 ^ 64)
    {ops : List BufferOp} (hrun : machine.CanRun (ofSize initialSize) ops) :
    let last := machine.run (ofSize initialSize) ops
    (∀ b, last.1 = .ok b →
        kCheapPrepend ≤ b.readerIndex_.toNat ∧ b.readerIndex_ ≤ b.writerIndex_ ∧
          b.writerIndex_.toNat ≤ b.buffer_.length ∧ b.readable = (byteQueue.run [] ops).1 ∧
            last.2 = (byteQueue.run [] ops).2) ∧
      ∀ fault, last.1 = .error fault → fault = .lengthError ∧
        maxSize < kCheapPrepend + initialSize.toNat + Buffer.allAdded ops := by
  intro last
  have hlen : (Buffer.ofSize initialSize.toNat).buffer_.length =
      kCheapPrepend + initialSize.toNat := List.length_replicate
  rw [ofSize_checked h] at hrun
  have hend := Buffer.comesTo_run (le_of_eq (by rw [hlen])) hrun
  rw [Buffer.readable_ofSize, ← ofSize_checked h] at hend
  refine ⟨fun b heq => ?_, hend.error⟩
  obtain ⟨⟨b, hmax, rfl, hreadable⟩, hstrings⟩ := hend.ok b heq
  have hp := b.prepend_le
  have hr := b.reader_le
  have hw := b.writer_le
  have hreader : b.toRaw.readerIndex_.toNat = b.readerIndex_ :=
    Buffer.toNat_ofNat_of_le (by omega)
  have hwriter : b.toRaw.writerIndex_.toNat = b.writerIndex_ :=
    Buffer.toNat_ofNat_of_le (by omega)
  refine ⟨hreader.symm ▸ hp, ?_, hwriter.symm ▸ hw, (readable_toRaw hmax).trans hreadable, hstrings⟩
  rw [UInt64.le_iff_toNat_le, hreader, hwriter]
  exact hr

/-- Two bytes of room, a read into `extrabuf`, and a move to the front. -/
def smallBuffer : List BufferOp :=
  [.append [1, 2], .retrieve 1, .readFd (some [3, 4, 5]), .retrieveAsString 2, .append [6, 7]]

theorem buffer_is_queue_smallBuffer :
    (⟨[0, 0, 0, 0, 0, 0, 0, 0, 4, 5, 6, 7, 5], 8, 12⟩ : RawBuffer).readable =
      (byteQueue.run [] smallBuffer).1 := by
  have hrun : machine.CanRun (ofSize 2) smallBuffer := by decide +kernel
  exact ((buffer_is_queue (by decide +kernel) hrun).1 _ (by decide +kernel)).2.2.2.1

/-- The sum with `kCheapPrepend` is 0, and the vector is empty. -/
theorem not_queue_wrapped :
    ofSize 0xfffffffffffffff8 = .ok ⟨[], 8, 8⟩ ∧
      machine.CanRun (ofSize 0xfffffffffffffff8) [.append [1]] ∧
      (machine.run (ofSize 0xfffffffffffffff8) [.append [1]]).1 = .error .outOfBounds := by
  decide +kernel

end RawBuffer

end ArenaGame
