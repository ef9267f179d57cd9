import ArenaGame.Common.BinaryStream
import ArenaGame.Util.LittleEndian

/-!
# What the writer writes and the reader reads

Every writer call appends a fixed byte string (`run_writeUnsigned`, `run_writeBytes`).

For the reader, `Reads r bs r'` says that `r'` is `r` after stepping over exactly the bytes `bs`,
and `Yields p r a r'` that the call `p` succeeds on `r` with `a` and leaves `r'`.  Each primitive
is characterised by an equivalence between the two (`yields_readUnsigned`, `yields_readString`),
and `Yields` commutes with sequencing (`yields_bind`), so a decoder built from them is
characterised by rewriting.
-/

namespace ArenaGame

open GameProtocol LittleEndian

namespace BinaryWriter

@[simp] theorem run_writeU8 (value : UInt8) (w : BinaryWriter) :
    (writeU8 value).run w = pure ((), ⟨w.buf_ ++ [value]⟩) := rfl

theorem run_forM_writeU8 (f : ℕ → UInt8) (l : List ℕ) (w : BinaryWriter) :
    (l.forM fun i => writeU8 (f i)).run w = pure ((), ⟨w.buf_ ++ l.map f⟩) := by
  induction l generalizing w with
  | nil => simp [List.forM_eq_forM]
  | cons i l ih =>
    rw [List.forM_eq_forM] at ih ⊢
    rw [List.forM_cons, StateT.run_bind, run_writeU8, pure_bind, ih]
    simp

/-- Masking with `0xFF` before the cast to a byte changes nothing. -/
theorem setWidth_and_0xFF {w : ℕ} (v : BitVec w) :
    (v &&& 0xFF).setWidth 8 = v.setWidth 8 := by
  apply BitVec.eq_of_getLsbD_eq
  intro i hi
  have hbit : (0xFF : BitVec w).getLsbD i = decide (i < w) := by
    have h8 : ∀ j < 8, (0xFF : ℕ).testBit j = true := by decide
    simp [BitVec.getLsbD_ofNat, BitVec.ofNat_eq_ofNat, h8 i hi]
  rw [BitVec.getLsbD_setWidth, BitVec.getLsbD_setWidth, BitVec.getLsbD_and, hbit]
  by_cases hw : i < w
  · simp [hw]
  · simp [hw, BitVec.getLsbD_of_ge v i (by omega)]

theorem run_writeUnsigned (size : ℕ) (value : BitVec (size * 8)) (w : BinaryWriter) :
    (writeUnsigned size value).run w = pure ((), ⟨w.buf_ ++ toBytes size value.toNat⟩) := by
  unfold writeUnsigned
  rw [run_forM_writeU8]
  simp only [setWidth_and_0xFF]
  rw [map_shiftRight_eq_toBytes]

@[simp] theorem run_writeU16 (value : UInt16) (w : BinaryWriter) :
    (writeU16 value).run w = pure ((), ⟨w.buf_ ++ toBytes 2 value.toNat⟩) :=
  run_writeUnsigned 2 _ w

@[simp] theorem run_writeU32 (value : UInt32) (w : BinaryWriter) :
    (writeU32 value).run w = pure ((), ⟨w.buf_ ++ toBytes 4 value.toNat⟩) :=
  run_writeUnsigned 4 _ w

@[simp] theorem run_writeU64 (value : UInt64) (w : BinaryWriter) :
    (writeU64 value).run w = pure ((), ⟨w.buf_ ++ toBytes 8 value.toNat⟩) :=
  run_writeUnsigned 8 _ w

@[simp] theorem run_writeBytes (data : List UInt8) (w : BinaryWriter) :
    (writeBytes data).run w = pure ((), ⟨w.buf_ ++ data⟩) := by
  unfold writeBytes
  by_cases h : data.length = 0
  · simp [List.length_eq_zero_iff.mp h]
  · rw [if_neg h]
    rfl

/-- The bytes of a string on the wire: its length in 4 bytes, then the string. -/
def stringBytes (value : List UInt8) : List UInt8 :=
  toBytes 4 value.length ++ value

theorem run_writeString_of_le {value : List UInt8} (h : value.length ≤ kMaxStringBytes)
    (w : BinaryWriter) :
    (writeString value).run w = pure (true, ⟨w.buf_ ++ stringBytes value⟩) := by
  unfold kMaxStringBytes at h
  have hsize : (UInt32.ofNat value.length).toNat = value.length :=
    UInt32.toNat_ofNat_of_lt' (lt_of_le_of_lt h (by decide))
  have hgt : ¬ (value.length > kMaxStringBytes ∨ value.length > UInt32.size - 1) := by
    rw [show UInt32.size = 4294967296 from rfl, kMaxStringBytes]
    omega
  unfold writeString
  rw [if_neg hgt]
  simp [stringBytes, hsize]

theorem run_writeString_of_lt {value : List UInt8} (h : kMaxStringBytes < value.length)
    (w : BinaryWriter) : (writeString value).run w = pure (false, w) := by
  unfold writeString
  rw [if_pos (Or.inl h)]
  rfl

end BinaryWriter

/-! ### Sequencing -/

section Bind

variable {σ α β : Type} {p : OptionT (StateM σ) α} {f : α → OptionT (StateM σ) β} {s s' : σ}

variable (p f s) in
theorem bind_eq_elim : (p >>= f) s = (p s).1.elim (none, (p s).2) fun a => f a (p s).2 := by
  show OptionT.bind p f s = _
  unfold OptionT.bind OptionT.mk
  show StateT.bind p _ s = _
  unfold StateT.bind
  rcases p s with ⟨_ | a, s'⟩ <;> rfl

theorem bind_of_some {a : α} (h : p s = (some a, s')) : (p >>= f) s = f a s' := by
  rw [bind_eq_elim, h]
  rfl

theorem bind_of_none (h : p s = (none, s')) : (p >>= f) s = (none, s') := by
  rw [bind_eq_elim, h]
  rfl

theorem guard_of_true {c : Prop} [Decidable c] (h : c) :
    (guard c : OptionT (StateM σ) Unit) s = (some (), s) := by
  rw [guard, if_pos h]
  rfl

theorem guard_of_false {c : Prop} [Decidable c] (h : ¬ c) :
    (guard c : OptionT (StateM σ) Unit) s = (none, s) := by
  rw [guard, if_neg h]
  rfl

end Bind

namespace BinaryReader

/-! ### Stepping over bytes -/

/-- The bytes a reader has not read yet. -/
def remaining (r : BinaryReader) : List UInt8 := (r.data_.take r.len_).drop r.pos_

@[simp] theorem remaining_ofBytes (data : List UInt8) : (ofBytes data).remaining = data := by
  simp [remaining, ofBytes, ofPointer]

theorem length_remaining (r : BinaryReader) : r.remaining.length = r.len_ - r.pos_ := by
  have := r.len_le
  simp [remaining]
  omega

theorem has_iff (r : BinaryReader) (n : ℕ) : r.has n = true ↔ n ≤ r.remaining.length := by
  rw [length_remaining, has, decide_eq_true_eq]

/-- `r'` is `r` after stepping over exactly the bytes `bs`. -/
structure Reads (r : BinaryReader) (bs : List UInt8) (r' : BinaryReader) : Prop where
  data : r'.data_ = r.data_
  len : r'.len_ = r.len_
  bytes : r.remaining = bs ++ r'.remaining

theorem Reads.pos {r r' : BinaryReader} {bs : List UInt8} (h : Reads r bs r') :
    r'.pos_ = r.pos_ + bs.length := by
  have hlen := congrArg List.length h.bytes
  rw [List.length_append, length_remaining, length_remaining, h.len] at hlen
  have := r.pos_le
  have := r'.pos_le
  have := h.len
  omega

theorem Reads.unique {r r₁ r₂ : BinaryReader} {bs : List UInt8} (h₁ : Reads r bs r₁)
    (h₂ : Reads r bs r₂) : r₁ = r₂ := by
  have hpos : r₁.pos_ = r₂.pos_ := by rw [h₁.pos, h₂.pos]
  have hdata : r₁.data_ = r₂.data_ := by rw [h₁.data, h₂.data]
  have hlen : r₁.len_ = r₂.len_ := by rw [h₁.len, h₂.len]
  cases r₁
  cases r₂
  simp_all

theorem reads_nil {r r' : BinaryReader} : Reads r [] r' ↔ r = r' := by
  constructor
  · intro h
    exact Reads.unique ⟨rfl, rfl, rfl⟩ h
  · rintro rfl
    exact ⟨rfl, rfl, rfl⟩

theorem reads_advance (r : BinaryReader) (n : ℕ) (h : r.has n = true) :
    Reads r (r.remaining.take n) (r.advance n h) := by
  refine ⟨rfl, rfl, ?_⟩
  simp only [remaining, advance]
  rw [← List.drop_drop, List.take_append_drop]

/-- A step over `n` bytes is `advance n`. -/
theorem Reads.eq_advance {r r' : BinaryReader} {bs : List UInt8} (h : Reads r bs r') :
    ∃ hn : r.has bs.length = true, r' = r.advance bs.length hn ∧ r.remaining.take bs.length = bs := by
  have hn : r.has bs.length = true := by
    rw [has_iff, h.bytes, List.length_append]
    omega
  have htake : r.remaining.take bs.length = bs := by rw [h.bytes]; simp
  refine ⟨hn, Reads.unique h ?_, htake⟩
  have hadv := reads_advance r bs.length hn
  rwa [htake] at hadv

theorem reads_append {r r'' : BinaryReader} {bs cs : List UInt8} :
    Reads r (bs ++ cs) r'' ↔ ∃ r', Reads r bs r' ∧ Reads r' cs r'' := by
  constructor
  · intro h
    have hn : r.has bs.length = true := by
      rw [has_iff, h.bytes]
      simp
    have htake : r.remaining.take bs.length = bs := by rw [h.bytes]; simp
    have hfst := reads_advance r bs.length hn
    rw [htake] at hfst
    refine ⟨_, hfst, h.data, h.len, ?_⟩
    have hbytes := hfst.bytes
    rw [h.bytes, List.append_assoc] at hbytes
    exact (List.append_cancel_left hbytes).symm
  · rintro ⟨r', h₁, h₂⟩
    refine ⟨h₂.data.trans h₁.data, h₂.len.trans h₁.len, ?_⟩
    rw [h₁.bytes, h₂.bytes, List.append_assoc]

/-! ### Successful calls -/

/-- The call `p` succeeds on `r` with value `a` and leaves the reader `r'`. -/
def Yields {α : Type} (p : Read α) (r : BinaryReader) (a : α) (r' : BinaryReader) : Prop :=
  p r = (some a, r')

@[simp] theorem yields_pure {α : Type} {a b : α} {r r' : BinaryReader} :
    Yields (pure a) r b r' ↔ a = b ∧ r = r' := by
  show ((some a, r) = (some b, r')) ↔ _
  simp

@[simp] theorem yields_bind {α β : Type} {p : Read α} {f : α → Read β} {r r'' : BinaryReader}
    {b : β} :
    Yields (p >>= f) r b r'' ↔ ∃ a r', Yields p r a r' ∧ Yields (f a) r' b r'' := by
  unfold Yields
  rcases hp : p r with ⟨_ | a, r'⟩
  · rw [bind_of_none hp]
    constructor
    · rintro ⟨⟩
    · rintro ⟨a, r₁, ⟨⟩, _⟩
  · rw [bind_of_some hp]
    constructor
    · intro h
      exact ⟨a, r', rfl, h⟩
    · rintro ⟨a, r₁, ⟨⟩, h⟩
      exact h

@[simp] theorem yields_map {α β : Type} {p : Read α} {g : α → β} {r r' : BinaryReader} {b : β} :
    Yields (g <$> p) r b r' ↔ ∃ a, Yields p r a r' ∧ g a = b := by
  show Yields (p >>= fun a => pure (g a)) r b r' ↔ _
  simp only [yields_bind, yields_pure]
  constructor
  · rintro ⟨a, r₁, h, rfl, rfl⟩
    exact ⟨a, h, rfl⟩
  · rintro ⟨a, h, rfl⟩
    exact ⟨a, r', h, rfl, rfl⟩

@[simp] theorem yields_failure {α : Type} {r r' : BinaryReader} {a : α} :
    Yields (failure : Read α) r a r' ↔ False := by
  show ((none, r) = (some a, r')) ↔ _
  simp

@[simp] theorem yields_guard {c : Prop} [Decidable c] {u : Unit} {r r' : BinaryReader} :
    Yields (guard c) r u r' ↔ c ∧ r = r' := by
  by_cases h : c <;> simp [guard, h]

@[simp] theorem yields_eof {b : Bool} {r r' : BinaryReader} :
    Yields eof r b r' ↔ b = decide (r.remaining = []) ∧ r = r' := by
  have h : decide (r.pos_ ≥ r.len_) = decide (r.remaining = []) := by
    have := length_remaining r
    rw [decide_eq_decide, ← List.length_eq_zero_iff]
    omega
  show ((some (decide (r.pos_ ≥ r.len_)), r) = (some b, r')) ↔ _
  rw [h, Prod.mk.injEq, Option.some.injEq, eq_comm]

theorem getElem_data_eq (r : BinaryReader) {i : ℕ} (h : r.pos_ + i < r.len_) :
    r.byte (r.pos_ + i) h = r.remaining.getD i 0 := by
  have hd := r.len_le
  have hi : i < r.remaining.length := by rw [length_remaining]; omega
  rw [List.getD_eq_getElem _ _ hi]
  simp [byte, remaining]

@[simp] theorem yields_readU8 {v : UInt8} {r r' : BinaryReader} :
    Yields readU8 r v r' ↔ Reads r [v] r' := by
  unfold Yields readU8
  by_cases h : r.has 1 = true
  · have hlen : 0 < r.remaining.length := (has_iff r 1).mp h
    have hb := getElem_data_eq r (i := 0) (by have := pos_add_le h; omega)
    have hone : r.remaining.take 1 = [r.remaining.getD 0 0] := by
      cases hr : r.remaining with
      | nil => rw [hr] at hlen; simp at hlen
      | cons b bs => simp
    rw [dif_pos h]
    simp only [Nat.add_zero] at hb
    rw [hb, Prod.mk.injEq, Option.some.injEq]
    have hadv := reads_advance r 1 h
    rw [hone] at hadv
    constructor
    · rintro ⟨rfl, rfl⟩
      exact hadv
    · intro hr
      obtain ⟨hn, hr', htake⟩ := hr.eq_advance
      rw [List.length_singleton, hone] at htake
      exact ⟨by simpa using htake, hr'.symm⟩
  · rw [dif_neg h]
    constructor
    · rintro ⟨⟩
    · intro hr
      exact absurd hr.eq_advance.1 h

/-- The first `n` bytes, one by one. -/
theorem map_getD_range {bs : List UInt8} {n : ℕ} (h : n ≤ bs.length) :
    (List.range n).map (bs.getD · 0) = bs.take n := by
  apply List.ext_getElem
  · simp [h]
  · intro i h₁ h₂
    simp only [List.length_take] at h₂
    simp only [List.getElem_map, List.getElem_range, List.getElem_take]
    rw [List.getD_eq_getElem _ _ (by omega)]

theorem unsignedAt_eq (r : BinaryReader) (size : ℕ) (h : r.has size = true) :
    r.unsignedAt size h = (List.range size).foldl (fun value index =>
      value ||| (r.remaining.getD index 0).toBitVec.setWidth (size * 8) <<< (index * 8)) 0 := by
  have hrange : (List.range size) = (List.finRange size).map Fin.val := by simp
  unfold unsignedAt
  rw [hrange, List.foldl_map]
  congr 1
  funext value index
  rw [getElem_data_eq]

theorem toNat_unsignedAt (r : BinaryReader) (size : ℕ) (h : r.has size = true) :
    (r.unsignedAt size h).toNat = LittleEndian.ofBytes (r.remaining.take size) := by
  have hlen := (has_iff r size).mp h
  rw [unsignedAt_eq, ← map_getD_range hlen]
  exact toNat_foldl_or_shiftLeft (size * 8) _ size le_rfl

@[simp] theorem yields_readUnsigned (size : ℕ) {v : BitVec (size * 8)} {r r' : BinaryReader} :
    Yields (readUnsigned size) r v r' ↔ Reads r (toBytes size v.toNat) r' := by
  unfold Yields readUnsigned
  by_cases h : r.has size = true
  · have hlen := (has_iff r size).mp h
    have htoNat := toNat_unsignedAt r size h
    have htake : toBytes size (r.unsignedAt size h).toNat = r.remaining.take size := by
      rw [htoNat]
      exact toBytes_ofBytes_of_length (by simp [hlen])
    rw [dif_pos h, Prod.mk.injEq, Option.some.injEq]
    constructor
    · rintro ⟨rfl, rfl⟩
      rw [htake]
      exact reads_advance r size h
    · intro hr
      obtain ⟨hn, hr', hv⟩ := hr.eq_advance
      simp only [length_toBytes] at hn hr' hv
      refine ⟨BitVec.eq_of_toNat_eq ?_, hr'.symm⟩
      have hpow : (256 : ℕ) ^ size = 2 ^ (size * 8) := by
        rw [show (256 : ℕ) = 2 ^ 8 by norm_num, ← pow_mul, Nat.mul_comm]
      rw [htoNat, hv, ofBytes_toBytes]
      rw [hpow]
      exact v.isLt
  · rw [dif_neg h]
    constructor
    · rintro ⟨⟩
    · intro hr
      exact absurd (by simpa using hr.eq_advance.1) h

/-- A word type is as good as the bits it is made of. -/
theorem yields_map_readUnsigned {α : Type} (size : ℕ) (ofBits : BitVec (size * 8) → α)
    (toBits : α → BitVec (size * 8)) (hto : ∀ bits, toBits (ofBits bits) = bits) {v : α}
    (hof : ofBits (toBits v) = v) {r r' : BinaryReader} :
    Yields (ofBits <$> readUnsigned size) r v r' ↔ Reads r (toBytes size (toBits v).toNat) r' := by
  rw [← yields_readUnsigned, yields_map]
  constructor
  · rintro ⟨bits, hbits, rfl⟩
    rwa [hto]
  · intro h
    exact ⟨toBits v, h, hof⟩

@[simp] theorem yields_readU16 {v : UInt16} {r r' : BinaryReader} :
    Yields readU16 r v r' ↔ Reads r (toBytes 2 v.toNat) r' :=
  yields_map_readUnsigned 2 UInt16.ofBitVec UInt16.toBitVec (fun _ => rfl) rfl

@[simp] theorem yields_readU32 {v : UInt32} {r r' : BinaryReader} :
    Yields readU32 r v r' ↔ Reads r (toBytes 4 v.toNat) r' :=
  yields_map_readUnsigned 4 UInt32.ofBitVec UInt32.toBitVec (fun _ => rfl) rfl

@[simp] theorem yields_readU64 {v : UInt64} {r r' : BinaryReader} :
    Yields readU64 r v r' ↔ Reads r (toBytes 8 v.toNat) r' :=
  yields_map_readUnsigned 8 UInt64.ofBitVec UInt64.toBitVec (fun _ => rfl) rfl

/-- What is behind the pointer starts with the bytes that are left. -/
theorem take_drop_data {r : BinaryReader} {n : ℕ} (h : r.has n = true) :
    (r.data_.drop r.pos_).take n = r.remaining.take n := by
  have hlen := (has_iff r n).mp h
  rw [length_remaining] at hlen
  rw [remaining, List.drop_take, List.take_take, Nat.min_eq_left hlen]

theorem yields_readBytes {n : ℕ} {s : List UInt8} {r r' : BinaryReader} :
    Yields (readBytes n) r s r' ↔ s.length = n ∧ Reads r s r' := by
  unfold Yields readBytes
  by_cases h : r.has n = true
  · have hlen := (has_iff r n).mp h
    rw [dif_pos h, take_drop_data h, Prod.mk.injEq, Option.some.injEq]
    constructor
    · rintro ⟨rfl, rfl⟩
      exact ⟨by simp [hlen], reads_advance r n h⟩
    · rintro ⟨rfl, hr⟩
      obtain ⟨hn, hr', htake⟩ := hr.eq_advance
      exact ⟨htake, hr'.symm⟩
  · rw [dif_neg h]
    constructor
    · rintro ⟨⟩
    · rintro ⟨rfl, hr⟩
      exact absurd hr.eq_advance.1 h

@[simp] theorem yields_readString {s : List UInt8} {r r' : BinaryReader} :
    Yields readString r s r' ↔
      s.length ≤ kMaxStringBytes ∧ Reads r (BinaryWriter.stringBytes s) r' := by
  unfold readString
  simp only [yields_bind, yields_readU32, yields_guard, yields_readBytes]
  constructor
  · rintro ⟨length, r₁, h₁, ⟨⟩, _, ⟨hle, rfl⟩, hlen, h₂⟩
    refine ⟨by rw [hlen]; exact Nat.not_lt.mp hle, reads_append.mpr ⟨r₁, ?_, h₂⟩⟩
    rwa [hlen]
  · rintro ⟨hle, h⟩
    obtain ⟨r₁, h₁, h₂⟩ := reads_append.mp h
    have hsize : (UInt32.ofNat s.length).toNat = s.length :=
      UInt32.toNat_ofNat_of_lt' (lt_of_le_of_lt hle (by decide))
    refine ⟨UInt32.ofNat s.length, r₁, ?_, (), r₁, ⟨?_, rfl⟩, hsize.symm, h₂⟩
    · rwa [hsize]
    · rw [hsize]
      exact Nat.not_lt.mpr hle

end BinaryReader

end ArenaGame
