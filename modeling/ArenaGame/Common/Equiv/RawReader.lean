import ArenaGame.Common.Equiv.BinaryStream
import ArenaGame.Common.RawReader

/-!
# The binary reader never reads outside its buffer

Every call on the indexes of the source does what it does on a `BinaryReader`, whose position stays
inside of its buffer, and accesses nothing behind the end (`Refines`).  A composed call does so
because its parts do (`Refines.bind`), and what a call returns is known of the `BinaryReader`.
-/

namespace ArenaGame

open GameProtocol LittleEndian

/-- An event of a reader of `len` bytes: no subtraction wraps around, and no access is behind the
end. -/
def ReaderEvent.Inside (len : UInt64) : ReaderEvent → Prop
  | .subtracted minuend subtrahend => subtrahend ≤ minuend
  | .accessed index => index < len

namespace BinaryReader

variable {α β : Type} {r r' : BinaryReader}

def toRaw (r : BinaryReader) : RawReader := ⟨r.data_, .ofNat r.len_, .ofNat r.pos_⟩

/-- The reader stays on its buffer and does not go back. -/
structure Forward (r r' : BinaryReader) : Prop where
  data : r'.data_ = r.data_
  len : r'.len_ = r.len_
  pos : r.pos_ ≤ r'.pos_

theorem Forward.rfl : Forward r r := ⟨Eq.refl _, Eq.refl _, le_rfl⟩

theorem Forward.trans {r'' : BinaryReader} (h : Forward r r') (h' : Forward r' r'') :
    Forward r r'' :=
  ⟨h'.data.trans h.data, h'.len.trans h.len, h.pos.trans h'.pos⟩

/-- The raw call does what the call does, with events inside of the buffer. -/
def Refines (raw : RawRead α) (call : Read α) : Prop :=
  ∀ (r : BinaryReader) (events : List ReaderEvent), r.len_ < UInt64.size →
    Forward r (call r).2 ∧ ∃ done : List ReaderEvent, (∀ e ∈ done, e.Inside (.ofNat r.len_)) ∧
      raw (r.toRaw, events) = ((call r).1, ((call r).2.toRaw, events ++ done))

theorem Refines.pure (a : α) : Refines (pure a) (pure a) := by
  intro r events _
  refine ⟨.rfl, [], by simp, ?_⟩
  rw [List.append_nil]
  rfl

theorem Refines.bind {raw : RawRead α} {call : Read α} {f : α → RawRead β} {g : α → Read β}
    (h : Refines raw call) (hf : ∀ a, Refines (f a) (g a)) :
    Refines (raw >>= f) (call >>= g) := by
  intro r events hlen
  obtain ⟨hforward, done, hdone, hraw⟩ := h r events hlen
  rcases hcall : call r with ⟨_ | a, r'⟩
  · -- a call that fails ends both, with the events up to there
    rw [hcall] at hraw hforward
    rw [bind_of_none hcall, bind_of_none hraw]
    exact ⟨hforward, done, hdone, rfl⟩
  · rw [hcall] at hraw hforward
    have hlen' : r'.len_ = r.len_ := hforward.len
    obtain ⟨hforward', done', hdone', hraw'⟩ := hf a r' (events ++ done) (hlen' ▸ hlen)
    rw [bind_of_some hcall, bind_of_some hraw]
    refine ⟨hforward.trans hforward', done ++ done', ?_, ?_⟩
    · intro e he
      rcases List.mem_append.mp he with he | he
      · exact hdone e he
      · rw [← hlen']
        exact hdone' e he
    · rw [hraw', List.append_assoc]

theorem Refines.map {raw : RawRead α} {call : Read α} (g : α → β) (h : Refines raw call) :
    Refines (g <$> raw) (g <$> call) :=
  h.bind fun a => .pure (g a)

theorem refines_guard (c : Prop) [Decidable c] : Refines (guard c) (guard c) := by
  intro r events _
  by_cases h : c
  · rw [guard_of_true h, guard_of_true h]
    exact ⟨.rfl, [], by simp, by simp⟩
  · rw [guard_of_false h, guard_of_false h]
    exact ⟨.rfl, [], by simp, by simp⟩

/-! ### The guarded reads -/

/-- What `has` puts down. -/
def hasEvent (r : BinaryReader) : ReaderEvent := .subtracted (.ofNat r.len_) (.ofNat r.pos_)

/-- What an access puts down. -/
def accessEvent (r : BinaryReader) (i : ℕ) : ReaderEvent := .accessed (.ofNat r.pos_ + .ofNat i)

theorem inside_hasEvent (hlen : r.len_ < UInt64.size) : r.hasEvent.Inside (.ofNat r.len_) := by
  have hpos := r.pos_le
  exact (UInt64.ofNat_le_iff_le (by omega) hlen).mpr hpos

/-- An access to a byte that `has` has promised. -/
theorem inside_accessEvent (hlen : r.len_ < UInt64.size) {n i : ℕ} (h : r.has n = true)
    (hi : i < n) : (r.accessEvent i).Inside (.ofNat r.len_) := by
  have hle := pos_add_le h
  show UInt64.ofNat r.pos_ + .ofNat i < .ofNat r.len_
  rw [← UInt64.ofNat_add]
  exact (UInt64.ofNat_lt_iff_lt (by omega) hlen).mpr (by omega)

theorem has_toRaw (hlen : r.len_ < UInt64.size) {n : ℕ} (hn : n < UInt64.size)
    (events : List ReaderEvent) :
    RawReader.has (.ofNat n) (r.toRaw, events) =
      (some (r.has n), (r.toRaw, events ++ [r.hasEvent])) := by
  have hpos := r.pos_le
  -- the position is inside, so the subtraction does not wrap around
  have hsub : UInt64.ofNat r.len_ - .ofNat r.pos_ = .ofNat (r.len_ - r.pos_) :=
    (UInt64.ofNat_sub hpos).symm
  have hiff : UInt64.ofNat n ≤ .ofNat (r.len_ - r.pos_) ↔ n ≤ r.len_ - r.pos_ :=
    UInt64.ofNat_le_iff_le hn (by omega)
  unfold RawReader.has toRaw has hasEvent
  simp only
  rw [hsub, decide_eq_decide.mpr hiff]

theorem getD_toRaw (hlen : r.len_ < UInt64.size) {n i : ℕ} (h : r.has n = true) (hi : i < n) :
    r.toRaw.data_.getD (r.toRaw.pos_ + .ofNat i).toNat 0 = r.remaining.getD i 0 := by
  have hle := pos_add_le h
  have hd := r.len_le
  have hindex : (r.toRaw.pos_ + .ofNat i).toNat = r.pos_ + i := by
    show (UInt64.ofNat r.pos_ + .ofNat i).toNat = _
    rw [← UInt64.ofNat_add]
    exact UInt64.toNat_ofNat_of_lt' (by omega)
  have hinside : r.pos_ + i < r.toRaw.data_.length := by
    show _ < r.data_.length
    omega
  rw [hindex, ← getElem_data_eq r (by omega), List.getD_eq_getElem _ _ hinside]
  rfl

theorem advance_toRaw {n : ℕ} (h : r.has n = true) (events : List ReaderEvent) :
    RawReader.advance (.ofNat n) (r.toRaw, events) = (some (), ((r.advance n h).toRaw, events)) := by
  unfold RawReader.advance toRaw advance
  simp only
  rw [UInt64.ofNat_add]

/-- A read of `n` bytes behind a `has`, whose accesses are below `n`. -/
theorem refines_guarded {n : ℕ} (hn : n < UInt64.size) {body : RawRead α}
    {value : (r : BinaryReader) → r.has n = true → α}
    (hbody : ∀ (r : BinaryReader) (h : r.has n = true) (events : List ReaderEvent),
      r.len_ < UInt64.size → ∃ indexes : List ℕ, (∀ i ∈ indexes, i < n) ∧
        body (r.toRaw, events) = (some (value r h), (r.toRaw, events ++ indexes.map r.accessEvent))) :
    Refines
      (do
        guard (← RawReader.has (.ofNat n))
        let value ← body
        RawReader.advance (.ofNat n)
        return value)
      (fun r => if h : r.has n = true then (some (value r h), r.advance n h) else (none, r)) := by
  intro r events hlen
  rw [bind_of_some (has_toRaw hlen hn events)]
  beta_reduce
  by_cases h : r.has n = true
  · obtain ⟨indexes, hindexes, hvalue⟩ := hbody r h (events ++ [r.hasEvent]) hlen
    rw [bind_of_some (guard_of_true h), bind_of_some hvalue, bind_of_some (advance_toRaw h _),
      dif_pos h]
    refine ⟨⟨rfl, rfl, Nat.le_add_right _ _⟩, r.hasEvent :: indexes.map r.accessEvent, ?_, ?_⟩
    · intro e he
      rcases List.mem_cons.mp he with rfl | he
      · exact inside_hasEvent hlen
      · obtain ⟨i, hi, rfl⟩ := List.mem_map.mp he
        exact inside_accessEvent hlen h (hindexes i hi)
    · rw [List.append_assoc]
      rfl
  · -- nothing is accessed, and the position stays
    rw [bind_of_none (guard_of_false h), dif_neg h]
    exact ⟨.rfl, [r.hasEvent], by simpa using inside_hasEvent hlen, rfl⟩

/-! ### The loops -/

theorem foldlM_dataAt {γ : Type} (g : γ → ℕ → UInt8 → γ) (indexes : List ℕ) (value : γ)
    (raw : RawReader) (events : List ReaderEvent) :
    (indexes.foldlM (fun value index => do
      let byte ← RawReader.dataAt (.ofNat index)
      return g value index byte) value : RawRead γ) (raw, events) =
      (some (indexes.foldl (fun value index =>
          g value index (raw.data_.getD (raw.pos_ + .ofNat index).toNat 0)) value),
        (raw, events ++ indexes.map fun index => .accessed (raw.pos_ + .ofNat index))) := by
  induction indexes generalizing value events with
  | nil =>
    rw [List.map_nil, List.append_nil]
    rfl
  | cons index indexes ih =>
    have hbyte : (do
        let byte ← RawReader.dataAt (.ofNat index)
        return g value index byte : RawRead γ) (raw, events) =
        (some (g value index (raw.data_.getD (raw.pos_ + .ofNat index).toNat 0)),
          (raw, events ++ [.accessed (raw.pos_ + .ofNat index)])) := bind_of_some rfl
    rw [List.foldlM_cons, bind_of_some hbyte, ih, List.append_assoc]
    rfl

/-- The loop over the `n` bytes that `has` has promised. -/
theorem foldlM_toRaw {γ : Type} (g : γ → ℕ → UInt8 → γ) (value : γ)
    (hlen : r.len_ < UInt64.size) {n : ℕ} (h : r.has n = true) (events : List ReaderEvent) :
    ((List.range n).foldlM (fun value index => do
      let byte ← RawReader.dataAt (.ofNat index)
      return g value index byte) value : RawRead γ) (r.toRaw, events) =
      (some ((List.range n).foldl (fun value index => g value index (r.remaining.getD index 0)) value),
        (r.toRaw, events ++ (List.range n).map r.accessEvent)) := by
  have hfold : ∀ (indexes : List ℕ), (∀ i ∈ indexes, i < n) → ∀ value,
      indexes.foldl (fun value index =>
        g value index (r.toRaw.data_.getD (r.toRaw.pos_ + .ofNat index).toNat 0)) value =
      indexes.foldl (fun value index => g value index (r.remaining.getD index 0)) value := by
    intro indexes
    induction indexes with
    | nil => intro _ _; rfl
    | cons i indexes ih =>
      intro hi value
      rw [List.foldl_cons, List.foldl_cons, getD_toRaw hlen h (hi i List.mem_cons_self)]
      exact ih (fun j hj => hi j (List.mem_cons_of_mem _ hj)) _
  rw [foldlM_dataAt, hfold _ fun i hi => List.mem_range.mp hi]
  rfl

theorem refines_readU8 : Refines RawReader.readU8 readU8 := by
  apply refines_guarded (n := 1) (by decide)
  intro r h events hlen
  refine ⟨[0], by simp, ?_⟩
  have hvalue := getD_toRaw hlen h Nat.one_pos
  have hle := pos_add_le h
  rw [← getElem_data_eq r (by omega)] at hvalue
  show (some (r.toRaw.data_.getD (r.toRaw.pos_ + .ofNat 0).toNat 0), _) = _
  rw [hvalue]
  rfl

theorem refines_readUnsigned {size : ℕ} (hsize : size < UInt64.size) :
    Refines (RawReader.readUnsigned size) (readUnsigned size) := by
  apply refines_guarded hsize
  intro r h events hlen
  refine ⟨List.range size, fun i hi => List.mem_range.mp hi, ?_⟩
  rw [unsignedAt_eq]
  exact foldlM_toRaw _ _ hlen h events

theorem refines_readBytes {n : ℕ} (hn : n < UInt64.size) :
    Refines
      (do
        guard (← RawReader.has (.ofNat n))
        let value ← (List.range n).foldlM (fun value index => do
          let byte ← RawReader.dataAt (.ofNat index)
          return value ++ [byte]) []
        RawReader.advance (.ofNat n)
        return value)
      (readBytes n) := by
  apply refines_guarded hn
  intro r h events hlen
  refine ⟨List.range n, fun i hi => List.mem_range.mp hi, ?_⟩
  have hfold : (List.range n).foldl (fun value index => value ++ [r.remaining.getD index 0]) [] =
      (List.range n).map (r.remaining.getD · 0) := by
    rw [List.foldl_append_eq_append, List.nil_append, ← List.flatMap_def, ← List.map_eq_flatMap]
  rw [take_drop_data h, ← map_getD_range ((has_iff r n).mp h), ← hfold]
  exact foldlM_toRaw (fun value _ byte => value ++ [byte]) _ hlen h events

theorem refines_readU16 : Refines RawReader.readU16 readU16 :=
  (refines_readUnsigned (by decide)).map _

theorem refines_readU32 : Refines RawReader.readU32 readU32 :=
  (refines_readUnsigned (by decide)).map _

theorem refines_readU64 : Refines RawReader.readU64 readU64 :=
  (refines_readUnsigned (by decide)).map _

theorem refines_readString : Refines RawReader.readString readString := by
  refine refines_readU32.bind fun length => (refines_guard _).bind fun _ => ?_
  have hlength : length.toNat < UInt64.size := length.toNat_lt.trans (by decide)
  -- the length is of type `uint32_t`, and `has` takes a `size_t`
  have hcount : length.toUInt64 = .ofNat length.toNat := by
    apply UInt64.toNat_inj.mp
    rw [UInt32.toNat_toUInt64, UInt64.toNat_ofNat_of_lt' hlength]
  rw [hcount]
  exact refines_readBytes hlength

/-! ### What a call returns -/

def read : ReaderCall → Read ReaderValue
  | .readU8 => .u8 <$> readU8
  | .readU16 => .u16 <$> readU16
  | .readU32 => .u32 <$> readU32
  | .readU64 => .u64 <$> readU64
  | .readString => .string <$> readString

theorem refines_read (call : ReaderCall) : Refines (RawReader.read call) (read call) := by
  cases call with
  | readU8 => exact refines_readU8.map _
  | readU16 => exact refines_readU16.map _
  | readU32 => exact refines_readU32.map _
  | readU64 => exact refines_readU64.map _
  | readString => exact refines_readString.map _

end BinaryReader

/-- `value` is the number that the first `width` of the unread bytes spell, and `n` is `width`. -/
structure SpellsInteger (unread : List UInt8) (n width value : ℕ) : Prop where
  advance : n = width
  inside : width ≤ unread.length
  value : value = LittleEndian.ofBytes (unread.take width)

/-- `value` is the string behind its length of 4 bytes, and `n` counts both. -/
structure SpellsString (unread : List UInt8) (n : ℕ) (value : StdString) : Prop where
  advance : n = 4 + value.length
  inside : n ≤ unread.length
  length : value.length = LittleEndian.ofBytes (unread.take 4)
  length_le : value.length ≤ kMaxStringBytes
  value : value = (unread.drop 4).take value.length

/-- A call that sets `value` steps over `n` unread bytes that spell it. -/
def Spells (unread : List UInt8) (n : ℕ) : ReaderCall → ReaderValue → Prop
  | .readU8, .u8 value => SpellsInteger unread n 1 value.toNat
  | .readU16, .u16 value => SpellsInteger unread n 2 value.toNat
  | .readU32, .u32 value => SpellsInteger unread n 4 value.toNat
  | .readU64, .u64 value => SpellsInteger unread n 8 value.toNat
  | .readString, .string value => SpellsString unread n value
  | _, _ => False

namespace BinaryReader

variable {r r' : BinaryReader}

theorem Reads.spellsInteger {bs : List UInt8} {width value : ℕ} (h : Reads r bs r')
    (hlength : bs.length = width) (hvalue : value = LittleEndian.ofBytes bs) :
    SpellsInteger r.remaining bs.length width value := by
  refine ⟨hlength, ?_, ?_⟩
  · rw [h.bytes, List.length_append]
    omega
  · rw [h.bytes, ← hlength, List.take_left, hvalue]

theorem Reads.spellsNumber {width value : ℕ} (hlt : value < 256 ^ width)
    (h : Reads r (toBytes width value) r') :
    SpellsInteger r.remaining (toBytes width value).length width value :=
  h.spellsInteger (length_toBytes _ _) (ofBytes_toBytes hlt).symm

theorem Reads.spellsString {value : StdString} (hle : value.length ≤ kMaxStringBytes)
    (h : Reads r (BinaryWriter.stringBytes value) r') :
    SpellsString r.remaining (BinaryWriter.stringBytes value).length value := by
  have hbytes : r.remaining = toBytes 4 value.length ++ (value ++ r'.remaining) := by
    rw [h.bytes, BinaryWriter.stringBytes, List.append_assoc]
  have hlength : (BinaryWriter.stringBytes value).length = 4 + value.length := by
    rw [BinaryWriter.stringBytes, List.length_append, length_toBytes]
  have hfour : (toBytes 4 value.length).length = 4 := length_toBytes _ _
  refine ⟨hlength, ?_, ?_, hle, ?_⟩
  · rw [h.bytes, List.length_append]
    omega
  · rw [hbytes, List.take_left' hfour]
    exact (ofBytes_toBytes (hle.trans_lt (by decide))).symm
  · rw [hbytes, List.drop_left' hfour, List.take_left]

/-- A call that succeeds steps over the bytes that spell its value. -/
theorem spells_of_read {call : ReaderCall} {value : ReaderValue}
    (h : Yields (read call) r value r') :
    ∃ n, r'.pos_ = r.pos_ + n ∧ Spells r.remaining n call value := by
  cases call with
  | readU8 =>
    obtain ⟨v, hv, rfl⟩ := yields_map.mp h
    have hreads := yields_readU8.mp hv
    exact ⟨_, hreads.pos, hreads.spellsInteger rfl (by simp)⟩
  | readU16 =>
    obtain ⟨v, hv, rfl⟩ := yields_map.mp h
    have hreads := yields_readU16.mp hv
    exact ⟨_, hreads.pos, hreads.spellsNumber v.toNat_lt⟩
  | readU32 =>
    obtain ⟨v, hv, rfl⟩ := yields_map.mp h
    have hreads := yields_readU32.mp hv
    exact ⟨_, hreads.pos, hreads.spellsNumber v.toNat_lt⟩
  | readU64 =>
    obtain ⟨v, hv, rfl⟩ := yields_map.mp h
    have hreads := yields_readU64.mp hv
    exact ⟨_, hreads.pos, hreads.spellsNumber v.toNat_lt⟩
  | readString =>
    obtain ⟨v, hv, rfl⟩ := yields_map.mp h
    obtain ⟨hle, hreads⟩ := yields_readString.mp hv
    exact ⟨_, hreads.pos, hreads.spellsString hle⟩

/-! ### Every sequence of calls -/

open RawReader in
/-- One call is the call on the `BinaryReader`, with events inside of the buffer. -/
theorem step_toRaw (hlen : r.len_ < UInt64.size) (call : ReaderCall) :
    Forward r (read call r).2 ∧ ∃ done : List ReaderEvent,
      (∀ e ∈ done, e.Inside (.ofNat r.len_)) ∧
      machine.step r.toRaw call =
        ((read call r).2.toRaw, done.map .did ++ [.returned (read call r).1]) := by
  obtain ⟨hforward, done, hdone, hraw⟩ := refines_read call r [] hlen
  refine ⟨hforward, done, hdone, ?_⟩
  show step r.toRaw call = _
  unfold step
  rw [hraw]
  rfl

open RawReader in
theorem run_toRaw (hlen : r.len_ < UInt64.size) (calls : List ReaderCall) :
    ∃ r', Forward r r' ∧ (machine.run r.toRaw calls).1 = r'.toRaw ∧
      ∀ e, .did e ∈ (machine.run r.toRaw calls).2 → e.Inside (.ofNat r.len_) := by
  induction calls generalizing r with
  | nil => exact ⟨r, .rfl, rfl, by simp⟩
  | cons call calls ih =>
    obtain ⟨hforward, done, hdone, hstep⟩ := step_toRaw hlen call
    obtain ⟨r', hforward', hlast, hinside⟩ := ih (hforward.len ▸ hlen)
    rw [Machine.run_cons, hstep]
    refine ⟨r', hforward.trans hforward', hlast, fun e he => ?_⟩
    rcases List.mem_append.mp he with he | he
    · have hmem : e ∈ done := by simpa using he
      exact hdone e hmem
    · have hin := hinside e he
      rwa [hforward.len] at hin

end BinaryReader

namespace RawReader

/-- The bytes of the buffer that have not been read. -/
def unread (r : RawReader) : List UInt8 := (r.data_.take r.len_.toNat).drop r.pos_.toNat

variable {r : BinaryReader}

theorem toNat_len_toRaw (hlen : r.len_ < UInt64.size) : r.toRaw.len_.toNat = r.len_ :=
  UInt64.toNat_ofNat_of_lt' hlen

theorem toNat_pos_toRaw (hlen : r.len_ < UInt64.size) : r.toRaw.pos_.toNat = r.pos_ :=
  UInt64.toNat_ofNat_of_lt' (r.pos_le.trans_lt hlen)

theorem unread_toRaw (hlen : r.len_ < UInt64.size) : r.toRaw.unread = r.remaining := by
  unfold unread BinaryReader.remaining
  rw [toNat_len_toRaw hlen, toNat_pos_toRaw hlen]
  rfl

theorem toRaw_ofPointer {data : List UInt8} {size : UInt64} (hsize : size.toNat ≤ data.length) :
    (BinaryReader.ofPointer data size.toNat hsize).toRaw = ofPointer data size := by
  unfold BinaryReader.toRaw BinaryReader.ofPointer ofPointer
  simp only
  rw [UInt64.ofNat_toNat]
  rfl

/-- A reader that was made over the `size` bytes behind `data`, with all outputs so far. -/
structure Contained (data : List UInt8) (size : UInt64) (reached : RawReader × List ReaderOutput) :
    Prop where
  data : reached.1.data_ = data
  len : reached.1.len_ = size
  pos_le : reached.1.pos_ ≤ reached.1.len_
  subtracted : ∀ minuend subtrahend, .did (.subtracted minuend subtrahend) ∈ reached.2 →
    subtrahend ≤ minuend
  accessed : ∀ index, .did (.accessed index) ∈ reached.2 → index < size

/-- The call does not go back, and a value that it sets is what the bytes it steps over spell. -/
structure ReadsOn (r : RawReader) (call : ReaderCall) : Prop where
  pos_le : r.pos_ ≤ (machine.step r call).1.pos_
  spells : ∀ value, .returned (some value) ∈ (machine.step r call).2 →
    ∃ n, (machine.step r call).1.pos_.toNat = r.pos_.toNat + n ∧ Spells r.unread n call value

theorem readsOn_toRaw (hlen : r.len_ < UInt64.size) (call : ReaderCall) : ReadsOn r.toRaw call := by
  obtain ⟨hnext, done, -, hstep⟩ := BinaryReader.step_toRaw hlen call
  have hlen' : (BinaryReader.read call r).2.len_ < UInt64.size := hnext.len ▸ hlen
  constructor
  · rw [hstep, UInt64.le_iff_toNat_le, toNat_pos_toRaw hlen, toNat_pos_toRaw hlen']
    exact hnext.pos
  · intro value hvalue
    rw [hstep] at hvalue ⊢
    have hreturned : (BinaryReader.read call r).1 = some value := by
      simpa [eq_comm] using hvalue
    have hyields : BinaryReader.Yields (BinaryReader.read call) r value
        (BinaryReader.read call r).2 := Prod.ext hreturned rfl
    rw [unread_toRaw hlen, toNat_pos_toRaw hlen, toNat_pos_toRaw hlen']
    exact BinaryReader.spells_of_read hyields

/-- After every sequence of calls the position is inside of the buffer, no subtraction has wrapped
around and no access was outside; and every further call reads on from there. -/
theorem reads_stay_inside (data : List UInt8) (size : UInt64) (hsize : size.toNat ≤ data.length)
    (calls : List ReaderCall) :
    Contained data size (machine.run (ofPointer data size) calls) ∧
      ∀ call, ReadsOn (machine.run (ofPointer data size) calls).1 call := by
  obtain ⟨r, hforward, hlast, hinside⟩ :=
    BinaryReader.run_toRaw (r := .ofPointer data size.toNat hsize) size.toNat_lt calls
  have hlen : r.len_ < UInt64.size := hforward.len ▸ size.toNat_lt
  have hsame : UInt64.ofNat r.len_ = size := by
    rw [hforward.len]
    exact UInt64.ofNat_toNat
  rw [toRaw_ofPointer hsize] at hlast hinside
  rw [← hforward.len, hsame] at hinside
  constructor
  · refine ⟨?_, ?_, ?_, fun _ _ he => hinside _ he, fun _ he => hinside _ he⟩
    · rw [hlast]
      exact hforward.data
    · rw [hlast]
      exact hsame
    · rw [hlast, UInt64.le_iff_toNat_le, toNat_pos_toRaw hlen, toNat_len_toRaw hlen]
      exact r.pos_le
  · intro call
    rw [hlast]
    exact readsOn_toRaw hlen call

/-- A string at the end of a buffer of 6 bytes, behind a call that failed. -/
theorem reads_stay_inside_string :
    ∃ n, (machine.step (machine.run (ofPointer [2, 0, 0, 0, 104, 105, 7] 6) [.readU64]).1
        .readString).1.pos_.toNat =
        (machine.run (ofPointer [2, 0, 0, 0, 104, 105, 7] 6) [.readU64]).1.pos_.toNat + n ∧
      Spells (machine.run (ofPointer [2, 0, 0, 0, 104, 105, 7] 6) [.readU64]).1.unread n
        .readString (.string [104, 105]) :=
  ((reads_stay_inside [2, 0, 0, 0, 104, 105, 7] 6 (by decide) [.readU64]).2 .readString).spells
    (.string [104, 105]) (by decide)

end RawReader

end ArenaGame
