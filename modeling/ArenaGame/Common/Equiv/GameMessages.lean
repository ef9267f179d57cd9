import ArenaGame.Common.GameMessages
import ArenaGame.Common.Equiv.BinaryStream
import ArenaGame.Util.WireFormat

/-!
# Correctness of the message codec

`MessageType.wire t v` is the field list that a message puts on the wire: the fields of the branch
that `encode` writes, in order.  `encode` succeeds exactly when the strings of that branch fit, and
then writes the spelling of the list (`writes_encode`).

`MessageType.reset t v` is `v` with the fields of the other branch at their defaults.  A decoder
into a default-constructed target yields exactly the values with `reset t v = v`, from exactly
their spellings (`parses_decode`), with one exception: the login and registration answers also
accept a spelling of a success whose flag byte is replaced by any other nonzero byte
(`LaxFlag`).

From these: the round trip with exactness (`decode_encode`), and for which byte strings strict
decoding is canonical (`decode_canonical_iff`).
-/

namespace ArenaGame.GameMessages

open GameProtocol BinaryWriter BinaryReader

/-! ### Wire layout -/

namespace MessageType

/-- The body of an accept-or-reject answer. -/
def acceptedWire (accepted : Bool) (errorCode : ErrorCode) (errorMessage : StdString) :
    List WireField :=
  .u8 (flag accepted) ::
    if accepted then [] else [.u16 errorCode.value, .string errorMessage]

/-- The fields that `encode` writes, in order. -/
def wire : (t : MessageType) → t.Value → List WireField
  | loginRequest => fun v : LoginRequest => [.string v.userName_, .string v.password_]
  | registerRequest => fun v : RegisterRequest => [.string v.userName_, .string v.password_]
  | loginResponse => fun v : LoginResponse =>
    .u8 (flag v.success_) ::
      if v.success_ then [.u32 v.userId_, .u32 v.elo_, .string v.userName_]
      else [.u16 v.errorCode_.value, .string v.errorMessage_]
  | registerResponse => fun v : RegisterResponse =>
    .u8 (flag v.success_) ::
      if v.success_ then [.u32 v.userId_, .string v.userName_]
      else [.u16 v.errorCode_.value, .string v.errorMessage_]
  | matchFoundNotification => fun v : MatchFoundNotification =>
    [.u64 v.roomId_, .u32 v.opponentUserId_, .string v.opponentUserName_, .u32 v.opponentElo_]
  | matchJoinResponse => fun v : MatchJoinResponse =>
    acceptedWire v.accepted_ v.errorCode_ v.errorMessage_
  | matchJoinRequest => fun _ => []
  | matchCancelRequest => fun _ => []
  | matchCancelResponse => fun v : MatchCancelResponse =>
    acceptedWire v.accepted_ v.errorCode_ v.errorMessage_
  | heroSelectRequest => fun v : HeroSelectRequest => [.u8 v.heroType_.value]
  | heroSelectResponse => fun v : HeroSelectResponse =>
    acceptedWire v.accepted_ v.errorCode_ v.errorMessage_
  | battleStartNotification => fun v : BattleStartNotification =>
    [.u64 v.roomId_, .u8 v.playerHero_.value, .u8 v.opponentHero_.value]
  | battleAttackRequest => fun _ => []
  | battleStateNotification => fun v : BattleStateNotification =>
    [.u64 v.roomId_, .u16 v.playerHealth_, .u16 v.opponentHealth_, .u8 (flag v.playerTurn_)]
  | battleResultNotification => fun v : BattleResultNotification =>
    [.u64 v.roomId_, .u8 (flag v.won_), .u32 v.playerElo_]
  | roomClosedNotification => fun v : RoomClosedNotification =>
    [.u64 v.roomId_, .string v.reason_]

/-- The string fields of the written branch. -/
def strings (t : MessageType) (v : t.Value) : List StdString := WireFormat.strings (t.wire v)

/-- The strings of the written branch are short enough for `writeString`. -/
def Fits (t : MessageType) (v : t.Value) : Prop := WireFormat.Fits kMaxStringBytes (t.wire v)

/-- The bytes of a message. -/
def bytes (t : MessageType) (v : t.Value) : List UInt8 := WireFormat.bytes (t.wire v)

/-- `v` with the fields that the written branch does not carry at their defaults. -/
def reset : (t : MessageType) → t.Value → t.Value
  | loginResponse => fun v : LoginResponse =>
    if v.success_ then { v with errorCode_ := .kNone, errorMessage_ := [] }
    else { v with userId_ := 0, elo_ := 0, userName_ := [] }
  | registerResponse => fun v : RegisterResponse =>
    if v.success_ then { v with errorCode_ := .kNone, errorMessage_ := [] }
    else { v with userId_ := 0, userName_ := [] }
  | matchJoinResponse => fun v : MatchJoinResponse =>
    if v.accepted_ then { v with errorCode_ := .kNone, errorMessage_ := [] } else v
  | matchCancelResponse => fun v : MatchCancelResponse =>
    if v.accepted_ then { v with errorCode_ := .kNone, errorMessage_ := [] } else v
  | heroSelectResponse => fun v : HeroSelectResponse =>
    if v.accepted_ then { v with errorCode_ := .kNone, errorMessage_ := [] } else v
  | loginRequest | registerRequest | matchFoundNotification | matchJoinRequest
  | matchCancelRequest | heroSelectRequest | battleStartNotification | battleAttackRequest
  | battleStateNotification | battleResultNotification | roomClosedNotification => id

/-- The two answers whose decoders take any nonzero flag byte for `true`. -/
def hasLaxFlag : MessageType → Bool
  | loginResponse | registerResponse => true
  | _ => false

/-- `fields` is the wire layout of a success with the flag byte 1 replaced by a byte that is
neither 0 nor 1. -/
def LaxFlag (t : MessageType) (v : t.Value) (fields : List WireField) : Prop :=
  t.hasLaxFlag = true ∧
    ∃ f rest, f ≠ 0 ∧ f ≠ 1 ∧ t.wire v = .u8 1 :: rest ∧ fields = .u8 f :: rest

end MessageType

open MessageType

/-! ### Encoding -/

/-- `p` writes exactly the field list `fields` and returns `true` if its strings fit, and returns
`false` otherwise. -/
structure Writes (p : Write Bool) (fields : List WireField) : Prop where
  fits : WireFormat.Fits kMaxStringBytes fields →
    ∀ w : BinaryWriter, p.run w = pure (true, ⟨w.buf_ ++ WireFormat.bytes fields⟩)
  not_fits : ¬ WireFormat.Fits kMaxStringBytes fields →
    ∀ w : BinaryWriter, ∃ w', p.run w = pure (false, w')

theorem writes_true : Writes (pure true) [] :=
  ⟨fun _ w => by simp, fun h => absurd (WireFormat.fits_nil _) h⟩

/-- Writing an integer field in front. -/
theorem Writes.integer {p : Write Bool} {fields : List WireField} (hp : Writes p fields)
    {q : Write Unit} {f : WireField} (hf : f.Fits kMaxStringBytes)
    (hq : ∀ w : BinaryWriter, q.run w = pure ((), ⟨w.buf_ ++ f.bytes⟩)) :
    Writes (do q; p) (f :: fields) := by
  constructor
  · intro h w
    rw [WireFormat.fits_cons] at h
    rw [StateT.run_bind, hq, pure_bind, hp.fits h.2]
    simp
  · intro h w
    rw [WireFormat.fits_cons, not_and] at h
    rw [StateT.run_bind, hq, pure_bind]
    exact hp.not_fits (h hf) _

theorem Writes.u8 {p : Write Bool} {fields : List WireField} (hp : Writes p fields) (v : UInt8) :
    Writes (do writeU8 v; p) (.u8 v :: fields) :=
  hp.integer trivial (run_writeU8 v)

theorem Writes.u16 {p : Write Bool} {fields : List WireField} (hp : Writes p fields)
    (v : UInt16) : Writes (do writeU16 v; p) (.u16 v :: fields) :=
  hp.integer trivial (run_writeU16 v)

theorem Writes.u32 {p : Write Bool} {fields : List WireField} (hp : Writes p fields)
    (v : UInt32) : Writes (do writeU32 v; p) (.u32 v :: fields) :=
  hp.integer trivial (run_writeU32 v)

theorem Writes.u64 {p : Write Bool} {fields : List WireField} (hp : Writes p fields)
    (v : UInt64) : Writes (do writeU64 v; p) (.u64 v :: fields) :=
  hp.integer trivial (run_writeU64 v)

/-- Writing a string in front, with the early exit on failure. -/
theorem Writes.string {p : Write Bool} {fields : List WireField} (hp : Writes p fields)
    (s : StdString) : Writes (writeString s <&&> p) (.string s :: fields) := by
  constructor
  · intro h w
    rw [WireFormat.fits_cons] at h
    unfold andM
    rw [StateT.run_bind, run_writeString_of_le h.1, pure_bind]
    show p.run _ = _
    rw [hp.fits h.2]
    simp [WireField.bytes, stringBytes]
  · intro h w
    rw [WireFormat.fits_cons, not_and] at h
    unfold andM
    rw [StateT.run_bind]
    by_cases hs : s.length ≤ kMaxStringBytes
    · rw [run_writeString_of_le hs, pure_bind]
      exact hp.not_fits (h hs) _
    · rw [run_writeString_of_lt (Nat.not_le.mp hs), pure_bind]
      exact ⟨w, rfl⟩

/-- The early exit written out as an `if`. -/
theorem if_not_eq_andM (q p : Write Bool) :
    (do if !(← q) then return false
        p) = (q <&&> p) := by
  unfold andM
  congr 1
  funext ok
  cases ok <;> rfl

theorem writes_string (s : StdString) : Writes (writeString s) [.string s] := by
  have h := writes_true.string s
  have heq : (writeString s <&&> pure true) = writeString s := by
    unfold andM
    conv_rhs => rw [← bind_pure (writeString s)]
    congr 1
    funext ok
    cases ok <;> rfl
  rwa [heq] at h

theorem writes_accepted (accepted : Bool) (errorCode : ErrorCode) (errorMessage : StdString) :
    Writes (encodeAccepted accepted errorCode errorMessage)
      (acceptedWire accepted errorCode errorMessage) := by
  cases accepted
  · exact ((writes_string errorMessage).u16 errorCode.value).u8 (flag false)
  · exact writes_true.u8 (flag true)

/-- Every encoder writes the wire layout of its message. -/
theorem writes_encode (t : MessageType) (v : t.Value) : Writes (t.encode v) (t.wire v) := by
  -- field by field, from the last one that is written to the first
  cases t with
  | loginRequest =>
    obtain ⟨userName, password⟩ := v
    exact (writes_string password).string userName
  | registerRequest =>
    obtain ⟨userName, password⟩ := v
    exact (writes_string password).string userName
  | loginResponse =>
    obtain ⟨success, userId, elo, userName, errorCode, errorMessage⟩ := v
    cases success
    · exact ((writes_string errorMessage).u16 errorCode.value).u8 (flag false)
    · exact (((writes_string userName).u32 elo).u32 userId).u8 (flag true)
  | registerResponse =>
    obtain ⟨success, userId, userName, errorCode, errorMessage⟩ := v
    cases success
    · exact ((writes_string errorMessage).u16 errorCode.value).u8 (flag false)
    · exact ((writes_string userName).u32 userId).u8 (flag true)
  | matchFoundNotification =>
    obtain ⟨roomId, opponentUserId, opponentUserName, opponentElo⟩ := v
    have h := (((writes_true.u32 opponentElo).string opponentUserName).u32 opponentUserId).u64 roomId
    rwa [← if_not_eq_andM] at h
  | matchJoinResponse => exact writes_accepted _ _ _
  | matchCancelResponse => exact writes_accepted _ _ _
  | heroSelectResponse => exact writes_accepted _ _ _
  | matchJoinRequest => exact writes_true
  | matchCancelRequest => exact writes_true
  | battleAttackRequest => exact writes_true
  | heroSelectRequest => exact writes_true.u8 _
  | battleStartNotification => exact ((writes_true.u8 _).u8 _).u64 _
  | battleStateNotification => exact (((writes_true.u8 _).u16 _).u16 _).u64 _
  | battleResultNotification => exact ((writes_true.u32 _).u8 _).u64 _
  | roomClosedNotification => exact (writes_string _).u64 _

/-! ### Decoding -/

/-- `p` consumes the rest of the buffer and accepts exactly the spellings of field lists related
to its value by `P`. -/
def Parses {α : Type} (p : Read α) (P : α → List WireField → Prop) : Prop :=
  ∀ r a r', Yields p r a r' ↔ ∃ fields, P a fields ∧ WireFormat.Fits kMaxStringBytes fields ∧
    Reads r (WireFormat.bytes fields) r' ∧ r'.remaining = []

theorem Parses.congr {α : Type} {p : Read α} {P Q : α → List WireField → Prop}
    (hp : Parses p P) (h : ∀ a fields, P a fields ↔ Q a fields) : Parses p Q := by
  intro r a r'
  rw [hp r a r']
  simp only [h]

/-- The end of every decoder. -/
theorem parses_done {α : Type} (a : α) :
    Parses (do guard ((← eof) = true); return a) fun b fields => a = b ∧ fields = [] := by
  intro r b r'
  simp only [yields_bind, yields_eof, yields_guard, yields_pure]
  constructor
  · rintro ⟨_, _, ⟨rfl, rfl⟩, ⟨⟩, _, ⟨hdone, rfl⟩, rfl, rfl⟩
    exact ⟨[], ⟨rfl, rfl⟩, WireFormat.fits_nil _, reads_nil.mpr rfl, of_decide_eq_true hdone⟩
  · rintro ⟨_, ⟨rfl, rfl⟩, -, hr, hdone⟩
    obtain rfl := reads_nil.mp hr
    exact ⟨_, r, ⟨rfl, rfl⟩, (), r, ⟨decide_eq_true hdone, rfl⟩, rfl, rfl⟩

/-- Reading one field in front of a decoder. -/
theorem Parses.field {α β : Type} {q : Read β} {f : β → Read α}
    {P : β → α → List WireField → Prop} (hf : ∀ v, Parses (f v) (P v)) (mk : β → WireField)
    (hq : ∀ r v r', Yields q r v r' ↔
      (mk v).Fits kMaxStringBytes ∧ Reads r (mk v).bytes r') :
    Parses (do f (← q)) fun a fields => ∃ v rest, fields = mk v :: rest ∧ P v a rest := by
  intro r a r'
  simp only [yields_bind, hq]
  constructor
  · rintro ⟨v, r₁, ⟨hfits, h₁⟩, h₂⟩
    obtain ⟨rest, hP, hrest, hr, hdone⟩ := (hf v r₁ a r').mp h₂
    exact ⟨mk v :: rest, ⟨v, rest, rfl, hP⟩, WireFormat.fits_cons.mpr ⟨hfits, hrest⟩,
      reads_append.mpr ⟨r₁, h₁, hr⟩, hdone⟩
  · rintro ⟨_, ⟨v, rest, rfl, hP⟩, hfits, hr, hdone⟩
    obtain ⟨r₁, h₁, h₂⟩ := reads_append.mp hr
    rw [WireFormat.fits_cons] at hfits
    exact ⟨v, r₁, ⟨hfits.1, h₁⟩, (hf v r₁ a r').mpr ⟨rest, hP, hfits.2, h₂, hdone⟩⟩

section Fields

variable {α : Type}

theorem parses_u8 {f : UInt8 → Read α} {P : UInt8 → α → List WireField → Prop}
    (hf : ∀ v, Parses (f v) (P v)) :
    Parses (do f (← readU8)) fun a fields => ∃ v rest, fields = .u8 v :: rest ∧ P v a rest :=
  Parses.field hf .u8 fun _ _ _ => by simp [WireField.Fits, WireField.bytes]

theorem parses_u16 {f : UInt16 → Read α} {P : UInt16 → α → List WireField → Prop}
    (hf : ∀ v, Parses (f v) (P v)) :
    Parses (do f (← readU16)) fun a fields => ∃ v rest, fields = .u16 v :: rest ∧ P v a rest :=
  Parses.field hf .u16 fun _ _ _ => by simp [WireField.Fits, WireField.bytes]

theorem parses_u32 {f : UInt32 → Read α} {P : UInt32 → α → List WireField → Prop}
    (hf : ∀ v, Parses (f v) (P v)) :
    Parses (do f (← readU32)) fun a fields => ∃ v rest, fields = .u32 v :: rest ∧ P v a rest :=
  Parses.field hf .u32 fun _ _ _ => by simp [WireField.Fits, WireField.bytes]

theorem parses_u64 {f : UInt64 → Read α} {P : UInt64 → α → List WireField → Prop}
    (hf : ∀ v, Parses (f v) (P v)) :
    Parses (do f (← readU64)) fun a fields => ∃ v rest, fields = .u64 v :: rest ∧ P v a rest :=
  Parses.field hf .u64 fun _ _ _ => by simp [WireField.Fits, WireField.bytes]

theorem parses_string {f : StdString → Read α} {P : StdString → α → List WireField → Prop}
    (hf : ∀ v, Parses (f v) (P v)) :
    Parses (do f (← readString)) fun a fields =>
      ∃ v rest, fields = .string v :: rest ∧ P v a rest :=
  Parses.field hf .string fun _ _ _ => by
    simp [WireField.Fits, WireField.bytes, stringBytes]

theorem Parses.guard {c : Prop} [Decidable c] {p : Read α} {P : α → List WireField → Prop}
    (hp : Parses p P) : Parses (do guard c; p) fun a fields => c ∧ P a fields := by
  intro r a r'
  simp only [yields_bind, yields_guard]
  constructor
  · rintro ⟨⟨⟩, _, ⟨hc, rfl⟩, h⟩
    obtain ⟨fields, hP, hrest⟩ := (hp r a r').mp h
    exact ⟨fields, ⟨hc, hP⟩, hrest⟩
  · rintro ⟨fields, ⟨hc, hP⟩, hrest⟩
    exact ⟨(), r, ⟨hc, rfl⟩, (hp r a r').mpr ⟨fields, hP, hrest⟩⟩

theorem Parses.ite {c : Prop} [Decidable c] {p q : Read α} {P Q : α → List WireField → Prop}
    (hp : Parses p P) (hq : Parses q Q) :
    Parses (if c then p else q) fun a fields => if c then P a fields else Q a fields := by
  by_cases h : c
  · simpa [h] using hp
  · simpa [h] using hq

theorem Parses.map {β : Type} {p : Read α} {P : α → List WireField → Prop} (hp : Parses p P)
    (g : α → β) :
    Parses (do return g (← p)) fun b fields => ∃ a, g a = b ∧ P a fields := by
  intro r b r'
  simp only [yields_bind, yields_pure]
  constructor
  · rintro ⟨a, _, h, rfl, rfl⟩
    obtain ⟨fields, hP, hrest⟩ := (hp r a _).mp h
    exact ⟨fields, ⟨a, rfl, hP⟩, hrest⟩
  · rintro ⟨fields, ⟨a, rfl, hP⟩, hrest⟩
    exact ⟨a, r', (hp r a r').mpr ⟨fields, hP, hrest⟩, rfl, rfl⟩

end Fields

theorem parses_credentials :
    Parses decodeCredentials fun (userName, password) fields =>
      fields = [.string userName, .string password] := by
  refine (parses_string fun userName => parses_string fun password =>
    parses_done (userName, password)).congr ?_
  rintro ⟨userName, password⟩ fields
  simp

theorem parses_accepted :
    Parses decodeAccepted fun (accepted, errorCode, errorMessage) fields =>
      (accepted = true → errorCode = .kNone ∧ errorMessage = []) ∧
        fields = acceptedWire accepted errorCode errorMessage := by
  have hreject := parses_u16 fun errorCode => parses_string fun errorMessage =>
    parses_done ((false, ⟨errorCode⟩, errorMessage) : Bool × ErrorCode × StdString)
  have haccept := parses_done ((true, .kNone, []) : Bool × ErrorCode × StdString)
  have hbody := fun accepted : UInt8 =>
    (haccept.ite (c := accepted ≠ 0) hreject).guard (c := ¬ (accepted ≠ 0 ∧ accepted ≠ 1))
  apply (parses_u8 hbody).congr
  rintro ⟨accepted, errorCode, errorMessage⟩ fields
  constructor
  · rintro ⟨v, rest, rfl, hv, h⟩
    -- the flag is 0 or 1, and decides which fields follow
    by_cases h0 : v = 0
    · rw [if_neg (not_not.mpr h0)] at h
      obtain ⟨code, _, rfl, message, _, rfl, h, rfl⟩ := h
      obtain ⟨rfl, rfl, rfl⟩ : false = accepted ∧ (⟨code⟩ : ErrorCode) = errorCode ∧
          message = errorMessage := by simpa using h
      subst h0
      exact ⟨by simp, rfl⟩
    · have h1 : v = 1 := by tauto
      rw [if_pos h0] at h
      obtain ⟨rfl, rfl, rfl⟩ : true = accepted ∧ .kNone = errorCode ∧ [] = errorMessage := by
        simpa using h.1
      rw [h1, h.2]
      exact ⟨fun _ => ⟨rfl, rfl⟩, rfl⟩
  · rintro ⟨hdefault, rfl⟩
    cases accepted
    · exact ⟨0, _, rfl, by simp, errorCode.value, _, rfl, errorMessage, [], rfl, rfl, rfl⟩
    · obtain ⟨rfl, rfl⟩ := hdefault rfl
      exact ⟨1, _, rfl, by simp, rfl, rfl⟩

/-- The flag of a battle notification: 0 or 1, and the value is read off it. -/
theorem strictFlag_iff {v : UInt8} {b : Bool} :
    (¬ (v ≠ 0 ∧ v ≠ 1) ∧ decide (v ≠ 0) = b) ↔ v = flag b := by
  constructor
  · rintro ⟨hv, rfl⟩
    by_cases h0 : v = 0
    · subst h0
      rfl
    · have h1 : v = 1 := by tauto
      subst h1
      rfl
  · rintro rfl
    cases b <;> exact ⟨by decide, by decide⟩

/-- A decoder without a lax flag accepts exactly the wire layouts. -/
theorem parses_strict {t : MessageType} (ht : t.hasLaxFlag = false)
    {P : t.Value → List WireField → Prop} (hp : Parses (t.decode t.initial) P)
    (hP : ∀ v fields, P v fields ↔ t.reset v = v ∧ fields = t.wire v) :
    Parses (t.decode t.initial) fun v fields =>
      t.reset v = v ∧ (fields = t.wire v ∨ t.LaxFlag v fields) := by
  refine hp.congr fun v fields => ?_
  rw [hP]
  simp [LaxFlag, ht]

/-- An answer that is accepted or refused, of whichever request: an accepted one carries no code
and no text, which is what `reset` takes away. -/
theorem parses_answer {t : MessageType} (ht : t.hasLaxFlag = false)
    {mk : Bool × ErrorCode × StdString → t.Value}
    (hp : Parses (t.decode t.initial) fun v fields => ∃ c, mk c = v ∧
      (c.1 = true → c.2.1 = .kNone ∧ c.2.2 = []) ∧ fields = acceptedWire c.1 c.2.1 c.2.2)
    (hmk : ∀ v, ∃ c, mk c = v)
    (hwire : ∀ c, t.wire (mk c) = acceptedWire c.1 c.2.1 c.2.2)
    (hreset : ∀ c, t.reset (mk c) = mk c ↔ (c.1 = true → c.2.1 = .kNone ∧ c.2.2 = [])) :
    Parses (t.decode t.initial) fun v fields =>
      t.reset v = v ∧ (fields = t.wire v ∨ t.LaxFlag v fields) := by
  refine parses_strict ht hp fun v fields => ?_
  constructor
  · rintro ⟨c, rfl, hdefault, rfl⟩
    exact ⟨(hreset c).mpr hdefault, (hwire c).symm⟩
  · obtain ⟨c, rfl⟩ := hmk v
    rintro ⟨hkept, rfl⟩
    exact ⟨c, rfl, (hreset c).mp hkept, hwire c⟩

theorem parses_loginResponse :
    Parses (LoginResponse.decode {}) fun v fields =>
      loginResponse.reset v = v ∧ (fields = loginResponse.wire v ∨ loginResponse.LaxFlag v fields) := by
  have haccept := parses_u32 fun userId => parses_u32 fun elo => parses_string fun userName =>
    parses_done ({ success_ := true, userId_ := userId, elo_ := elo, userName_ := userName } :
      LoginResponse)
  have hreject := parses_u16 fun errorCode => parses_string fun errorMessage =>
    parses_done ({ success_ := false, errorCode_ := ⟨errorCode⟩, errorMessage_ := errorMessage } :
      LoginResponse)
  refine (parses_u8 fun success => haccept.ite (c := success ≠ 0) hreject).congr fun v fields => ?_
  constructor
  · rintro ⟨f, _, rfl, h⟩
    -- 0 reads a refusal, every other flag byte an acceptance
    by_cases h0 : f = 0
    · rw [if_neg (not_not.mpr h0)] at h
      obtain ⟨_, _, rfl, _, _, rfl, rfl, rfl⟩ := h
      subst h0
      exact ⟨rfl, Or.inl rfl⟩
    · rw [if_pos h0] at h
      obtain ⟨_, _, rfl, _, _, rfl, _, _, rfl, rfl, rfl⟩ := h
      refine ⟨rfl, ?_⟩
      by_cases h1 : f = 1
      · subst h1
        exact Or.inl rfl
      · exact Or.inr ⟨rfl, f, _, h0, h1, rfl, rfl⟩
  · obtain ⟨success, userId, elo, userName, errorCode, errorMessage⟩ := v
    rintro ⟨hreset, hfields⟩
    cases success
    · obtain ⟨-, rfl, rfl, rfl, -, -⟩ := LoginResponse.mk.inj hreset
      rcases hfields with rfl | ⟨-, f, _, _, h1, hwire, rfl⟩
      · exact ⟨0, _, rfl, _, _, rfl, _, _, rfl, rfl, rfl⟩
      · -- a refusal has no flag to replace
        simp [wire, flag] at hwire
    · obtain ⟨-, -, -, -, rfl, rfl⟩ := LoginResponse.mk.inj hreset
      rcases hfields with rfl | ⟨-, f, _, h0, h1, hwire, rfl⟩
      · exact ⟨1, _, rfl, _, _, rfl, _, _, rfl, _, _, rfl, rfl, rfl⟩
      · obtain ⟨-, rfl⟩ := List.cons.inj hwire
        refine ⟨f, _, rfl, ?_⟩
        rw [if_pos h0]
        exact ⟨_, _, rfl, _, _, rfl, _, _, rfl, rfl, rfl⟩

theorem parses_registerResponse :
    Parses (RegisterResponse.decode {}) fun v fields =>
      registerResponse.reset v = v ∧
        (fields = registerResponse.wire v ∨ registerResponse.LaxFlag v fields) := by
  have haccept := parses_u32 fun userId => parses_string fun userName =>
    parses_done ({ success_ := true, userId_ := userId, userName_ := userName } : RegisterResponse)
  have hreject := parses_u16 fun errorCode => parses_string fun errorMessage =>
    parses_done ({ success_ := false, errorCode_ := ⟨errorCode⟩, errorMessage_ := errorMessage } :
      RegisterResponse)
  refine (parses_u8 fun success => haccept.ite (c := success ≠ 0) hreject).congr fun v fields => ?_
  constructor
  · rintro ⟨f, _, rfl, h⟩
    -- 0 reads a refusal, every other flag byte an acceptance
    by_cases h0 : f = 0
    · rw [if_neg (not_not.mpr h0)] at h
      obtain ⟨_, _, rfl, _, _, rfl, rfl, rfl⟩ := h
      subst h0
      exact ⟨rfl, Or.inl rfl⟩
    · rw [if_pos h0] at h
      obtain ⟨_, _, rfl, _, _, rfl, rfl, rfl⟩ := h
      refine ⟨rfl, ?_⟩
      by_cases h1 : f = 1
      · subst h1
        exact Or.inl rfl
      · exact Or.inr ⟨rfl, f, _, h0, h1, rfl, rfl⟩
  · obtain ⟨success, userId, userName, errorCode, errorMessage⟩ := v
    rintro ⟨hreset, hfields⟩
    cases success
    · obtain ⟨-, rfl, rfl, -, -⟩ := RegisterResponse.mk.inj hreset
      rcases hfields with rfl | ⟨-, f, _, _, h1, hwire, rfl⟩
      · exact ⟨0, _, rfl, _, _, rfl, _, _, rfl, rfl, rfl⟩
      · -- a refusal has no flag to replace
        simp [wire, flag] at hwire
    · obtain ⟨-, -, -, rfl, rfl⟩ := RegisterResponse.mk.inj hreset
      rcases hfields with rfl | ⟨-, f, _, h0, h1, hwire, rfl⟩
      · exact ⟨1, _, rfl, _, _, rfl, _, _, rfl, rfl, rfl⟩
      · obtain ⟨-, rfl⟩ := List.cons.inj hwire
        refine ⟨f, _, rfl, ?_⟩
        rw [if_pos h0]
        exact ⟨_, _, rfl, _, _, rfl, rfl, rfl⟩

/-- **What the decoders accept**: exactly the wire layouts of the values without stray fields, and
for the login and registration answers also those with a replaced flag byte. -/
theorem parses_decode (t : MessageType) :
    Parses (t.decode t.initial) fun v fields =>
      t.reset v = v ∧ (fields = t.wire v ∨ t.LaxFlag v fields) := by
  cases t with
  | loginRequest =>
    -- without a flag there is one wire form, and nothing to reset
    refine parses_strict rfl (parses_credentials.map fun c => (LoginRequest.mk c.1 c.2)) ?_
    intro v fields
    constructor
    · rintro ⟨c, rfl, rfl⟩
      exact ⟨rfl, rfl⟩
    · rintro ⟨-, rfl⟩
      exact ⟨(v.userName_, v.password_), rfl, rfl⟩
  | registerRequest =>
    refine parses_strict rfl (parses_credentials.map fun c => (RegisterRequest.mk c.1 c.2)) ?_
    intro v fields
    constructor
    · rintro ⟨c, rfl, rfl⟩
      exact ⟨rfl, rfl⟩
    · rintro ⟨-, rfl⟩
      exact ⟨(v.userName_, v.password_), rfl, rfl⟩
  | loginResponse => exact parses_loginResponse
  | registerResponse => exact parses_registerResponse
  | matchFoundNotification =>
    refine parses_strict rfl (parses_u64 fun roomId => parses_u32 fun opponentUserId =>
      parses_string fun opponentUserName => parses_u32 fun opponentElo =>
        parses_done (MatchFoundNotification.mk roomId opponentUserId opponentUserName
          opponentElo)) ?_
    intro v fields
    constructor
    · rintro ⟨_, _, rfl, _, _, rfl, _, _, rfl, _, _, rfl, rfl, rfl⟩
      exact ⟨rfl, rfl⟩
    · rintro ⟨-, rfl⟩
      exact ⟨_, _, rfl, _, _, rfl, _, _, rfl, _, _, rfl, rfl, rfl⟩
  | matchJoinResponse =>
    refine parses_answer rfl
      (parses_accepted.map fun c => MatchJoinResponse.mk c.1 c.2.1 c.2.2)
      (fun v => ⟨(v.accepted_, v.errorCode_, v.errorMessage_), rfl⟩) (fun _ => rfl) ?_
    rintro ⟨accepted, errorCode, errorMessage⟩
    cases accepted <;> simp [reset, eq_comm]
  | matchCancelResponse =>
    refine parses_answer rfl
      (parses_accepted.map fun c => MatchCancelResponse.mk c.1 c.2.1 c.2.2)
      (fun v => ⟨(v.accepted_, v.errorCode_, v.errorMessage_), rfl⟩) (fun _ => rfl) ?_
    rintro ⟨accepted, errorCode, errorMessage⟩
    cases accepted <;> simp [reset, eq_comm]
  | heroSelectResponse =>
    refine parses_answer rfl
      (parses_accepted.map fun c => HeroSelectResponse.mk c.1 c.2.1 c.2.2)
      (fun v => ⟨(v.accepted_, v.errorCode_, v.errorMessage_), rfl⟩) (fun _ => rfl) ?_
    rintro ⟨accepted, errorCode, errorMessage⟩
    cases accepted <;> simp [reset, eq_comm]
  | matchJoinRequest =>
    refine parses_strict rfl (parses_done ({} : MatchJoinRequest)) fun v fields => ?_
    exact ⟨fun h => ⟨rfl, h.2⟩, fun h => ⟨rfl, h.2⟩⟩
  | matchCancelRequest =>
    refine parses_strict rfl (parses_done ({} : MatchCancelRequest)) fun v fields => ?_
    exact ⟨fun h => ⟨rfl, h.2⟩, fun h => ⟨rfl, h.2⟩⟩
  | battleAttackRequest =>
    refine parses_strict rfl (parses_done ({} : BattleAttackRequest)) fun v fields => ?_
    exact ⟨fun h => ⟨rfl, h.2⟩, fun h => ⟨rfl, h.2⟩⟩
  | heroSelectRequest =>
    refine parses_strict rfl (parses_u8 fun heroType =>
      parses_done (HeroSelectRequest.mk ⟨heroType⟩)) ?_
    intro v fields
    constructor
    · rintro ⟨_, _, rfl, rfl, rfl⟩
      exact ⟨rfl, rfl⟩
    · rintro ⟨-, rfl⟩
      exact ⟨_, _, rfl, rfl, rfl⟩
  | battleStartNotification =>
    refine parses_strict rfl (parses_u64 fun roomId => parses_u8 fun playerHero =>
      parses_u8 fun opponentHero =>
        parses_done (BattleStartNotification.mk roomId ⟨playerHero⟩ ⟨opponentHero⟩)) ?_
    intro v fields
    constructor
    · rintro ⟨_, _, rfl, _, _, rfl, _, _, rfl, rfl, rfl⟩
      exact ⟨rfl, rfl⟩
    · rintro ⟨-, rfl⟩
      exact ⟨_, _, rfl, _, _, rfl, _, _, rfl, rfl, rfl⟩
  | battleStateNotification =>
    -- the byte of the turn is checked here, so each value has only one
    have hdone := fun roomId playerHealth opponentHealth (playerTurn : UInt8) =>
      (parses_done (BattleStateNotification.mk roomId playerHealth opponentHealth
        (decide (playerTurn ≠ 0)))).guard (c := ¬ (playerTurn ≠ 0 ∧ playerTurn ≠ 1))
    refine parses_strict rfl (parses_u64 fun roomId => parses_u16 fun playerHealth =>
      parses_u16 fun opponentHealth => parses_u8 fun playerTurn =>
        hdone roomId playerHealth opponentHealth playerTurn) ?_
    intro v fields
    constructor
    · rintro ⟨_, _, rfl, _, _, rfl, _, _, rfl, turn, _, rfl, hturn, rfl, rfl⟩
      obtain ⟨b, rfl⟩ : ∃ b, turn = flag b := ⟨_, strictFlag_iff.mp ⟨hturn, rfl⟩⟩
      cases b <;> exact ⟨rfl, rfl⟩
    · rintro ⟨-, rfl⟩
      obtain ⟨hturn, hvalue⟩ := strictFlag_iff.mpr (rfl : flag v.playerTurn_ = _)
      refine ⟨_, _, rfl, _, _, rfl, _, _, rfl, _, _, rfl, hturn, ?_, rfl⟩
      rw [hvalue]
  | battleResultNotification =>
    have hdone := fun roomId (won : UInt8) playerElo =>
      (parses_done (BattleResultNotification.mk roomId (decide (won ≠ 0)) playerElo)).guard
        (c := ¬ (won ≠ 0 ∧ won ≠ 1))
    refine parses_strict rfl (parses_u64 fun roomId => parses_u8 fun won =>
      parses_u32 fun playerElo => hdone roomId won playerElo) ?_
    intro v fields
    constructor
    · rintro ⟨_, _, rfl, won, _, rfl, _, _, rfl, hwon, rfl, rfl⟩
      obtain ⟨b, rfl⟩ : ∃ b, won = flag b := ⟨_, strictFlag_iff.mp ⟨hwon, rfl⟩⟩
      cases b <;> exact ⟨rfl, rfl⟩
    · rintro ⟨-, rfl⟩
      obtain ⟨hwon, hvalue⟩ := strictFlag_iff.mpr (rfl : flag v.won_ = _)
      refine ⟨_, _, rfl, _, _, rfl, _, _, rfl, hwon, ?_, rfl⟩
      rw [hvalue]
  | roomClosedNotification =>
    refine parses_strict rfl (parses_u64 fun roomId => parses_string fun reason =>
      parses_done (RoomClosedNotification.mk roomId reason)) ?_
    intro v fields
    constructor
    · rintro ⟨_, _, rfl, _, _, rfl, rfl, rfl⟩
      exact ⟨rfl, rfl⟩
    · rintro ⟨-, rfl⟩
      exact ⟨_, _, rfl, _, _, rfl, rfl, rfl⟩

/-! ### Round trip and canonicity -/

theorem encoded_of_fits {t : MessageType} {v : t.Value} (h : t.Fits v) :
    t.encoded v = some (t.bytes v) := by
  have hrun := (writes_encode t v).fits h {}
  unfold encoded
  rw [hrun]
  rfl

theorem encoded_of_not_fits {t : MessageType} {v : t.Value} (h : ¬ t.Fits v) :
    t.encoded v = none := by
  obtain ⟨w', hrun⟩ := (writes_encode t v).not_fits h {}
  unfold encoded
  rw [hrun]
  rfl

theorem encoded_eq_some_iff {t : MessageType} {v : t.Value} {b : List UInt8} :
    t.encoded v = some b ↔ t.Fits v ∧ b = t.bytes v := by
  by_cases h : t.Fits v
  · rw [encoded_of_fits h]
    simp [h, eq_comm]
  · rw [encoded_of_not_fits h]
    simp [h]

/-- `encode` fails exactly on a string of the written branch that is too long. -/
theorem encoded_eq_none_iff {t : MessageType} {v : t.Value} :
    t.encoded v = none ↔ ∃ s ∈ t.strings v, kMaxStringBytes < s.length := by
  have hstrings := WireFormat.fits_iff_strings kMaxStringBytes (t.wire v)
  by_cases h : t.Fits v
  · rw [encoded_of_fits h]
    simpa [strings] using hstrings.mp h
  · rw [encoded_of_not_fits h]
    have hlong := mt hstrings.mpr h
    push Not at hlong
    simpa [strings] using hlong

/-- What `decode` accepts from a reader, read off `parses_decode`. -/
theorem decode_eq_some_iff {t : MessageType} {r : BinaryReader} {v : t.Value} :
    (t.decode t.initial r).1 = some v ↔ t.reset v = v ∧ ∃ fields,
      (fields = t.wire v ∨ t.LaxFlag v fields) ∧ WireFormat.Fits kMaxStringBytes fields ∧
        r.remaining = WireFormat.bytes fields := by
  constructor
  · intro h
    obtain ⟨fields, ⟨hreset, hfields⟩, hfits, hr, hdone⟩ :=
      (parses_decode t r v (t.decode t.initial r).2).mp (Prod.ext h rfl)
    have hbytes := hr.bytes
    rw [hdone, List.append_nil] at hbytes
    exact ⟨hreset, fields, hfields, hfits, hbytes⟩
  · rintro ⟨hreset, fields, hfields, hfits, hb⟩
    obtain ⟨r', hread, hdone⟩ : ∃ r', r.Reads r.remaining r' ∧ r'.remaining = [] := by
      have hall : r.has r.remaining.length = true := by simp [has_iff]
      have hread := reads_advance r r.remaining.length hall
      rw [List.take_length] at hread
      refine ⟨_, hread, ?_⟩
      have hbytes := hread.bytes
      simpa using hbytes
    rw [hb] at hread
    exact congrArg Prod.fst
      ((parses_decode t _ v _).mpr ⟨fields, ⟨hreset, hfields⟩, hfits, hread, hdone⟩)

theorem decoded_eq_some_iff {t : MessageType} {b : List UInt8} {v : t.Value} :
    t.decoded b = some v ↔ t.reset v = v ∧ ∃ fields,
      (fields = t.wire v ∨ t.LaxFlag v fields) ∧ WireFormat.Fits kMaxStringBytes fields ∧
        b = WireFormat.bytes fields := by
  have hiff := decode_eq_some_iff (t := t) (r := ofBytes b) (v := v)
  rwa [remaining_ofBytes] at hiff

/-- A decoder sees nothing of its reader but the bytes that remain. -/
theorem decode_eq_decoded (t : MessageType) (r : BinaryReader) :
    (t.decode t.initial r).1 = t.decoded r.remaining := by
  apply Option.ext
  intro v
  rw [decode_eq_some_iff, decoded_eq_some_iff]

theorem reset_reset (t : MessageType) (v : t.Value) : t.reset (t.reset v) = t.reset v := by
  cases t <;> try rfl
  case loginResponse => cases h : LoginResponse.success_ v <;> simp [reset, h]
  case registerResponse => cases h : RegisterResponse.success_ v <;> simp [reset, h]
  case matchJoinResponse =>
    cases h : MatchJoinResponse.accepted_ v
    · simp [reset, h]
    · simp [reset, h]
  case matchCancelResponse =>
    cases h : MatchCancelResponse.accepted_ v
    · simp [reset, h]
    · simp [reset, h]
  case heroSelectResponse =>
    cases h : HeroSelectResponse.accepted_ v
    · simp [reset, h]
    · simp [reset, h]

/-- The encoder does not look at the fields that `reset` clears. -/
theorem wire_reset (t : MessageType) (v : t.Value) : t.wire (t.reset v) = t.wire v := by
  cases t <;> try rfl
  case loginResponse => cases h : LoginResponse.success_ v <;> simp [wire, reset, h]
  case registerResponse => cases h : RegisterResponse.success_ v <;> simp [wire, reset, h]
  case matchJoinResponse =>
    cases h : MatchJoinResponse.accepted_ v <;> simp [wire, reset, h, acceptedWire]
  case matchCancelResponse =>
    cases h : MatchCancelResponse.accepted_ v <;> simp [wire, reset, h, acceptedWire]
  case heroSelectResponse =>
    cases h : HeroSelectResponse.accepted_ v <;> simp [wire, reset, h, acceptedWire]

theorem decoded_bytes {t : MessageType} {v : t.Value} (h : t.Fits v) :
    t.decoded (t.bytes v) = some (t.reset v) := by
  rw [decoded_eq_some_iff, wire_reset]
  exact ⟨reset_reset t v, t.wire v, Or.inl rfl, h, rfl⟩

/-- Equal bytes stand for values that agree on what is written. -/
theorem reset_eq_of_bytes_eq {t : MessageType} {v v' : t.Value} (h : t.Fits v) (h' : t.Fits v')
    (heq : t.bytes v = t.bytes v') : t.reset v = t.reset v' := by
  have hv := decoded_bytes h
  rw [heq, decoded_bytes h'] at hv
  exact (Option.some.inj hv).symm

/-- What `reset` keeps can be told from the bytes. -/
theorem kept_of_bytes_eq {t : MessageType} {v v' : t.Value} (h : t.Fits v) (h' : t.Fits v')
    (heq : t.bytes v = t.bytes v') {α : Type} {f : t.Value → α} (hf : ∀ v, f (t.reset v) = f v) :
    f v = f v' := by
  rw [← hf v, ← hf v', reset_eq_of_bytes_eq h h' heq]

/-- A message is never too long for a frame. -/
theorem length_bytes_le {t : MessageType} {v : t.Value} (h : t.Fits v) :
    (t.bytes v).length ≤ MAX_FRAME - HEADER_SIZE := by
  have hmax : MAX_FRAME - HEADER_SIZE = 65530 := rfl
  have hfield : ∀ f : WireField, f.Fits kMaxStringBytes → f.bytes.length ≤ 1028 := by
    intro f hf
    cases f <;> simp [WireField.bytes, WireField.Fits, kMaxStringBytes] at hf ⊢
    omega
  have hfields : ∀ l : List WireField, WireFormat.Fits kMaxStringBytes l →
      (WireFormat.bytes l).length ≤ l.length * 1028 := by
    intro l hl
    induction l with
    | nil => simp
    | cons f l ih =>
      rw [WireFormat.fits_cons] at hl
      have := hfield f hl.1
      have := ih hl.2
      simp only [WireFormat.bytes_cons, List.length_append, List.length_cons]
      omega
  have hwire : (t.wire v).length ≤ 4 := by
    cases t <;> simp only [wire, acceptedWire] <;> (try split) <;> simp
  have := hfields _ h
  rw [hmax]
  exact this.trans (by omega)

theorem map_kind_wire_of_append_eq {t : MessageType} {v v' : t.Value} {q q' : List UInt8}
    (h : t.bytes v ++ q = t.bytes v' ++ q') :
    (t.wire v).map WireField.kind = (t.wire v').map WireField.kind := by
  cases t <;> try rfl
  case loginResponse =>
    cases hv : LoginResponse.success_ v <;> cases hv' : LoginResponse.success_ v' <;>
      simp_all [bytes, wire, flag, WireField.bytes, WireField.kind]
  case registerResponse =>
    cases hv : RegisterResponse.success_ v <;> cases hv' : RegisterResponse.success_ v' <;>
      simp_all [bytes, wire, flag, WireField.bytes, WireField.kind]
  case matchJoinResponse =>
    cases hv : MatchJoinResponse.accepted_ v <;> cases hv' : MatchJoinResponse.accepted_ v' <;>
      simp_all [bytes, wire, acceptedWire, flag, WireField.bytes, WireField.kind]
  case matchCancelResponse =>
    cases hv : MatchCancelResponse.accepted_ v <;> cases hv' : MatchCancelResponse.accepted_ v' <;>
      simp_all [bytes, wire, acceptedWire, flag, WireField.bytes, WireField.kind]
  case heroSelectResponse =>
    cases hv : HeroSelectResponse.accepted_ v <;> cases hv' : HeroSelectResponse.accepted_ v' <;>
      simp_all [bytes, wire, acceptedWire, flag, WireField.bytes, WireField.kind]

/-- The spellings of one message type are prefix-free. -/
theorem wire_append_inj {t : MessageType} {v v' : t.Value} (hv : t.Fits v) (hv' : t.Fits v')
    {q q' : List UInt8} (h : t.bytes v ++ q = t.bytes v' ++ q') :
    t.wire v = t.wire v' ∧ q = q' :=
  WireFormat.bytes_append_inj (by decide) (map_kind_wire_of_append_eq h) hv hv' h

/-- A spelling with a replaced flag byte differs from every regular one in its first byte. -/
theorem laxFlag_append_ne {t : MessageType} {v v' : t.Value} {fields : List WireField}
    (hlax : t.LaxFlag v' fields) (q q' : List UInt8) :
    WireFormat.bytes fields ++ q ≠ t.bytes v ++ q' := by
  obtain ⟨ht, f, rest, h0, h1, -, rfl⟩ := hlax
  intro h
  cases t <;> simp only [hasLaxFlag, Bool.false_eq_true] at ht
  case loginResponse =>
    cases hv : LoginResponse.success_ v <;>
      simp_all [bytes, wire, flag, WireField.bytes]
  case registerResponse =>
    cases hv : RegisterResponse.success_ v <;>
      simp_all [bytes, wire, flag, WireField.bytes]

/-- A byte string that is comparable with a spelling and decodes is that spelling. -/
theorem eq_of_decoded_of_append_eq {t : MessageType} {v v' : t.Value} {b : List UInt8}
    (hv : t.Fits v) (hb : t.decoded b = some v') (q q' : List UInt8)
    (h : b ++ q = t.bytes v ++ q') : b = t.bytes v := by
  obtain ⟨-, fields, rfl | hlax, hfits, rfl⟩ := decoded_eq_some_iff.mp hb
  · rw [bytes, (wire_append_inj hfits hv h).1]
  · exact absurd h (laxFlag_append_ne hlax q q')

/-- **Round trip and exactness of the codec.**  `encode` fails exactly on a too long string of the
branch it writes.  Otherwise `decode` into a default-constructed target accepts the written bytes,
consumes all of them and yields the value with the fields of the other branch reset, and it
accepts no proper prefix and no proper extension of them. -/
theorem decode_encode (t : MessageType) (v : t.Value) :
    (t.encoded v = none ↔ ∃ s ∈ t.strings v, kMaxStringBytes < s.length) ∧
    ∀ b, t.encoded v = some b →
      (∃ r', t.decode t.initial (ofBytes b) = (some (t.reset v), r') ∧ r'.pos_ = b.length) ∧
      (∀ p, p <+: b → p ≠ b → t.decoded p = none) ∧
      (∀ e, b <+: e → e ≠ b → t.decoded e = none) := by
  refine ⟨encoded_eq_none_iff, fun b hb => ?_⟩
  obtain ⟨hfits, rfl⟩ := encoded_eq_some_iff.mp hb
  refine ⟨?_, ?_, ?_⟩
  · have hreset := decoded_bytes hfits
    have hrun : t.decode t.initial (ofBytes (t.bytes v)) =
        (some (t.reset v), (t.decode t.initial (ofBytes (t.bytes v))).2) := Prod.ext hreset rfl
    refine ⟨_, hrun, ?_⟩
    obtain ⟨fields, -, -, hr, hdone⟩ := (parses_decode t _ _ _).mp hrun
    have hbytes := hr.bytes
    rw [hdone, remaining_ofBytes, List.append_nil] at hbytes
    rw [hr.pos, ← hbytes]
    simp [ofBytes, ofPointer]
  · rintro p ⟨q, hpq⟩ hne
    by_contra hsome
    obtain ⟨v', hv'⟩ := Option.ne_none_iff_exists'.mp hsome
    exact hne (eq_of_decoded_of_append_eq hfits hv' q [] (by rw [hpq, List.append_nil]))
  · rintro e ⟨q, rfl⟩ hne
    by_contra hsome
    obtain ⟨v', hv'⟩ := Option.ne_none_iff_exists'.mp hsome
    exact hne (eq_of_decoded_of_append_eq hfits hv' [] q (by rw [List.append_nil]))

/-- The byte strings that spell a successful login or registration answer, but with a flag byte
other than 1. -/
def LaxSuccess : MessageType → List UInt8 → Prop
  | loginResponse, b => ∃ (f : UInt8) (userId elo : UInt32) (userName : StdString),
      f ≠ 0 ∧ f ≠ 1 ∧ userName.length ≤ kMaxStringBytes ∧
        b = f :: WireFormat.bytes [.u32 userId, .u32 elo, .string userName]
  | registerResponse, b => ∃ (f : UInt8) (userId : UInt32) (userName : StdString),
      f ≠ 0 ∧ f ≠ 1 ∧ userName.length ≤ kMaxStringBytes ∧
        b = f :: WireFormat.bytes [.u32 userId, .string userName]
  | _, _ => False

/-- The bytes with a replaced flag are those of the lax layouts. -/
theorem laxSuccess_iff {t : MessageType} {b : List UInt8} :
    LaxSuccess t b ↔ ∃ v fields, t.reset v = v ∧ t.LaxFlag v fields ∧
      WireFormat.Fits kMaxStringBytes fields ∧ b = WireFormat.bytes fields := by
  constructor
  · intro h
    -- only the login and the registration answer have such bytes
    cases t <;> simp only [LaxSuccess] at h
    case loginResponse =>
      obtain ⟨f, userId, elo, userName, h0, h1, hlen, rfl⟩ := h
      exact ⟨({ success_ := true, userId_ := userId, elo_ := elo, userName_ := userName } :
        LoginResponse), .u8 f :: _, rfl, ⟨rfl, f, _, h0, h1, rfl, rfl⟩,
        by simp [WireField.Fits, hlen], rfl⟩
    case registerResponse =>
      obtain ⟨f, userId, userName, h0, h1, hlen, rfl⟩ := h
      exact ⟨({ success_ := true, userId_ := userId, userName_ := userName } :
        RegisterResponse), .u8 f :: _, rfl, ⟨rfl, f, _, h0, h1, rfl, rfl⟩,
        by simp [WireField.Fits, hlen], rfl⟩
  · rintro ⟨v, _, -, ⟨ht, f, rest, h0, h1, hwire, rfl⟩, hfits, rfl⟩
    cases t <;> simp only [hasLaxFlag, Bool.false_eq_true] at ht
    case loginResponse =>
      cases hv : LoginResponse.success_ v
      · simp [wire, hv, flag] at hwire
      · simp only [wire, hv, if_true, List.cons.injEq] at hwire
        obtain ⟨-, rfl⟩ := hwire
        exact ⟨f, _, _, _, h0, h1, by simpa [WireField.Fits] using hfits, rfl⟩
    case registerResponse =>
      cases hv : RegisterResponse.success_ v
      · simp [wire, hv, flag] at hwire
      · simp only [wire, hv, if_true, List.cons.injEq] at hwire
        obtain ⟨-, rfl⟩ := hwire
        exact ⟨f, _, _, h0, h1, by simpa [WireField.Fits] using hfits, rfl⟩

/-- A regular spelling encodes back to itself. -/
theorem encoded_of_decoded {t : MessageType} {b : List UInt8} (hb : ¬ LaxSuccess t b) {v : t.Value}
    (hv : t.decoded b = some v) : t.encoded v = some b := by
  obtain ⟨hreset, fields, rfl | hlax, hfits, hbytes⟩ := decoded_eq_some_iff.mp hv
  · exact encoded_eq_some_iff.mpr ⟨hfits, hbytes⟩
  · exact absurd (laxSuccess_iff.mpr ⟨v, fields, hreset, hlax, hfits, hbytes⟩) hb

/-- **Canonicity of strict decoding.**  An accepted byte string encodes back to itself unless it
spells a success of a login or registration answer with a flag byte other than 1; and away from
these no two byte strings decode to one value. -/
theorem decode_canonical_iff (t : MessageType) (b : List UInt8) :
    ((∀ v, t.decoded b = some v → t.encoded v = some b) ↔ ¬ LaxSuccess t b) ∧
    (¬ LaxSuccess t b → ∀ b' v, ¬ LaxSuccess t b' →
      t.decoded b = some v → t.decoded b' = some v → b = b') := by
  refine ⟨⟨?_, fun hb v => encoded_of_decoded hb⟩, ?_⟩
  · intro h hlax
    obtain ⟨v, fields, hreset, hflag, hfits, rfl⟩ := laxSuccess_iff.mp hlax
    have henc := h v (decoded_eq_some_iff.mpr ⟨hreset, fields, Or.inr hflag, hfits, rfl⟩)
    obtain ⟨-, hbytes⟩ := encoded_eq_some_iff.mp henc
    exact laxFlag_append_ne hflag [] [] (by rw [hbytes])
  · intro hb b' v hb' hv hv'
    have henc := encoded_of_decoded hb hv
    rw [encoded_of_decoded hb' hv', Option.some.injEq] at henc
    exact henc.symm

/-- A login answer whose flag byte is 2 decodes as a success, which encodes with flag byte 1. -/
theorem decode_login_flag_two :
    let b : List UInt8 := [2, 7, 0, 0, 0, 232, 3, 0, 0, 1, 0, 0, 0, 97]
    let v : LoginResponse := { success_ := true, userId_ := 7, elo_ := 1000, userName_ := [97] }
    loginResponse.decoded b = some v ∧ loginResponse.encoded v ≠ some b ∧
      loginResponse.decoded (1 :: b.tail) = some v := by
  refine ⟨rfl, fun h => ?_, rfl⟩
  exact absurd (encoded_eq_some_iff.mp h).2 (by decide)

end ArenaGame.GameMessages
