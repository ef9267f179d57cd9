import ArenaGame.Util.LittleEndian

/-!
# Field lists on the wire

A message body is a list of `WireField`s: little-endian integers of 1, 2, 4 and 8 bytes and byte
strings behind a 4-byte length.  `WireField.bytes` spells one field, `WireFormat.bytes` a list.

Field lists of one shape are prefix-free (`WireFormat.bytes_append_inj`): if a spelling followed
by anything equals another spelling followed by anything, the two lists are the same.  Strings
must be short enough for their length field (`WireFormat.Fits`).
-/

open LittleEndian

inductive WireField
  | u8 (value : UInt8)
  | u16 (value : UInt16)
  | u32 (value : UInt32)
  | u64 (value : UInt64)
  | string (value : List UInt8)

namespace WireField

/-- The shape of a field: its layout without its content. -/
inductive Kind
  | u8 | u16 | u32 | u64 | string

def kind : WireField → Kind
  | u8 _ => .u8
  | u16 _ => .u16
  | u32 _ => .u32
  | u64 _ => .u64
  | string _ => .string

def bytes : WireField → List UInt8
  | u8 value => [value]
  | u16 value => toBytes 2 value.toNat
  | u32 value => toBytes 4 value.toNat
  | u64 value => toBytes 8 value.toNat
  | string value => toBytes 4 value.length ++ value

/-- The strings of at most `limit` bytes fit; integers always do. -/
def Fits (limit : ℕ) : WireField → Prop
  | string value => value.length ≤ limit
  | _ => True

end WireField

namespace WireFormat

def bytes (fields : List WireField) : List UInt8 := fields.flatMap WireField.bytes

/-- The string fields of a message body. -/
def strings (fields : List WireField) : List (List UInt8) :=
  fields.filterMap fun
    | .string value => some value
    | _ => none

def Fits (limit : ℕ) (fields : List WireField) : Prop := ∀ f ∈ fields, f.Fits limit

@[simp] theorem bytes_nil : bytes [] = [] := rfl

@[simp] theorem bytes_cons (f : WireField) (fs : List WireField) :
    bytes (f :: fs) = f.bytes ++ bytes fs := rfl

@[simp] theorem fits_nil (limit : ℕ) : Fits limit [] := fun _ h => by simp at h

@[simp] theorem fits_cons {limit : ℕ} {f : WireField} {fs : List WireField} :
    Fits limit (f :: fs) ↔ f.Fits limit ∧ Fits limit fs := by
  simp [Fits]

/-- A body fits exactly when none of its strings is longer than the limit. -/
theorem fits_iff_strings (limit : ℕ) (fields : List WireField) :
    Fits limit fields ↔ ∀ s ∈ strings fields, s.length ≤ limit := by
  induction fields with
  | nil => simp [strings]
  | cons f fs ih =>
    rw [fits_cons, ih]
    cases f <;> simp [strings, WireField.Fits]

/-! ### Spellings are prefix-free -/

theorem ofBytes_toBytes_append_inj {n v v' : ℕ} {q q' : List UInt8} (hv : v < 256 ^ n)
    (hv' : v' < 256 ^ n) (h : toBytes n v ++ q = toBytes n v' ++ q') : v = v' ∧ q = q' := by
  obtain ⟨hbytes, hq⟩ := List.append_inj h (by simp)
  refine ⟨?_, hq⟩
  rw [← ofBytes_toBytes hv, ← ofBytes_toBytes hv', hbytes]

theorem field_append_inj {limit : ℕ} (hlimit : limit < 256 ^ 4) {f f' : WireField}
    (hkind : f.kind = f'.kind) (hf : f.Fits limit) (hf' : f'.Fits limit) {q q' : List UInt8}
    (h : f.bytes ++ q = f'.bytes ++ q') : f = f' ∧ q = q' := by
  cases f <;> cases f' <;> simp only [WireField.kind, reduceCtorEq] at hkind
  case u8 v v' =>
    simpa [WireField.bytes] using h
  case u16 v v' =>
    obtain ⟨hv, hq⟩ := ofBytes_toBytes_append_inj v.toNat_lt v'.toNat_lt h
    exact ⟨by rw [UInt16.toNat_inj.mp hv], hq⟩
  case u32 v v' =>
    obtain ⟨hv, hq⟩ := ofBytes_toBytes_append_inj v.toNat_lt v'.toNat_lt h
    exact ⟨by rw [UInt32.toNat_inj.mp hv], hq⟩
  case u64 v v' =>
    obtain ⟨hv, hq⟩ := ofBytes_toBytes_append_inj v.toNat_lt v'.toNat_lt h
    exact ⟨by rw [UInt64.toNat_inj.mp hv], hq⟩
  case string s s' =>
    simp only [WireField.Fits] at hf hf'
    simp only [WireField.bytes, List.append_assoc] at h
    obtain ⟨hlen, hrest⟩ := ofBytes_toBytes_append_inj (lt_of_le_of_lt hf hlimit)
      (lt_of_le_of_lt hf' hlimit) h
    obtain ⟨hs, hq⟩ := List.append_inj hrest hlen
    exact ⟨by rw [hs], hq⟩

/-- **Prefix-freeness** of the spellings of one shape. -/
theorem bytes_append_inj {limit : ℕ} (hlimit : limit < 256 ^ 4) :
    ∀ {fs fs' : List WireField}, fs.map WireField.kind = fs'.map WireField.kind →
      Fits limit fs → Fits limit fs' → ∀ {q q' : List UInt8},
      bytes fs ++ q = bytes fs' ++ q' → fs = fs' ∧ q = q' := by
  intro fs
  induction fs with
  | nil =>
    intro fs' hkind _ _ q q' h
    have hnil : fs' = [] := by simpa using hkind.symm
    subst hnil
    exact ⟨rfl, by simpa using h⟩
  | cons f fs ih =>
    intro fs' hkind hfits hfits' q q' h
    cases fs' with
    | nil => simp at hkind
    | cons f' fs' =>
      simp only [List.map_cons, List.cons.injEq] at hkind
      rw [fits_cons] at hfits hfits'
      simp only [bytes_cons, List.append_assoc] at h
      obtain ⟨hf, hrest⟩ := field_append_inj hlimit hkind.1 hfits.1 hfits'.1 h
      obtain ⟨hfs, hq⟩ := ih hkind.2 hfits.2 hfits'.2 hrest
      exact ⟨by rw [hf, hfs], hq⟩

end WireFormat
