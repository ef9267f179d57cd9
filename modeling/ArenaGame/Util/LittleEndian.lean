import Mathlib.Data.Nat.Digits.Lemmas
import Mathlib.Data.Nat.Bitwise

/-!
# Fixed-width little-endian byte strings

`LittleEndian.ofBytes` reads a byte string as a number, least significant byte first, and
`LittleEndian.toBytes n` writes a number as exactly `n` bytes.  They are inverse to each other on
numbers below `256 ^ n` (`ofBytes_toBytes`) and on byte strings of length `n` (`toBytes_ofBytes`).

`toNat_foldl_or_shiftLeft` and `map_shiftRight_eq_toBytes` connect them with the usual loops over
a machine word: or-ing shifted bytes together, and shifting a word right to cut bytes off.
-/

namespace LittleEndian

/-- The number that `bs` spells, least significant byte first. -/
def ofBytes (bs : List UInt8) : ℕ :=
  Nat.ofDigits 256 (bs.map UInt8.toNat)

/-- The `n` low bytes of `v`, least significant byte first. -/
def toBytes (n v : ℕ) : List UInt8 :=
  (List.range n).map fun i => UInt8.ofNat (v / 256 ^ i)

@[simp] theorem ofBytes_nil : ofBytes [] = 0 := rfl

@[simp] theorem ofBytes_cons (b : UInt8) (bs : List UInt8) :
    ofBytes (b :: bs) = b.toNat + 256 * ofBytes bs := by
  simp [ofBytes, Nat.ofDigits_cons]

theorem ofBytes_append (as bs : List UInt8) :
    ofBytes (as ++ bs) = ofBytes as + 256 ^ as.length * ofBytes bs := by
  simp [ofBytes, Nat.ofDigits_append]

theorem ofBytes_lt (bs : List UInt8) : ofBytes bs < 256 ^ bs.length := by
  have h := Nat.ofDigits_lt_base_pow_length (b := 256) (l := bs.map UInt8.toNat) (by norm_num)
    (by intro d hd; obtain ⟨b, -, rfl⟩ := List.mem_map.mp hd; exact b.toNat_lt)
  simpa [ofBytes] using h

@[simp] theorem length_toBytes (n v : ℕ) : (toBytes n v).length = n := by
  simp [toBytes]

theorem toBytes_succ (n v : ℕ) : toBytes (n + 1) v = UInt8.ofNat v :: toBytes n (v / 256) := by
  simp [toBytes, List.range_succ_eq_map, Function.comp_def, pow_succ', Nat.div_div_eq_div_mul]

theorem ofBytes_toBytes {n v : ℕ} (h : v < 256 ^ n) : ofBytes (toBytes n v) = v := by
  induction n generalizing v with
  | zero =>
    have hv : v = 0 := by simpa using h
    subst hv
    rfl
  | succ n ih =>
    have hdiv : v / 256 < 256 ^ n := by
      rw [pow_succ] at h
      exact Nat.div_lt_of_lt_mul (by omega)
    rw [toBytes_succ, ofBytes_cons, ih hdiv, UInt8.toNat_ofNat']
    omega

theorem toBytes_ofBytes (bs : List UInt8) : toBytes bs.length (ofBytes bs) = bs := by
  induction bs with
  | nil => rfl
  | cons b bs ih =>
    have hb : b.toNat < 256 := b.toNat_lt
    have hdiv : (b.toNat + 256 * ofBytes bs) / 256 = ofBytes bs := by omega
    rw [List.length_cons, toBytes_succ, ofBytes_cons, hdiv, ih]
    congr 1
    apply UInt8.toNat_inj.mp
    rw [UInt8.toNat_ofNat']
    omega

theorem toBytes_ofBytes_of_length {n : ℕ} {bs : List UInt8} (h : bs.length = n) :
    toBytes n (ofBytes bs) = bs := by
  rw [← h, toBytes_ofBytes]

/-! ### The loops over a machine word -/

/-- One round of the reading loop: the byte at position `i` lies above everything read before. -/
private theorem or_shiftLeft_eq_add {acc i b : ℕ} (hacc : acc < 256 ^ i) :
    acc ||| b <<< (i * 8) = acc + 256 ^ i * b := by
  have hpow : (256 : ℕ) ^ i = 2 ^ (i * 8) := by
    rw [show (256 : ℕ) = 2 ^ 8 by norm_num, ← pow_mul, Nat.mul_comm]
  rw [hpow] at hacc ⊢
  rw [Nat.or_comm, ← Nat.shiftLeft_add_eq_or_of_lt hacc, Nat.shiftLeft_eq]
  ring

/-- Or-ing `n` bytes into a word, each shifted to its place, spells the little-endian number. -/
theorem toNat_foldl_or_shiftLeft (w : ℕ) (f : ℕ → UInt8) :
    ∀ n, n * 8 ≤ w →
      ((List.range n).foldl
          (fun value i => value ||| (f i).toBitVec.setWidth w <<< (i * 8)) (0#w)).toNat
        = ofBytes ((List.range n).map f) := by
  intro n
  induction n with
  | zero => simp
  | succ n ih =>
    intro hw
    have hlt := ofBytes_lt ((List.range n).map f)
    rw [List.length_map, List.length_range] at hlt
    have hb : (f n).toNat < 256 := (f n).toNat_lt
    have hshift : ((f n).toBitVec.setWidth w <<< (n * 8)).toNat = (f n).toNat <<< (n * 8) := by
      have hpow : 2 ^ (n * 8 + 8) ≤ 2 ^ w := Nat.pow_le_pow_right (by norm_num) (by omega)
      have h8 : (f n).toNat * 2 ^ (n * 8) < 2 ^ (n * 8 + 8) := by
        rw [pow_add, Nat.mul_comm]
        exact Nat.mul_lt_mul_of_pos_left (by simpa using hb) (Nat.two_pow_pos _)
      have hw8 : (f n).toNat < 2 ^ w :=
        lt_of_lt_of_le (by simpa using hb) (Nat.pow_le_pow_right (by norm_num) (by omega : 8 ≤ w))
      rw [BitVec.toNat_shiftLeft, BitVec.toNat_setWidth, UInt8.toNat_toBitVec,
        Nat.mod_eq_of_lt hw8, Nat.shiftLeft_eq]
      exact Nat.mod_eq_of_lt (by omega)
    rw [List.range_succ, List.foldl_append, List.map_append, ofBytes_append, List.foldl_cons,
      List.foldl_nil, BitVec.toNat_or, ih (by omega), hshift, or_shiftLeft_eq_add hlt]
    simp

/-- Cutting `n` bytes off a word by shifting it right spells it in little-endian order. -/
theorem map_shiftRight_eq_toBytes {w : ℕ} (n : ℕ) (v : BitVec w) :
    (List.range n).map (fun i => UInt8.ofBitVec ((v >>> (i * 8)).setWidth 8))
      = toBytes n v.toNat := by
  apply List.map_congr_left
  intro i _
  apply UInt8.toNat_inj.mp
  rw [UInt8.toNat_ofBitVec, BitVec.toNat_setWidth, BitVec.toNat_ushiftRight, UInt8.toNat_ofNat',
    Nat.shiftRight_eq_div_pow, show (256 : ℕ) ^ i = 2 ^ (i * 8) by
      rw [show (256 : ℕ) = 2 ^ 8 by norm_num, ← pow_mul, Nat.mul_comm]]

end LittleEndian
