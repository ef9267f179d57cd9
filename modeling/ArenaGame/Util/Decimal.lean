import Mathlib.Algebra.Order.Group.Nat
import Mathlib.Data.List.Basic
import Mathlib.Data.UInt

/-!
# Decimal numbers as bytes

`Decimal.toBytes n` is the decimal spelling of `n` and `Decimal.ofBytes` the number that a string
of digits spells.
-/

namespace Decimal

def isDigit (b : UInt8) : Bool := 48 ≤ b && b ≤ 57

def digit (d : ℕ) : UInt8 := UInt8.ofNat (48 + d)

/-- The decimal spelling of a number, without leading zeros. -/
def toBytes (n : ℕ) : List UInt8 :=
  if n < 10 then [digit n] else toBytes (n / 10) ++ [digit (n % 10)]

/-- The number that a string of digits spells. -/
def ofBytes (bs : List UInt8) : ℕ := bs.foldl (fun value b => 10 * value + (b.toNat - 48)) 0

theorem toNat_digit {d : ℕ} (h : d < 10) : (digit d).toNat = 48 + d := by
  rw [digit, UInt8.toNat_ofNat']
  omega

theorem isDigit_digit {d : ℕ} (h : d < 10) : isDigit (digit d) = true := by
  have hd := toNat_digit h
  simp only [isDigit, Bool.and_eq_true, decide_eq_true_eq, UInt8.le_iff_toNat_le, hd]
  exact ⟨Nat.le_add_right _ _, by show 48 + d ≤ 57; omega⟩

theorem isDigit_of_mem_toBytes {n : ℕ} : ∀ b ∈ toBytes n, isDigit b = true := by
  induction n using Nat.strong_induction_on with
  | _ n ih =>
    rw [toBytes]
    split
    · rename_i h
      simpa using isDigit_digit h
    · rename_i h
      intro b hb
      rcases List.mem_append.mp hb with hb | hb
      · exact ih (n / 10) (by omega) b hb
      · rw [List.mem_singleton.mp hb]
        exact isDigit_digit (by omega)

theorem toBytes_ne_nil (n : ℕ) : toBytes n ≠ [] := by
  rw [toBytes]
  split <;> simp

theorem ofBytes_append_singleton (bs : List UInt8) (b : UInt8) :
    ofBytes (bs ++ [b]) = 10 * ofBytes bs + (b.toNat - 48) := by
  simp [ofBytes]

theorem ofBytes_toBytes (n : ℕ) : ofBytes (toBytes n) = n := by
  induction n using Nat.strong_induction_on with
  | _ n ih =>
    rw [toBytes]
    split
    · rename_i h
      simp [ofBytes, toNat_digit h]
    · rename_i h
      rw [ofBytes_append_singleton, ih (n / 10) (by omega), toNat_digit (by omega)]
      omega

end Decimal
