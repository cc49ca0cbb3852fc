import Mathlib.Algebra.Group.Nat.Defs
import Mathlib.Data.Nat.Bitwise

/-!
Blocks of the numbers of a fixed width: all that agree with a base in a number
of leading bits. Which numbers are in a block is read off a quotient by a power
of two, and a mask of leading bits keeps such a quotient.
-/

namespace Cirrusync

/-- The block `base/length` of the numbers of `w` bits. -/
structure AddressBlock (w : Nat) where
  base : BitVec w
  length : Nat
  fits : length ≤ w

namespace AddressBlock

variable {w : Nat}

/-- The leading bits of the number are those of the base. -/
def Contains (block : AddressBlock w) (address : BitVec w) : Prop :=
  ∀ i < block.length, address.getMsbD i = block.base.getMsbD i

instance (block : AddressBlock w) (address : BitVec w) : Decidable (block.Contains address) :=
  inferInstanceAs (Decidable (∀ i < block.length, address.getMsbD i = block.base.getMsbD i))

/-- A leading bit as a bit of the numeric value. -/
theorem getMsbD_eq_testBit (address : BitVec w) {i j : Nat} (h : i + j + 1 = w) :
    address.getMsbD i = address.toNat.testBit j := by
  have hbound : i < w := by omega
  have hindex : w - 1 - i = j := by omega
  rw [BitVec.getMsbD, hindex, BitVec.getLsbD]
  simp [hbound]

/-- A number is in a block when its value, less the trailing bits, is that of the base. -/
theorem contains_iff_div (block : AddressBlock w) (address : BitVec w) :
    block.Contains address ↔
      address.toNat / 2 ^ (w - block.length) = block.base.toNat / 2 ^ (w - block.length) := by
  have hfits := block.fits
  constructor
  · intro h
    apply Nat.eq_of_testBit_eq
    intro j
    rw [Nat.testBit_div_two_pow, Nat.testBit_div_two_pow]
    by_cases hj : j < block.length
    · have hindex : block.length - 1 - j + (j + (w - block.length)) + 1 = w := by omega
      have hbit := h (block.length - 1 - j) (by omega)
      rwa [getMsbD_eq_testBit address hindex, getMsbD_eq_testBit block.base hindex] at hbit
    · have hlarge : 2 ^ w ≤ 2 ^ (j + (w - block.length)) :=
        Nat.pow_le_pow_right (by omega) (by omega)
      rw [Nat.testBit_lt_two_pow (Nat.lt_of_lt_of_le address.isLt hlarge),
        Nat.testBit_lt_two_pow (Nat.lt_of_lt_of_le block.base.isLt hlarge)]
  · intro h i hi
    have hindex : i + (block.length - 1 - i + (w - block.length)) + 1 = w := by omega
    rw [getMsbD_eq_testBit address hindex, getMsbD_eq_testBit block.base hindex,
      ← Nat.testBit_div_two_pow, ← Nat.testBit_div_two_pow, h]

end AddressBlock

/-- A mask of leading bits keeps the quotient by the first power it leaves out. -/
theorem and_leadingMask {w k x : Nat} (hk : k ≤ w) (hx : x < 2 ^ w) :
    x &&& (2 ^ w - 2 ^ k) = x / 2 ^ k * 2 ^ k := by
  have hmask : 2 ^ w - 2 ^ k = (2 ^ (w - k) - 1) * 2 ^ k := by
    rw [Nat.sub_mul, ← Nat.pow_add, Nat.sub_add_cancel hk, Nat.one_mul]
  rw [hmask]
  apply Nat.eq_of_testBit_eq
  intro i
  rw [Nat.testBit_and, Nat.testBit_mul_two_pow, Nat.testBit_mul_two_pow,
    Nat.testBit_two_pow_sub_one, Nat.testBit_div_two_pow]
  by_cases hi : k ≤ i
  · have hindex : i - k + k = i := by omega
    by_cases hw : i < w
    · have hinside : i - k < w - k := by omega
      simp [hi, hinside, hindex]
    · have hlarge : 2 ^ w ≤ 2 ^ i := Nat.pow_le_pow_right (by omega) (by omega)
      rw [hindex, Nat.testBit_lt_two_pow (Nat.lt_of_lt_of_le hx hlarge)]
      simp
  · simp [hi]

end Cirrusync
