import Mathlib.Algebra.Divisibility.Basic
import Mathlib.Algebra.Ring.Int.Defs
import Mathlib.Algebra.Ring.Nat

/-! Integers of a machine's width: which values fit, and what a conversion keeps of the others. -/

namespace Fixed

/-- The values a signed word of a width can hold. -/
def Fits (width : Nat) (value : Int) : Prop :=
  -- One bit is spent on the sign.
  -2 ^ (width - 1) ≤ value ∧ value < 2 ^ (width - 1)

instance (width : Nat) (value : Int) : Decidable (Fits width value) :=
  inferInstanceAs (Decidable (_ ∧ _))

/-- Signed arithmetic has no result where the exact one does not fit. -/
def checked (width : Nat) (value : Int) : Option Int :=
  if Fits width value then some value else none

/-- Only a value that fits comes out of checked arithmetic, and it comes out unchanged. -/
theorem checked_eq_some {width : Nat} {value result : Int} :
    checked width value = some result ↔ Fits width value ∧ result = value := by
  -- Both sides look at the same bounds.
  simp [checked, eq_comm]

/-- A value that does not fit overflows. -/
theorem checked_eq_none {width : Nat} {value : Int} :
    checked width value = none ↔ ¬ Fits width value := by
  -- Only the other branch has no result.
  simp [checked]

/-- A conversion to an unsigned word keeps the value modulo the words there are. -/
def unsigned (width : Nat) (value : Int) : Nat :=
  (value % 2 ^ width).toNat

/-- A value of an unsigned word is converted to itself. -/
theorem unsigned_of_fits {width : Nat} {value : Int} (nonneg : 0 ≤ value)
    (fits : value < 2 ^ width) : unsigned width value = value := by
  -- The remainder of a value that is in range is the value.
  rw [unsigned, Int.emod_eq_of_lt nonneg fits, Int.toNat_of_nonneg nonneg]

/-- A conversion to an unsigned word ends in one. -/
theorem unsigned_lt {width : Nat} {value : Int} : (unsigned width value : Int) < 2 ^ width := by
  -- The word is a remainder.
  have positive : (0 : Int) < 2 ^ width := Int.pow_pos (by decide)
  rw [unsigned, Int.toNat_of_nonneg (Int.emod_nonneg value (Int.ne_of_gt positive))]
  exact Int.emod_lt_of_pos value positive

/-- A conversion to a signed word keeps the value modulo the words there are, around zero. -/
def signed (width : Nat) (value : Int) : Int :=
  value.bmod (2 ^ width)

/-- Two values are converted to the same word when they differ by whole wraps. -/
theorem signed_eq_signed {width : Nat} {left right : Int} :
    signed width left = signed width right ↔ (2 : Int) ^ width ∣ left - right := by
  -- Two remainders around zero agree when the plain ones do.
  rw [signed, signed, Int.bmod_eq_bmod_iff_bmod_sub_eq_zero, ← Int.dvd_iff_bmod_eq_zero]
  push_cast
  rfl

/-- A conversion changes a value by whole wraps. -/
theorem dvd_signed_sub (width : Nat) (value : Int) :
    (2 : Int) ^ width ∣ signed width value - value := by
  -- The library says so of powers of natural numbers.
  have wraps : ((2 ^ width : Nat) : Int) ∣ value.bmod (2 ^ width) - value := Int.dvd_bmod_sub_self
  rw [signed]
  exact_mod_cast wraps

/-- A value that fits is converted to itself. -/
theorem signed_of_fits {width : Nat} {value : Int} (wide : 0 < width) (fits : Fits width value) :
    signed width value = value := by
  -- Half of the words are below zero, and half are not.
  obtain ⟨lower, upper⟩ := fits
  have double : (2 : Int) ^ width = 2 ^ (width - 1) * 2 := by
    rw [← Int.pow_succ, Nat.succ_eq_add_one, Nat.sub_add_cancel wide]
  apply Int.bmod_eq_of_le_mul_two
  · push_cast
    omega
  · push_cast
    omega

/-- A narrower word of a converted value is the one of the value itself. -/
theorem signed_signed {narrow wide : Nat} (fewer : narrow ≤ wide) (value : Int) :
    signed narrow (signed wide value) = signed narrow value := by
  -- The wraps of the wide word are whole wraps of the narrow one.
  rw [signed_eq_signed]
  exact (pow_dvd_pow 2 fewer).trans (dvd_signed_sub wide value)

/-- A narrower unsigned word of a converted value is the one of the value itself. -/
theorem unsigned_signed {narrow wide : Nat} (fewer : narrow ≤ wide) (value : Int) :
    unsigned narrow (signed wide value) = unsigned narrow value := by
  -- Whole wraps of the wide word make no difference to the narrow one.
  rw [unsigned, unsigned, Int.emod_eq_emod_iff_emod_sub_eq_zero.mpr]
  exact Int.emod_eq_zero_of_dvd ((pow_dvd_pow 2 fewer).trans (dvd_signed_sub wide value))

/-- A conversion to a signed word ends in one. -/
theorem signed_fits {width : Nat} {value : Int} : Fits width (signed width value) := by
  have lower := Int.le_bmod (x := value) (m := 2 ^ width) (Nat.two_pow_pos width)
  have upper := Int.bmod_lt (x := value) (m := 2 ^ width) (Nat.two_pow_pos width)
  rw [Fits, signed]
  cases width with
  | zero =>
    -- There is one word without bits, and it is zero.
    simp at lower upper ⊢
  | succ width =>
    rw [Nat.add_sub_cancel]
    push_cast [Int.pow_succ] at lower upper
    omega

end Fixed
