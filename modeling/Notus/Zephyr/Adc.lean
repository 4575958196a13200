import Notus.Core.Fixed
import Mathlib.Algebra.Order.GroupWithZero.Basic
import Mathlib.Algebra.Order.Ring.Int

/-! The converter channel of a load cell, and the driver's conversion of its samples. -/

namespace Notus

/-- The inverse of a gain, as the factor and the divisor that the driver keeps for it in bytes. -/
structure AdcGain where
  mul : Nat
  div : Nat
  mulByte : 0 < mul ∧ mul < 256
  divByte : 0 < div ∧ div < 256
  deriving DecidableEq

/-- What the device tree says of a channel, with the reference in millivolts. -/
structure AdcDtSpec where
  differential : Bool
  resolution : Nat
  vrefMv : Nat
  gain : AdcGain
  resolves : 0 < resolution ∧ resolution ≤ 16
  vrefWord : vrefMv < 65536
  deriving DecidableEq

namespace AdcDtSpec

/-- The bits of a sample's magnitude: on a differential channel one bit is the sign. -/
def magnitudeBits (spec : AdcDtSpec) : Nat :=
  if spec.differential then spec.resolution - 1 else spec.resolution

/-- The samples of a channel, which are negative only where it is differential. -/
def MayStore (spec : AdcDtSpec) (sample : Int) : Prop :=
  (if spec.differential then -2 ^ spec.magnitudeBits else 0) ≤ sample ∧
    sample < 2 ^ spec.magnitudeBits

instance (spec : AdcDtSpec) (sample : Int) : Decidable (spec.MayStore sample) :=
  inferInstanceAs (Decidable (_ ∧ _))

/-- The reference over the gain, before its division. -/
def scale (spec : AdcDtSpec) : Nat :=
  spec.vrefMv * spec.gain.mul

/-- The millivolts of a raw value, before they are cut to 32 bits. -/
def millivolts (spec : AdcDtSpec) (raw : Int) : Int :=
  -- Dividing by the gain rounds toward zero, and the shift rounds down.
  (raw * spec.scale).tdiv spec.gain.div >>> spec.magnitudeBits

/-- The driver computes in 64 bits, which hold every product, and answers in 32. -/
def rawToMillivolts (spec : AdcDtSpec) (raw : Int) : Int :=
  Fixed.signed 32 (spec.millivolts raw)

/-- At most 24 bits of reference and gain scale a sample. -/
theorem scale_lt (spec : AdcDtSpec) : spec.scale < 16777216 := by
  -- The reference has 16 bits, and the gain has eight.
  have vref := spec.vrefWord
  have mul := spec.gain.mulByte
  calc spec.vrefMv * spec.gain.mul
      ≤ 65535 * 255 := Nat.mul_le_mul (by omega) (by omega)
    _ < 16777216 := by decide

/-- A sample has at most 15 bits beside its sign, or 16 without one. -/
theorem magnitudeBits_le (spec : AdcDtSpec) : spec.magnitudeBits ≤ 16 := by
  -- The resolution has 16 bits at most, one of which a differential channel spends.
  have resolves := spec.resolves
  unfold magnitudeBits
  split <;> omega

/-- Every sample fits into 16 bits beside its sign. -/
theorem MayStore.within {spec : AdcDtSpec} {sample : Int} (stored : spec.MayStore sample) :
    -65536 ≤ sample ∧ sample < 65536 := by
  -- There are no more magnitudes than the bits beside the sign allow.
  have magnitude : (2 : Int) ^ spec.magnitudeBits ≤ 2 ^ 16 :=
    pow_le_pow_right₀ (by decide) spec.magnitudeBits_le
  obtain ⟨lower, upper⟩ := stored
  constructor
  · split at lower <;> omega
  · exact Int.lt_of_lt_of_le upper magnitude

/-- Only a differential channel has negative samples. -/
theorem MayStore.differential {spec : AdcDtSpec} {sample : Int} (stored : spec.MayStore sample)
    (negative : sample < 0) : spec.differential = true := by
  -- On any other channel zero is the least sample.
  by_contra single
  have lower := stored.1
  rw [if_neg single] at lower
  omega

/-- A value that is not negative is scaled and divided once. -/
theorem millivolts_of_nonneg {spec : AdcDtSpec} {raw : Int} (nonneg : 0 ≤ raw) :
    spec.millivolts raw = raw * spec.scale / (spec.gain.div * 2 ^ spec.magnitudeBits) := by
  -- Shifting to the right is dividing once more, and both divisions round down.
  have product : 0 ≤ raw * spec.scale := Int.mul_nonneg nonneg (Int.natCast_nonneg _)
  rw [millivolts, Int.tdiv_eq_ediv_of_nonneg product, Int.shiftRight_eq_div_pow,
    Int.ediv_ediv_of_nonneg (Int.natCast_nonneg _)]
  push_cast
  rfl

/-- A negative value is scaled and divided as its magnitude is, and then rounded down. -/
theorem millivolts_neg {spec : AdcDtSpec} {magnitude : Int} (nonneg : 0 ≤ magnitude) :
    spec.millivolts (-magnitude) =
      -(magnitude * spec.scale / spec.gain.div) / 2 ^ spec.magnitudeBits := by
  -- The division of the gain rounds toward zero, and the shift rounds down.
  have product : 0 ≤ magnitude * spec.scale := Int.mul_nonneg nonneg (Int.natCast_nonneg _)
  rw [millivolts, Int.neg_mul, Int.neg_tdiv, Int.tdiv_eq_ediv_of_nonneg product,
    Int.shiftRight_eq_div_pow]
  push_cast
  rfl

/-- The conversion keeps the order of the values. -/
theorem millivolts_mono (spec : AdcDtSpec) {first second : Int} (ordered : first ≤ second) :
    spec.millivolts first ≤ spec.millivolts second := by
  -- None of the three steps turns the order around.
  have scaled : first * spec.scale ≤ second * spec.scale :=
    Int.mul_le_mul_of_nonneg_right ordered (Int.natCast_nonneg _)
  have divided := Int.tdiv_le_tdiv (Int.natCast_pos.mpr spec.gain.divByte.1) scaled
  simp only [millivolts, Int.shiftRight_eq_div_pow]
  exact Int.ediv_le_ediv (Int.natCast_pos.mpr (Nat.two_pow_pos _)) divided

/-- No sample is converted to more millivolts than the scale, in either direction. -/
theorem millivolts_bounded {spec : AdcDtSpec} {sample : Int} (stored : spec.MayStore sample) :
    -spec.scale ≤ spec.millivolts sample ∧ spec.millivolts sample ≤ spec.scale := by
  have positive : (0 : Int) < 2 ^ spec.magnitudeBits := Int.pow_pos (by decide)
  have divisor : (0 : Int) < spec.gain.div := Int.natCast_pos.mpr spec.gain.divByte.1
  -- A sample lies between the two ends, where the shift cancels the magnitude.
  have lower : -2 ^ spec.magnitudeBits ≤ sample := by
    have bound := stored.1
    split at bound <;> omega
  have atLeast := millivolts_mono spec lower
  have atMost := millivolts_mono spec (Int.le_of_lt stored.2)
  have product : (0 : Int) ≤ 2 ^ spec.magnitudeBits * spec.scale :=
    Int.mul_nonneg (Int.le_of_lt positive) (Int.natCast_nonneg _)
  have divided : 2 ^ spec.magnitudeBits * (spec.scale : Int) / spec.gain.div ≤
      2 ^ spec.magnitudeBits * spec.scale := Int.ediv_le_self _ product
  constructor
  · refine Int.le_trans ?_ atLeast
    rw [millivolts_neg (Int.le_of_lt positive)]
    apply Int.le_ediv_of_mul_le positive
    rw [Int.neg_mul, Int.mul_comm]
    exact Int.neg_le_neg divided
  · refine Int.le_trans atMost ?_
    rw [millivolts_of_nonneg (Int.le_of_lt positive), ← Int.ediv_ediv_of_nonneg
      (Int.le_of_lt divisor)]
    apply Int.ediv_le_of_le_mul positive
    rw [Int.mul_comm (spec.scale : Int)]
    exact divided

/-- The millivolts of a sample are not changed when they are cut to 32 bits. -/
theorem rawToMillivolts_of_stored {spec : AdcDtSpec} {sample : Int}
    (stored : spec.MayStore sample) : spec.rawToMillivolts sample = spec.millivolts sample := by
  -- The bound on the scale leaves them within 32 bits.
  obtain ⟨lower, upper⟩ := millivolts_bounded stored
  have small := spec.scale_lt
  apply Fixed.signed_of_fits (by decide)
  simp only [Fixed.Fits]
  omega

end AdcDtSpec
end Notus
