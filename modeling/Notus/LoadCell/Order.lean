import Notus.LoadCell
import Mathlib.Tactic.Linarith
import Mathlib.Tactic.Ring

/-! A load cell keeps the order of its samples, unless a negative one is read as a large one. -/

namespace Notus.LoadCell

variable {Weight : Type*}

/-- Two samples are converted in their order, and each as the number it is. -/
def InOrder (self : LoadCell Weight) (first second : Int) : Prop :=
  (self.store first).millivolts ≤ (self.store second).millivolts ∧
    (self.store first).millivolts = self.adcSpec.rawToMillivolts first ∧
    (self.store second).millivolts = self.adcSpec.rawToMillivolts second

/-- Samples that are converted as the numbers they are keep their order. -/
theorem inOrder_of_own {self : LoadCell Weight} {first second : Int}
    (storedFirst : self.adcSpec.MayStore first) (storedSecond : self.adcSpec.MayStore second)
    (ordered : first ≤ second)
    (ownFirst : (self.store first).millivolts = self.adcSpec.rawToMillivolts first)
    (ownSecond : (self.store second).millivolts = self.adcSpec.rawToMillivolts second) :
    self.InOrder first second := by
  -- The conversion keeps the order, so it is enough that each gets its own millivolts.
  refine ⟨?_, ownFirst, ownSecond⟩
  rw [ownFirst, ownSecond, AdcDtSpec.rawToMillivolts_of_stored storedFirst,
    AdcDtSpec.rawToMillivolts_of_stored storedSecond]
  exact AdcDtSpec.millivolts_mono _ ordered

/-- The sample below zero is converted 65536 scales from its word, up to two roundings. -/
theorem converted_apart (scale : Int) {divisor magnitude : Int} (positive : 0 < divisor)
    (nonempty : 0 < magnitude) :
    65536 * scale - divisor * magnitude - divisor <
        (65535 * scale / (divisor * magnitude) - -(scale / divisor) / magnitude) *
          (divisor * magnitude) ∧
      (65535 * scale / (divisor * magnitude) - -(scale / divisor) / magnitude) *
          (divisor * magnitude) ≤
        65536 * scale + divisor * magnitude - divisor := by
  have product : 0 < divisor * magnitude := Int.mul_pos positive nonempty
  -- Each rounding loses less than one unit of what it divides by.
  have word := Int.lt_mul_ediv_self_add (x := 65535 * scale) product
  have wordDown := Int.mul_ediv_self_le (x := 65535 * scale) product.ne'
  have quotient := Int.lt_mul_ediv_self_add (x := scale) positive
  have quotientDown := Int.mul_ediv_self_le (x := scale) positive.ne'
  have below := Int.lt_mul_ediv_self_add (x := -(scale / divisor)) nonempty
  have belowDown := Int.mul_ediv_self_le (x := -(scale / divisor)) nonempty.ne'
  have scaled : divisor * -(scale / divisor) ≤
      divisor * (magnitude * (-(scale / divisor) / magnitude) + magnitude - 1) :=
    Int.mul_le_mul_of_nonneg_left (by omega) positive.le
  have scaledDown : divisor * (magnitude * (-(scale / divisor) / magnitude)) ≤
      divisor * -(scale / divisor) := Int.mul_le_mul_of_nonneg_left belowDown positive.le
  constructor <;> linarith

/-- Without a wrap there is nothing to convert. -/
theorem scale_eq_zero {scale divisor magnitude : Int} (nonneg : 0 ≤ scale)
    (divisorWithin : 0 < divisor ∧ divisor < 256) (nonempty : 0 < magnitude)
    (word : 65535 * scale / (divisor * magnitude) = 0)
    (below : -(scale / divisor) / magnitude = 0)
    (least : 4294967296 ∣ (65536 - magnitude) * scale / (divisor * magnitude) -
      -(magnitude * scale / divisor) / magnitude) (within : magnitude ≤ 32768) :
    scale = 0 := by
  have product : 0 < divisor * magnitude := Int.mul_pos divisorWithin.1 nonempty
  have small := Int.lt_mul_ediv_self_add (x := 65535 * scale) product
  have few := Int.lt_mul_ediv_self_add (x := scale) divisorWithin.1
  have quotient : 0 ≤ scale / divisor := Int.ediv_nonneg nonneg divisorWithin.1.le
  have rounded := Int.mul_ediv_self_le (x := -(scale / divisor)) nonempty.ne'
  rw [word, Int.mul_zero] at small
  rw [below, Int.mul_zero] at rounded
  have nothing : scale / divisor = 0 := by omega
  rw [nothing, Int.mul_zero] at few
  by_contra scaled
  -- The divisor is then less than the magnitude, so the least sample has some millivolts.
  have shorter : divisor < magnitude := by
    by_contra long
    have squared : divisor * magnitude ≤ 255 * 255 :=
      Int.mul_le_mul (by omega) (by omega) nonempty.le (by omega)
    omega
  have grown : magnitude * 1 ≤ magnitude * scale :=
    Int.mul_le_mul_of_nonneg_left (by omega) nonempty.le
  have first : 1 ≤ magnitude * scale / divisor :=
    Int.le_ediv_of_mul_le divisorWithin.1 (by omega)
  have negative : -(magnitude * scale / divisor) / magnitude < 0 :=
    Int.ediv_neg_of_neg_of_pos (by omega) nonempty
  have bounded : -scale ≤ -(magnitude * scale / divisor) / magnitude := by
    have divided : magnitude * scale / divisor ≤ magnitude * scale :=
      Int.ediv_le_self _ (by omega)
    exact Int.le_ediv_of_mul_le nonempty (by linarith)
  -- The word has some too, but not as many as a wrap.
  have share : 0 ≤ (65536 - magnitude) * scale := Int.mul_nonneg (by omega) nonneg
  have positive : 0 ≤ (65536 - magnitude) * scale / (divisor * magnitude) :=
    Int.ediv_nonneg share product.le
  have atMost : (65536 - magnitude) * scale / (divisor * magnitude) ≤ 65536 * scale := by
    have divided : (65536 - magnitude) * scale / (divisor * magnitude) ≤
        (65536 - magnitude) * scale := Int.ediv_le_self _ share
    linarith
  omega

/-- The two least samples tell whether 65536 more makes no difference in 32 bits. -/
theorem dvd_of_wraps {scale divisor magnitude : Int} (scaleWithin : 0 ≤ scale ∧ scale < 16777216)
    (divisorWithin : 0 < divisor ∧ divisor < 256)
    (magnitudeWithin : 0 < magnitude ∧ magnitude ≤ 32768)
    (one : 4294967296 ∣ 65535 * scale / (divisor * magnitude) - -(scale / divisor) / magnitude)
    (least : 4294967296 ∣ (65536 - magnitude) * scale / (divisor * magnitude) -
      -(magnitude * scale / divisor) / magnitude) :
    divisor * magnitude * 65536 ∣ scale := by
  have product : 0 < divisor * magnitude := Int.mul_pos divisorWithin.1 magnitudeWithin.1
  obtain ⟨lower, upper⟩ := converted_apart scale divisorWithin.1 magnitudeWithin.1
  have smaller : divisor * 1 ≤ divisor * magnitude :=
    Int.mul_le_mul_of_nonneg_left magnitudeWithin.1 divisorWithin.1.le
  have word : 0 ≤ 65535 * scale / (divisor * magnitude) :=
    Int.ediv_nonneg (by omega) product.le
  have below : -(scale / divisor) / magnitude ≤ 0 := by
    have quotient := Int.ediv_nonneg scaleWithin.1 divisorWithin.1.le
    exact Int.ediv_nonpos_of_nonpos_of_neg (by omega) magnitudeWithin.1
  obtain ⟨wraps, one⟩ := one
  rcases Int.lt_trichotomy wraps 0 with negative | rfl | positive
  · omega
  · -- Nothing is wrapped, so both conversions are zero.
    have nothing := scale_eq_zero scaleWithin.1 divisorWithin magnitudeWithin.1 (by omega)
      (by omega) least magnitudeWithin.2
    exact nothing ▸ Int.dvd_zero _
  · -- So many wraps leave no room for a rounding.
    rw [one] at lower upper
    have atLeast : 1 * (divisor * magnitude) ≤ wraps * (divisor * magnitude) :=
      Int.mul_le_mul_of_nonneg_right positive product.le
    have whole : scale = 65536 * (wraps * (divisor * magnitude)) := by
      rw [Int.mul_assoc] at lower upper
      omega
    exact ⟨wraps, by rw [whole]; ring⟩

/-- Where the scale holds whole wraps only, 65536 more makes no difference. -/
theorem wraps_of_dvd {spec : AdcDtSpec} {magnitude : Int} (nonneg : 0 ≤ magnitude)
    (small : magnitude ≤ 65536)
    (whole : (spec.gain.div * 2 ^ spec.magnitudeBits * 65536 : Int) ∣ spec.scale) :
    spec.rawToMillivolts (-magnitude + 65536) = spec.rawToMillivolts (-magnitude) := by
  have divisor : (0 : Int) < spec.gain.div := Int.natCast_pos.mpr spec.gain.divByte.1
  have positive : (0 : Int) < 2 ^ spec.magnitudeBits := Int.pow_pos (by decide)
  obtain ⟨wraps, scale⟩ := whole
  -- Both divisions are exact, so the difference can be computed.
  have word : spec.millivolts (-magnitude + 65536) = (-magnitude + 65536) * (65536 * wraps) := by
    rw [AdcDtSpec.millivolts_of_nonneg (by omega), scale]
    apply Int.ediv_eq_of_eq_mul_left (Int.mul_pos divisor positive).ne'
    ring
  have own : spec.millivolts (-magnitude) = -magnitude * (65536 * wraps) := by
    have exact : magnitude * spec.scale / spec.gain.div =
        magnitude * (65536 * wraps) * 2 ^ spec.magnitudeBits := by
      rw [scale]
      apply Int.ediv_eq_of_eq_mul_left divisor.ne'
      ring
    rw [AdcDtSpec.millivolts_neg nonneg, exact]
    apply Int.ediv_eq_of_eq_mul_left positive.ne'
    ring
  rw [AdcDtSpec.rawToMillivolts, AdcDtSpec.rawToMillivolts, Fixed.signed_eq_signed, word, own]
  exact ⟨wraps, by ring⟩

/-- A differential channel converts every sample as the number it is only if the scale wraps. -/
theorem dvd_of_own {self : LoadCell Weight} (differential : self.adcSpec.differential = true)
    (own : ∀ sample, self.adcSpec.MayStore sample →
      (self.store sample).millivolts = self.adcSpec.rawToMillivolts sample) :
    (self.adcSpec.gain.div * 2 ^ self.adcSpec.magnitudeBits * 65536 : Int) ∣
      self.adcSpec.scale := by
  have positive : (0 : Int) < 2 ^ self.adcSpec.magnitudeBits := Int.pow_pos (by decide)
  have bits : self.adcSpec.magnitudeBits ≤ 15 := by
    have resolves := self.adcSpec.resolves
    simp only [AdcDtSpec.magnitudeBits, differential, if_true]
    omega
  have within : (2 : Int) ^ self.adcSpec.magnitudeBits ≤ 2 ^ 15 :=
    pow_le_pow_right₀ (by decide) bits
  have small := self.adcSpec.scale_lt
  have divByte := self.adcSpec.gain.divByte
  -- Any negative sample is converted as its word only if the difference is cut off.
  have wraps : ∀ magnitude : Int, 0 < magnitude → magnitude ≤ 2 ^ self.adcSpec.magnitudeBits →
      4294967296 ∣ (65536 - magnitude) * self.adcSpec.scale /
          (self.adcSpec.gain.div * 2 ^ self.adcSpec.magnitudeBits) -
        -(magnitude * self.adcSpec.scale / self.adcSpec.gain.div) /
          2 ^ self.adcSpec.magnitudeBits := by
    intro magnitude some atMost
    have stored : self.adcSpec.MayStore (-magnitude) := by
      refine ⟨?_, by omega⟩
      rw [if_pos differential]
      omega
    have same := own _ stored
    rw [millivolts_store_of_neg stored (by omega), AdcDtSpec.rawToMillivolts,
      AdcDtSpec.rawToMillivolts, Fixed.signed_eq_signed,
      AdcDtSpec.millivolts_of_nonneg (by omega), AdcDtSpec.millivolts_neg (by omega)] at same
    have turned : -magnitude + 65536 = 65536 - magnitude := by omega
    rwa [turned] at same
  refine dvd_of_wraps ⟨by omega, by omega⟩ ⟨by omega, by omega⟩ ⟨positive, by omega⟩ ?_
    (wraps _ positive (Int.le_refl _))
  have one := wraps 1 (by decide) (by omega)
  rwa [Int.one_mul] at one

/-- On a differential channel the sign takes one bit of the resolution. -/
theorem wraps_iff {spec : AdcDtSpec} (differential : spec.differential = true) :
    (spec.gain.div * 2 ^ spec.magnitudeBits * 65536 : Int) ∣ spec.scale ↔
      spec.gain.div * 2 ^ (spec.resolution + 15) ∣ spec.vrefMv * spec.gain.mul := by
  -- The magnitude has one bit less than the resolution.
  have resolves := spec.resolves
  have bits : spec.resolution + 15 = spec.magnitudeBits + 16 := by
    simp only [AdcDtSpec.magnitudeBits, differential, if_true]
    omega
  rw [← Int.natCast_dvd_natCast, bits, Nat.pow_add, ← Nat.mul_assoc, AdcDtSpec.scale]
  push_cast
  rfl

/--
A channel keeps its samples in order exactly when it is single-ended, or its scale holds only wraps.

Samples that are not negative are always kept in order.
-/
theorem inOrder_iff {adcSpec : AdcDtSpec} {gramsOf : Int → Weight} {isReady : Bool}
    {channelSetup : Int} {self : LoadCell Weight}
    (accepted : construct adcSpec gramsOf isReady channelSetup = .ok self) :
    ((∀ first second, adcSpec.MayStore first → adcSpec.MayStore second → first ≤ second →
        self.InOrder first second) ↔
      (adcSpec.differential = true →
        adcSpec.gain.div * 2 ^ (adcSpec.resolution + 15) ∣
          adcSpec.vrefMv * adcSpec.gain.mul)) ∧
    ∀ first second, adcSpec.MayStore first → adcSpec.MayStore second → 0 ≤ first →
      first ≤ second → self.InOrder first second := by
  obtain rfl := construct_ok accepted
  have resolves := self.adcSpec.resolves
  refine ⟨⟨fun ordered differential => ?_, fun wraps first second => ?_⟩, ?_⟩
  · -- A sample is in order with itself.
    exact (wraps_iff differential).mp (dvd_of_own differential fun sample stored =>
      (ordered sample sample stored stored (Int.le_refl _)).2.1)
  · -- A sample is its own word, or differs from it by what the wraps cut off.
    intro storedFirst storedSecond ordered
    have own : ∀ sample, self.adcSpec.MayStore sample →
        (self.store sample).millivolts = self.adcSpec.rawToMillivolts sample := by
      intro sample stored
      rcases Int.lt_or_le sample 0 with negative | nonneg
      · rw [millivolts_store_of_neg stored negative]
        have differential := AdcDtSpec.MayStore.differential stored negative
        have lower := stored.within.1
        have whole := (wraps_iff differential).mpr (wraps differential)
        have same := wraps_of_dvd (Int.neg_nonneg_of_nonpos negative.le) (by omega) whole
        rwa [Int.neg_neg] at same
      · exact millivolts_store_of_nonneg stored nonneg
    exact inOrder_of_own storedFirst storedSecond ordered (own _ storedFirst) (own _ storedSecond)
  · intro first second storedFirst storedSecond nonneg ordered
    exact inOrder_of_own storedFirst storedSecond ordered
      (millivolts_store_of_nonneg storedFirst nonneg)
      (millivolts_store_of_nonneg storedSecond (Int.le_trans nonneg ordered))

/-- Twelve bits at a reference of 3300 millivolts, with the gain of one. -/
def supplyChannel (differential : Bool) : AdcDtSpec :=
  { differential := differential
    resolution := 12
    vrefMv := 3300
    gain := { mul := 1, div := 1, mulByte := by decide, divByte := by decide }
    resolves := by decide
    vrefWord := by decide }

/-- On a single-ended channel the least and the greatest sample are kept in order. -/
theorem inOrder_single : ∃ self : LoadCell Int,
    construct (supplyChannel false) (fun value => value) true 0 = .ok self ∧
      self.InOrder 0 4095 := by
  -- A channel without negative samples meets the condition at once.
  have accepted : construct (supplyChannel false) (fun value : Int => value) true 0 =
      .ok ⟨supplyChannel false, fun value => value, 0⟩ := rfl
  have ordered := (inOrder_iff accepted).1.mpr (by decide)
  exact ⟨_, accepted, ordered 0 4095 (by decide) (by decide) (by decide)⟩

/-- On a differential channel the sample below zero is read as more than the sample zero. -/
theorem not_inOrder_differential : ∃ self : LoadCell Int,
    construct (supplyChannel true) (fun value => value) true 0 = .ok self ∧
      (supplyChannel true).MayStore (-1) ∧ (supplyChannel true).MayStore 0 ∧
      ¬ self.InOrder (-1) 0 ∧ (self.store (-1)).millivolts = 105598 ∧
      (self.store 0).millivolts = 0 := by
  -- The constructor accepts the channel, and minus one is read as 65535.
  refine ⟨_, rfl, by decide, by decide, fun ordered => ?_, by decide, by decide⟩
  exact absurd ordered.1 (by decide)

end Notus.LoadCell
