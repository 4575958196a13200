import Notus.Core.Transducer
import Notus.Core.Units
import Notus.LoadCell.Order

/-! What the millivolts of a load cell tell of its samples, and what they leave out. -/

namespace Notus

namespace AdcDtSpec

/-- The samples of a channel that are not negative. -/
def samples (spec : AdcDtSpec) : Nat :=
  2 ^ spec.magnitudeBits

/-- The divisor that takes the scaled samples to millivolts. -/
def unit (spec : AdcDtSpec) : Nat :=
  spec.gain.div * spec.samples

/-- A divisor is never zero. -/
theorem unit_pos (spec : AdcDtSpec) : 0 < spec.unit :=
  -- Neither the divisor of the gain nor a power of two is zero.
  Nat.mul_pos spec.gain.divByte.1 (Nat.two_pow_pos _)

/-- A sample that is not negative is stored exactly if it is one of so many. -/
theorem mayStore_natCast {spec : AdcDtSpec} {sample : Nat} :
    spec.MayStore sample ↔ sample < spec.samples := by
  -- The lower end is never above zero.
  have lower : (if spec.differential then -2 ^ spec.magnitudeBits else 0) ≤ (sample : Int) := by
    have positive : (0 : Int) < 2 ^ spec.magnitudeBits := Int.pow_pos (by decide)
    split <;> omega
  rw [MayStore, samples, and_iff_right lower]
  exact_mod_cast Iff.rfl

end AdcDtSpec

namespace LoadCell

variable {Weight : Type*}

/-- Only the buffer changes with a reading. -/
theorem getWeightGrams_members (self : LoadCell Weight) (reading : Reading) :
    (self.getWeightGrams reading).1.adcSpec = self.adcSpec ∧
      (self.getWeightGrams reading).1.gramsOf = self.gramsOf := by
  -- Neither an error nor a weight changes anything else.
  unfold getWeightGrams
  split
  · exact ⟨rfl, rfl⟩
  · simp only
    split <;> exact ⟨rfl, rfl⟩

/-- What a reading answers does not depend on what is left in the buffer. -/
theorem getWeightGrams_answer {self other : LoadCell Weight}
    (same : self.adcSpec = other.adcSpec ∧ self.gramsOf = other.gramsOf) (reading : Reading) :
    (self.getWeightGrams reading).2 = (other.getWeightGrams reading).2 := by
  -- Where the read succeeds, the sample is stored over the buffer before it is looked at.
  simp only [getWeightGrams, store, millivolts, same.1, same.2]
  split
  · rfl
  · split <;> rfl

/-- Each of a sequence of readings is answered as if it were the first. -/
theorem answers_eq_map (self : LoadCell Weight) (readings : List Reading) :
    Transducer.answers getWeightGrams self readings =
      readings.map fun reading => (self.getWeightGrams reading).2 := by
  -- The induction is for any load cell with these members, whatever its buffer holds.
  suffices every : ∀ cell : LoadCell Weight,
      cell.adcSpec = self.adcSpec ∧ cell.gramsOf = self.gramsOf →
        Transducer.answers getWeightGrams cell readings =
          readings.map fun reading => (self.getWeightGrams reading).2 from every self ⟨rfl, rfl⟩
  induction readings with
  | nil => exact fun _ _ => rfl
  | cons reading rest ih =>
    intro cell same
    obtain ⟨spec, grams⟩ := cell.getWeightGrams_members reading
    rw [Transducer.answers_cons, List.map_cons, getWeightGrams_answer same,
      ih _ ⟨spec.trans same.1, grams.trans same.2⟩]

/-- The millivolts of a value that is not negative are the whole ones in it. -/
theorem millivolts_eq_ediv {spec : AdcDtSpec} {raw : Int} (nonneg : 0 ≤ raw) :
    spec.millivolts raw = raw * spec.scale / spec.unit := by
  -- The divisor is that of the gain and the one of the shift.
  rw [AdcDtSpec.millivolts_of_nonneg nonneg, AdcDtSpec.unit, AdcDtSpec.samples]
  push_cast
  rfl

/-- A sample that is not negative is weighed as its own millivolts, which fit into 32 bits. -/
theorem millivolts_store_of_own {self : LoadCell Weight} {sample : Int}
    (stored : self.adcSpec.MayStore sample) (nonneg : 0 ≤ sample) :
    (self.store sample).millivolts = sample * self.adcSpec.scale / self.adcSpec.unit := by
  -- The buffer holds such a sample as it is.
  rw [millivolts_store_of_nonneg stored nonneg, AdcDtSpec.rawToMillivolts_of_stored stored,
    millivolts_eq_ediv nonneg]

/-- A negative sample is weighed as what 32 bits hold of the millivolts of its word. -/
theorem millivolts_store_of_wrapped {self : LoadCell Weight} {sample : Int}
    (stored : self.adcSpec.MayStore sample) (negative : sample < 0) :
    (self.store sample).millivolts =
      Fixed.signed 32 ((sample + 65536) * self.adcSpec.scale / self.adcSpec.unit) := by
  -- The word is a number from the upper half, which no sample of the channel is.
  have lower := stored.within.1
  rw [millivolts_store_of_neg stored negative, AdcDtSpec.rawToMillivolts,
    millivolts_eq_ediv (by omega)]

/-- The millivolts of a sample are the whole ones in it. -/
theorem millivolts_store_natCast {self : LoadCell Weight} {sample : Nat}
    (stored : self.adcSpec.MayStore sample) :
    (self.store sample).millivolts = Units.whole self.adcSpec.scale self.adcSpec.unit sample := by
  -- Dividing natural numbers and dividing integers rounds the same way here.
  rw [millivolts_store_of_own stored (Int.natCast_nonneg sample), Units.whole]
  push_cast
  rfl

/-- Different samples are read as different millivolts. -/
def TellsApart (self : LoadCell Weight) : Prop :=
  ∀ first second : Nat, self.adcSpec.MayStore first → self.adcSpec.MayStore second →
    (self.store first).millivolts = (self.store second).millivolts → first = second

/-- No whole millivolt below one that is read is left out. -/
def LeavesNoneOut (self : LoadCell Weight) : Prop :=
  ∀ value : Nat,
    (∃ sample : Nat, self.adcSpec.MayStore sample ∧ value ≤ (self.store sample).millivolts) →
      ∃ sample : Nat, self.adcSpec.MayStore sample ∧ (self.store sample).millivolts = value

/-- A single sample cannot be taken for another, and more need a step of a millivolt at least. -/
theorem tellsApart_iff (self : LoadCell Weight) :
    self.TellsApart ↔ self.adcSpec.magnitudeBits = 0 ∨ self.adcSpec.unit ≤ self.adcSpec.scale := by
  have injective : self.TellsApart ↔
      Set.InjOn (Units.whole self.adcSpec.scale self.adcSpec.unit)
        (Finset.range self.adcSpec.samples) := by
    constructor
    · intro apart first member second other same
      have storedFirst := AdcDtSpec.mayStore_natCast.mpr (Finset.mem_range.mp member)
      have storedSecond := AdcDtSpec.mayStore_natCast.mpr (Finset.mem_range.mp other)
      apply apart first second storedFirst storedSecond
      rw [millivolts_store_natCast storedFirst, millivolts_store_natCast storedSecond, same]
    · intro apart first second storedFirst storedSecond same
      rw [millivolts_store_natCast storedFirst, millivolts_store_natCast storedSecond] at same
      exact apart (Finset.mem_range.mpr (AdcDtSpec.mayStore_natCast.mp storedFirst))
        (Finset.mem_range.mpr (AdcDtSpec.mayStore_natCast.mp storedSecond)) (Int.ofNat.inj same)
  rw [injective]
  by_cases single : self.adcSpec.magnitudeBits = 0
  · -- A differential channel of one bit has zero as its only sample that is not negative.
    have one : self.adcSpec.samples = 1 := by simp [AdcDtSpec.samples, single]
    rw [one]
    simp [single]
  · have several : 2 ≤ self.adcSpec.samples := Nat.le_self_pow single 2
    rw [Units.injOn_whole_iff self.adcSpec.unit_pos several]
    exact (or_iff_right single).symm

/-- Millivolts are left out where the last sample is worth as much as there are samples. -/
theorem leavesNoneOut_iff (self : LoadCell Weight) :
    self.LeavesNoneOut ↔
      (self.adcSpec.samples - 1) * self.adcSpec.scale <
        self.adcSpec.samples * self.adcSpec.unit := by
  have some : 0 < self.adcSpec.samples := Nat.two_pow_pos _
  rw [← Units.forall_exists_whole_iff self.adcSpec.unit_pos some]
  constructor
  · intro met value below
    have last : self.adcSpec.MayStore (self.adcSpec.samples - 1 : Nat) :=
      AdcDtSpec.mayStore_natCast.mpr (by omega)
    obtain ⟨sample, stored, same⟩ := met value ⟨_, last, by
      rw [millivolts_store_natCast last]
      exact_mod_cast below⟩
    rw [millivolts_store_natCast stored] at same
    exact ⟨sample, AdcDtSpec.mayStore_natCast.mp stored, Int.ofNat.inj same⟩
  · rintro met value ⟨largest, stored, below⟩
    rw [millivolts_store_natCast stored] at below
    -- No sample is read as more than the last one.
    have within := AdcDtSpec.mayStore_natCast.mp stored
    have atMost := @Units.whole_mono self.adcSpec.scale self.adcSpec.unit largest
      (self.adcSpec.samples - 1) (by omega)
    obtain ⟨sample, found, same⟩ := met value (by omega)
    have storedFound := AdcDtSpec.mayStore_natCast.mpr found
    exact ⟨sample, storedFound, by rw [millivolts_store_natCast storedFound, same]⟩

end LoadCell
end Notus
