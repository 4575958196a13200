import Mathlib.Data.Finset.Card
import Mathlib.Order.Monotone.Basic

/-! Samples counted in another unit and rounded down: what is told apart, and what is left out. -/

namespace Units

variable {scale unit samples : Nat}

/-- The whole units in a sample, when a sample of `unit` is as much as `scale` units. -/
def whole (scale unit sample : Nat) : Nat :=
  sample * scale / unit

/-- No sample has no units. -/
@[simp] theorem whole_zero (scale unit : Nat) : whole scale unit 0 = 0 := by
  simp [whole]

/-- A larger sample has no fewer units. -/
theorem whole_mono {first second : Nat} (ordered : first ≤ second) :
    whole scale unit first ≤ whole scale unit second :=
  -- Neither the product nor the quotient can fall.
  Nat.div_le_div_right (Nat.mul_le_mul_right scale ordered)

/-- Where a step of the samples is worth a unit at least, the next sample has more units. -/
theorem whole_lt_succ (positive : 0 < unit) (coarse : unit ≤ scale) (sample : Nat) :
    whole scale unit sample < whole scale unit (sample + 1) := by
  -- The step alone fills one more unit.
  have more : sample * scale + unit ≤ (sample + 1) * scale := by
    rw [Nat.succ_mul]
    omega
  calc whole scale unit sample
      < sample * scale / unit + 1 := Nat.lt_succ_self _
    _ = (sample * scale + unit) / unit := (Nat.add_div_right _ positive).symm
    _ ≤ whole scale unit (sample + 1) := Nat.div_le_div_right more

/-- Where a step of the samples is worth a unit at most, the next sample skips none. -/
theorem whole_succ_le (positive : 0 < unit) (fine : scale ≤ unit) (sample : Nat) :
    whole scale unit (sample + 1) ≤ whole scale unit sample + 1 := by
  -- The step fills no more than one unit.
  have most : (sample + 1) * scale ≤ sample * scale + unit := by
    rw [Nat.succ_mul]
    omega
  calc whole scale unit (sample + 1)
      ≤ (sample * scale + unit) / unit := Nat.div_le_div_right most
    _ = whole scale unit sample + 1 := Nat.add_div_right _ positive

/-- Two samples are told apart exactly where a step is worth a unit at least. -/
theorem injOn_whole_iff (positive : 0 < unit) (several : 2 ≤ samples) :
    Set.InjOn (whole scale unit) (Finset.range samples) ↔ unit ≤ scale := by
  constructor
  · intro apart
    by_contra fine
    -- The last sample has fewer units than there are samples, so two of them must share theirs.
    have few : Set.MapsTo (whole scale unit) (Finset.range samples)
        (Finset.range (samples - 1)) := by
      intro sample member
      have within : sample ≤ samples - 1 := by
        have below := Finset.mem_range.mp member
        omega
      have worth : (samples - 1) * scale < (samples - 1) * unit :=
        Nat.mul_lt_mul_of_pos_left (by omega) (by omega)
      refine Finset.mem_range.mpr (Nat.lt_of_le_of_lt (whole_mono within) ?_)
      exact (Nat.div_lt_iff_lt_mul positive).mpr worth
    have counted := Finset.card_le_card_of_injOn _ few apart
    rw [Finset.card_range, Finset.card_range] at counted
    omega
  · intro coarse
    have rises : StrictMono (whole scale unit) :=
      strictMono_nat_of_lt_succ (whole_lt_succ positive coarse)
    exact rises.injective.injOn

/-- With steps of a unit at most, all numbers of units up to those of a sample are met before it. -/
theorem exists_whole_eq (positive : 0 < unit) (fine : scale ≤ unit) (value : Nat) :
    ∀ sample, value ≤ whole scale unit sample →
      ∃ earlier ≤ sample, whole scale unit earlier = value := by
  intro sample
  -- The samples are counted up, and no step is so large that it passes over the value.
  induction sample with
  | zero =>
    intro below
    rw [whole_zero] at below
    exact ⟨0, Nat.le_refl 0, by rw [whole_zero]; omega⟩
  | succ sample ih =>
    intro below
    rcases Nat.lt_or_ge (whole scale unit sample) value with above | met
    · -- The value lies behind the sample before, so it is the one that is reached now.
      have step := whole_succ_le positive fine sample
      exact ⟨sample + 1, Nat.le_refl _, by omega⟩
    · obtain ⟨earlier, before, same⟩ := ih met
      exact ⟨earlier, Nat.le_succ_of_le before, same⟩

/-- No number of units is left out exactly where the last sample has fewer than samples exist. -/
theorem forall_exists_whole_iff (positive : 0 < unit) (some : 0 < samples) :
    (∀ value ≤ whole scale unit (samples - 1), ∃ sample < samples,
        whole scale unit sample = value) ↔
      (samples - 1) * scale < samples * unit := by
  constructor
  · intro met
    -- The numbers up to that of the last sample are all met, so they are no more than the samples.
    have covered : Finset.range (whole scale unit (samples - 1) + 1) ⊆
        (Finset.range samples).image (whole scale unit) := by
      intro value member
      have below := Nat.lt_succ_iff.mp (Finset.mem_range.mp member)
      obtain ⟨sample, within, same⟩ := met value below
      exact Finset.mem_image.mpr ⟨sample, Finset.mem_range.mpr within, same⟩
    have counted := Nat.le_trans (Finset.card_le_card covered) Finset.card_image_le
    rw [Finset.card_range, Finset.card_range] at counted
    exact (Nat.div_lt_iff_lt_mul positive).mp counted
  · intro short value below
    rcases Nat.le_total scale unit with fine | coarse
    · obtain ⟨sample, within, same⟩ := exists_whole_eq positive fine value (samples - 1) below
      exact ⟨sample, by omega, same⟩
    · -- The steps are longer than a unit, but too few to be a unit ahead: each is its own number.
      have own : ∀ sample < samples, whole scale unit sample = sample := by
        intro sample within
        have ahead : sample * (scale - unit) < unit := by
          have all : (samples - 1) * (scale - unit) < unit := by
            rw [Nat.mul_sub]
            have split : samples * unit = (samples - 1) * unit + unit := by
              rw [← Nat.succ_mul]
              congr 1
              omega
            omega
          exact Nat.lt_of_le_of_lt (Nat.mul_le_mul_right _ (by omega)) all
        have parts : sample * scale = sample * unit + sample * (scale - unit) := by
          rw [← Nat.mul_add]
          congr 1
          omega
        rw [whole, parts, Nat.mul_comm sample unit, Nat.mul_add_div positive,
          Nat.div_eq_of_lt ahead, Nat.add_zero]
      have last := own (samples - 1) (by omega)
      exact ⟨value, by omega, own value (by omega)⟩

end Units
