import Mathlib.Algebra.Order.Group.Int

/-! Durations carrying their unit, as the chrono library counts and converts them. -/

namespace Notus

/-- A count of microseconds, and the instants of the uptime clock, which counts in them. -/
structure Microseconds where
  count : Int
  deriving DecidableEq, Repr

/-- A count of milliseconds, the unit a stopwatch reports. -/
structure Milliseconds where
  count : Int
  deriving DecidableEq, Repr

namespace Microseconds

instance : Add Microseconds := ⟨fun left right => ⟨left.count + right.count⟩⟩

instance : Sub Microseconds := ⟨fun left right => ⟨left.count - right.count⟩⟩

@[simp] theorem count_add (left right : Microseconds) :
    (left + right).count = left.count + right.count := rfl

@[simp] theorem count_sub (left right : Microseconds) :
    (left - right).count = left.count - right.count := rfl

/-- The cast to the coarser unit truncates toward zero. -/
def durationCast (time : Microseconds) : Milliseconds :=
  -- Division of signed numbers rounds toward zero, as it does for the code's integers.
  ⟨time.count.tdiv 1000⟩

/-- On the durations a clock that never runs back produces, truncation is the floor. -/
theorem durationCast_count {time : Microseconds} (forward : 0 ≤ time.count) :
    time.durationCast.count = time.count / 1000 := by
  -- Rounding toward zero and rounding down differ only below zero.
  simp [durationCast, Int.tdiv_eq_ediv_of_nonneg forward]

end Microseconds

/-- A time of day, broken down into its fields. -/
structure HhMmSs where
  hours : Int
  minutes : Int
  seconds : Int
  subseconds : Int
  deriving DecidableEq, Repr

/-- Each field is cast from what the coarser ones leave of the magnitude. -/
def Microseconds.hhMmSs (time : Microseconds) : HhMmSs :=
  -- The sign is kept apart from the fields, and nothing here reads it.
  let magnitude : Int := time.count.natAbs
  let hours := magnitude.tdiv 3600000000
  let minutes := (magnitude - hours * 3600000000).tdiv 60000000
  let seconds := (magnitude - hours * 3600000000 - minutes * 60000000).tdiv 1000000
  { hours := hours
    minutes := minutes
    seconds := seconds
    subseconds := magnitude - hours * 3600000000 - minutes * 60000000 - seconds * 1000000 }

/-- The fields of an uptime add up to it, and all but the hours are below their radix. -/
theorem Microseconds.hhMmSs_fields {time : Microseconds} (forward : 0 ≤ time.count) :
    time.hhMmSs.hours = time.count / 3600000000 ∧
      (0 ≤ time.hhMmSs.minutes ∧ time.hhMmSs.minutes < 60) ∧
      (0 ≤ time.hhMmSs.seconds ∧ time.hhMmSs.seconds < 60) ∧
      (0 ≤ time.hhMmSs.subseconds ∧ time.hhMmSs.subseconds < 1000000) ∧
      3600000000 * time.hhMmSs.hours + 60000000 * time.hhMmSs.minutes +
        1000000 * time.hhMmSs.seconds + time.hhMmSs.subseconds = time.count := by
  obtain ⟨count⟩ := time
  replace forward : 0 ≤ count := forward
  -- Nothing is negative, so every cast rounds down.
  have magnitude : (count.natAbs : Int) = count := Int.natAbs_of_nonneg forward
  have hours : count.tdiv 3600000000 = count / 3600000000 := Int.tdiv_eq_ediv_of_nonneg forward
  have minutes : (count - count / 3600000000 * 3600000000).tdiv 60000000 =
      (count - count / 3600000000 * 3600000000) / 60000000 :=
    Int.tdiv_eq_ediv_of_nonneg (by omega)
  have seconds : (count - count / 3600000000 * 3600000000 -
      (count - count / 3600000000 * 3600000000) / 60000000 * 60000000).tdiv 1000000 =
        (count - count / 3600000000 * 3600000000 -
          (count - count / 3600000000 * 3600000000) / 60000000 * 60000000) / 1000000 :=
    Int.tdiv_eq_ediv_of_nonneg (by omega)
  simp only [Microseconds.hhMmSs, magnitude, hours, minutes, seconds]
  -- Each field is a remainder of the one before it.
  refine ⟨trivial, ⟨?_, ?_⟩, ⟨?_, ?_⟩, ⟨?_, ?_⟩, ?_⟩ <;> omega

namespace Milliseconds

/-- The implicit conversion to the finer unit is exact. -/
def toMicroseconds (time : Milliseconds) : Microseconds :=
  ⟨time.count * 1000⟩

@[simp] theorem toMicroseconds_count (time : Milliseconds) :
    time.toMicroseconds.count = time.count * 1000 := rfl

end Milliseconds

end Notus
