import Notus.Chrono
import Notus.Core.Fixed

/-! The uptime clock, which counts microseconds from the ticks of the kernel. -/

namespace Notus.UpTime

/-- One second, cast to the unit of the clock. -/
def microsecondsPerSecond : Microseconds :=
  ⟨1 * 1000000⟩

/-- The ticks are scaled to microseconds in 64 bits, and only then divided by the tick rate. -/
def now (ticksPerSec : Nat) (ticks : Int) : Option Microseconds := do
  -- Every intermediate result has to fit on its own.
  let scaled ← Fixed.checked 64 (ticks * microsecondsPerSecond.count)
  let passed ← Fixed.checked 64 (scaled.tdiv ticksPerSec)
  return ⟨passed⟩

/-- Below the overflow of the product, the clock shows the exact time rounded down. -/
theorem now_exact (ticksPerSec : Nat) {ticks : Int} (forward : 0 ≤ ticks)
    (small : ticks * 1000000 < 9223372036854775808) :
    now ticksPerSec ticks = some ⟨ticks * 1000000 / ticksPerSec⟩ := by
  -- The quotient lies between zero and the product, so it fits where the product does.
  have product : 0 ≤ ticks * 1000000 := by omega
  have quotient : (ticks * 1000000).tdiv ticksPerSec = ticks * 1000000 / ticksPerSec :=
    Int.tdiv_eq_ediv_of_nonneg product
  have lower : 0 ≤ ticks * 1000000 / ticksPerSec := Int.ediv_nonneg product (Int.natCast_nonneg _)
  have upper : ticks * 1000000 / ticksPerSec ≤ ticks * 1000000 := Int.ediv_le_self _ product
  have scaled : Fixed.checked 64 (ticks * microsecondsPerSecond.count) = some (ticks * 1000000) :=
    Fixed.checked_eq_some.mpr ⟨by simp [Fixed.Fits, microsecondsPerSecond]; omega, rfl⟩
  have passed : Fixed.checked 64 (ticks * 1000000 / ticksPerSec) =
      some (ticks * 1000000 / ticksPerSec) :=
    Fixed.checked_eq_some.mpr ⟨by simp [Fixed.Fits]; omega, rfl⟩
  simp only [now, scaled, quotient, passed, bind, Option.bind, pure]

/-- From the overflow of the product on, the clock shows nothing. -/
theorem now_overflow (ticksPerSec : Nat) {ticks : Int}
    (large : 9223372036854775808 ≤ ticks * 1000000) : now ticksPerSec ticks = none := by
  -- The product is formed first, whatever the rate it is divided by.
  have scaled : Fixed.checked 64 (ticks * microsecondsPerSecond.count) = none :=
    Fixed.checked_eq_none.mpr (by simp [Fixed.Fits, microsecondsPerSecond]; omega)
  simp only [now, scaled, bind, Option.bind]

/-- The exact time does not run back as the ticks go on. -/
theorem exact_mono {ticksPerSec : Nat} {earlier ticks : Int} (rate : 0 < ticksPerSec)
    (later : earlier ≤ ticks) :
    earlier * 1000000 / ticksPerSec ≤ ticks * 1000000 / ticksPerSec := by
  -- Scaling and rounding down both keep the order.
  apply Int.ediv_le_ediv
  · omega
  · exact Int.mul_le_mul_of_nonneg_right later (by omega)

end Notus.UpTime
