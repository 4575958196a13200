import Notus.Chrono
import Notus.Core.Decimal
import Notus.Core.Fixed
import Notus.Core.Separator

/-! The display shows a time in minutes and seconds, as a line of the log. -/

namespace Notus.Display

/-- The whole seconds of a time, as the number that is split into minutes and seconds. -/
def totalSecondsCount (time : Milliseconds) : Int :=
  -- The cast to seconds truncates toward zero, and the count is narrowed to 32 bits.
  Fixed.signed 32 (time.count.tdiv 1000)

/-- The line "%02d:%02d\n" of the minutes and the seconds. -/
def setTime (time : Milliseconds) : List Char :=
  let minutes := (totalSecondsCount time).tdiv 60
  let seconds := (totalSecondsCount time).tmod 60
  Decimal.signed 2 minutes ++ ':' :: Decimal.signed 2 seconds ++ ['\n']

/-- The line is read back as the number of seconds it was made of. -/
theorem totalSecondsCount_eq_iff {time other : Milliseconds} :
    setTime time = setTime other ↔ totalSecondsCount time = totalSecondsCount other := by
  refine ⟨fun same => ?_, fun same => by simp only [setTime, same]⟩
  have absent : ∀ number, ':' ∉ Decimal.signed 2 number := fun number =>
    Decimal.not_mem_signed (by decide) (by decide)
  simp only [setTime, List.append_assoc, List.cons_append] at same
  obtain ⟨minutes, rest⟩ := (Separator.first_inj (absent _) (absent _)).mp same
  have seconds := Decimal.signed_inj.mp (List.append_cancel_right rest)
  have quotient := Decimal.signed_inj.mp minutes
  -- Minutes and seconds together are the number again, whatever its sign.
  rw [← Int.mul_tdiv_add_tmod (totalSecondsCount time) 60, quotient, seconds,
    Int.mul_tdiv_add_tmod]

/-- Two times are shown in the same way when their whole seconds differ by whole wraps of an int. -/
theorem setTime_eq_iff (time other : Milliseconds) :
    setTime time = setTime other ↔
      (2 : Int) ^ 32 ∣ time.count.tdiv 1000 - other.count.tdiv 1000 := by
  -- The line shows the whole seconds once they have been cut to an int.
  rw [totalSecondsCount_eq_iff]
  exact Fixed.signed_eq_signed

end Notus.Display
