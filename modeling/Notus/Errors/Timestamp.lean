import Notus.Chrono
import Notus.Core.Decimal
import Notus.Core.Fixed
import Notus.Errors

/-! The timestamp an error prints, in the buffer its constructor writes it to. -/

namespace Notus.MajorError

/-- The fields of a timestamp, as unsigned numbers. -/
structure Fields where
  hours : Nat
  minutes : Nat
  seconds : Nat
  milliseconds : Nat
  microseconds : Nat
  deriving DecidableEq, Repr

/-- The instant the fields stand for, in microseconds. -/
def Fields.instant (fields : Fields) : Nat :=
  3600000000 * fields.hours + 60000000 * fields.minutes + 1000000 * fields.seconds +
    1000 * fields.milliseconds + fields.microseconds

/-- All fields below the hours are smaller than their radix. -/
structure Fields.Reduced (fields : Fields) : Prop where
  minutes : fields.minutes < 60
  seconds : fields.seconds < 60
  milliseconds : fields.milliseconds < 1000
  microseconds : fields.microseconds < 1000

/-- The whole text, "[%02llu:%02llu:%02llu.%03u,%03u]". -/
def Fields.text (fields : Fields) : List Char :=
  '[' :: (Decimal.padded 2 fields.hours ++ ':' :: (Decimal.padded 2 fields.minutes ++
    ':' :: (Decimal.padded 2 fields.seconds ++ '.' :: (Decimal.padded 3 fields.milliseconds ++
      ',' :: (Decimal.padded 3 fields.microseconds ++ [']'])))))

/-- The text a bounded print leaves in a buffer, whose last place is for the terminator. -/
def snprintf (size : Nat) (text : List Char) : List Char :=
  text.take (size - 1)

/-- The fields the constructor computes from the uptime. -/
def fields (now : Microseconds) : Fields :=
  let formattedTime := now.hhMmSs
  let microseconds := Fixed.unsigned 32 formattedTime.subseconds
  let milliseconds := microseconds / 1000
  { hours := Fixed.unsigned 64 formattedTime.hours
    minutes := Fixed.unsigned 64 formattedTime.minutes
    seconds := Fixed.unsigned 64 formattedTime.seconds
    milliseconds := milliseconds % 1000
    microseconds := microseconds % 1000 }

/-- The text in the buffer of 20 characters. -/
def timestamp (now : Microseconds) : List Char :=
  -- What the print answers, the length it would have needed, is not looked at.
  snprintf 20 (fields now).text

/-- The fields a text shows, where it is a timestamp from the first to the last character. -/
def decode (text : List Char) : Option Fields := do
  let (hours, text) ← Decimal.number (← Decimal.expect '[' text)
  let (minutes, text) ← Decimal.number (← Decimal.expect ':' text)
  let (seconds, text) ← Decimal.number (← Decimal.expect ':' text)
  let (milliseconds, text) ← Decimal.number (← Decimal.expect '.' text)
  let (microseconds, text) ← Decimal.number (← Decimal.expect ',' text)
  match ← Decimal.expect ']' text with
  | [] => return { hours, minutes, seconds, milliseconds, microseconds }
  | _ :: _ => none

/-- A whole text shows the fields it was written from. -/
theorem decode_text (fields : Fields) : decode fields.text = some fields := by
  -- Every number is followed by a character that is not a digit.
  have colon : Char.isDigit ':' = false := rfl
  have dot : Char.isDigit '.' = false := rfl
  have comma : Char.isDigit ',' = false := rfl
  have bracket : Char.isDigit ']' = false := rfl
  simp only [decode, Fields.text, Decimal.expect, if_true, Decimal.number_padded colon,
    Decimal.number_padded dot, Decimal.number_padded comma, Decimal.number_padded bracket,
    bind, Option.bind, pure]

/-- No field is changed by its conversion, and together they are the uptime. -/
theorem fields_exact {now : Microseconds} (forward : 0 ≤ now.count)
    (fits : now.count < 9223372036854775808) :
    ((fields now).hours : Int) = now.count / 3600000000 ∧ (fields now).Reduced ∧
      ((fields now).instant : Int) = now.count := by
  obtain ⟨hours, minutes, seconds, subseconds, total⟩ := Microseconds.hhMmSs_fields forward
  -- Every field is far below the range of the word it is converted to.
  have hoursFit : (Fixed.unsigned 64 now.hhMmSs.hours : Int) = now.hhMmSs.hours :=
    Fixed.unsigned_of_fits (by omega) (by omega)
  have minutesFit : (Fixed.unsigned 64 now.hhMmSs.minutes : Int) = now.hhMmSs.minutes :=
    Fixed.unsigned_of_fits (by omega) (by omega)
  have secondsFit : (Fixed.unsigned 64 now.hhMmSs.seconds : Int) = now.hhMmSs.seconds :=
    Fixed.unsigned_of_fits (by omega) (by omega)
  have subsecondsFit : (Fixed.unsigned 32 now.hhMmSs.subseconds : Int) = now.hhMmSs.subseconds :=
    Fixed.unsigned_of_fits (by omega) (by omega)
  refine ⟨hoursFit.trans hours, ⟨?_, ?_, ?_, ?_⟩, ?_⟩
  · show Fixed.unsigned 64 now.hhMmSs.minutes < 60
    omega
  · show Fixed.unsigned 64 now.hhMmSs.seconds < 60
    omega
  · exact Nat.mod_lt _ (by decide)
  · exact Nat.mod_lt _ (by decide)
  · -- The subseconds are split into thousands, of which there are fewer than a thousand.
    simp only [Fields.instant, fields]
    omega

/-- The hours are the only field that can make the text longer. -/
theorem length_text {fields : Fields} (reduced : fields.Reduced) :
    fields.text.length = 16 + (Decimal.padded 2 fields.hours).length := by
  -- Every other field fits the width it is padded to.
  have minutes : (Decimal.padded 2 fields.minutes).length = 2 :=
    Decimal.length_padded_of_lt (by decide) (Nat.lt_trans reduced.minutes (by decide))
  have seconds : (Decimal.padded 2 fields.seconds).length = 2 :=
    Decimal.length_padded_of_lt (by decide) (Nat.lt_trans reduced.seconds (by decide))
  have milliseconds : (Decimal.padded 3 fields.milliseconds).length = 3 :=
    Decimal.length_padded_of_lt (by decide) reduced.milliseconds
  have microseconds : (Decimal.padded 3 fields.microseconds).length = 3 :=
    Decimal.length_padded_of_lt (by decide) reduced.microseconds
  simp only [Fields.text, List.length_cons, List.length_append, minutes, seconds, milliseconds,
    microseconds, List.length_nil]
  omega

/-- The buffer holds the whole text, and it decodes to the uptime it was written for. -/
structure Complete (now : Microseconds) : Prop where
  whole : timestamp now = (fields now).text
  decodes : ∃ shown, decode (timestamp now) = some shown ∧ (shown.instant : Int) = now.count ∧
    shown.Reduced

/--
The timestamp is complete exactly for the first thousand hours of uptime.

A fourth digit of the hours leaves no place for the closing bracket.
-/
theorem timestamp_complete_iff (now : Microseconds) (forward : 0 ≤ now.count)
    (fits : now.count < 9223372036854775808) :
    Complete now ↔ now.count < 3600000000000 := by
  obtain ⟨hours, reduced, instant⟩ := fields_exact forward fits
  have length := length_text reduced
  have digits : (Decimal.padded 2 (fields now).hours).length ≤ 3 ↔ (fields now).hours < 10 ^ 3 :=
    Decimal.length_padded_le_iff _ (by decide) (by decide)
  constructor
  · intro complete
    -- What is left in the buffer has at most 19 characters, so the whole text has.
    have cut : (fields now).text.length ≤ 19 := by
      rw [← complete.whole]
      exact List.length_take_le 19 _
    have few := digits.mp (by omega)
    omega
  · intro early
    have few := digits.mpr (by omega)
    have whole : timestamp now = (fields now).text := List.take_of_length_le (by omega)
    refine ⟨whole, fields now, ?_, instant, reduced⟩
    rw [whole]
    exact decode_text _

/-- One microsecond before the thousandth hour the timestamp is complete. -/
theorem timestamp_complete_last : Complete ⟨3599999999999⟩ :=
  -- This is the last uptime with three digits of hours.
  (timestamp_complete_iff ⟨3599999999999⟩ (by decide) (by decide)).mpr (by decide)

/-- At the thousandth hour the closing bracket is cut off. -/
theorem timestamp_cut :
    ¬ Complete ⟨3600000000000⟩ ∧
      timestamp ⟨3600000000000⟩ = "[1000:00:00.000,000".toList := by
  -- The text is a character longer than the buffer keeps.
  refine ⟨fun complete => ?_, by decide⟩
  have whole := complete.whole
  revert whole
  decide

end Notus.MajorError
