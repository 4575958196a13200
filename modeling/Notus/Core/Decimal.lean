import Mathlib.Algebra.Ring.Nat

/-! Decimal numbers of a minimum width, and reading them back from the head of a text. -/

namespace Decimal

/-- The digits of a number, with zeros before them up to a minimum width. -/
def padded (width number : Nat) : List Char :=
  -- A number that is wider is written in full.
  (Nat.toDigits 10 number).leftpad width '0'

/-- The number at the head of a text, and what follows its last digit. -/
def number (text : List Char) : Option (Nat × List Char) :=
  match text.takeWhile Char.isDigit with
  | [] => none
  | digits => some (Nat.ofDigitChars 10 digits 0, text.dropWhile Char.isDigit)

/-- What follows an expected character at the head of a text. -/
def expect (expected : Char) : List Char → Option (List Char)
  | [] => none
  | first :: rest => if first = expected then some rest else none

/-- Padding adds zeros, which are digits too. -/
theorem isDigit_of_mem_padded {width number : Nat} {digit : Char}
    (member : digit ∈ padded width number) : digit.isDigit := by
  -- A character of the number is from the padding or was written.
  rcases List.mem_append.mp member with zero | written
  · rw [List.eq_of_mem_replicate zero]
    rfl
  · exact Nat.isDigit_of_mem_toDigits (by decide) (by decide) written

/-- Zeros in front do not change the value. -/
theorem ofDigitChars_padded (width number : Nat) :
    Nat.ofDigitChars 10 (padded width number) 0 = number := by
  -- The library reads zeros in front as nothing.
  simp [padded, List.leftpad, Nat.ofDigitChars_append]

/-- The padded number is as wide as its digits, and never narrower than asked. -/
theorem length_padded (width number : Nat) :
    (padded width number).length = max width (Nat.toDigits 10 number).length := by
  -- What is padded is what is missing.
  simp only [padded, List.leftpad, List.length_append, List.length_replicate]
  omega

/-- A number fits into a width it is not padded beyond, when it has no more digits. -/
theorem length_padded_le_iff {width limit : Nat} (number : Nat) (positive : 0 < limit)
    (within : width ≤ limit) : (padded width number).length ≤ limit ↔ number < 10 ^ limit := by
  -- The number of digits decides, since the width is within the limit.
  rw [length_padded, ← Nat.length_toDigits_le_iff (by decide) positive]
  omega

/-- A number that fits its width is padded to exactly that. -/
theorem length_padded_of_lt {width number : Nat} (positive : 0 < width)
    (fits : number < 10 ^ width) : (padded width number).length = width := by
  -- Such a number has no more digits than the width.
  have atMost := (Nat.length_toDigits_le_iff (by decide) positive).mpr fits
  rw [length_padded]
  omega

/-- A padded number is read back where anything but a digit follows it. -/
theorem number_padded {width value : Nat} {stop : Char} {rest : List Char}
    (stops : stop.isDigit = false) :
    number (padded width value ++ stop :: rest) = some (value, stop :: rest) := by
  -- The digits are taken up to the first character that is not one.
  have digits : (padded width value ++ stop :: rest).takeWhile Char.isDigit =
      padded width value := by
    rw [List.takeWhile_append_of_pos fun _ => isDigit_of_mem_padded,
      List.takeWhile_cons_of_neg (by simp [stops]), List.append_nil]
  have others : (padded width value ++ stop :: rest).dropWhile Char.isDigit = stop :: rest := by
    rw [List.dropWhile_append_of_pos fun _ => isDigit_of_mem_padded,
      List.dropWhile_cons_of_neg (by simp [stops])]
  have nonempty : padded width value ≠ [] := by
    simp [padded, List.leftpad, Nat.toDigits_ne_nil]
  obtain ⟨first, more, written⟩ := List.exists_cons_of_ne_nil nonempty
  simp only [number, digits, others]
  rw [written, ← ofDigitChars_padded width value, written]

/-- The digits of an integer, behind zeros, and behind a sign where it is negative. -/
def signed (width : Nat) (number : Int) : List Char :=
  -- The sign is a part of the width.
  if number < 0 then '-' :: padded (width - 1) number.natAbs else padded width number.natAbs

/-- An integer is written with digits and a sign only. -/
theorem not_mem_signed {width : Nat} {number : Int} {char : Char} (other : char.isDigit = false)
    (unsigned : char ≠ '-') : char ∉ signed width number := by
  -- The character is neither a digit nor the sign.
  have digits : ∀ width, char ∉ padded width number.natAbs := fun width member => by
    rw [isDigit_of_mem_padded member] at other
    cases other
  unfold signed
  split
  · exact List.not_mem_cons_of_ne_of_not_mem unsigned (digits _)
  · exact digits _

/-- Numbers written with the same digits are the same. -/
theorem padded_inj {width number other : Nat} :
    padded width number = padded width other ↔ number = other := by
  -- Reading them back gives the numbers.
  refine ⟨fun same => ?_, fun same => same ▸ rfl⟩
  rw [← ofDigitChars_padded width number, same, ofDigitChars_padded]

/-- Integers written in the same way are the same. -/
theorem signed_inj {width : Nat} {number other : Int} :
    signed width number = signed width other ↔ number = other := by
  refine ⟨fun same => ?_, fun same => same ▸ rfl⟩
  -- Digits do not begin with a sign, so both have one or neither has.
  have apart : ∀ digits rest, padded width digits ≠ '-' :: rest := by
    intro digits rest written
    have head : '-' ∈ padded width digits := by
      rw [written]
      exact List.mem_cons_self
    exact absurd (isDigit_of_mem_padded head) (by decide)
  unfold signed at same
  split at same <;> split at same
  · have value := padded_inj.mp (List.cons.inj same).2
    omega
  · exact absurd same.symm (apart _ _)
  · exact absurd same (apart _ _)
  · have value := padded_inj.mp same
    omega

end Decimal
