import Mathlib.Logic.Function.Iterate
import Notus.LittlefsSample

/-! The pattern after any number of increments, byte by byte. -/

namespace Notus.LittlefsSample

/-- A byte of the pattern that was counted up so many times. -/
def patternByte (size count index : Nat) : UInt8 :=
  if index + 1 = size then 0xAA + UInt8.ofNat count
  else if index % 8 = 0 then UInt8.ofNat (index / 8 + 1 + count)
  -- What is filled in follows the first number, and the first pattern is filled without it.
  else if count ≠ 0 ∧ count % 2 = 0 then 0xAA
  else 0x55

/-- The pattern that was counted up so many times. -/
def pattern (size count : Nat) : List UInt8 :=
  (List.range size).map (patternByte size count)

@[simp] theorem length_pattern (size count : Nat) : (pattern size count).length = size := by
  -- There is one byte for each index.
  simp [pattern]

theorem getElem?_pattern {size count index : Nat} (within : index < size) :
    (pattern size count)[index]? = some (patternByte size count index) := by
  -- The pattern is a table of its bytes.
  simp [pattern, within]

/-- The numbers are written in order, eight bytes apart, and the bytes between are left. -/
theorem numbered (size rounds : Nat) :
    let state := Loop.run rounds (fun round (p, v) => (p.set (8 * round) v, v + 1))
      (List.replicate size (0x55 : UInt8), (1 : UInt8))
    state.2 = UInt8.ofNat (rounds + 1) ∧ state.1.length = size ∧
      ∀ index < size, state.1[index]? = some
        (if index % 8 = 0 ∧ index / 8 < rounds then UInt8.ofNat (index / 8 + 1) else 0x55) := by
  intro state
  -- After some rounds, as many numbers are in their places, and the next one is ready.
  let inv (round : Nat) (state : List UInt8 × UInt8) : Prop :=
    state.2 = UInt8.ofNat (round + 1) ∧ state.1.length = size ∧
      ∀ index < size, state.1[index]? = some
        (if index % 8 = 0 ∧ index / 8 < round then UInt8.ofNat (index / 8 + 1) else 0x55)
  have start : inv 0 (List.replicate size (0x55 : UInt8), (1 : UInt8)) := by
    refine ⟨rfl, List.length_replicate, fun index within => ?_⟩
    simp [within]
  have next : ∀ round < rounds, ∀ state, inv round state →
      inv (round + 1) (state.1.set (8 * round) state.2, state.2 + 1) := by
    rintro round fewer ⟨p, v⟩ ⟨value, length, entries⟩
    simp only at value length entries
    refine ⟨by simp [value, UInt8.ofNat_add], by simpa using length, fun index inside => ?_⟩
    rw [List.getElem?_set, entries index inside]
    -- The number of this round is written at its own place, and nowhere else.
    by_cases here : 8 * round = index
    · subst here
      simp [length, inside, value]
    · have other : index % 8 = 0 ∧ index / 8 < round + 1 ↔ index % 8 = 0 ∧ index / 8 < round := by
        omega
      rw [if_neg here]
      simp only [other]
  exact Loop.invariant start next

/-- The first pattern is one that was never counted up. -/
theorem initPattern_eq {size : Nat} (nonempty : 0 < size) : initPattern size = pattern size 0 := by
  obtain ⟨_, length, entries⟩ := numbered size ((size + 7) / 8)
  -- The two lists are compared byte by byte.
  refine List.ext_getElem? fun index => ?_
  by_cases inside : index < size
  · rw [getElem?_pattern inside]
    simp only [initPattern]
    rw [List.getElem?_set, length, entries index inside]
    -- The last byte is written over, whatever it was.
    by_cases last : index + 1 = size
    · have place : size - 1 = index := by omega
      simp [patternByte, last, place, inside]
    · have place : size - 1 ≠ index := by omega
      have numbered : index / 8 < (size + 7) / 8 := by omega
      simp [patternByte, last, place, numbered]
  · simp [initPattern, length, pattern, Nat.le_of_not_lt inside]

/-- Whether a number of eight bits is even can be seen before it is cut to eight bits. -/
theorem even_ofNat (number : Nat) : UInt8.ofNat number % 2 = 0 ↔ number % 2 = 0 := by
  -- Eight bits are cut off at an even number.
  rw [← UInt8.toNat_inj]
  simp only [UInt8.toNat_mod, UInt8.toNat_ofNat']
  simp

/-- The first number of a pattern tells how often it was counted up. -/
theorem head_pattern {size count : Nat} (wide : 1 < size) :
    (pattern size count).headD 0 = UInt8.ofNat (count + 1) := by
  -- The first byte is a number, since it is not the last one.
  have inside : 0 < size := by omega
  have first : 0 + 1 ≠ size := by omega
  rw [List.headD_eq_head?_getD, List.head?_eq_getElem?, getElem?_pattern inside]
  simp [patternByte, first, Nat.add_comm]

/-- What is filled in when a pattern is counted up. -/
def fill (count : Nat) : UInt8 :=
  if (count + 1) % 2 = 0 then 0xAA else 0x55

/-- The loop counts the numbers up and fills in what is between them, but for the last byte. -/
theorem exists_looped {size count : Nat} (wide : 1 < size) :
    ∃ looped : List UInt8, incrPattern (pattern size count) 1 =
        looped.set (size - 1) (looped[size - 1]?.getD 0 + 1) ∧
      looped.length = size ∧ ∀ index < size, looped[index]? = some
        (if index + 1 = size then patternByte size count index
        else if index % 8 = 0 then patternByte size count index + 1 else fill count) := by
  -- What the loop writes at a place depends on what was there alone.
  let value (i : Nat) (old : Option UInt8) : UInt8 :=
    if i % 8 = 0 then old.getD 0 + 1 else fill count
  obtain ⟨length, entries⟩ := Loop.run_set (size - 1) value (pattern size count)
  refine ⟨_, ?_, length.trans (length_pattern size count), fun index inside => ?_⟩
  · -- What is filled in was decided before the loop.
    simp only [incrPattern, length_pattern, head_pattern wide, even_ofNat]
    rfl
  · rw [entries, getElem?_pattern inside, length_pattern]
    by_cases last : index + 1 = size
    · have beyond : ¬ index < size - 1 := by omega
      rw [if_neg fun both => beyond both.1, if_pos last]
    · have before : index < size - 1 := by omega
      rw [if_pos ⟨before, inside⟩, if_neg last]
      rfl

/-- Counting up writes bytes over, and adds none. -/
@[simp] theorem length_incrPattern (p : List UInt8) (inc : UInt8) :
    (incrPattern p inc).length = p.length := by
  -- The loop sets bytes of the pattern, and the last byte is set after it.
  let value (i : Nat) (old : Option UInt8) : UInt8 :=
    if i % 8 = 0 then old.getD 0 + inc else if p.headD 0 % 2 = 0 then 0xAA else 0x55
  have looped := (Loop.run_set (p.length - 1) value p).1
  simp only [incrPattern, List.length_set]
  exact looped

/-- A pattern that is counted up once more is the next one. -/
theorem incrPattern_pattern {size count : Nat} (wide : 1 < size) :
    incrPattern (pattern size count) 1 = pattern size (count + 1) := by
  obtain ⟨looped, written, length, entries⟩ := @exists_looped size count wide
  rw [written]
  refine List.ext_getElem? fun index => ?_
  by_cases inside : index < size
  · rw [getElem?_pattern inside, List.getElem?_set, length]
    -- The last byte is counted up after the loop, which leaves it as it is.
    by_cases last : index + 1 = size
    · have place : size - 1 = index := by omega
      rw [if_pos place, if_pos (by omega), place, entries index inside]
      simp [last, patternByte, UInt8.ofNat_add, UInt8.add_assoc]
    · have place : size - 1 ≠ index := by omega
      rw [if_neg place, entries index inside]
      by_cases number : index % 8 = 0
      · simp [last, number, patternByte, UInt8.ofNat_add, UInt8.add_assoc]
      · simp [last, number, patternByte, fill]
  · simp [length, Nat.le_of_not_lt inside]

/-- A pattern tells how often it was counted up, as far as eight bits can, and if it was at all. -/
theorem pattern_eq_iff {size : Nat} (wide : 2 < size) (count other : Nat) :
    pattern size count = pattern size other ↔
      count % 256 = other % 256 ∧ (count = 0 ↔ other = 0) := by
  have same_number : ∀ before, UInt8.ofNat (before + count) = UInt8.ofNat (before + other) ↔
      count % 256 = other % 256 := by
    intro before
    rw [← UInt8.toNat_inj]
    simp only [UInt8.toNat_ofNat']
    omega
  constructor
  · intro same
    -- The first two bytes tell all that there is to know.
    have entry : ∀ index < size, patternByte size count index = patternByte size other index := by
      intro index inside
      have both := congrArg (·[index]?) same
      simpa only [getElem?_pattern inside, Option.some.injEq] using both
    have zeroth := entry 0 (by omega)
    have first := entry 1 (by omega)
    have notLast : ¬ 0 + 1 = size := by omega
    have notNext : ¬ 1 + 1 = size := by omega
    simp only [patternByte, if_neg notLast, if_neg notNext] at zeroth first
    have modulo := (same_number (0 / 8 + 1)).mp (by simpa using zeroth)
    refine ⟨modulo, ?_⟩
    -- Only the first pattern has no filling of its own, and the others repeat after an even number.
    simp only [Nat.reduceMod, Nat.one_ne_zero, if_false] at first
    have filling : count ≠ 0 ∧ count % 2 = 0 ↔ other ≠ 0 ∧ other % 2 = 0 := by
      constructor
      · intro filled
        by_contra unfilled
        rw [if_pos filled, if_neg unfilled] at first
        exact absurd first (by decide)
      · intro filled
        by_contra unfilled
        rw [if_neg unfilled, if_pos filled] at first
        exact absurd first (by decide)
    omega
  · rintro ⟨modulo, zero⟩
    have bytes : ∀ index, patternByte size count index = patternByte size other index := by
      intro index
      have numbers := (same_number (index / 8 + 1)).mpr modulo
      have lasts := (same_number 0).mpr modulo
      have filling : (count ≠ 0 ∧ count % 2 = 0) = (other ≠ 0 ∧ other % 2 = 0) :=
        propext (by omega)
      rw [Nat.zero_add, Nat.zero_add] at lasts
      simp only [patternByte, numbers, lasts, filling]
    simp only [pattern, funext bytes]

/-- Counting up from the first pattern gives all of them in order. -/
theorem iterate_incrPattern {size : Nat} (wide : 1 < size) (count : Nat) :
    (fun p => incrPattern p 1)^[count] (initPattern size) = pattern size count := by
  -- Each increment is one pattern further.
  induction count with
  | zero => exact initPattern_eq (Nat.zero_lt_of_lt wide)
  | succ count ih => rw [Function.iterate_succ_apply', ih, incrPattern_pattern wide]

/--
However often the first pattern was counted up, each byte is known from that number alone.

Patterns come again after 256 times, all but the first, which has a filling of its own.
-/
theorem counted_alike_iff {size : Nat} (wide : 2 < size) (count : Nat) :
    (∀ index < size, ((fun p => incrPattern p 1)^[count] (initPattern size))[index]? =
        some (patternByte size count index)) ∧
      ∀ other, (fun p => incrPattern p 1)^[count] (initPattern size) =
          (fun p => incrPattern p 1)^[other] (initPattern size) ↔
        count % 256 = other % 256 ∧ (count = 0 ↔ other = 0) := by
  -- The closed form is compared instead of the loops.
  have counted := iterate_incrPattern (Nat.lt_of_succ_lt wide)
  constructor
  · intro index inside
    rw [counted, getElem?_pattern inside]
  · intro other
    rw [counted, counted, pattern_eq_iff wide]

/-- The pattern of the 256th time comes again after as many times more, and never the first. -/
theorem counted_alike_round :
    (fun p => incrPattern p 1)^[256] (initPattern testFileSize) =
        (fun p => incrPattern p 1)^[512] (initPattern testFileSize) ∧
      (fun p => incrPattern p 1)^[256] (initPattern testFileSize) ≠
        (fun p => incrPattern p 1)^[0] (initPattern testFileSize) := by
  -- Both numbers of times are multiples of 256, and only the third one is zero.
  obtain ⟨_, alike⟩ := @counted_alike_iff testFileSize (by decide) 256
  exact ⟨(alike 512).mpr (by decide), mt (alike 0).mp (by decide)⟩

end Notus.LittlefsSample
