import Mathlib.Algebra.Order.Ring.Int
import Mathlib.Algebra.Order.GroupWithZero.Basic
import Notus.CustomErrors.Equality

/-! What an error code stands for decides what it answers, as long as an int holds every enum. -/

namespace Notus.CustomErrors

namespace ErrorEnum

/-- An enum has a value for zero. -/
theorem holds_zero (E : ErrorEnum) : E.Holds 0 := by
  have positive : ∀ width : Nat, (0 : Int) < 2 ^ width := fun width => Int.pow_pos (by decide)
  -- Zero is no more than half a word away from either end.
  unfold Holds
  split
  · exact ⟨Int.neg_nonpos_of_nonneg (Int.le_of_lt (positive _)), positive _⟩
  · exact ⟨Int.le_refl 0, positive _⟩

/-- An enum that is wider than an int has a value a whole wrap away from zero. -/
theorem holds_wrap {E : ErrorEnum} (wide : 32 < E.width) :
    ∃ number, E.Holds number ∧ number ≠ 0 ∧ (2 : Int) ^ 32 ∣ number := by
  -- A signed enum of one bit more ends just below the wrap above zero, so take the one below.
  by_cases signed : E.signed = true
  · have fits : (2 : Int) ^ 32 ≤ 2 ^ (E.width - 1) :=
      pow_le_pow_right₀ (by decide) (Nat.le_sub_one_of_lt wide)
    refine ⟨-2 ^ 32, ?_, by decide, Int.dvd_neg.mpr (Int.dvd_refl _)⟩
    rw [Holds, if_pos signed]
    constructor
    · omega
    · omega
  · have fits : (2 : Int) ^ 32 < 2 ^ E.width := pow_lt_pow_right₀ (by decide) wide
    refine ⟨2 ^ 32, ?_, by decide, Int.dvd_refl _⟩
    rw [Holds, if_neg signed]
    exact ⟨by decide, fits⟩

/-- An int tells the values of an enum apart when the enum is not the wider of the two. -/
theorem Value.toInt_injective_iff {E : ErrorEnum} :
    Function.Injective (Value.toInt (E := E)) ↔ E.width ≤ 32 := by
  constructor
  · intro apart
    by_contra wider
    -- Zero and the value a wrap away from it have the same int.
    obtain ⟨number, held, nonzero, wraps⟩ := E.holds_wrap (Nat.lt_of_not_le wider)
    have same : Value.toInt ⟨number, held⟩ = Value.toInt ⟨0, E.holds_zero⟩ := by
      rw [Value.toInt_eq_toInt]
      simpa using wraps
    exact nonzero (congrArg Value.number (apart same))
  · exact Value.toInt_injective

/-- Where an int holds every value, only the value zero counts as no error. -/
theorem Value.toInt_ne_zero {E : ErrorEnum} (narrow : E.width ≤ 32) {value : E.Value} :
    value.toInt ≠ 0 ↔ value.number ≠ 0 := by
  -- The value zero is the only one whose int is zero.
  have zero : Value.toInt ⟨0, E.holds_zero⟩ = 0 := by
    rw [Value.toInt, Fixed.signed, Int.zero_bmod]
  have same := (Value.toInt_injective narrow).eq_iff (a := value) (b := ⟨0, E.holds_zero⟩)
  rw [zero, Value.ext_iff] at same
  exact not_congr same

end ErrorEnum

namespace Family

variable {Enum Address : Type*} [DecidableEq Address]

/-- What can be found out about an error code that is to stand for something. -/
structure Tells (family : Family Enum Address) (code : ErrorCode Address)
    (meant : Option family.Enumerator) : Prop where
  /-- Whether it is an error. -/
  toBool : code.toBool = true ↔ ∃ err, meant = some err ∧ err.2.number ≠ 0
  message : family.message code =
    meant.elim "No error" fun err => (family.object err.1).getMessage err.2
  /-- Which other error codes it equals. -/
  eq : ∀ other, code.eq (family.erase other) = true ↔ meant = other
  /-- Which enumerators it equals: of an enum that is not its own, those with the same int. -/
  eqEnum : ∀ rhs, family.eqEnum code rhs = some true ↔
    ∃ err, meant = some err ∧ err.2.toInt = rhs.2.toInt
  own : ∀ err rhs, meant = some err → err.1 = rhs.1 →
    (family.eqEnum code rhs = some true ↔ err = rhs)
  /-- What the domain of an enumerator would say, which the comparison does not ask. -/
  equivalent : ∀ err rhs, meant = some err →
    ((family.memory (family.address rhs.1)).equivalent code rhs.2.toInt = some true ↔ err = rhs)
  equivalentInt : ∀ err rhs, meant = some err →
    ((family.memory (family.address rhs.1)).equivalentInt rhs.2.toInt code = some true ↔ err = rhs)

/-- The domain of an enumerator finds out whether an error code stands for it. -/
theorem equivalent_erase {family : Family Enum Address} (narrow : family.Narrow)
    {err rhs : family.Enumerator} :
    (family.memory (family.address rhs.1)).equivalent (family.makeErrorCode err) rhs.2.toInt =
      some true ↔ err = rhs := by
  -- It compares what the comparison of two error codes compares.
  rw [family.equivalent_owner rfl, Option.some.injEq, ErrorCode.eq_iff,
    (makeErrorCode_injective narrow).eq_iff]

/-- Where an int holds every value, what an error code stands for answers all questions about it. -/
theorem tells_of_narrow {family : Family Enum Address} (narrow : family.Narrow)
    (meant : Option family.Enumerator) : family.Tells (family.erase meant) meant where
  -- Each question has its own lemma, and those about ints take that none is lost.
  toBool := by
    rw [toBool_erase]
    exact exists_congr fun err => and_congr_right fun _ =>
      ErrorEnum.Value.toInt_ne_zero (narrow err.1)
  message := by
    cases meant with
    | none => rfl
    | some err => exact message_makeErrorCode (narrow err.1)
  eq := fun _ => eq_erase narrow
  eqEnum := fun _ => eqEnum_erase
  own := by
    rintro ⟨E, left⟩ ⟨F, right⟩ rfl (rfl : E = F)
    rw [erase, eqEnum_same_enum (narrow E), Sigma.mk.injEq]
    simp
  equivalent := by
    rintro err rhs rfl
    exact equivalent_erase narrow
  equivalentInt := by
    rintro err rhs rfl
    rw [equivalentInt_address]
    exact equivalent_erase narrow

/-- An int tells apart what error codes stand for when it holds every value of every enum. -/
theorem narrow_of_injective {family : Family Enum Address}
    (apart : Function.Injective family.erase) : family.Narrow := by
  intro E
  rw [← ErrorEnum.Value.toInt_injective_iff]
  intro left right same
  -- Two values of one enum with the same int have the same error code.
  have codes : family.erase (some ⟨E, left⟩) = family.erase (some ⟨E, right⟩) :=
    makeErrorCode_eq_makeErrorCode.mpr ⟨rfl, same⟩
  simpa using apart codes

end Family

end Notus.CustomErrors
