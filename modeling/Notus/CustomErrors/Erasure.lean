import Notus.CustomErrors

/-! An error code stands for an enumerator of any of the enums, or for no error. -/

namespace Notus.CustomErrors.Family

variable {Enum Address : Type*} [DecidableEq Address]

/-- The error code of what it is to stand for. -/
def erase (family : Family Enum Address) : Option family.Enumerator → ErrorCode Address
  | none => {}
  | some err => family.makeErrorCode err

/-- Every error code there is stands for something. -/
theorem built_iff_erase {family : Family Enum Address} {code : ErrorCode Address} :
    family.Built code ↔ ∃ meant, family.erase meant = code := by
  -- The two ways to build an error code are the two things it can stand for.
  constructor
  · intro built
    cases built with
    | default => exact ⟨none, rfl⟩
    | makeErrorCode err => exact ⟨some err, rfl⟩
  · rintro ⟨meant, rfl⟩
    cases meant with
    | none => exact .default
    | some err => exact .makeErrorCode err

/-- An enum is told by where its domain lives, and a value of it by its int. -/
theorem makeErrorCode_eq_makeErrorCode {family : Family Enum Address}
    {left right : family.Enumerator} :
    family.makeErrorCode left = family.makeErrorCode right ↔
      left.1 = right.1 ∧ left.2.toInt = right.2.toInt := by
  -- No two domains live at one address.
  rw [makeErrorCode, makeErrorCode, ErrorCode.construct, ErrorCode.construct, ErrorCode.mk.injEq,
    Option.some.injEq, family.distinct.eq_iff]
  exact And.comm

/-- No enum of the family is stored in more bits than an int has. -/
def Narrow (family : Family Enum Address) : Prop :=
  ∀ E, (family.enum E).width ≤ 32

/-- Where an int holds every value, an error code stands for one enumerator at most. -/
theorem makeErrorCode_injective {family : Family Enum Address} (narrow : family.Narrow) :
    Function.Injective family.makeErrorCode := by
  -- The address gives the enum, and then the int gives the value.
  rintro ⟨E, left⟩ ⟨F, right⟩ same
  obtain ⟨enums, ints⟩ := makeErrorCode_eq_makeErrorCode.mp same
  obtain rfl : E = F := enums
  exact congrArg (Sigma.mk E) (ErrorEnum.Value.toInt_injective (narrow E) ints)

/-- The absence of an error is not taken for an error either. -/
theorem erase_injective {family : Family Enum Address} (narrow : family.Narrow) :
    Function.Injective family.erase := by
  -- Only the error code for no error has no domain.
  intro left right same
  match left, right with
  | none, none => rfl
  | none, some err => cases congrArg ErrorCode.mDomain same
  | some err, none => cases congrArg ErrorCode.mDomain same
  | some left, some right => rw [makeErrorCode_injective narrow same]

/-- The comparison of the members decides whether two error codes stand for the same. -/
theorem eq_erase {family : Family Enum Address} (narrow : family.Narrow)
    {left right : Option family.Enumerator} :
    (family.erase left).eq (family.erase right) = true ↔ left = right := by
  -- Being equal member by member is being the same.
  rw [ErrorCode.eq_iff, (erase_injective narrow).eq_iff]

/-- An error code counts as an error when it stands for an enumerator that is not zero as an int. -/
theorem toBool_erase {family : Family Enum Address} {meant : Option family.Enumerator} :
    (family.erase meant).toBool = true ↔ ∃ err, meant = some err ∧ err.2.toInt ≠ 0 := by
  -- The enumerator that an enum begins with is zero unless it is given another number.
  cases meant with
  | none => simp [erase, ErrorCode.toBool]
  | some err => simp [erase, ErrorCode.toBool, makeErrorCode, ErrorCode.construct]

/-- The message of an error code is the one that was given for its enumerator. -/
theorem message_makeErrorCode {family : Family Enum Address} {err : family.Enumerator}
    (narrow : (family.enum err.1).width ≤ 32) :
    family.message (family.makeErrorCode err) = (family.object err.1).getMessage err.2 := by
  -- The domain converts the int back before it looks for the message.
  change (family.memory (family.address err.1)).message err.2.toInt = _
  rw [family.stored]
  change (family.object err.1).getMessage ((family.enum err.1).ofInt err.2.toInt) = _
  rw [ErrorEnum.ofInt_toInt narrow]

end Notus.CustomErrors.Family
