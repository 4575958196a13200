import Notus.CustomErrors.Domains

/-! One equality looks at who owns an enumerator, and the other asks only the owner of the code. -/

namespace Notus.CustomErrors

namespace Family

variable {Enum Address : Type*} [DecidableEq Address]

/-- A call through the pointer to a domain reaches the comparison of that very domain. -/
theorem equivalent_address (family : Family Enum Address) (E : Enum) (lhs : ErrorCode Address)
    (rhs : Int) :
    (family.memory (family.address E)).equivalent lhs rhs =
      lhs.mDomain.map fun domain => domain == family.address E && lhs.mValue == rhs := by
  -- At that address the domain of the enum is stored.
  rw [family.stored]
  rfl

/-- The two overloads of a domain's comparison say the same. -/
theorem equivalentInt_address (family : Family Enum Address) (E : Enum) (lhs : Int)
    (rhs : ErrorCode Address) :
    (family.memory (family.address E)).equivalentInt lhs rhs =
      (family.memory (family.address E)).equivalent rhs lhs := by
  -- Each of them takes the error code for what the other takes it for.
  rw [family.stored]
  rfl

/-- The domain of the enumerator would compare an error code the way its members are compared. -/
theorem equivalent_owner (family : Family Enum Address) {lhs : ErrorCode Address}
    (pointing : lhs.mDomain.isSome) (rhs : family.Enumerator) :
    (family.memory (family.address rhs.1)).equivalent lhs rhs.2.toInt =
      some (lhs.eq (family.makeErrorCode rhs)) := by
  -- It compares the address with its own, which is that of the enumerator's code.
  obtain ⟨domain, points⟩ := Option.isSome_iff_exists.mp pointing
  rw [equivalent_address, points, Option.map_some, ErrorCode.eq, points, Bool.and_comm]
  rfl

/-- The domain of the error code finds itself, so only the ints are compared. -/
theorem eqEnum_makeErrorCode (family : Family Enum Address) (err rhs : family.Enumerator) :
    family.eqEnum (family.makeErrorCode err) rhs = some (err.2.toInt == rhs.2.toInt) := by
  -- The address that is compared is the one that the call went through.
  change (family.memory (family.address err.1)).equivalent _ _ = _
  rw [equivalent_address]
  simp [makeErrorCode, ErrorCode.construct]

/-- The comparison with an enumerator has a result for each error code there is. -/
theorem eqEnum_of_built {family : Family Enum Address} {code : ErrorCode Address}
    (built : family.Built code) (rhs : family.Enumerator) :
    family.eqEnum code rhs = some (code.mDomain.isSome && code.mValue == rhs.2.toInt) := by
  -- Without a domain the comparison does not get as far as a call.
  cases built with
  | default => rfl
  | makeErrorCode err => exact family.eqEnum_makeErrorCode err rhs

/-- An error code equals an enumerator of any enum whose int is that of what it stands for. -/
theorem eqEnum_erase {family : Family Enum Address} {meant : Option family.Enumerator}
    {rhs : family.Enumerator} :
    family.eqEnum (family.erase meant) rhs = some true ↔
      ∃ err, meant = some err ∧ err.2.toInt = rhs.2.toInt := by
  -- The enum of the enumerator has no part in the comparison.
  cases meant with
  | none => simp [erase, eqEnum]
  | some err => simp [erase, eqEnum_makeErrorCode]

/-- Within one enum that an int holds, an error code equals its own enumerator alone. -/
theorem eqEnum_same_enum {family : Family Enum Address} {E : Enum}
    (narrow : (family.enum E).width ≤ 32) {left right : (family.enum E).Value} :
    family.eqEnum (family.makeErrorCode ⟨E, left⟩) ⟨E, right⟩ = some true ↔ left = right := by
  -- An int that holds the enum tells its values apart.
  rw [eqEnum_makeErrorCode, Option.some.injEq, beq_iff_eq,
    (ErrorEnum.Value.toInt_injective narrow).eq_iff]

/-- The two equalities agree where there is no domain, the same domain, or another int. -/
theorem eqEnum_eq_iff {family : Family Enum Address} {code : ErrorCode Address}
    (built : family.Built code) (rhs : family.Enumerator) :
    family.eqEnum code rhs = some (code.eq (family.makeErrorCode rhs)) ↔
      code.mDomain = none ∨ code.mDomain = some (family.address rhs.1) ∨
        code.mValue ≠ rhs.2.toInt := by
  -- Only for equal ints does it matter whether the domain is looked at.
  rw [eqEnum_of_built built, Option.some.injEq]
  change ((code.mDomain.isSome && code.mValue == rhs.2.toInt) =
    (code.mValue == rhs.2.toInt && code.mDomain == some (family.address rhs.1))) ↔ _
  cases code.mDomain with
  | none => simp
  | some domain =>
    by_cases ints : code.mValue = rhs.2.toInt
    · simp [ints]
    · simp [ints]

/-- An error code equals another enumerator than its own when their numbers differ by wraps. -/
theorem eqEnum_distinguishes_iff {family : Family Enum Address} (err rhs : family.Enumerator) :
    (family.eqEnum (family.makeErrorCode err) rhs = some true → err = rhs) ↔
      ¬ (2 : Int) ^ 32 ∣ err.2.number - rhs.2.number ∨ err = rhs := by
  -- The comparison holds exactly when the numbers differ by whole wraps.
  rw [eqEnum_makeErrorCode, Option.some.injEq, beq_iff_eq, ErrorEnum.Value.toInt_eq_toInt]
  exact imp_iff_not_or

end Family

/--
The two equalities agree unless an error code has the int of an enumerator of another enum.

Only by their numbers is an error code told from the enumerators it does not stand for.
-/
theorem equalities_agree_iff {Enum Address : Type*} [DecidableEq Address]
    (family : Family Enum Address) (e1 e2 : family.Enumerator) {ec : ErrorCode Address}
    (built : family.Built ec) :
    (family.eqEnum ec e2 = some (ec.eq (family.makeErrorCode e2)) ↔
      ec.mDomain = none ∨ ec.mDomain = some (family.address e2.1) ∨ ec.mValue ≠ e2.2.toInt) ∧
    ((family.eqEnum (family.makeErrorCode e1) e2 = some true → e1 = e2) ↔
      ¬ (2 : Int) ^ 32 ∣ e1.2.number - e2.2.number ∨ e1 = e2) :=
  -- The domain decides the first part, and the numbers decide the second.
  ⟨Family.eqEnum_eq_iff built e2, Family.eqEnum_distinguishes_iff e1 e2⟩

/-- A connection that timed out is no missing file, for both equalities. -/
theorem equalities_agree_timeout :
    domains.eqEnum (domains.makeErrorCode ⟨.network, NetworkError.timeout⟩)
        ⟨.file, FileError.notFound⟩ =
      some ((domains.makeErrorCode ⟨.network, NetworkError.timeout⟩).eq
        (domains.makeErrorCode ⟨.file, FileError.notFound⟩)) ∧
    (domains.eqEnum (domains.makeErrorCode ⟨.network, NetworkError.timeout⟩)
        ⟨.file, FileError.notFound⟩ = some true →
      (⟨.network, NetworkError.timeout⟩ : domains.Enumerator) = ⟨.file, FileError.notFound⟩) := by
  -- Their ints are one and zero.
  obtain ⟨agree, distinguish⟩ := equalities_agree_iff domains ⟨.network, NetworkError.timeout⟩
    ⟨.file, FileError.notFound⟩ (.makeErrorCode ⟨.network, NetworkError.timeout⟩)
  exact ⟨agree.mpr (Or.inr (Or.inr (by decide))), distinguish.mpr (Or.inl (by decide))⟩

/-- A failed connection is found to be a missing file by one equality, and not by the other. -/
theorem equalities_disagree :
    domains.eqEnum (domains.makeErrorCode ⟨.network, NetworkError.connectionFailed⟩)
        ⟨.file, FileError.notFound⟩ = some true ∧
      (domains.makeErrorCode ⟨.network, NetworkError.connectionFailed⟩).eq
        (domains.makeErrorCode ⟨.file, FileError.notFound⟩) = false ∧
      (⟨.network, NetworkError.connectionFailed⟩ : domains.Enumerator) ≠
        ⟨.file, FileError.notFound⟩ := by
  -- Both of them are the first of their enum, so their ints are zero.
  decide

end Notus.CustomErrors
