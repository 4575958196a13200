import Mathlib.Logic.Function.Basic
import Notus.Core.Fixed

/-! An error is an enumerator as an int, with a pointer to the domain that knows its enum. -/

namespace Notus.CustomErrors

/-- An enum type, by the integer type its values are stored in. -/
structure ErrorEnum where
  signed : Bool
  width : Nat
  positive : 0 < width
  deriving DecidableEq

namespace ErrorEnum

/-- What an enum class is stored in when it does not say otherwise. -/
def int : ErrorEnum :=
  { signed := true, width := 32, positive := by decide }

/-- The numbers that an enum has a value for. -/
def Holds (E : ErrorEnum) (number : Int) : Prop :=
  -- A value need not have a name to be a value of the enum.
  if E.signed = true then Fixed.Fits E.width number else 0 ≤ number ∧ number < 2 ^ E.width

instance (E : ErrorEnum) (number : Int) : Decidable (E.Holds number) :=
  inferInstanceAs (Decidable (if E.signed = true then _ else _))

/-- A value of an enum type. -/
@[ext]
structure Value (E : ErrorEnum) where
  number : Int
  held : E.Holds number
  deriving DecidableEq

/-- A value is reduced to an int, which loses the upper part of a wider one. -/
def Value.toInt {E : ErrorEnum} (value : E.Value) : Int :=
  Fixed.signed 32 value.number

/-- The number of the value that an int is converted to. -/
def convert (E : ErrorEnum) (code : Int) : Int :=
  -- A single unsigned bit is a truth value, and every other int than zero is true.
  if E.signed = true then Fixed.signed E.width code
  else if E.width = 1 then if code = 0 then 0 else 1
  else Fixed.unsigned E.width code

/-- A conversion always ends in a value of the enum. -/
theorem holds_convert (E : ErrorEnum) (code : Int) : E.Holds (E.convert code) := by
  -- A truth value is the one conversion that does not wrap around.
  unfold Holds convert
  split
  · exact Fixed.signed_fits
  · split
    · rename_i single
      rw [single]
      split <;> decide
    · exact ⟨Int.natCast_nonneg _, Fixed.unsigned_lt⟩

/-- An int is converted to a value of an enum. -/
def ofInt (E : ErrorEnum) (code : Int) : E.Value :=
  { number := E.convert code, held := E.holds_convert code }

/-- Two values are reduced to the same int when they differ by whole wraps of an int. -/
theorem Value.toInt_eq_toInt {E F : ErrorEnum} {left : E.Value} {right : F.Value} :
    left.toInt = right.toInt ↔ (2 : Int) ^ 32 ∣ left.number - right.number :=
  -- The enums of the two values play no part in it.
  Fixed.signed_eq_signed

/-- A value of an enum that is no wider than an int comes back from its int. -/
theorem ofInt_toInt {E : ErrorEnum} (narrow : E.width ≤ 32) (value : E.Value) :
    E.ofInt value.toInt = value := by
  obtain ⟨number, held⟩ := value
  apply Value.ext
  change E.convert (Fixed.signed 32 number) = number
  unfold Holds at held
  unfold convert
  split
  · rename_i signed
    rw [if_pos signed] at held
    rw [Fixed.signed_signed narrow]
    exact Fixed.signed_of_fits E.positive held
  · rename_i unsigned
    rw [if_neg unsigned] at held
    split
    · -- The truth values are the two numbers of a single bit.
      rename_i single
      rw [single] at held
      obtain rfl | rfl : number = 0 ∨ number = 1 := by omega
      · decide
      · decide
    · rw [Fixed.unsigned_signed narrow]
      exact Fixed.unsigned_of_fits held.1 held.2

/-- No two values of an enum that is no wider than an int are reduced to the same int. -/
theorem Value.toInt_injective {E : ErrorEnum} (narrow : E.width ≤ 32) :
    Function.Injective (Value.toInt (E := E)) :=
  -- What comes back from its int was not confused with another value.
  Function.LeftInverse.injective (ofInt_toInt narrow)

end ErrorEnum

/-- The int of an enumerator, and where the domain of its enum is. -/
@[ext]
structure ErrorCode (Address : Type*) where
  mValue : Int := 0
  mDomain : Option Address := none
  deriving DecidableEq

namespace ErrorCode

variable {Address : Type*}

/-- An error code is constructed from a value of an enum and the domain of that enum. -/
def construct {E : ErrorEnum} (e : E.Value) (domain : Address) : ErrorCode Address :=
  { mValue := e.toInt, mDomain := some domain }

def value (code : ErrorCode Address) : Int :=
  code.mValue

/-- Asking for the domain where there is none has no result. -/
def domain (code : ErrorCode Address) : Option Address :=
  code.mDomain

/-- An error code counts as an error by its value alone. -/
def toBool (code : ErrorCode Address) : Bool :=
  code.mValue != 0

/-- Two error codes are compared member by member. -/
def eq [DecidableEq Address] (lhs rhs : ErrorCode Address) : Bool :=
  lhs.mValue == rhs.mValue && lhs.mDomain == rhs.mDomain

/-- The comparison of the members decides whether two error codes are the same. -/
theorem eq_iff [DecidableEq Address] {lhs rhs : ErrorCode Address} :
    lhs.eq rhs = true ↔ lhs = rhs := by
  -- The two members are all there is to an error code.
  simp [eq, ErrorCode.ext_iff]

end ErrorCode

/-- The virtual functions of a domain, where `none` is a call without defined behavior. -/
structure ErrorDomainBase (Address : Type*) where
  name : String
  message : Int → String
  equivalent : ErrorCode Address → Int → Option Bool
  /-- The overload with the int on the left. -/
  equivalentInt : Int → ErrorCode Address → Option Bool

/-- What the author of a domain gives: a name, and a message for each value of the enum. -/
structure ErrorDomain (E : ErrorEnum) where
  mName : String
  getMessage : E.Value → String

/-- The virtual functions of the domain that lives at an address. -/
def ErrorDomain.base {E : ErrorEnum} {Address : Type*} [DecidableEq Address]
    (domain : ErrorDomain E) (this : Address) : ErrorDomainBase Address :=
  -- Both comparisons ask for the domain of the error code before they look at its value.
  { name := domain.mName
    message := fun code => domain.getMessage (E.ofInt code)
    equivalent := fun lhs rhs =>
      lhs.domain.map fun address => address == this && lhs.value == rhs
    equivalentInt := fun lhs rhs =>
      rhs.domain.map fun address => address == this && rhs.value == lhs }

/-- Enums with one domain each, which live at addresses of their own. -/
structure Family (Enum Address : Type*) [DecidableEq Address] where
  enum : Enum → ErrorEnum
  object : (E : Enum) → ErrorDomain (enum E)
  address : Enum → Address
  distinct : Function.Injective address
  /-- The virtual functions that a call through a pointer reaches. -/
  memory : Address → ErrorDomainBase Address
  stored : ∀ E, memory (address E) = (object E).base (address E)

namespace Family

variable {Enum Address : Type*} [DecidableEq Address]

/-- A value of one of the enums. -/
abbrev Enumerator (family : Family Enum Address) :=
  (E : Enum) × (family.enum E).Value

/-- An error code is made from an enumerator with the domain of its enum. -/
def makeErrorCode (family : Family Enum Address) (err : family.Enumerator) : ErrorCode Address :=
  .construct err.2 (family.address err.1)

/-- The message is the one of the domain, and there is one for no domain too. -/
def message (family : Family Enum Address) (code : ErrorCode Address) : String :=
  match code.mDomain with
  | some domain => (family.memory domain).message code.mValue
  | none => "No error"

/-- An error code is compared with an enumerator by the domain of the error code. -/
def eqEnum (family : Family Enum Address) (lhs : ErrorCode Address) (rhs : family.Enumerator) :
    Option Bool :=
  -- What enum the enumerator belongs to is lost here, for only its int is passed on.
  match lhs.mDomain with
  | some domain => (family.memory domain).equivalent lhs rhs.2.toInt
  | none => some false

/-- The error codes there are: the one without a domain, and those made from an enumerator. -/
inductive Built (family : Family Enum Address) : ErrorCode Address → Prop
  | default : Built family {}
  | makeErrorCode (err : family.Enumerator) : Built family (family.makeErrorCode err)

end Family

end Notus.CustomErrors
