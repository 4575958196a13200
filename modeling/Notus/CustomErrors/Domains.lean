import Notus.CustomErrors.Erasure

/-! The program's own enums, each with its domain. -/

namespace Notus.CustomErrors

namespace NetworkError

def connectionFailed : ErrorEnum.int.Value :=
  { number := 0, held := by decide }

def timeout : ErrorEnum.int.Value :=
  { number := 1, held := by decide }

def invalidAddress : ErrorEnum.int.Value :=
  { number := 2, held := by decide }

end NetworkError

namespace FileError

def notFound : ErrorEnum.int.Value :=
  { number := 0, held := by decide }

def permissionDenied : ErrorEnum.int.Value :=
  { number := 1, held := by decide }

def diskFull : ErrorEnum.int.Value :=
  { number := 2, held := by decide }

end FileError

/-- A value without a name has a message as well. -/
def networkDomain : ErrorDomain .int :=
  { mName := "network"
    getMessage := fun code =>
      if code = NetworkError.connectionFailed then "Connection failed"
      else if code = NetworkError.timeout then "Connection timed out"
      else if code = NetworkError.invalidAddress then "Invalid address"
      else "Unknown network error" }

/-- A value without a name has a message as well. -/
def fileDomain : ErrorDomain .int :=
  { mName := "file"
    getMessage := fun code =>
      if code = FileError.notFound then "File not found"
      else if code = FileError.permissionDenied then "Permission denied"
      else if code = FileError.diskFull then "Disk is full"
      else "Unknown file error" }

/-- The enums that have a domain. -/
inductive Subject where
  | network
  | file
  deriving DecidableEq

/-- The domains are two objects, so each has an address of its own. -/
def domains : Family Subject Subject :=
  -- Only whether two addresses are the same can be told, so the enums stand for them.
  { enum := fun _ => .int
    object := fun
      | .network => networkDomain
      | .file => fileDomain
    address := id
    distinct := Function.injective_id
    memory := fun
      | .network => networkDomain.base .network
      | .file => fileDomain.base .file
    stored := fun
      | .network => rfl
      | .file => rfl }

/-- The program's enums are stored as ints, so their error codes stand for one enumerator each. -/
theorem domains_narrow : domains.Narrow :=
  fun _ => Nat.le_refl 32

end Notus.CustomErrors
