import Mathlib.Data.List.Nodup
import Notus.Errors

/-! The categories of the subsystems' error codes: their names, and the messages of their values. -/

namespace Notus

/-- A category has a name, and names for the values from one on. -/
structure ErrorCategory where
  name : List Char
  enumerators : List (List Char)
  deriving DecidableEq

namespace ErrorCategory

/-- The name of the enumerator with a value, if there is one. -/
def enumName (category : ErrorCategory) : Int → Option (List Char)
  -- The enumerators are counted from one, and no value is left out.
  | .ofNat (value + 1) => category.enumerators[value]?
  | _ => none

/-- The message of a value without a name. -/
def unrecognized : List Char :=
  "(unrecognized error)".toList

/-- The message is the name of the enumerator, where the value has one. -/
def message (category : ErrorCategory) (value : Int) : List Char :=
  match category.enumName value with
  | some name => name
  | none => unrecognized

end ErrorCategory

/-- The category objects, each of which is only equal to itself. -/
inductive Subsystem where
  | button
  | fileSystem
  | loadCell
  deriving DecidableEq, Repr

def theButtonErrorCategory : ErrorCategory where
  name := "Button".toList
  enumerators :=
    ["gpio_is_ready".toList, "pin_configuration".toList, "interrupt_configuration".toList,
      "add_callback".toList]

def theFileSystemErrorCategory : ErrorCategory where
  name := "file system".toList
  enumerators :=
    ["invalid_arg".toList, "already_mounted".toList, "fs_type_not_supported".toList,
      "fs_type_not_registered".toList, "invalid_filename".toList, "busy".toList,
      "path_is_directory".toList, "file_not_at_path".toList, "bad_data".toList,
      "uncompleted_write".toList, "uncompleted_read".toList, "fs_not_available".toList,
      "operation_not_supported".toList, "file_not_open_for_write".toList,
      "file_not_open_for_read".toList, "unknown".toList]

def theLoadCellErrorCategory : ErrorCategory where
  name := "Load Cell".toList
  enumerators :=
    ["adc_is_ready".toList, "adc_channel_setup".toList, "adc_read".toList,
      "adc_raw_to_millivolt".toList]

/-- What a category object holds. -/
def Subsystem.category : Subsystem → ErrorCategory
  | .button => theButtonErrorCategory
  | .fileSystem => theFileSystemErrorCategory
  | .loadCell => theLoadCellErrorCategory

/-- An error code of the standard library: any number, and the category it is one of. -/
structure StdErrorCode where
  value : Int
  category : Subsystem
  deriving DecidableEq, Repr

namespace ButtonError

/-- The value of an enumerator. -/
def value : ButtonError → Int
  | gpioIsReady => 1
  | pinConfiguration => 2
  | interruptConfiguration => 3
  | addCallback => 4

/-- All enumerators, in order. -/
def enumerators : List ButtonError :=
  [gpioIsReady, pinConfiguration, interruptConfiguration, addCallback]

def makeErrorCode (err : ButtonError) : StdErrorCode :=
  { value := err.value, category := .button }

end ButtonError

namespace FileSystemError

/-- The value of an enumerator. -/
def value : FileSystemError → Int
  | invalidArg => 1
  | alreadyMounted => 2
  | fsTypeNotSupported => 3
  | fsTypeNotRegistered => 4
  | invalidFilename => 5
  | busy => 6
  | pathIsDirectory => 7
  | fileNotAtPath => 8
  | badData => 9
  | uncompletedWrite => 10
  | uncompletedRead => 11
  | fsNotAvailable => 12
  | operationNotSupported => 13
  | fileNotOpenForWrite => 14
  | fileNotOpenForRead => 15
  | unknown => 16

/-- All enumerators, in order. -/
def enumerators : List FileSystemError :=
  [invalidArg, alreadyMounted, fsTypeNotSupported, fsTypeNotRegistered, invalidFilename, busy,
    pathIsDirectory, fileNotAtPath, badData, uncompletedWrite, uncompletedRead, fsNotAvailable,
    operationNotSupported, fileNotOpenForWrite, fileNotOpenForRead, unknown]

def makeErrorCode (err : FileSystemError) : StdErrorCode :=
  { value := err.value, category := .fileSystem }

end FileSystemError

namespace LoadCellError

/-- The value of an enumerator. -/
def value : LoadCellError → Int
  | adcIsReady => 1
  | adcChannelSetup => 2
  | adcRead => 3
  | adcRawToMillivolt => 4

/-- All enumerators, in order. -/
def enumerators : List LoadCellError :=
  [adcIsReady, adcChannelSetup, adcRead, adcRawToMillivolt]

def makeErrorCode (err : LoadCellError) : StdErrorCode :=
  { value := err.value, category := .loadCell }

end LoadCellError

/-- An enumerator of any subsystem is turned into a code by its own function. -/
def ErrorCode.make : ErrorCode → StdErrorCode
  | .button err => err.makeErrorCode
  | .fileSystem err => err.makeErrorCode
  | .loadCell err => err.makeErrorCode

namespace StdErrorCode

/-- The value is that of an enumerator of the code's own category. -/
def Recognized (code : StdErrorCode) : Prop :=
  code.category.category.enumName code.value ≠ none

instance (code : StdErrorCode) : Decidable code.Recognized :=
  inferInstanceAs (Decidable (_ ≠ _))

/-- A value that has a name is one more than the place of its name. -/
theorem enumName_eq_some {category : ErrorCategory} {value : Int} {name : List Char} :
    category.enumName value = some name ↔
      ∃ place : Nat, value = place + 1 ∧ category.enumerators[place]? = some name := by
  -- Zero and the negative numbers have no place in the list.
  constructor
  · intro named
    match value, named with
    | .ofNat (place + 1), named => exact ⟨place, rfl, named⟩
  · rintro ⟨place, rfl, there⟩
    exact there

/-- A name is that of one value only. -/
theorem enumName_inj {category : Subsystem} {value other : Int} {name : List Char}
    (named : category.category.enumName value = some name)
    (same : category.category.enumName other = some name) : value = other := by
  -- No category has two enumerators of one name.
  have nodup : category.category.enumerators.Nodup := by
    cases category <;> decide
  obtain ⟨place, rfl, found⟩ := enumName_eq_some.mp named
  obtain ⟨again, rfl, there⟩ := enumName_eq_some.mp same
  obtain ⟨within, _⟩ := List.getElem?_eq_some_iff.mp found
  rw [(List.getElem?_inj within nodup).mp (found.trans there.symm)]

/-- Every name belongs to an enumerator, which has the value one more than its place. -/
theorem exists_enumerator (category : Subsystem) {place : Nat}
    (within : place < category.category.enumerators.length) :
    ∃ err : ErrorCode, err.make = ⟨place + 1, category⟩ := by
  -- The values of each category are checked one by one.
  cases category with
  | button =>
    have every : ∀ place : Fin 4, ∃ err ∈ ButtonError.enumerators,
        err.value = place + 1 := by decide
    obtain ⟨err, _, value⟩ := every ⟨place, within⟩
    exact ⟨.button err, congrArg (StdErrorCode.mk · .button) value⟩
  | fileSystem =>
    have every : ∀ place : Fin 16, ∃ err ∈ FileSystemError.enumerators,
        err.value = place + 1 := by decide
    obtain ⟨err, _, value⟩ := every ⟨place, within⟩
    exact ⟨.fileSystem err, congrArg (StdErrorCode.mk · .fileSystem) value⟩
  | loadCell =>
    have every : ∀ place : Fin 4, ∃ err ∈ LoadCellError.enumerators,
        err.value = place + 1 := by decide
    obtain ⟨err, _, value⟩ := every ⟨place, within⟩
    exact ⟨.loadCell err, congrArg (StdErrorCode.mk · .loadCell) value⟩

/-- A code is recognized exactly where it is made of an enumerator. -/
theorem recognized_iff {code : StdErrorCode} :
    code.Recognized ↔ ∃ err : ErrorCode, err.make = code := by
  -- A name has a place, and the place has an enumerator.
  constructor
  · intro recognized
    obtain ⟨name, named⟩ := Option.ne_none_iff_exists'.mp recognized
    obtain ⟨place, value, found⟩ := enumName_eq_some.mp named
    obtain ⟨within, _⟩ := List.getElem?_eq_some_iff.mp found
    obtain ⟨err, made⟩ := exists_enumerator code.category within
    exact ⟨err, made.trans (by rw [← value])⟩
  · rintro ⟨err, rfl⟩
    cases err with
    | button err | fileSystem err | loadCell err => cases err <;> decide

/-- No message is that of an enumerator and of a value that is none. -/
theorem message_eq_iff {category : Subsystem} {value other : Int} :
    category.category.message value = category.category.message other ↔
      value = other ∨ ¬ Recognized ⟨value, category⟩ ∧ ¬ Recognized ⟨other, category⟩ := by
  -- The text for values without a name is no name.
  have unnamed : ErrorCategory.unrecognized ∉ category.category.enumerators := by
    cases category <;> decide
  have named (value : Int) (name : List Char) (has : category.category.enumName value = some name) :
      name ≠ ErrorCategory.unrecognized := by
    rintro rfl
    obtain ⟨place, _, found⟩ := enumName_eq_some.mp has
    exact unnamed (List.mem_of_getElem? found)
  simp only [ErrorCategory.message, Recognized, not_not]
  -- Either value may be unnamed, and two unnamed ones share their text.
  cases left : category.category.enumName value with
  | none =>
    cases right : category.category.enumName other with
    | none => simp
    | some name =>
      have apart : value ≠ other := fun same => by simp [same, right] at left
      simp [apart, Ne.symm (named other name right)]
  | some name =>
    cases right : category.category.enumName other with
    | none =>
      have apart : value ≠ other := fun same => by simp [same, right] at left
      simp [apart, named value name left]
    | some again =>
      refine ⟨fun same => ?_, ?_⟩
      · exact .inl (enumName_inj left (right.trans (congrArg some same.symm)))
      · rintro (rfl | ⟨⟨⟩, _⟩)
        exact Option.some.inj (left.symm.trans right)

/-- Names and messages have neither a colon nor a dash, which stand between them in a log. -/
theorem category_plain (category : Subsystem) :
    ':' ∉ category.category.name ∧ '-' ∉ category.category.name := by
  -- There are three names.
  cases category <;> decide

/-- A message has no colon. -/
theorem message_plain (category : Subsystem) (value : Int) :
    ':' ∉ category.category.message value := by
  -- A message is the name of an enumerator or the one text for all other values.
  have plain : ∀ name ∈ category.category.enumerators, ':' ∉ name := by
    cases category <;> decide
  unfold ErrorCategory.message
  cases named : category.category.enumName value with
  | none => exact (by decide : ':' ∉ ErrorCategory.unrecognized)
  | some name =>
    obtain ⟨place, _, found⟩ := enumName_eq_some.mp named
    exact plain name (List.mem_of_getElem? found)

end StdErrorCode
end Notus
