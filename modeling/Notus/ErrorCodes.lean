import Mathlib.Logic.Function.Basic
import Notus.Core.SystemError

/-! Error codes of three subsystems, and the conditions a caller may ask them about. -/

namespace Notus.ErrorCodes

/-- What every subsystem's errors come down to. -/
inductive SubsystemError where
  | inputBadAirport
  | inputPastDate
  | inputBadDateRange
  | inputBadClass
  | noFlightFound
  | noSeatFound
  | subsysProtocolErr
  | subsysInternal
  | subsysResource
  | subsysConfig
  | subsysTimeout
  deriving DecidableEq, Repr

/-- Who is to blame for an error. -/
inductive FailureSource where
  | badUserInput
  | systemError
  | noSolution
  deriving DecidableEq, Repr

/-- What an error calls for. -/
inductive Severity where
  | bug
  | config
  | resource
  | normal
  deriving DecidableEq, Repr

inductive FlightsErrc where
  | nonexistentLocations
  | datesInThePast
  | invertedDates
  | noFlightsFound
  | protocolViolation
  | connectionError
  | resourceError
  | timeout
  deriving DecidableEq, Repr

inductive Flights2Errc where
  | zeroFlightsFound
  | invalidRequestFormat
  | couldNotConnect
  | databaseError
  | notEnoughMemory
  | internalError
  | noSuchAirport
  | journeyInThePast
  | datesNotMonotonic
  deriving DecidableEq, Repr

inductive SeatsErrc where
  | invalidRequest
  | couldNotConnect
  | internalError
  | noResponse
  | nonexistentClass
  | noSeatAvailable
  deriving DecidableEq, Repr

/-- The values of the enumerators, counted from one. -/
def SubsystemError.enumeration : Enumeration SubsystemError where
  enumerators :=
    [.inputBadAirport, .inputPastDate, .inputBadDateRange, .inputBadClass, .noFlightFound,
      .noSeatFound, .subsysProtocolErr, .subsysInternal, .subsysResource, .subsysConfig,
      .subsysTimeout]
  value
    | .inputBadAirport => 1
    | .inputPastDate => 2
    | .inputBadDateRange => 3
    | .inputBadClass => 4
    | .noFlightFound => 5
    | .noSeatFound => 6
    | .subsysProtocolErr => 7
    | .subsysInternal => 8
    | .subsysResource => 9
    | .subsysConfig => 10
    | .subsysTimeout => 11
  complete := by rintro (_ | _) <;> decide
  distinct := by rintro (_ | _) (_ | _) <;> decide

def FailureSource.enumeration : Enumeration FailureSource where
  enumerators := [.badUserInput, .systemError, .noSolution]
  value
    | .badUserInput => 1
    | .systemError => 2
    | .noSolution => 3
  complete := by rintro (_ | _) <;> decide
  distinct := by rintro (_ | _) (_ | _) <;> decide

def Severity.enumeration : Enumeration Severity where
  enumerators := [.bug, .config, .resource, .normal]
  value
    | .bug => 1
    | .config => 2
    | .resource => 3
    | .normal => 4
  complete := by rintro (_ | _) <;> decide
  distinct := by rintro (_ | _) (_ | _) <;> decide

/-- The values leave gaps between the kinds of errors. -/
def FlightsErrc.enumeration : Enumeration FlightsErrc where
  enumerators :=
    [.nonexistentLocations, .datesInThePast, .invertedDates, .noFlightsFound, .protocolViolation,
      .connectionError, .resourceError, .timeout]
  value
    | .nonexistentLocations => 10
    | .datesInThePast => 11
    | .invertedDates => 12
    | .noFlightsFound => 20
    | .protocolViolation => 30
    | .connectionError => 31
    | .resourceError => 32
    | .timeout => 33
  complete := by rintro (_ | _) <;> decide
  distinct := by rintro (_ | _) (_ | _) <;> decide

def Flights2Errc.enumeration : Enumeration Flights2Errc where
  enumerators :=
    [.zeroFlightsFound, .invalidRequestFormat, .couldNotConnect, .databaseError, .notEnoughMemory,
      .internalError, .noSuchAirport, .journeyInThePast, .datesNotMonotonic]
  value
    | .zeroFlightsFound => 11
    | .invalidRequestFormat => 12
    | .couldNotConnect => 13
    | .databaseError => 14
    | .notEnoughMemory => 15
    | .internalError => 16
    | .noSuchAirport => 17
    | .journeyInThePast => 18
    | .datesNotMonotonic => 19
  complete := by rintro (_ | _) <;> decide
  distinct := by rintro (_ | _) (_ | _) <;> decide

def SeatsErrc.enumeration : Enumeration SeatsErrc where
  enumerators :=
    [.invalidRequest, .couldNotConnect, .internalError, .noResponse, .nonexistentClass,
      .noSeatAvailable]
  value
    | .invalidRequest => 1
    | .couldNotConnect => 2
    | .internalError => 3
    | .noResponse => 4
    | .nonexistentClass => 5
    | .noSeatAvailable => 6
  complete := by rintro (_ | _) <;> decide
  distinct := by rintro (_ | _) (_ | _) <;> decide

/-- The category objects of the program, beside those of other libraries. -/
inductive Category (Other : Type*) where
  | flights
  | flights2
  | seats
  | submoduleError
  | failureSource
  | severity
  | other (category : Other)
  deriving DecidableEq

section Categories

open SystemError

variable {Other : Type*} [DecidableEq Other]

abbrev ErrorCode (Other : Type*) := Code (Category Other)

abbrev ErrorCondition (Other : Type*) := Condition (Category Other)

def SubsystemError.makeErrorCondition (err : SubsystemError) : ErrorCondition Other :=
  { value := SubsystemError.enumeration.value err, category := .submoduleError }

def FailureSource.makeErrorCondition (err : FailureSource) : ErrorCondition Other :=
  { value := FailureSource.enumeration.value err, category := .failureSource }

def Severity.makeErrorCondition (err : Severity) : ErrorCondition Other :=
  { value := Severity.enumeration.value err, category := .severity }

def FlightsErrc.makeErrorCode (err : FlightsErrc) : ErrorCode Other :=
  { value := FlightsErrc.enumeration.value err, category := .flights }

def Flights2Errc.makeErrorCode (err : Flights2Errc) : ErrorCode Other :=
  { value := Flights2Errc.enumeration.value err, category := .flights2 }

def SeatsErrc.makeErrorCode (err : SeatsErrc) : ErrorCode Other :=
  { value := SeatsErrc.enumeration.value err, category := .seats }

/-- What an error of the flights comes down to. -/
def FlightsErrc.subsystemError : FlightsErrc → SubsystemError
  | nonexistentLocations => .inputBadAirport
  | datesInThePast => .inputPastDate
  | invertedDates => .inputBadDateRange
  | noFlightsFound => .noFlightFound
  | protocolViolation => .subsysProtocolErr
  | connectionError => .subsysConfig
  | resourceError => .subsysResource
  | timeout => .subsysTimeout

/-- What an error of the other flights comes down to, where two errors are internal ones. -/
def Flights2Errc.subsystemError : Flights2Errc → SubsystemError
  | zeroFlightsFound => .noFlightFound
  | invalidRequestFormat => .subsysProtocolErr
  | couldNotConnect => .subsysConfig
  | databaseError => .subsysInternal
  | notEnoughMemory => .subsysResource
  | internalError => .subsysInternal
  | noSuchAirport => .inputBadAirport
  | journeyInThePast => .inputPastDate
  | datesNotMonotonic => .inputBadDateRange

/-- What an error of the seats comes down to. -/
def SeatsErrc.subsystemError : SeatsErrc → SubsystemError
  | invalidRequest => .subsysProtocolErr
  | couldNotConnect => .subsysConfig
  | internalError => .subsysInternal
  | noResponse => .subsysTimeout
  | nonexistentClass => .inputBadClass
  | noSeatAvailable => .noSeatFound

/-- The default conditions of a subsystem's codes, which assert that the code is an enumerator. -/
def subsystemCondition {Errc : Type*} (enumeration : Enumeration Errc)
    (subsystemError : Errc → SubsystemError) (value : Int) : Option (ErrorCondition Other) :=
  -- The default branch of the switch is an assertion that fails.
  (enumeration.cast value).map fun err => (subsystemError err).makeErrorCondition

/-- What the categories say a code comes down to, where those of others are given. -/
def defaultErrorCondition (others : Other → Int → Option (ErrorCondition Other)) :
    Category Other → Int → Option (ErrorCondition Other)
  | .flights, value => subsystemCondition FlightsErrc.enumeration FlightsErrc.subsystemError value
  | .flights2, value =>
    subsystemCondition Flights2Errc.enumeration Flights2Errc.subsystemError value
  | .seats, value => subsystemCondition SeatsErrc.enumeration SeatsErrc.subsystemError value
  | .other category, value => others category value
  -- The categories of conditions do not override it.
  | category, value => some { value := value, category := category }

/-- The categories as far as the conditions of the subsystems go, which none of them overrides. -/
def subsystems (others : Other → Int → Option (ErrorCondition Other)) :
    Categories (Category Other) where
  defaultErrorCondition := defaultErrorCondition others
  equivalent category code value := some (code.isOwn category value)

/-- The subsystem errors that a failure source stands for. -/
def FailureSource.subsystemErrors : FailureSource → List SubsystemError
  | badUserInput => [.inputBadAirport, .inputPastDate, .inputBadDateRange, .inputBadClass]
  | systemError =>
    [.subsysProtocolErr, .subsysInternal, .subsysResource, .subsysConfig, .subsysTimeout]
  | noSolution => [.noFlightFound, .noSeatFound]

/-- The subsystem errors that a severity stands for. -/
def Severity.subsystemErrors : Severity → List SubsystemError
  | bug => [.subsysProtocolErr, .subsysInternal]
  | config => [.subsysConfig]
  | resource => [.subsysResource, .subsysTimeout]
  | normal =>
    [.inputBadAirport, .inputPastDate, .inputBadDateRange, .inputBadClass, .noFlightFound,
      .noSeatFound]

/-- A query compares the code with each of the subsystem errors it stands for. -/
def queryEquivalent {Query : Type*} (others : Other → Int → Option (ErrorCondition Other))
    (enumeration : Enumeration Query) (stands : Query → List SubsystemError)
    (code : ErrorCode Other) (value : Int) : Option Bool :=
  match enumeration.cast value with
  | some query =>
    (subsystems others).equalsAny code ((stands query).map SubsystemError.makeErrorCondition)
  | none => some false

/-- The categories of the program, two of which have conditions that stand for several others. -/
def categories (others : Other → Int → Option (ErrorCondition Other)) :
    Categories (Category Other) where
  defaultErrorCondition := defaultErrorCondition others
  equivalent
    | .failureSource, code, value =>
      queryEquivalent others FailureSource.enumeration FailureSource.subsystemErrors code value
    | .severity, code, value =>
      queryEquivalent others Severity.enumeration Severity.subsystemErrors code value
    | category, code, value => some (code.isOwn category value)

def FlightsErrc.message : FlightsErrc → String
  | nonexistentLocations => "nonexistent airport name in request"
  | datesInThePast => "request for a date from the past"
  | invertedDates => "requested flight return date before departure date"
  | noFlightsFound => "no filight combination found"
  | protocolViolation => "received malformed request"
  | connectionError => "could not connect to server"
  | resourceError => "insufficient resources"
  | timeout => "processing timed out"

def SeatsErrc.message : SeatsErrc → String
  | invalidRequest => "received malformed request"
  | couldNotConnect => "could not connect to server"
  | internalError => "insufficient resources"
  | noResponse => "processing timed out"
  | nonexistentClass => "requested class does not exist"
  | noSeatAvailable => "all seats booked"

def FailureSource.message : FailureSource → String
  | badUserInput => "invalid user request"
  | systemError => "internal error"
  | noSolution => "no solution found for specified request"

def Severity.message : Severity → String
  | bug => "failure is a programmer bug"
  | config => "failure is a configuration error"
  | resource => "failure is caused by resource shortage"
  | normal => "failure requires no attention"

/-- What the categories of the program say about a number. -/
def message : Category Other → Int → Option String
  | .flights, value =>
    some (((FlightsErrc.enumeration.cast value).map FlightsErrc.message).getD
      "(unrecognized error)")
  -- The messages of the other flights have not been written.
  | .flights2, _ => some "(unrecognized error)"
  | .seats, value =>
    some (((SeatsErrc.enumeration.cast value).map SeatsErrc.message).getD "(unrecognized error)")
  | .submoduleError, _ => some "(uncharted)"
  | .failureSource, value =>
    some (((FailureSource.enumeration.cast value).map FailureSource.message).getD
      "(unrecognized condition)")
  | .severity, value =>
    some (((Severity.enumeration.cast value).map Severity.message).getD
      "(unrecognized condition)")
  | .other _, _ => none

end Categories

end Notus.ErrorCodes
