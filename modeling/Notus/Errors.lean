import Mathlib.Data.Int.Notation

/-! The exception every subsystem throws, and the codes the subsystems give it. -/

namespace Notus

/-- What can go wrong while a button is constructed. -/
inductive ButtonError where
  | gpioIsReady
  | pinConfiguration
  | interruptConfiguration
  | addCallback
  deriving DecidableEq, Repr

/-- What can go wrong with a file system and its files. -/
inductive FileSystemError where
  | invalidArg
  | alreadyMounted
  | fsTypeNotSupported
  | fsTypeNotRegistered
  | invalidFilename
  | busy
  | pathIsDirectory
  | fileNotAtPath
  | badData
  | uncompletedWrite
  | uncompletedRead
  | fsNotAvailable
  | operationNotSupported
  | fileNotOpenForWrite
  | fileNotOpenForRead
  | unknown
  deriving DecidableEq, Repr

/-- What can go wrong with a load cell, at each call of the driver. -/
inductive LoadCellError where
  | adcIsReady
  | adcChannelSetup
  | adcRead
  | adcRawToMillivolt
  deriving DecidableEq, Repr

/-- An error code belongs to the category of its subsystem. -/
inductive ErrorCode where
  | button (error : ButtonError)
  | fileSystem (error : FileSystemError)
  | loadCell (error : LoadCellError)
  deriving DecidableEq, Repr

/-- The exception carries a code and the number the failing call returned. -/
structure MajorError where
  code : ErrorCode
  errNo : Int
  deriving DecidableEq, Repr

end Notus
