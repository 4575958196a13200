import Notus.Core.Bounded
import Notus.Errors
import Notus.Zephyr.FileSystem

/-! Files and file systems as objects: opened by name, read and written in whole spans. -/

namespace Notus

/-- A view of bytes in memory, no longer than a 32-bit size, and of none at a null address. -/
structure Span where
  isNull : Bool
  bytes : List UInt8
  bounded : bytes.length < 0x100000000
  nullEmpty : isNull → bytes = []
  deriving DecidableEq

/-- A size is narrowed to a signed 32-bit number. -/
def castInt (size : Nat) : Int :=
  -- Sizes from half the range on become negative.
  (size : Int).bmod 0x100000000

/-- A size that narrows to a count that fits is that count. -/
theorem castInt_eq_iff {count size : Nat} (fits : count ≤ FsDriver.ssizeMax)
    (bounded : size < 0x100000000) : (count : Int) = castInt size ↔ count = size := by
  -- A size that does not fit narrows to a negative number, which is no count.
  have narrowed : castInt size = if (size : Int) % 4294967296 < (4294967296 + 1) / 2
      then (size : Int) % 4294967296 else (size : Int) % 4294967296 - 4294967296 := rfl
  have fits : count ≤ 2147483647 := fits
  simp only [narrowed]
  split <;> omega

/-- All bits of the flag are set in the value. -/
def hasFlag (value flag : FsMode) : Bool :=
  -- A flag of several bits asks for all of them.
  value &&& flag == flag

/-- An open file. -/
structure ZFile where
  file : FsFile
  deriving DecidableEq

namespace ZFile
namespace Flags

def read : FsMode := FsMode.read
def write : FsMode := FsMode.write
def readAndWrite : FsMode := FsMode.rdwr
def create : FsMode := FsMode.create
def append : FsMode := FsMode.append

end Flags

/-- The longest path, in characters. -/
def maxFilename : Nat := 255

/-- The character between the mount point and the name. -/
def separator : UInt8 := 47

/-- The path is put together from three parts, as far as they fit. -/
def filePath (mount fileName : List UInt8) : Bounded UInt8 maxFilename :=
  -- No part is checked for its length, nor is the whole.
  ((Bounded.empty.append mount).append [separator]).append fileName

/-- What an open that failed reports. -/
def openError (ret : Int) : FileSystemError :=
  if ret = -Errno.enoent then .fileNotAtPath
  else if ret = -Errno.eisdir then .pathIsDirectory
  else if ret = -Errno.ebusy then .busy
  else if ret = -Errno.einval then .invalidFilename
  else .unknown

/-- The driver opens the file at the path that was put together. -/
def openFile (driver : FsDriver) (fileName : List UInt8) (flags : FsMode) (mount : List UInt8)
    (verdict : Int) : FsDriver × Except FileSystemError FsFile :=
  let path := CString.ofChars (filePath mount fileName).items
  let (driver, file, ret) := driver.fsOpen fsFileInit path flags verdict
  if ret ≠ 0 then (driver, .error (openError ret)) else (driver, .ok file)

/-- The constructor throws when the file cannot be opened. -/
def construct (driver : FsDriver) (fileName : List UInt8) (flags : FsMode) (mount : List UInt8)
    (verdict : Int) : FsDriver × Except MajorError ZFile :=
  match openFile driver fileName flags mount verdict with
  -- The number that the failing call returned is not passed on.
  | (driver, .error error) => (driver, .error ⟨.fileSystem error, 0⟩)
  | (driver, .ok file) => (driver, .ok { file := file })

/-- What a transfer that failed reports. -/
def transferError (ret : Int) : FileSystemError :=
  if ret = -Errno.ebadf then .fsNotAvailable
  else if ret = -Errno.enotsup then .operationNotSupported
  else .unknown

/-- A write that stores less than the whole span throws, with the number stored. -/
def write (self : ZFile) (driver : FsDriver) (data : Span) (transfer : Transfer) :
    FsDriver × Except MajorError Unit :=
  if !hasFlag self.file.flags Flags.write then
    (driver, .error ⟨.fileSystem .fileNotOpenForWrite, 0⟩)
  else if data.isNull then (driver, .error ⟨.fileSystem .badData, 0⟩)
  else
    let (driver, ret) := driver.fsWrite self.file data.bytes transfer
    if ret < 0 then (driver, .error ⟨.fileSystem (transferError ret), ret⟩)
    else if ret ≠ castInt data.bytes.length then
      (driver, .error ⟨.fileSystem .uncompletedWrite, ret⟩)
    else (driver, .ok ())

/-- The span after bytes were delivered to its front. -/
def filled (data : Span) (delivered : List UInt8) : List UInt8 :=
  -- What lies behind the delivered bytes is left as it was.
  delivered ++ data.bytes.drop delivered.length

/-- A read that fills less than the whole span throws, with the number delivered. -/
def read (self : ZFile) (driver : FsDriver) (data : Span) (transfer : Transfer) :
    FsDriver × List UInt8 × Except MajorError Unit :=
  if !hasFlag self.file.flags Flags.read then
    (driver, data.bytes, .error ⟨.fileSystem .fileNotOpenForRead, 0⟩)
  else
    let (driver, ret, delivered) := driver.fsRead self.file data.bytes.length transfer
    if ret < 0 then
      (driver, filled data delivered, .error ⟨.fileSystem (transferError ret), ret⟩)
    else if ret ≠ castInt data.bytes.length then
      (driver, filled data delivered, .error ⟨.fileSystem .uncompletedRead, ret⟩)
    else (driver, filled data delivered, .ok ())

/-- The destructor closes the file, whatever the driver answers. -/
def destruct (self : ZFile) (driver : FsDriver) (verdict : Int) : FsDriver :=
  (driver.fsClose self.file verdict).1

end ZFile

/-- A mounted file system. -/
structure ZFileSystem where
  mount : FsMount
  deriving DecidableEq

namespace ZFileSystem

/-- What a mount that failed reports. -/
def mountError (ret : Int) : FileSystemError :=
  if ret = -Errno.enoent then .fsTypeNotRegistered
  else if ret = -Errno.einval then .invalidArg
  else if ret = -Errno.ebusy then .alreadyMounted
  else if ret = -Errno.enotsup then .fsTypeNotSupported
  else .unknown

/-- The constructor mounts the volume, and throws when that fails. -/
def construct (driver : FsDriver) (mount : FsMount) (verdict : Int) :
    FsDriver × Except MajorError ZFileSystem :=
  let (driver, ret) := driver.fsMount mount verdict
  if ret ≠ 0 then (driver, .error ⟨.fileSystem (mountError ret), ret⟩)
  else (driver, .ok { mount := mount })

/-- A file is opened by its name on the mount. -/
def openFile (self : ZFileSystem) (driver : FsDriver) (fileName : List UInt8) (flags : FsMode)
    (verdict : Int) : FsDriver × Except MajorError ZFile :=
  ZFile.construct driver fileName flags self.mount.mntPoint.chars verdict

/-- A file exists when it can be opened, and then it is closed again. -/
def checkFileExists (self : ZFileSystem) (driver : FsDriver) (fileName : List UInt8)
    (opening closing : Int) : FsDriver × Except MajorError Bool :=
  -- A mode of zero asks for no access, and does not create.
  match ZFile.openFile driver fileName 0 self.mount.mntPoint.chars opening with
  | (driver, .error error) =>
    if error = .fileNotAtPath then (driver, .ok false)
    else (driver, .error ⟨.fileSystem error, 0⟩)
  | (driver, .ok file) => ((driver.fsClose file closing).1, .ok true)

/-- The destructor unmounts the volume, whatever the driver answers. -/
def destruct (self : ZFileSystem) (driver : FsDriver) (verdict : Int) : FsDriver :=
  -- Files that are still open keep their handles.
  (driver.fsUnmount self.mount verdict).1

end ZFileSystem
end Notus
