import Notus.Core.Loop
import Notus.Core.Transducer
import Notus.Zephyr.FileSeek

/-! A sample that counts the boots of a device in two files, whose calls may fail at every boot. -/

namespace Notus.LittlefsSample

/-- The size of the file of a pattern. -/
def testFileSize : Nat := 547

/-- A pattern begins as numbers, eight bytes apart, among bytes that are all the same. -/
def initPattern (size : Nat) : List UInt8 :=
  let rounds := (size + 7) / 8
  let numbered := Loop.run rounds (fun round (p, v) => (p.set (8 * round) v, v + 1))
    (List.replicate size (0x55 : UInt8), (1 : UInt8))
  -- The last byte is not one of the numbers.
  numbered.1.set (size - 1) 0xAA

/-- A pattern is counted up, and the first number decides what is filled in between the others. -/
def incrPattern (p : List UInt8) (inc : UInt8) : List UInt8 :=
  let size := p.length
  let fill : UInt8 := if p.headD 0 % 2 = 0 then 0xAA else 0x55
  let p := Loop.run (size - 1)
    (fun i p => p.set i (if i % 8 = 0 then p[i]?.getD 0 + inc else fill)) p
  p.set (size - 1) (p[size - 1]?.getD 0 + inc)

/-- How the calls on one file are answered, and whether a failed close loses what was written. -/
structure FileAnswers where
  opening : Int
  stat : Int
  reading : Transfer
  seek : Int
  writing : Transfer
  closing : Int
  loses : Bool

/-- A file is opened, and closed in any case; an error of the close comes before the others. -/
def withFile (driver : FsDriver) (fname : CString) (answers : FileAnswers)
    (body : FsDriver → FsFile → FsDriver × Int) : FsDriver × Int :=
  let (driver, file, rc) := driver.fsOpen fsFileInit fname (FsMode.create ||| FsMode.rdwr)
    answers.opening
  if rc < 0 then (driver, rc)
  else
    let files := driver.files
    let (driver, rc) := body driver file
    let (driver, _, ret) := driver.fsClose file answers.closing
    -- Only a close that goes well is sure to have stored what was written.
    (if ret < 0 ∧ answers.loses then { driver with files := files } else driver,
      if ret < 0 then ret else if rc < 0 then rc else 0)

/-- A file is written from its start on. -/
def rewrite (driver : FsDriver) (file : FsFile) (answers : FileAnswers) (bytes : List UInt8) :
    FsDriver × Int :=
  let (driver, rc) := driver.fsSeek file 0 answers.seek
  if rc < 0 then (driver, rc) else driver.fsWrite file bytes answers.writing

/-- The count is read, and written back increased. -/
def littlefsIncreaseInfileValue (driver : FsDriver) (fname : CString) (answers : FileAnswers) :
    FsDriver × Int :=
  withFile driver fname answers fun driver file =>
    let (driver, rc, bytes) := driver.fsRead file 1 answers.reading
    if rc < 0 then (driver, rc)
    else
      -- An empty file leaves the count at zero.
      let bootCount := bytes.headD 0
      rewrite driver file answers [bootCount + 1]

/-- An open file that is empty gets the first pattern, and another one the next. -/
def readjust (fname : CString) (answers : FileAnswers) (driver : FsDriver) (file : FsFile) :
    FsDriver × Int :=
  let (rc, size) := driver.fsStat fname answers.stat
  if rc < 0 then (driver, rc)
  else
    let (driver, rc, fileTestPattern) :=
      if rc = 0 ∧ size = 0 then (driver, rc, initPattern testFileSize)
      else
        let (driver, rc, bytes) := driver.fsRead file testFileSize answers.reading
        -- The buffer is zero where nothing is read into it.
        (driver, rc, incrPattern (bytes ++ List.replicate (testFileSize - bytes.length) 0) 1)
    if rc < 0 then (driver, rc) else rewrite driver file answers fileTestPattern

/-- The pattern is counted up in its file, between the open and the close of it. -/
def littlefsBinaryFileAdj (driver : FsDriver) (fname : CString) (answers : FileAnswers) :
    FsDriver × Int :=
  withFile driver fname answers (readjust fname answers)

/-- The path of a file on a volume, cut off where the buffer for it ends. -/
def fname (mountpoint : FsMount) (name : String) : CString :=
  .ofChars ((mountpoint.mntPoint.chars ++ 0x2f :: name.toList.map (·.toNat.toUInt8)).take 254)

/-- How the calls of one boot are answered. -/
structure BootAnswers where
  flash : Int
  mount : Int
  statvfs : Int
  lsdir : Int
  bootCount : FileAnswers
  pattern : FileAnswers
  unmount : Int

/-- The volume is mounted once its flash area could be opened. -/
def littlefsMount (driver : FsDriver) (mp : FsMount) (answers : BootAnswers) : FsDriver × Int :=
  if answers.flash < 0 then (driver, answers.flash)
  else
    let (driver, rc) := driver.fsMount mp answers.mount
    (driver, if rc < 0 then rc else 0)

/-- The count comes first, and the pattern only if that went well. -/
def main (mountpoint : FsMount) (driver : FsDriver) (answers : BootAnswers) : FsDriver :=
  let (driver, rc) := littlefsMount driver mountpoint answers
  if rc < 0 then driver
  else
    let driver :=
      -- The volume and its directory are only printed, but the rest is skipped when that fails.
      if answers.statvfs < 0 ∨ answers.lsdir < 0 then driver
      else
        let (driver, rc) :=
          littlefsIncreaseInfileValue driver (fname mountpoint "boot_count") answers.bootCount
        if rc ≠ 0 then driver
        else (littlefsBinaryFileAdj driver (fname mountpoint "pattern.bin") answers.pattern).1
    (driver.fsUnmount mountpoint answers.unmount).1

/-- The device boots again and again, and only the files are left of a boot. -/
def boots (mountpoint : FsMount) :
    Transducer (CString → Option (List UInt8)) BootAnswers Unit := fun files answers =>
  ((main mountpoint (FsDriver.boot files) answers).files, ())

end Notus.LittlefsSample
