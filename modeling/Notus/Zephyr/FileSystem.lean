import Mathlib.Data.Int.Notation
import Mathlib.Data.List.TakeWhile
import Mathlib.Logic.Function.Basic

/-! The kernel's file system: mounts, files by path, and open handles that keep an offset. -/

namespace Notus

/-- A string that ends at its first zero character. -/
structure CString where
  chars : List UInt8
  nulFree : 0 ∉ chars
  deriving DecidableEq

/-- Characters handed over by their address are read up to the first zero. -/
def CString.ofChars (chars : List UInt8) : CString where
  -- Whatever follows the first zero is not seen by the reader.
  chars := chars.takeWhile (· ≠ 0)
  nulFree member := by
    have stopped := List.mem_takeWhile_imp member
    simp at stopped

/-- Without a zero among them, all characters are read. -/
theorem CString.ofChars_chars {chars : List UInt8} (nulFree : 0 ∉ chars) :
    (CString.ofChars chars).chars = chars := by
  -- The reader never meets a zero, so it stops at the end only.
  refine List.takeWhile_eq_self_iff.mpr fun char member => ?_
  have nonzero : char ≠ 0 := fun zero => nulFree (zero ▸ member)
  simpa using nonzero

/-- The bits of a mode say what a file is opened for. -/
abbrev FsMode := BitVec 8

namespace FsMode

def read : FsMode := 0x01
def write : FsMode := 0x02
def rdwr : FsMode := 0x03
def create : FsMode := 0x10
def append : FsMode := 0x20

/-- The mode has some bit of the flag. -/
def sets (mode flag : FsMode) : Bool :=
  -- For a flag of several bits any of them is enough.
  decide (mode &&& flag ≠ 0)

end FsMode

namespace Errno

def enoent : Int := 2
def ebadf : Int := 9
def ebusy : Int := 16
def eisdir : Int := 21
def einval : Int := 22
def enotsup : Int := 134

end Errno

/-- A volume to mount, and the path it is mounted at. -/
structure FsMount where
  volume : Nat
  mntPoint : CString
  deriving DecidableEq

/-- The file as its user holds it: the handle, while it is open, and its mode. -/
structure FsFile where
  filep : Option Nat
  flags : FsMode
  deriving DecidableEq

/-- A file that is not open. -/
def fsFileInit : FsFile :=
  { filep := none, flags := 0 }

/-- The file as the driver holds it behind a handle. -/
structure OpenFile where
  path : CString
  offset : Nat
  flags : FsMode
  deriving DecidableEq

/-- The calls a driver has seen. -/
inductive FsCall where
  | fsMount (mount : FsMount)
  | fsUnmount (mount : FsMount)
  | fsOpen (path : CString) (flags : FsMode)
  | fsClose (handle : Nat)
  | fsRead (handle : Nat)
  | fsWrite (handle : Nat)
  deriving DecidableEq

/-- How the driver answers a transfer: it fails, or moves no more bytes than a limit. -/
inductive Transfer where
  | fails (code : Int) (negative : code < 0)
  | moves (limit : Nat)

/-- Handles are numbered in the order they were given out, and a closed one keeps its place. -/
structure FsDriver where
  mounted : List FsMount
  files : CString → Option (List UInt8)
  handles : List (Option OpenFile)
  log : List FsCall

namespace FsDriver

/-- The driver at boot, over the files on its volumes. -/
def boot (files : CString → Option (List UInt8)) : FsDriver :=
  -- Files outlive the driver, but mounts and handles do not.
  { mounted := [], files := files, handles := [], log := [] }

/-- What is open behind a handle. -/
def handleAt (driver : FsDriver) (handle : Nat) : Option OpenFile :=
  -- A number that was never given out and a handle that was closed look the same.
  driver.handles[handle]?.join

/-- The paths that were handed to the driver to be opened. -/
def requests (driver : FsDriver) : List CString :=
  -- Opens are logged when they are asked for, whether or not they succeed.
  driver.log.filterMap fun call =>
    match call with
    | .fsOpen path _ => some path
    | _ => none

/-- A volume is mounted once, and a failing call changes nothing. -/
def fsMount (driver : FsDriver) (mount : FsMount) (verdict : Int) : FsDriver × Int :=
  -- A verdict other than zero stands for a failure of the volume.
  let driver := { driver with log := driver.log ++ [.fsMount mount] }
  if verdict ≠ 0 then (driver, verdict)
  else if mount ∈ driver.mounted then (driver, -Errno.ebusy)
  else ({ driver with mounted := mount :: driver.mounted }, 0)

/-- A volume that is not mounted cannot be unmounted. -/
def fsUnmount (driver : FsDriver) (mount : FsMount) (verdict : Int) : FsDriver × Int :=
  let driver := { driver with log := driver.log ++ [.fsUnmount mount] }
  if verdict ≠ 0 then (driver, verdict)
  else if mount ∈ driver.mounted then ({ driver with mounted := driver.mounted.erase mount }, 0)
  else (driver, -Errno.einval)

/-- The next handle is given to a file that exists. -/
def attach (driver : FsDriver) (path : CString) (flags : FsMode) : FsDriver × FsFile × Int :=
  -- The offset begins at the start of the file, whatever the mode.
  ({ driver with handles := driver.handles ++ [some ⟨path, 0, flags⟩] },
    { filep := some driver.handles.length, flags := flags }, 0)

/-- Opening finds the file or creates it, and a failing call changes nothing. -/
def fsOpen (driver : FsDriver) (file : FsFile) (path : CString) (flags : FsMode) (verdict : Int) :
    FsDriver × FsFile × Int :=
  let driver := { driver with log := driver.log ++ [.fsOpen path flags] }
  if verdict ≠ 0 then (driver, file, verdict)
  else match driver.files path with
    | some _ => driver.attach path flags
    | none =>
      -- A created file is empty until something is written to it.
      if flags.sets FsMode.create then
        { driver with files := Function.update driver.files path (some []) }.attach path flags
      else (driver, file, -Errno.enoent)

/-- Closing gives the handle back, and a file that is not open is closed without the driver. -/
def fsClose (driver : FsDriver) (file : FsFile) (verdict : Int) : FsDriver × FsFile × Int :=
  match file.filep with
  | none => (driver, file, 0)
  | some handle =>
    let driver := { driver with log := driver.log ++ [.fsClose handle] }
    if verdict ≠ 0 then (driver, file, verdict)
    else ({ driver with handles := driver.handles.set handle none }, { file with filep := none }, 0)

/-- The most a signed size can count. -/
def ssizeMax : Nat := 0x7fffffff

/-- A write stores bytes at the offset, or at the end when appending, and moves past them. -/
def fsWrite (driver : FsDriver) (file : FsFile) (bytes : List UInt8) (transfer : Transfer) :
    FsDriver × Int :=
  match file.filep with
  | none => (driver, -Errno.einval)
  | some handle =>
    let driver := { driver with log := driver.log ++ [FsCall.fsWrite handle] }
    match driver.handleAt handle with
    | none => (driver, -Errno.ebadf)
    | some opened =>
      match driver.files opened.path, transfer with
      | none, _ => (driver, -Errno.ebadf)
      -- A transfer that fails moves neither bytes nor the offset.
      | some _, .fails code _ => (driver, code)
      | some content, .moves limit =>
        -- No more is moved than was handed over and than the answer can count.
        let count := min limit (min bytes.length ssizeMax)
        let offset := if opened.flags.sets FsMode.append then content.length else opened.offset
        let stored := content.take offset ++ bytes.take count ++ content.drop (offset + count)
        ({ driver with
            files := Function.update driver.files opened.path (some stored)
            handles := driver.handles.set handle (some { opened with offset := offset + count }) },
          count)

/-- A read delivers bytes from the offset on, and moves the offset past them. -/
def fsRead (driver : FsDriver) (file : FsFile) (requested : Nat) (transfer : Transfer) :
    FsDriver × Int × List UInt8 :=
  match file.filep with
  | none => (driver, -Errno.einval, [])
  | some handle =>
    let driver := { driver with log := driver.log ++ [FsCall.fsRead handle] }
    match driver.handleAt handle with
    | none => (driver, -Errno.ebadf, [])
    | some opened =>
      match driver.files opened.path, transfer with
      | none, _ => (driver, -Errno.ebadf, [])
      | some _, .fails code _ => (driver, code, [])
      | some content, .moves limit =>
        -- A read cannot go beyond the end of the file.
        let count := min limit (min requested (min (content.length - opened.offset) ssizeMax))
        ({ driver with
            handles := driver.handles.set handle (some { opened with
              offset := opened.offset + count }) },
          count, (content.drop opened.offset).take count)

/-- What a file is open on, while it is. -/
def openedAs (driver : FsDriver) (file : FsFile) : Option OpenFile :=
  file.filep.bind driver.handleAt

/-- The path a file is open on, while it is. -/
def pathOf (driver : FsDriver) (file : FsFile) : Option CString :=
  -- The path is the one handed over when the file was opened.
  (driver.openedAs file).map OpenFile.path

/-- What is at a path, of which a missing file has nothing. -/
def content (files : CString → Option (List UInt8)) (path : CString) : List UInt8 :=
  (files path).getD []

/-- A file is open as given, on a path with some content. -/
structure Holds (driver : FsDriver) (file : FsFile) (opened : OpenFile) (content : List UInt8) :
    Prop where
  held : driver.openedAs file = some opened
  stored : driver.files opened.path = some content

/-- An open that fails only leaves its call in the log. -/
theorem fsOpen_refused {driver : FsDriver} {file : FsFile} {path : CString} {flags : FsMode}
    {verdict : Int} (refused : (driver.fsOpen file path flags verdict).2.2 ≠ 0) :
    (driver.fsOpen file path flags verdict).1 =
      { driver with log := driver.log ++ [.fsOpen path flags] } := by
  -- The driver refuses by itself, or because there is nothing to open.
  unfold fsOpen at refused ⊢
  by_cases answered : verdict = 0
  · cases stored : driver.files path with
    | some content => simp [answered, stored, attach] at refused
    | none =>
      cases creates : flags.sets FsMode.create
      · simp [answered, stored]
      · simp [answered, stored, creates, attach] at refused
  · simp [answered]

/-- An open that succeeds gives out one handle, on the path it was handed. -/
theorem fsOpen_opened {driver : FsDriver} {file : FsFile} {path : CString} {flags : FsMode}
    {verdict : Int} (opened : (driver.fsOpen file path flags verdict).2.2 = 0) :
    (driver.fsOpen file path flags verdict).2.1 = ⟨some driver.handles.length, flags⟩ ∧
      (driver.fsOpen file path flags verdict).1 =
        { driver with
          log := driver.log ++ [.fsOpen path flags]
          handles := driver.handles ++ [some ⟨path, 0, flags⟩]
          files := match driver.files path with
            | some _ => driver.files
            | none => Function.update driver.files path (some []) } := by
  -- A success means that the file was there, or that the mode allowed to create it.
  unfold fsOpen at opened ⊢
  by_cases answered : verdict = 0
  · cases stored : driver.files path with
    | some content => simp [answered, stored, attach]
    | none =>
      cases creates : flags.sets FsMode.create
      · simp [answered, stored, creates, Errno.enoent] at opened
      · simp [answered, stored, attach]
  · simp [answered] at opened

/-- A file that was opened starts at the beginning of what was there, or of nothing. -/
theorem fsOpen_holds {driver : FsDriver} {file : FsFile} {path : CString} {flags : FsMode}
    {verdict : Int} (opened : (driver.fsOpen file path flags verdict).2.2 = 0) :
    (driver.fsOpen file path flags verdict).1.Holds (driver.fsOpen file path flags verdict).2.1
      ⟨path, 0, flags⟩ ((driver.files path).getD []) := by
  -- The handle that was given out is the last of the table.
  obtain ⟨given, changed⟩ := fsOpen_opened opened
  rw [given, changed]
  refine ⟨by simp [openedAs, handleAt], ?_⟩
  -- An existing file keeps its content, and a created one has none.
  cases stored : driver.files path <;> simp [stored]

/-- Only an open that may create succeeds where no file is. -/
theorem fsOpen_exists {driver : FsDriver} {file : FsFile} {path : CString} {flags : FsMode}
    {verdict : Int} (opened : (driver.fsOpen file path flags verdict).2.2 = 0)
    (keeps : flags.sets FsMode.create = false) : driver.files path ≠ none := by
  -- Without the flag, a missing file is an error even where the driver is willing.
  intro absent
  by_cases answered : verdict = 0 <;>
    simp [fsOpen, answered, absent, keeps, Errno.enoent] at opened

/-- A handle that is open can be given another offset. -/
theorem handleAt_set {driver : FsDriver} {handle : Nat} {opened : OpenFile} (moved : OpenFile)
    (held : driver.handleAt handle = some opened) :
    (driver.handles.set handle (some moved))[handle]?.join = some moved := by
  -- The handle is one of those given out, so its place in the table exists.
  have given : handle < driver.handles.length := by
    by_contra beyond
    simp [handleAt, List.getElem?_eq_none (Nat.le_of_not_lt beyond)] at held
  simp [List.getElem?_set_self given]

/-- A write at the end of a file fails, or adds the first bytes of its data and stays at the end. -/
theorem fsWrite_spec {driver : FsDriver} {file : FsFile} {path : CString} {flags : FsMode}
    {content : List UInt8} (holds : driver.Holds file ⟨path, content.length, flags⟩ content)
    (bytes : List UInt8) (transfer : Transfer) :
    ((driver.fsWrite file bytes transfer).2 < 0 ∧
        (driver.fsWrite file bytes transfer).1.Holds file ⟨path, content.length, flags⟩ content) ∨
      ∃ count, count ≤ bytes.length ∧ count ≤ ssizeMax ∧
        (driver.fsWrite file bytes transfer).2 = count ∧
        (driver.fsWrite file bytes transfer).1.Holds file
          ⟨path, (content ++ bytes.take count).length, flags⟩ (content ++ bytes.take count) := by
  -- The handle leads to the open file, and that to the content it is written to.
  obtain ⟨held, stored⟩ := holds
  obtain ⟨handle, given, held⟩ := Option.bind_eq_some_iff.mp held
  have table : driver.handles[handle]?.join = some ⟨path, content.length, flags⟩ := held
  cases transfer with
  | fails code negative =>
    simp only [fsWrite, given, handleAt, table, stored]
    exact .inl ⟨negative, by simp [openedAs, given, handleAt, table], stored⟩
  | moves limit =>
    simp only [fsWrite, given, handleAt, table, stored]
    right
    refine ⟨min limit (min bytes.length ssizeMax), by omega, by omega, rfl, ?_⟩
    -- At the end of the file, writing and appending are the same, and nothing is overwritten.
    have moved := handleAt_set ⟨path, content.length + min limit (min bytes.length ssizeMax), flags⟩
      held
    constructor
    · simp only [openedAs, given, Option.bind_some, handleAt, ite_self, moved,
        List.length_append, List.length_take]
      congr 2
      omega
    · simp

/-- A read fails, or delivers the next bytes of the file and moves past them. -/
theorem fsRead_spec {driver : FsDriver} {file : FsFile} {path : CString} {offset : Nat}
    {flags : FsMode} {content : List UInt8}
    (holds : driver.Holds file ⟨path, offset, flags⟩ content) (requested : Nat)
    (transfer : Transfer) :
    ((driver.fsRead file requested transfer).2.1 < 0 ∧
        (driver.fsRead file requested transfer).2.2 = [] ∧
        (driver.fsRead file requested transfer).1.Holds file ⟨path, offset, flags⟩ content) ∨
      ∃ count, count ≤ requested ∧ count ≤ ssizeMax ∧ count ≤ content.length - offset ∧
        (driver.fsRead file requested transfer).2.1 = count ∧
        (driver.fsRead file requested transfer).2.2 = (content.drop offset).take count ∧
        (driver.fsRead file requested transfer).1.Holds file ⟨path, offset + count, flags⟩
          content := by
  -- The handle leads to the open file, and that to the content it is read from.
  obtain ⟨held, stored⟩ := holds
  obtain ⟨handle, given, held⟩ := Option.bind_eq_some_iff.mp held
  have table : driver.handles[handle]?.join = some ⟨path, offset, flags⟩ := held
  cases transfer with
  | fails code negative =>
    simp only [fsRead, given, handleAt, table, stored]
    exact .inl ⟨negative, trivial, by simp [openedAs, given, handleAt, table], stored⟩
  | moves limit =>
    simp only [fsRead, given, handleAt, table, stored]
    right
    refine ⟨min limit (min requested (min (content.length - offset) ssizeMax)), by omega,
      by omega, by omega, rfl, rfl, ?_, stored⟩
    -- Only the handle is moved, and the file is left as it is.
    have moved := handleAt_set
      ⟨path, offset + min limit (min requested (min (content.length - offset) ssizeMax)), flags⟩
      held
    simpa [openedAs, given, handleAt] using moved

/-- Every open, successful or not, hands the driver one path. -/
theorem fsOpen_requests (driver : FsDriver) (file : FsFile) (path : CString) (flags : FsMode)
    (verdict : Int) :
    (driver.fsOpen file path flags verdict).1.requests = driver.requests ++ [path] := by
  -- The call is logged before the driver looks at it.
  have logged : (driver.fsOpen file path flags verdict).1.log =
      driver.log ++ [.fsOpen path flags] := by
    by_cases opened : (driver.fsOpen file path flags verdict).2.2 = 0
    · rw [(fsOpen_opened opened).2]
    · rw [fsOpen_refused opened]
  simp [requests, logged]

/-- Closing hands no path to the driver, and changes no file. -/
theorem fsClose_kept (driver : FsDriver) (file : FsFile) (verdict : Int) :
    (driver.fsClose file verdict).1.requests = driver.requests ∧
      (driver.fsClose file verdict).1.files = driver.files := by
  -- A close is logged, but it is no request for a path.
  unfold fsClose
  cases file.filep with
  | none => exact ⟨rfl, rfl⟩
  | some handle => by_cases answered : verdict = 0 <;> simp [answered, requests]

/-- Mounting a volume changes no file and no handle. -/
theorem fsMount_files (driver : FsDriver) (mount : FsMount) (verdict : Int) :
    (driver.fsMount mount verdict).1.handles = driver.handles ∧
      (driver.fsMount mount verdict).1.files = driver.files := by
  -- The call is logged, and only the list of volumes may change with it.
  unfold fsMount
  by_cases refused : verdict ≠ 0
  · rw [if_pos refused]
    exact ⟨rfl, rfl⟩
  · rw [if_neg refused]
    split <;> exact ⟨rfl, rfl⟩

/-- Unmounting a volume changes no file and no handle. -/
theorem fsUnmount_files (driver : FsDriver) (mount : FsMount) (verdict : Int) :
    (driver.fsUnmount mount verdict).1.handles = driver.handles ∧
      (driver.fsUnmount mount verdict).1.files = driver.files := by
  -- The call is logged, and only the list of volumes may change with it.
  unfold fsUnmount
  by_cases refused : verdict ≠ 0
  · rw [if_pos refused]
    exact ⟨rfl, rfl⟩
  · rw [if_neg refused]
    split <;> exact ⟨rfl, rfl⟩

end FsDriver
end Notus
