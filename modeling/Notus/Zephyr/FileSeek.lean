import Notus.Zephyr.FileSystem

/-! Seeks and sizes, and transfers that move all they are asked to or fail. -/

namespace Notus

/-- A transfer that does not fail moves a number of bytes in one go. -/
def Transfer.Whole (size : Nat) : Transfer → Prop
  | fails _ _ => True
  | moves limit => size ≤ limit

/-- The transfer does not fail. -/
def Transfer.succeeds : Transfer → Bool
  | fails _ _ => false
  | moves _ => true

@[simp] theorem Transfer.succeeds_fails (code : Int) (negative : code < 0) :
    (fails code negative).succeeds = false := rfl

@[simp] theorem Transfer.succeeds_moves (limit : Nat) : (moves limit).succeeds = true := rfl

namespace FsDriver

variable {driver : FsDriver} {file : FsFile} {opened : OpenFile} {content : List UInt8}

/-- A seek from the start of a file moves its offset there. -/
def fsSeek (driver : FsDriver) (file : FsFile) (offset : Nat) (verdict : Int) : FsDriver × Int :=
  match file.filep with
  | none => (driver, -Errno.ebadf)
  | some handle =>
    -- A verdict other than zero stands for a failure of the volume.
    if verdict ≠ 0 then (driver, verdict)
    else match driver.handleAt handle with
      | none => (driver, -Errno.ebadf)
      | some opened =>
        ({ driver with
            handles := driver.handles.set handle (some { opened with offset := offset }) }, 0)

/-- The answer to a question for a file, and its size. -/
def fsStat (driver : FsDriver) (path : CString) (verdict : Int) : Int × Nat :=
  if verdict ≠ 0 then (verdict, 0)
  else match driver.files path with
    | none => (-Errno.enoent, 0)
    | some content => (0, content.length)

/-- A seek that does not fail leaves the file open at the place it was sent to. -/
theorem fsSeek_spec (holds : driver.Holds file opened content) (offset : Nat) :
    (driver.fsSeek file offset 0).2 = 0 ∧
      (driver.fsSeek file offset 0).1.Holds file { opened with offset := offset } content := by
  obtain ⟨held, stored⟩ := holds
  obtain ⟨handle, given, held⟩ := Option.bind_eq_some_iff.mp held
  have table : driver.handles[handle]?.join = some opened := held
  have moved := handleAt_set { opened with offset := offset } held
  -- The handle is that of an open file, so it is found and moved.
  simp only [fsSeek, given, handleAt, table]
  exact ⟨rfl, by simpa [openedAs, given, handleAt] using moved, stored⟩

/-- A seek changes no file. -/
theorem fsSeek_files (driver : FsDriver) (file : FsFile) (offset : Nat) (verdict : Int) :
    (driver.fsSeek file offset verdict).1.files = driver.files := by
  -- Only the table of handles changes, if anything does.
  unfold fsSeek
  split
  · rfl
  · split
    · rfl
    · split <;> rfl

/-- A seek that fails says so. -/
theorem fsSeek_fails (holds : driver.Holds file opened content) (offset : Nat) {verdict : Int}
    (negative : verdict < 0) : (driver.fsSeek file offset verdict).2 < 0 := by
  -- A verdict other than zero is passed on.
  obtain ⟨handle, given, _⟩ := Option.bind_eq_some_iff.mp holds.held
  have failed : verdict ≠ 0 := by omega
  simpa [fsSeek, given, failed] using negative

/-- A read changes no file. -/
theorem fsRead_files (driver : FsDriver) (file : FsFile) (requested : Nat) (transfer : Transfer) :
    (driver.fsRead file requested transfer).1.files = driver.files := by
  -- Only the offset of the handle changes, if anything does.
  cases given : file.filep with
  | none => simp only [fsRead, given]
  | some handle =>
    simp only [fsRead, given]
    split
    · rfl
    · split <;> rfl

/-- A whole read from the start of a file delivers its front. -/
theorem fsRead_whole {limit requested : Nat} (holds : driver.Holds file opened content)
    (start : opened.offset = 0) (fits : requested ≤ ssizeMax) (whole : requested ≤ limit) :
    (driver.fsRead file requested (.moves limit)).2 =
        (((content.take requested).length : Int), content.take requested) ∧
      ∃ moved, (driver.fsRead file requested (.moves limit)).1.Holds file
        { opened with offset := moved } content := by
  obtain ⟨held, stored⟩ := holds
  obtain ⟨handle, given, held⟩ := Option.bind_eq_some_iff.mp held
  have table : driver.handles[handle]?.join = some opened := held
  -- The limit is above what is asked for, so only the end of the file can be in the way.
  have count : min limit (min requested (min content.length ssizeMax)) =
      min requested content.length := by omega
  simp only [fsRead, given, handleAt, table, stored, start, Nat.sub_zero, Nat.zero_add, count]
  constructor
  · rw [List.drop_zero, List.length_take, ← List.take_eq_take_min]
  · have moved := handleAt_set { opened with offset := min requested content.length } held
    refine ⟨min requested content.length, ?_, stored⟩
    simpa [openedAs, given, handleAt] using moved

/-- A read that fails says so. -/
theorem fsRead_fails {requested : Nat} {code : Int} {negative : code < 0}
    (holds : driver.Holds file opened content) :
    (driver.fsRead file requested (.fails code negative)).2.1 < 0 := by
  -- The transfer is reached, as the handle is open on a file that is there.
  obtain ⟨held, stored⟩ := holds
  obtain ⟨handle, given, held⟩ := Option.bind_eq_some_iff.mp held
  have table : driver.handles[handle]?.join = some opened := held
  simpa only [fsRead, given, handleAt, table, stored] using negative

/-- A whole write at the start of a file replaces its front. -/
theorem fsWrite_whole {limit : Nat} {bytes : List UInt8} (holds : driver.Holds file opened content)
    (start : opened.offset = 0) (plain : opened.flags.sets FsMode.append = false)
    (fits : bytes.length ≤ ssizeMax) (whole : bytes.length ≤ limit) :
    (driver.fsWrite file bytes (.moves limit)).2 = bytes.length ∧
      (driver.fsWrite file bytes (.moves limit)).1.files =
        Function.update driver.files opened.path (some (bytes ++ content.drop bytes.length)) := by
  obtain ⟨held, stored⟩ := holds
  obtain ⟨handle, given, held⟩ := Option.bind_eq_some_iff.mp held
  have table : driver.handles[handle]?.join = some opened := held
  -- All bytes are moved in one go.
  have count : min limit (min bytes.length ssizeMax) = bytes.length := by omega
  simp [fsWrite, given, handleAt, table, stored, plain, start, count]

/-- A write that fails says so, and leaves the files as they are. -/
theorem fsWrite_fails {bytes : List UInt8} {code : Int} {negative : code < 0}
    (holds : driver.Holds file opened content) :
    (driver.fsWrite file bytes (.fails code negative)).2 < 0 ∧
      (driver.fsWrite file bytes (.fails code negative)).1.files = driver.files := by
  -- The transfer is reached here as well.
  obtain ⟨held, stored⟩ := holds
  obtain ⟨handle, given, held⟩ := Option.bind_eq_some_iff.mp held
  have table : driver.handles[handle]?.join = some opened := held
  simp only [fsWrite, given, handleAt, table, stored]
  exact ⟨negative, trivial⟩

end FsDriver
end Notus
