import Mathlib.Data.Set.Insert
import Notus.FileSystem

/-! File names: what path a name on a mount opens, and when two names open different files. -/

namespace Notus

namespace ZFile

/-- The parts of a path are joined first and cut to its length then. -/
theorem items_filePath (mount fileName : List UInt8) :
    (filePath mount fileName).items = (mount ++ separator :: fileName).take maxFilename := by
  -- Three bounded appends to an empty string are one.
  simp [filePath, Bounded.append_append]

/-- Opening hands the driver the path that was put together, and nothing else. -/
theorem openFile_requests (driver : FsDriver) (fileName : List UInt8) (flags : FsMode)
    (mount : List UInt8) (verdict : Int) :
    (openFile driver fileName flags mount verdict).1.requests =
      driver.requests ++ [CString.ofChars (filePath mount fileName).items] := by
  -- Whatever the driver answers, it has been called once.
  have asked := FsDriver.fsOpen_requests driver fsFileInit
    (CString.ofChars (filePath mount fileName).items) flags verdict
  simp only [openFile]
  split <;> exact asked

/-- A file that was opened starts at the beginning of what is at the path put together. -/
theorem openFile_holds {driver after : FsDriver} {fileName : List UInt8} {flags : FsMode}
    {mount : List UInt8} {verdict : Int} {file : FsFile}
    (opened : openFile driver fileName flags mount verdict = (after, .ok file)) :
    file.flags = flags ∧
      after.Holds file ⟨CString.ofChars (filePath mount fileName).items, 0, flags⟩
        ((driver.files (CString.ofChars (filePath mount fileName).items)).getD []) := by
  simp only [openFile] at opened
  split at opened
  · cases opened
  · -- The driver answered with success, so it gave out a new handle.
    rename_i answered
    have success := not_not.mp answered
    have holds := FsDriver.fsOpen_holds success
    obtain ⟨given, _⟩ := FsDriver.fsOpen_opened success
    cases opened
    exact ⟨by rw [given], holds⟩

end ZFile

namespace ZFileSystem

/-- The path a name stands for: the mount point, a separator and the name. -/
def pathTo (self : ZFileSystem) (name : CString) : CString where
  chars := self.mount.mntPoint.chars ++ ZFile.separator :: name.chars
  nulFree := by
    have separated : (0 : UInt8) ≠ ZFile.separator := by decide
    simp [self.mount.mntPoint.nulFree, name.nulFree, separated]

/-- The path that is put together for a name, cut to its length. -/
def handedPath (self : ZFileSystem) (name : CString) : CString :=
  CString.ofChars (ZFile.filePath self.mount.mntPoint.chars name.chars).items

/-- The path of the name and its mount fits the longest file name. -/
def Fits (self : ZFileSystem) (name : CString) : Prop :=
  -- One character is the separator.
  self.mount.mntPoint.chars.length + 1 + name.chars.length ≤ ZFile.maxFilename

instance (self : ZFileSystem) (name : CString) : Decidable (self.Fits name) :=
  inferInstanceAs (Decidable (_ ≤ _))

/-- The driver is handed the characters of a path that were kept. -/
theorem chars_handedPath (self : ZFileSystem) (name : CString) :
    (self.handedPath name).chars = (self.pathTo name).chars.take ZFile.maxFilename := by
  unfold handedPath
  rw [ZFile.items_filePath]
  -- No zero is among the characters, so none of those kept is lost again.
  exact CString.ofChars_chars fun member => (self.pathTo name).nulFree (List.mem_of_mem_take member)

/-- The path that is handed over is the one the name stands for exactly when it fits. -/
theorem handedPath_eq_iff {self : ZFileSystem} {name : CString} :
    self.handedPath name = self.pathTo name ↔ self.Fits name := by
  have length : (self.pathTo name).chars.length =
      self.mount.mntPoint.chars.length + 1 + name.chars.length := by
    simp only [pathTo, List.length_append, List.length_cons]
    omega
  rw [Fits, ← length, ← List.take_eq_self_iff, ← chars_handedPath]
  constructor
  · intro same
    rw [same]
  · intro same
    -- A string is determined by its characters.
    cases handed : self.handedPath name
    cases exact_ : self.pathTo name
    simp_all

/-- Different names on one mount stand for different paths. -/
theorem pathTo_injective {self : ZFileSystem} {first second : CString}
    (same : self.pathTo first = self.pathTo second) : first = second := by
  -- Both paths begin with the mount point and the separator.
  have chars := congrArg CString.chars same
  simp only [pathTo, List.append_cancel_left_eq, List.cons.injEq, true_and] at chars
  obtain ⟨first, _⟩ := first
  obtain ⟨second, _⟩ := second
  congr

/-- The driver is handed exactly one path, or the operation throws and opens and creates nothing. -/
def HandsOver {Result : Type*} (path : CString) (before : FsDriver)
    (outcome : FsDriver × Except MajorError Result) : Prop :=
  -- Files and handles are compared, so neither an open nor a creation goes unseen.
  outcome.1.requests = before.requests ++ [path] ∨
    (∃ error, outcome.2 = .error error) ∧ outcome.1.files = before.files ∧
      outcome.1.handles = before.handles

/-- Opening and checking address the files their names stand for, and never another one. -/
structure NeverAliases (system : ZFileSystem) (names : Set CString) : Prop where
  opens : ∀ name ∈ names, ∀ driver flags verdict,
    HandsOver (system.pathTo name) driver (system.openFile driver name.chars flags verdict)
  checks : ∀ name ∈ names, ∀ driver opening closing,
    HandsOver (system.pathTo name) driver (system.checkFileExists driver name.chars opening closing)
  apart : ∀ first ∈ names, ∀ second ∈ names, first ≠ second →
    ∀ before flags verdict after file before' flags' verdict' after' file',
      system.openFile before first.chars flags verdict = (after, .ok file) →
      system.openFile before' second.chars flags' verdict' = (after', .ok file') →
        after.pathOf file.file ≠ after'.pathOf file'.file
  present : ∀ name ∈ names, ∀ driver opening closing,
    (system.checkFileExists driver name.chars opening closing).2 = .ok true →
      driver.files (system.pathTo name) ≠ none

/-- Opening a file hands its path to the driver. -/
theorem openFile_requests (self : ZFileSystem) (driver : FsDriver) (name : CString)
    (flags : FsMode) (verdict : Int) :
    (self.openFile driver name.chars flags verdict).1.requests =
      driver.requests ++ [self.handedPath name] := by
  -- The constructor asks the driver once, whether it throws or not.
  have asked := ZFile.openFile_requests driver name.chars flags self.mount.mntPoint.chars verdict
  unfold openFile ZFile.construct
  split <;> simp_all [handedPath]

/-- Checking for a file hands its path to the driver, once. -/
theorem checkFileExists_requests (self : ZFileSystem) (driver : FsDriver) (name : CString)
    (opening closing : Int) :
    (self.checkFileExists driver name.chars opening closing).1.requests =
      driver.requests ++ [self.handedPath name] := by
  -- The path is handed over by the open, whatever its answer.
  have asked := ZFile.openFile_requests driver name.chars 0 self.mount.mntPoint.chars opening
  unfold checkFileExists
  split
  · split <;> simp_all [handedPath]
  · -- The close that follows names no path.
    rw [(FsDriver.fsClose_kept _ _ _).1]
    simp_all [handedPath]

/-- A file that was opened starts at the beginning of what is at the path handed over. -/
theorem openFile_holds {self : ZFileSystem} {driver after : FsDriver} {name : CString}
    {flags : FsMode} {verdict : Int} {file : ZFile}
    (opened : self.openFile driver name.chars flags verdict = (after, .ok file)) :
    file.file.flags = flags ∧
      after.Holds file.file ⟨self.handedPath name, 0, flags⟩
        ((driver.files (self.handedPath name)).getD []) := by
  -- An object is only there if the constructor did not throw.
  unfold openFile ZFile.construct at opened
  split at opened
  · cases opened
  · rename_i driver file succeeded
    cases opened
    exact ZFile.openFile_holds succeeded

/-- A file that was opened is open on the path handed over for its name. -/
theorem openFile_pathOf {self : ZFileSystem} {driver after : FsDriver} {name : CString}
    {flags : FsMode} {verdict : Int} {file : ZFile}
    (opened : self.openFile driver name.chars flags verdict = (after, .ok file)) :
    after.pathOf file.file = some (self.handedPath name) := by
  -- The handle leads to the path it was given out for.
  rw [FsDriver.pathOf, (openFile_holds opened).2.held]
  rfl

/-- A check only confirms a file at the path it handed over. -/
theorem checkFileExists_present {self : ZFileSystem} {driver : FsDriver} {name : CString}
    {opening closing : Int}
    (confirmed : (self.checkFileExists driver name.chars opening closing).2 = .ok true) :
    driver.files (self.handedPath name) ≠ none := by
  -- The check opens without creating, and only an open that succeeds confirms.
  unfold checkFileExists at confirmed
  split at confirmed
  · split at confirmed <;> cases confirmed
  · rename_i after file succeeded
    simp only [ZFile.openFile] at succeeded
    split at succeeded
    · cases succeeded
    · rename_i answered
      exact FsDriver.fsOpen_exists (not_not.mp answered) (by decide)

/-- Names address exactly the files they stand for when all their paths fit, and only then. -/
theorem neverAliases_iff (self : ZFileSystem) (names : Set CString) :
    self.NeverAliases names ↔ ∀ name ∈ names, self.Fits name := by
  -- A path that does not fit is handed over all the same, only shorter.
  constructor
  · intro exact_ name member
    -- A volume on which every file exists opens whatever it is handed.
    have handed := exact_.opens name member (.boot fun _ => some []) 0 0
    rcases handed with asked | ⟨⟨error, failed⟩, _⟩
    · rw [openFile_requests] at asked
      exact handedPath_eq_iff.mp (List.cons.inj (List.append_cancel_left asked)).1
    · simp [openFile, ZFile.construct, ZFile.openFile, FsDriver.fsOpen, FsDriver.boot,
        FsDriver.attach] at failed
  · intro fits
    have handed : ∀ name ∈ names, self.handedPath name = self.pathTo name :=
      fun name member => handedPath_eq_iff.mpr (fits name member)
    refine ⟨?_, ?_, ?_, ?_⟩
    · intro name member driver flags verdict
      exact .inl (by rw [openFile_requests, handed name member])
    · intro name member driver opening closing
      exact .inl (by rw [checkFileExists_requests, handed name member])
    · intro first firstIn second secondIn differ before flags verdict after file before' flags'
        verdict' after' file' opened opened' same
      rw [openFile_pathOf opened, openFile_pathOf opened', handed first firstIn,
        handed second secondIn] at same
      exact differ (pathTo_injective (Option.some.inj same))
    · intro name member driver opening closing confirmed
      rw [← handed name member]
      exact checkFileExists_present confirmed

/-- A name of the given length, all of the letter a. -/
def letters (length : Nat) : CString where
  chars := List.replicate length 97
  nulFree member := absurd (List.eq_of_mem_replicate member) (by decide)

/-- A file system mounted at a path of five characters. -/
def lfs : ZFileSystem :=
  { mount := { volume := 0, mntPoint := ⟨[47, 108, 102, 115, 49], by decide⟩ } }

/-- One character too many is cut off, so a file is found under a name it was not created with. -/
theorem neverAliases_cut_off :
    letters 249 ≠ letters 250 ∧
      (lfs.checkFileExists
          (lfs.openFile (.boot fun _ => none) (letters 249).chars ZFile.Flags.create 0).1
          (letters 250).chars 0 0).2 = .ok true ∧
      (lfs.openFile (.boot fun _ => none) (letters 249).chars ZFile.Flags.create 0).1.files
          (lfs.pathTo (letters 250)) = none ∧
      ¬ lfs.NeverAliases {letters 249, letters 250} := by
  -- The longer name has one character more, for which there is no room.
  refine ⟨?_, ?_, ?_, ?_⟩
  · decide +kernel
  · decide +kernel
  · decide +kernel
  · intro exact_
    have fits := (lfs.neverAliases_iff _).mp exact_ (letters 250) (by simp)
    exact absurd fits (by decide +kernel)

end ZFileSystem
end Notus
