import Notus.Core.Machine
import Notus.Core.Slots
import Notus.FileSystem

/-! Handles and mounts in balance: open handles belong to files, mounted volumes to file systems. -/

namespace Notus

/-- The handle that a call uses. -/
def FsCall.handle : FsCall → Option Nat
  | .fsClose handle | .fsRead handle | .fsWrite handle => some handle
  -- An open hands over a file that has no handle yet.
  | .fsMount _ | .fsUnmount _ | .fsOpen _ _ => none

/-- The later call does not use a handle that the earlier one closed. -/
def FsCall.Apart (earlier later : FsCall) : Prop :=
  ∀ handle, earlier = .fsClose handle → later.handle ≠ some handle

namespace FsDriver

/-- The handles that are open, in the order they were given out. -/
def openHandles (driver : FsDriver) : List Nat :=
  Slots.used driver.handles

/-- Closed handles are not open, and no call has used one. -/
structure Orderly (driver : FsDriver) : Prop where
  closed : ∀ handle, .fsClose handle ∈ driver.log →
    handle < driver.handles.length ∧ handle ∉ driver.openHandles
  apart : driver.log.Pairwise FsCall.Apart

/-- The driver has seen one more call, with the same handles open and the same volumes mounted. -/
structure Called (before after : FsDriver) (call : FsCall) : Prop where
  log : after.log = before.log ++ [call]
  mounted : after.mounted = before.mounted
  length : after.handles.length = before.handles.length
  openHandles : after.openHandles = before.openHandles

variable {driver next : FsDriver}

/-- A call that uses an open handle or none keeps the driver orderly. -/
theorem Orderly.logged (orderly : driver.Orderly) {call : FsCall}
    (logged : next.log = driver.log ++ [call])
    (fits : ∀ handle, call.handle = some handle → handle ∈ driver.openHandles)
    (kept : ∀ handle, handle < driver.handles.length → handle ∉ driver.openHandles →
      handle < next.handles.length ∧ handle ∉ next.openHandles)
    (closes : ∀ handle, call = .fsClose handle →
      handle < next.handles.length ∧ handle ∉ next.openHandles) : next.Orderly := by
  refine ⟨fun handle member => ?_, ?_⟩
  · rw [logged, List.mem_append, List.mem_singleton] at member
    rcases member with old | new
    · obtain ⟨given, shut⟩ := orderly.closed handle old
      exact kept handle given shut
    · exact closes handle new.symm
  · rw [logged, List.pairwise_append]
    refine ⟨orderly.apart, List.pairwise_singleton _ _, fun earlier old later new handle same => ?_⟩
    rw [List.mem_singleton.mp new]
    subst same
    -- What was closed is not open, so the call cannot use it.
    exact fun used => (orderly.closed handle old).2 (fits handle used)

/-- A call that closes nothing and changes no handle keeps the driver orderly. -/
theorem Orderly.called (orderly : driver.Orderly) {call : FsCall} (called : driver.Called next call)
    (fits : ∀ handle, call.handle = some handle → handle ∈ driver.openHandles)
    (other : ∀ handle, call ≠ .fsClose handle) : next.Orderly := by
  -- Which handles have been closed is as before the call.
  refine orderly.logged called.log fits (fun handle given shut => ?_) fun handle same => ?_
  · rw [called.length, called.openHandles]
    exact ⟨given, shut⟩
  · exact absurd same (other handle)

/-- The handle that an open gives out is new. -/
theorem Orderly.opened (orderly : driver.Orderly) {path : CString} {flags : FsMode}
    {opened : OpenFile} (logged : next.log = driver.log ++ [.fsOpen path flags])
    (given : next.handles = driver.handles ++ [some opened]) : next.Orderly := by
  -- Places in the table are not used twice, so a closed handle lies below the new one.
  refine orderly.logged logged nofun (fun handle before shut => ?_) nofun
  rw [openHandles, given, Slots.used_append, List.length_append, List.mem_append,
    List.mem_singleton]
  refine ⟨Nat.lt_of_lt_of_le before (Nat.le_add_right _ _), ?_⟩
  rintro (used | same)
  · exact shut used
  · exact Nat.ne_of_lt before same

/-- A handle that is open can be closed. -/
theorem Orderly.closing (orderly : driver.Orderly) {handle : Nat}
    (held : handle ∈ driver.openHandles) (logged : next.log = driver.log ++ [.fsClose handle])
    (given : next.handles = driver.handles.set handle none) : next.Orderly := by
  -- A handle is listed once among the open ones, so it is gone when it is taken out.
  have nodup : driver.openHandles.Nodup := Slots.used_nodup driver.handles
  have remain : next.openHandles = driver.openHandles.erase handle := by
    rw [openHandles, given, Slots.used_set_none, openHandles]
  have length : next.handles.length = driver.handles.length := by rw [given, List.length_set]
  refine orderly.logged logged ?_ (fun other before shut => ?_) ?_
  · rintro other ⟨⟩
    exact held
  · rw [length, remain]
    exact ⟨before, fun member => shut (List.mem_of_mem_erase member)⟩
  · rintro other ⟨⟩
    rw [length, remain]
    exact ⟨Slots.lt_of_mem_used held, nodup.not_mem_erase⟩

/-- A write on an open handle is one call, and leaves it open. -/
theorem fsWrite_called {file : FsFile} {handle : Nat} (given : file.filep = some handle)
    (held : handle ∈ driver.openHandles) (bytes : List UInt8) (transfer : Transfer) :
    driver.Called (driver.fsWrite file bytes transfer).1 (.fsWrite handle) := by
  have same : ∀ moved, Slots.used (driver.handles.set handle (some moved)) = driver.openHandles :=
    fun moved => Slots.used_set_some moved held
  unfold fsWrite
  simp only [given]
  -- Whether bytes are moved or not, the handle holds an open file.
  split
  · exact ⟨rfl, rfl, rfl, rfl⟩
  · split
    · exact ⟨rfl, rfl, rfl, rfl⟩
    · exact ⟨rfl, rfl, rfl, rfl⟩
    · exact ⟨rfl, rfl, List.length_set, same _⟩

/-- A read on an open handle is one call, and leaves it open. -/
theorem fsRead_called {file : FsFile} {handle : Nat} (given : file.filep = some handle)
    (held : handle ∈ driver.openHandles) (requested : Nat) (transfer : Transfer) :
    driver.Called (driver.fsRead file requested transfer).1 (.fsRead handle) := by
  -- A handle that is moved on is still an open one.
  have same : ∀ moved, Slots.used (driver.handles.set handle (some moved)) = driver.openHandles :=
    fun moved => Slots.used_set_some moved held
  unfold fsRead
  simp only [given]
  split
  · exact ⟨rfl, rfl, rfl, rfl⟩
  · split
    · exact ⟨rfl, rfl, rfl, rfl⟩
    · exact ⟨rfl, rfl, rfl, rfl⟩
    · exact ⟨rfl, rfl, List.length_set, same _⟩

/-- A mount that fails is one call, and a volume that was mounted was not mounted before. -/
theorem fsMount_cases (driver : FsDriver) (mount : FsMount) (verdict : Int) :
    (driver.Called (driver.fsMount mount verdict).1 (.fsMount mount) ∧
        (driver.fsMount mount verdict).2 ≠ 0) ∨
      mount ∉ driver.mounted ∧ driver.fsMount mount verdict =
        ({ driver with
            log := driver.log ++ [.fsMount mount]
            mounted := mount :: driver.mounted }, 0) := by
  -- The driver turns away a volume that is already mounted.
  unfold fsMount
  by_cases answered : verdict = 0
  · by_cases already : mount ∈ driver.mounted
    · simp only [answered, ne_eq, not_true_eq_false, if_false, if_pos already]
      exact .inl ⟨⟨rfl, rfl, rfl, rfl⟩, by decide⟩
    · simp only [answered, ne_eq, not_true_eq_false, if_false, if_neg already]
      exact .inr ⟨already, trivial⟩
  · simp only [ne_eq, answered, not_false_eq_true, if_true]
    exact .inl ⟨⟨rfl, rfl, rfl, rfl⟩, trivial⟩

/-- An open that fails is one call. -/
theorem fsOpen_called {file : FsFile} {path : CString} {flags : FsMode} {verdict : Int}
    (refused : (driver.fsOpen file path flags verdict).2.2 ≠ 0) :
    driver.Called (driver.fsOpen file path flags verdict).1 (.fsOpen path flags) := by
  -- A refused open leaves the driver as it was but for the log.
  rw [fsOpen_refused refused]
  exact ⟨rfl, rfl, rfl, rfl⟩

/-- A file on an open handle is closed by one call, which gives the handle back. -/
theorem fsClose_handle {file : FsFile} {handle : Nat} (given : file.filep = some handle) :
    (driver.fsClose file 0).1 =
      { driver with
        log := driver.log ++ [.fsClose handle]
        handles := driver.handles.set handle none } := by
  -- The driver answers with zero, so the handle is taken out of the table.
  simp [fsClose, given]

end FsDriver

/-- The helper opens nothing and reports an error, or opens the next handle. -/
theorem ZFile.openFile_cases (driver : FsDriver) (fileName : List UInt8) (flags : FsMode)
    (mount : List UInt8) (verdict : Int) :
    ∃ next path,
      (driver.Called next (.fsOpen path flags) ∧
        ∃ error, ZFile.openFile driver fileName flags mount verdict = (next, .error error)) ∨
      (next.log = driver.log ++ [.fsOpen path flags] ∧ next.mounted = driver.mounted ∧
        next.handles = driver.handles ++ [some ⟨path, 0, flags⟩] ∧
        ZFile.openFile driver fileName flags mount verdict =
          (next, .ok ⟨some driver.handles.length, flags⟩)) := by
  -- The verdict of the driver decides which of the two it is.
  refine ⟨(driver.fsOpen fsFileInit (CString.ofChars (filePath mount fileName).items) flags
    verdict).1, CString.ofChars (filePath mount fileName).items, ?_⟩
  by_cases opened : (driver.fsOpen fsFileInit (CString.ofChars (filePath mount fileName).items)
    flags verdict).2.2 = 0
  · right
    obtain ⟨given, changed⟩ := FsDriver.fsOpen_opened opened
    simp [changed, ZFile.openFile, opened, given]
  · left
    refine ⟨FsDriver.fsOpen_called opened, openError (driver.fsOpen fsFileInit
      (CString.ofChars (filePath mount fileName).items) flags verdict).2.2, ?_⟩
    simp [ZFile.openFile, opened]

/-- A file that has not been destroyed, and the file system it was opened on. -/
structure LiveFile where
  owner : ZFileSystem
  file : ZFile
  deriving DecidableEq

/-- The driver, and the objects over it that have been constructed and not destroyed. -/
structure Session where
  driver : FsDriver
  systems : List ZFileSystem
  files : List LiveFile

/-- One operation on an object, with the driver's verdict on each call that may fail. -/
inductive FsOperation where
  | mount (mount : FsMount) (verdict : Int)
  | unmount (system : ZFileSystem)
  | openFile (system : ZFileSystem) (fileName : List UInt8) (flags : FsMode) (verdict : Int)
  | checkFileExists (system : ZFileSystem) (fileName : List UInt8) (verdict : Int)
  | write (live : LiveFile) (data : Span) (transfer : Transfer)
  | read (live : LiveFile) (data : Span) (transfer : Transfer)
  | close (live : LiveFile)

namespace Session

/-- The driver at boot, and no object. -/
def boot (files : CString → Option (List UInt8)) : Session :=
  { driver := .boot files, systems := [], files := [] }

/-- A file system that could be mounted is alive from then on, and an error is caught. -/
def mount (session : Session) (mount : FsMount) (verdict : Int) : Session :=
  match ZFileSystem.construct session.driver mount verdict with
  | (driver, .ok system) =>
    { session with driver := driver, systems := system :: session.systems }
  -- An object whose constructor threw is never destroyed.
  | (driver, .error _) => { session with driver := driver }

/-- A file that could be opened is alive from then on, and an error is caught. -/
def openFile (session : Session) (system : ZFileSystem) (fileName : List UInt8) (flags : FsMode)
    (verdict : Int) : Session :=
  match system.openFile session.driver fileName flags verdict with
  | (driver, .ok file) =>
    { session with driver := driver, files := { owner := system, file := file } :: session.files }
  | (driver, .error _) => { session with driver := driver }

/-- One operation, refused where its object is not alive or still has files. -/
def step : Machine Session FsOperation := fun session operation =>
  match operation with
  | .mount mount verdict => some (session.mount mount verdict)
  -- The driver never fails to unmount or to close.
  | .unmount system =>
    if system ∈ session.systems ∧ ∀ live ∈ session.files, live.owner ≠ system then
      some { session with
        driver := system.destruct session.driver 0
        systems := session.systems.erase system }
    else none
  | .openFile system fileName flags verdict =>
    if system ∈ session.systems then some (session.openFile system fileName flags verdict)
    else none
  | .checkFileExists system fileName verdict =>
    if system ∈ session.systems then
      some { session with
        driver := (system.checkFileExists session.driver fileName verdict 0).1 }
    else none
  -- What a transfer delivers or throws is handed to the caller, and the object stays.
  | .write live data transfer =>
    if live ∈ session.files then
      some { session with driver := (live.file.write session.driver data transfer).1 }
    else none
  | .read live data transfer =>
    if live ∈ session.files then
      some { session with driver := (live.file.read session.driver data transfer).1 }
    else none
  | .close live =>
    if live ∈ session.files then
      some { session with
        driver := live.file.destruct session.driver 0
        files := session.files.erase live }
    else none

/-- Open handles are those of live files, and mounted volumes those of live file systems. -/
structure Balanced (session : Session) : Prop where
  mounts : session.driver.mounted.Perm (session.systems.map ZFileSystem.mount)
  handles : (session.files.map fun live => live.file.file.filep).Perm
    (session.driver.openHandles.map some)
  orderly : session.driver.Orderly

variable {session next : Session}

/-- A live file has a handle, and it is open. -/
theorem Balanced.held (balanced : session.Balanced) {live : LiveFile}
    (member : live ∈ session.files) :
    ∃ handle ∈ session.driver.openHandles, live.file.file.filep = some handle := by
  -- The handles of the live files are the open ones, in another order perhaps.
  have listed : live.file.file.filep ∈ session.files.map fun live => live.file.file.filep :=
    List.mem_map_of_mem member
  obtain ⟨handle, opened, same⟩ := List.mem_map.mp (balanced.handles.mem_iff.mp listed)
  exact ⟨handle, opened, same.symm⟩

/-- A call that closes nothing and changes no handle keeps the objects in balance. -/
theorem Balanced.called (balanced : session.Balanced) {driver : FsDriver} {call : FsCall}
    (called : session.driver.Called driver call)
    (fits : ∀ handle, call.handle = some handle → handle ∈ session.driver.openHandles)
    (other : ∀ handle, call ≠ .fsClose handle) :
    Balanced { session with driver := driver } := by
  -- The lists of mounts and of open handles are the same ones.
  refine ⟨?_, ?_, balanced.orderly.called called fits other⟩
  · show driver.mounted.Perm _
    rw [called.mounted]
    exact balanced.mounts
  · show List.Perm _ (driver.openHandles.map some)
    rw [called.openHandles]
    exact balanced.handles

/-- A file system that is constructed mounts its volume, and one that throws mounts nothing. -/
theorem Balanced.mount (balanced : session.Balanced) (mount : FsMount) (verdict : Int) :
    (session.mount mount verdict).Balanced := by
  -- A volume that the driver accepted has one more object, the new one.
  rcases session.driver.fsMount_cases mount verdict with ⟨called, failed⟩ | ⟨absent, mounted⟩
  · simp only [Session.mount, ZFileSystem.construct, if_pos failed]
    exact balanced.called called nofun nofun
  · simp only [Session.mount, ZFileSystem.construct, mounted, ne_eq, not_true_eq_false, if_false]
    refine ⟨?_, balanced.handles, ?_⟩
    · exact balanced.mounts.cons mount
    · exact balanced.orderly.logged rfl nofun (fun _ given shut => ⟨given, shut⟩) nofun

/-- A file system that is destroyed unmounts its volume. -/
theorem Balanced.unmount (balanced : session.Balanced) {system : ZFileSystem}
    (member : system ∈ session.systems) :
    Balanced { session with
      driver := system.destruct session.driver 0
      systems := session.systems.erase system } := by
  -- The volume of a live file system is mounted, so the driver does not refuse.
  have listed : system.mount ∈ session.driver.mounted :=
    balanced.mounts.mem_iff.mpr (List.mem_map_of_mem member)
  have changed : system.destruct session.driver 0 =
      { session.driver with
        log := session.driver.log ++ [.fsUnmount system.mount]
        mounted := session.driver.mounted.erase system.mount } := by
    simp [ZFileSystem.destruct, FsDriver.fsUnmount, listed]
  rw [changed]
  refine ⟨?_, balanced.handles, ?_⟩
  · have rest := (List.perm_cons_erase member).map ZFileSystem.mount
    have erased := (balanced.mounts.trans rest).erase system.mount
    rwa [List.map_cons, List.erase_cons_head] at erased
  · exact balanced.orderly.logged rfl nofun (fun _ given shut => ⟨given, shut⟩) nofun

/-- A file that is constructed has the handle that was opened, and one that throws has none. -/
theorem Balanced.openFile (balanced : session.Balanced) (system : ZFileSystem)
    (fileName : List UInt8) (flags : FsMode) (verdict : Int) :
    (session.openFile system fileName flags verdict).Balanced := by
  obtain ⟨driver, path, ⟨called, error, failed⟩ | ⟨logged, mounts, given, opened⟩⟩ :=
    ZFile.openFile_cases session.driver fileName flags system.mount.mntPoint.chars verdict
  · simp only [Session.openFile, ZFileSystem.openFile, ZFile.construct, failed]
    exact balanced.called called nofun nofun
  · simp only [Session.openFile, ZFileSystem.openFile, ZFile.construct, opened]
    refine ⟨?_, ?_, balanced.orderly.opened logged given⟩
    · show driver.mounted.Perm _
      rw [mounts]
      exact balanced.mounts
    · show List.Perm _ ((Slots.used driver.handles).map some)
      rw [given, Slots.used_append, List.map_append, List.map_singleton]
      -- The object is listed first, and its handle last.
      exact (balanced.handles.cons _).trans (List.perm_append_singleton _ _).symm

/-- A file that is looked for is closed again where it was found. -/
theorem Balanced.checkFileExists (balanced : session.Balanced) (system : ZFileSystem)
    (fileName : List UInt8) (verdict : Int) :
    Balanced { session with
      driver := (system.checkFileExists session.driver fileName verdict 0).1 } := by
  obtain ⟨driver, path, ⟨called, error, failed⟩ | ⟨logged, mounts, given, opened⟩⟩ :=
    ZFile.openFile_cases session.driver fileName 0 system.mount.mntPoint.chars verdict
  · have same : (system.checkFileExists session.driver fileName verdict 0).1 = driver := by
      simp only [ZFileSystem.checkFileExists, failed]
      split <;> rfl
    rw [same]
    exact balanced.called called nofun nofun
  · have closed : (system.checkFileExists session.driver fileName verdict 0).1 =
        { driver with
          log := driver.log ++ [.fsClose session.driver.handles.length]
          handles := driver.handles.set session.driver.handles.length none } := by
      simp only [ZFileSystem.checkFileExists, opened]
      exact FsDriver.fsClose_handle rfl
    have between : driver.openHandles =
        session.driver.openHandles ++ [session.driver.handles.length] := by
      rw [FsDriver.openHandles, given, Slots.used_append]
      rfl
    rw [closed]
    refine ⟨?_, ?_, (balanced.orderly.opened logged given).closing ?_ rfl rfl⟩
    · show driver.mounted.Perm _
      rw [mounts]
      exact balanced.mounts
    · -- The handle that was opened last is the one that is closed.
      have fresh : session.driver.handles.length ∉ session.driver.openHandles :=
        fun member => Nat.lt_irrefl _ (Slots.lt_of_mem_used member)
      show List.Perm _ ((Slots.used (driver.handles.set _ none)).map some)
      rw [Slots.used_set_none, ← FsDriver.openHandles, between,
        List.erase_append_right _ fresh, List.erase_cons_head, List.append_nil]
      exact balanced.handles
    · rw [between]
      exact List.mem_append_right _ (List.mem_singleton_self _)

/-- A write is refused before it reaches the driver, or uses the handle of its file. -/
theorem Balanced.write (balanced : session.Balanced) {live : LiveFile}
    (member : live ∈ session.files) (data : Span) (transfer : Transfer) :
    Balanced { session with driver := (live.file.write session.driver data transfer).1 } := by
  obtain ⟨handle, opened, given⟩ := balanced.held member
  have called := FsDriver.fsWrite_called given opened data.bytes transfer
  have after : Balanced { session with
      driver := (session.driver.fsWrite live.file.file data.bytes transfer).1 } :=
    balanced.called called (by rintro _ ⟨⟩; exact opened) nofun
  unfold ZFile.write
  split
  · exact balanced
  · split
    · exact balanced
    · -- However the call ends, the driver is left as the transfer left it.
      dsimp only
      split
      · exact after
      · split
        · exact after
        · exact after

/-- A read is refused before it reaches the driver, or uses the handle of its file. -/
theorem Balanced.read (balanced : session.Balanced) {live : LiveFile}
    (member : live ∈ session.files) (data : Span) (transfer : Transfer) :
    Balanced { session with driver := (live.file.read session.driver data transfer).1 } := by
  -- The object of a live file is in balance before the read, so its handle is open.
  obtain ⟨handle, opened, given⟩ := balanced.held member
  have called := FsDriver.fsRead_called given opened data.bytes.length transfer
  have after : Balanced { session with
      driver := (session.driver.fsRead live.file.file data.bytes.length transfer).1 } :=
    balanced.called called (by rintro _ ⟨⟩; exact opened) nofun
  unfold ZFile.read
  split
  · exact balanced
  · dsimp only
    split
    · exact after
    · split
      · exact after
      · exact after

/-- A file that is destroyed closes its handle. -/
theorem Balanced.close (balanced : session.Balanced) {live : LiveFile}
    (member : live ∈ session.files) :
    Balanced { session with
      driver := live.file.destruct session.driver 0
      files := session.files.erase live } := by
  obtain ⟨handle, opened, given⟩ := balanced.held member
  rw [ZFile.destruct, FsDriver.fsClose_handle given]
  refine ⟨balanced.mounts, ?_, balanced.orderly.closing opened rfl rfl⟩
  show List.Perm _ ((Slots.used (session.driver.handles.set handle none)).map some)
  rw [Slots.used_set_none, ← FsDriver.openHandles]
  -- One object leaves, and the handle it had.
  have rest := (List.perm_cons_erase member).map fun live => live.file.file.filep
  have handles := (List.perm_cons_erase opened).map some
  rw [List.map_cons, given] at rest
  rw [List.map_cons] at handles
  exact (rest.symm.trans (balanced.handles.trans handles)).cons_inv

/-- Every operation keeps the objects in balance. -/
theorem Balanced.step (balanced : session.Balanced) {operation : FsOperation}
    (stepped : Session.step session operation = some next) : next.Balanced := by
  -- Every operation has its own lemma.
  cases operation with
  | mount mount verdict =>
    cases stepped
    exact balanced.mount mount verdict
  | unmount system =>
    obtain ⟨⟨member, _⟩, ⟨⟩⟩ := Option.ite_none_right_eq_some.mp stepped
    exact balanced.unmount member
  | openFile system fileName flags verdict =>
    obtain ⟨_, ⟨⟩⟩ := Option.ite_none_right_eq_some.mp stepped
    exact balanced.openFile system fileName flags verdict
  | checkFileExists system fileName verdict =>
    obtain ⟨_, ⟨⟩⟩ := Option.ite_none_right_eq_some.mp stepped
    exact balanced.checkFileExists system fileName verdict
  | write live data transfer =>
    obtain ⟨member, ⟨⟩⟩ := Option.ite_none_right_eq_some.mp stepped
    exact balanced.write member data transfer
  | read live data transfer =>
    obtain ⟨member, ⟨⟩⟩ := Option.ite_none_right_eq_some.mp stepped
    exact balanced.read member data transfer
  | close live =>
    obtain ⟨member, ⟨⟩⟩ := Option.ite_none_right_eq_some.mp stepped
    exact balanced.close member

/-- At boot nothing is open, mounted or alive. -/
theorem balanced_boot (files : CString → Option (List UInt8)) : (boot files).Balanced :=
  -- All the lists are empty.
  ⟨.refl _, .refl _, ⟨nofun, .nil⟩⟩

/-- Between any two operations, handles and mounts are in balance, and no closed handle was used. -/
theorem always_balanced (files : CString → Option (List UInt8)) (operations : List FsOperation) :
    step.Always (fun session =>
      session.driver.mounted.Perm (session.systems.map ZFileSystem.mount) ∧
        (session.files.map fun live => live.file.file.filep).Perm
          (session.driver.openHandles.map some) ∧
        session.driver.log.Pairwise FsCall.Apart) (boot files) operations := by
  -- Each operation keeps the balance, so each state of the run has it.
  intro before reached _ ran
  have kept : ∀ session operation next, Balanced session →
      Session.step session operation = some next → Balanced next :=
    fun _ _ _ balanced stepped => balanced.step stepped
  have balanced := Machine.run_invariant kept (balanced_boot files) ran
  exact ⟨balanced.mounts, balanced.handles, balanced.orderly.apart⟩

-- A second mount and the opening of a missing file throw, and nothing of them is left.
example :
    let system : ZFileSystem := ⟨⟨0, .ofChars [47, 97]⟩⟩
    let live : LiveFile := ⟨system, ⟨⟨some 0, 0x12⟩⟩⟩
    (step.run (boot fun _ => none) [.mount system.mount 0, .mount system.mount 0,
        .openFile system [98] 0x12 0, .openFile system [99] 0x02 0, .checkFileExists system [98] 0,
        .close live, .unmount system]).map
      (fun session => (session.driver.openHandles, session.driver.mounted, session.files)) =
        some ([], [], []) := by
  decide

end Session
end Notus
