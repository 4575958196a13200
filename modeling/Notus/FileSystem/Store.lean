import Notus.Core.Output
import Notus.FileSystem.Balance
import Notus.FileSystem.Bytes

/-! Files as a store: what whole sessions leave of the content at a path. -/

namespace Notus

namespace FsDriver

variable {driver next last : FsDriver}

/-- Handles keep the path and the mode they were opened with, and only new ones are given out. -/
structure Extends (driver next : FsDriver) : Prop where
  given : driver.handles.length ≤ next.handles.length
  held : ∀ handle < driver.handles.length, ∀ opened ∈ next.handleAt handle,
    ∃ earlier ∈ driver.handleAt handle, opened.path = earlier.path ∧ opened.flags = earlier.flags

/-- A driver whose handles did not change extends the one before. -/
theorem extends_of_handles (same : next.handles = driver.handles) : driver.Extends next := by
  -- The same table shows every handle as it was.
  refine ⟨Nat.le_of_eq (congrArg List.length same.symm), fun handle _ opened held => ?_⟩
  exact ⟨opened, by simpa [handleAt, same] using held, rfl, rfl⟩

/-- What is behind a handle after another was replaced was there before. -/
theorem handleAt_of_set {handle other : Nat} {replaced : Option OpenFile} {opened : OpenFile}
    (table : next.handles = driver.handles.set other replaced)
    (held : next.handleAt handle = some opened) :
    handle = other ∧ replaced = some opened ∨ driver.handleAt handle = some opened := by
  by_cases same : handle = other
  · subst same
    by_cases within : handle < driver.handles.length
    · simp only [handleAt, table, List.getElem?_set_self within, Option.join_some] at held
      exact .inl ⟨rfl, held⟩
    · -- A number that was never given out has nothing behind it.
      rw [List.set_eq_of_length_le (Nat.le_of_not_lt within)] at table
      exact .inr (by simpa [handleAt, table] using held)
  · right
    simpa [handleAt, table, List.getElem?_set_ne (Ne.symm same)] using held

/-- A handle is given back, or moved on within its file. -/
theorem extends_of_set {handle : Nat} {replaced : Option OpenFile}
    (table : next.handles = driver.handles.set handle replaced)
    (moves : ∀ opened ∈ replaced, ∃ earlier ∈ driver.handleAt handle,
      opened.path = earlier.path ∧ opened.flags = earlier.flags) : driver.Extends next := by
  -- Replacing one entry leaves the others alone, and this one moves within its file.
  refine ⟨by rw [table, List.length_set], fun other _ opened held => ?_⟩
  rcases handleAt_of_set table held with ⟨rfl, moved⟩ | kept
  · exact moves opened moved
  · exact ⟨opened, kept, rfl, rfl⟩

/-- A new handle leaves those before it as they were. -/
theorem extends_of_append {opened : OpenFile}
    (table : next.handles = driver.handles ++ [some opened]) : driver.Extends next := by
  -- A handle given out before is at its old place in the longer table.
  refine ⟨by simp [table], fun handle within found held => ⟨found, ?_, rfl, rfl⟩⟩
  simpa [handleAt, table, List.getElem?_append_left within] using held

/-- An open gives out at most one handle, and the content at every path stays as it is. -/
theorem fsOpen_extends (driver : FsDriver) (file : FsFile) (path : CString) (flags : FsMode)
    (verdict : Int) :
    driver.Extends (driver.fsOpen file path flags verdict).1 ∧
      ∀ other, (driver.fsOpen file path flags verdict).1.files other = driver.files other ∨
        driver.files other = none ∧
          (driver.fsOpen file path flags verdict).1.files other = some [] := by
  by_cases opened : (driver.fsOpen file path flags verdict).2.2 = 0
  · obtain ⟨_, changed⟩ := fsOpen_opened opened
    rw [changed]
    refine ⟨extends_of_append rfl, fun other => ?_⟩
    cases stored : driver.files path with
    | some content => exact .inl rfl
    | none =>
      -- Only the path that was opened can have been created.
      by_cases same : other = path
      · subst same
        exact .inr ⟨stored, by simp⟩
      · exact .inl (by simp [same])
  · rw [fsOpen_refused opened]
    exact ⟨extends_of_handles rfl, fun _ => .inl rfl⟩

/-- A close takes back at most one handle. -/
theorem fsClose_extends (driver : FsDriver) (file : FsFile) (verdict : Int) :
    driver.Extends (driver.fsClose file verdict).1 := by
  -- Only a close that is answered with zero takes the handle back.
  unfold fsClose
  cases file.filep with
  | none => exact extends_of_handles rfl
  | some handle =>
    by_cases answered : verdict = 0
    · simp only [answered, ne_eq, not_true_eq_false, if_false]
      exact extends_of_set rfl nofun
    · simp only [answered, ne_eq, not_false_eq_true, if_true]
      exact extends_of_handles rfl

/-- A read moves at most the offset of its own handle, and changes no file. -/
theorem fsRead_extends (driver : FsDriver) (file : FsFile) (requested : Nat) (transfer : Transfer) :
    driver.Extends (driver.fsRead file requested transfer).1 ∧
      (driver.fsRead file requested transfer).1.files = driver.files := by
  -- Of the three ways a transfer can end, only the last one moves the offset.
  unfold fsRead
  cases file.filep with
  | none => exact ⟨extends_of_handles rfl, rfl⟩
  | some handle =>
    cases held : driver.handleAt handle with
    | none =>
      simp only [handleAt] at held ⊢
      simp only [held]
      exact ⟨extends_of_handles rfl, trivial⟩
    | some opened =>
      simp only [handleAt] at held ⊢
      simp only [held]
      split
      · exact ⟨extends_of_handles rfl, rfl⟩
      · exact ⟨extends_of_handles rfl, rfl⟩
      · exact ⟨extends_of_set rfl (by rintro _ ⟨⟩; exact ⟨opened, held, rfl, rfl⟩), rfl⟩

/-- What a write leaves of the bytes that were there: those before it and those behind it. -/
def overwritten (content : List UInt8) (opened : OpenFile) (bytes : List UInt8) : List UInt8 :=
  let offset := if opened.flags.sets FsMode.append then content.length else opened.offset
  content.take offset ++ bytes ++ content.drop (offset + bytes.length)

/-- A write fails and changes no file, or stores the first of its bytes in the one it is open on. -/
theorem fsWrite_files (driver : FsDriver) (file : FsFile) (bytes : List UInt8)
    (transfer : Transfer) :
    driver.Extends (driver.fsWrite file bytes transfer).1 ∧
      ((driver.fsWrite file bytes transfer).2 < 0 ∧
          (driver.fsWrite file bytes transfer).1.files = driver.files ∨
        ∃ opened content count, driver.Holds file opened content ∧ count ≤ bytes.length ∧
          count ≤ ssizeMax ∧ (driver.fsWrite file bytes transfer).2 = count ∧
          (driver.fsWrite file bytes transfer).1.files =
            Function.update driver.files opened.path
              (some (overwritten content opened (bytes.take count)))) := by
  -- A write that is turned away before the transfer, or fails in it, stores nothing.
  have unopened : -Errno.einval < 0 := by decide
  have closed : -Errno.ebadf < 0 := by decide
  unfold fsWrite
  cases given : file.filep with
  | none => exact ⟨extends_of_handles rfl, .inl ⟨unopened, rfl⟩⟩
  | some handle =>
    simp only [handleAt]
    split
    next => exact ⟨extends_of_handles rfl, .inl ⟨closed, rfl⟩⟩
    next opened held =>
      split
      next => exact ⟨extends_of_handles rfl, .inl ⟨closed, rfl⟩⟩
      next code negative _ => exact ⟨extends_of_handles rfl, .inl ⟨negative, rfl⟩⟩
      next content limit stored =>
        refine ⟨extends_of_set rfl (by rintro _ ⟨⟩; exact ⟨opened, held, rfl, rfl⟩), .inr
          ⟨opened, content, min limit (min bytes.length ssizeMax), ⟨?_, stored⟩, by omega,
            by omega, rfl, ?_⟩⟩
        · simpa [openedAs, given, handleAt] using held
        · have count : (bytes.take (min limit (min bytes.length ssizeMax))).length =
              min limit (min bytes.length ssizeMax) := by
            rw [List.length_take]
            omega
          simp only [overwritten, count]

/-- What cannot be asked of an extension is not lost by another one. -/
theorem Extends.trans (first : driver.Extends next) (second : next.Extends last) :
    driver.Extends last := by
  -- A handle is followed back through both extensions.
  refine ⟨Nat.le_trans first.given second.given, fun handle within opened held => ?_⟩
  obtain ⟨middle, between, path, flags⟩ :=
    second.held handle (Nat.lt_of_lt_of_le within first.given) opened held
  obtain ⟨earlier, before, earlierPath, earlierFlags⟩ := first.held handle within middle between
  exact ⟨earlier, before, path.trans earlierPath, flags.trans earlierFlags⟩

end FsDriver

namespace ZFile

open FsDriver

/-- A write changes no file and accounts for nothing, or stores exactly what it accounts for. -/
theorem write_files (self : ZFile) (driver : FsDriver) (data : Span) (transfer : Transfer) :
    driver.Extends (self.write driver data transfer).1 ∧
      ((self.write driver data transfer).1.files = driver.files ∧
          accounted data.bytes (self.write driver data transfer).2 = [] ∨
        hasFlag self.file.flags Flags.write = true ∧
          ∃ opened content, driver.Holds self.file opened content ∧
            (self.write driver data transfer).1.files =
              Function.update driver.files opened.path (some (overwritten content opened
                (accounted data.bytes (self.write driver data transfer).2)))) := by
  -- The flags are checked before the driver is asked, so a call that gets there may write.
  obtain ⟨extended, answered⟩ := driver.fsWrite_files self.file data.bytes transfer
  unfold write
  split
  next => exact ⟨extends_of_handles rfl, .inl ⟨rfl, rfl⟩⟩
  next allowed =>
    split
    next => exact ⟨extends_of_handles rfl, .inl ⟨rfl, rfl⟩⟩
    next =>
      rcases answered with
        ⟨failed, kept⟩ | ⟨opened, content, count, holds, within, fits, moved, grown⟩
      · have nothing := Int.toNat_of_nonpos (Int.le_of_lt failed)
        simp only [if_pos failed]
        exact ⟨extended, .inl ⟨kept, by simp [accounted, nothing]⟩⟩
      · have valid : ¬ (count : Int) < 0 := by omega
        have flag : hasFlag self.file.flags Flags.write = true := by simpa using allowed
        simp only [moved, if_neg valid, ne_eq, castInt_eq_iff fits data.bounded]
        by_cases whole : count = data.bytes.length
        · simp only [whole, not_true_eq_false, if_false]
          rw [whole, List.take_length] at grown
          exact ⟨extended, .inr ⟨flag, opened, content, holds, grown⟩⟩
        · simp only [whole, not_false_eq_true, if_true]
          exact ⟨extended, .inr ⟨flag, opened, content, holds, by simpa [accounted] using grown⟩⟩

/-- A read of a file object changes no file. -/
theorem read_files (self : ZFile) (driver : FsDriver) (data : Span) (transfer : Transfer) :
    driver.Extends (self.read driver data transfer).1 ∧
      (self.read driver data transfer).1.files = driver.files := by
  -- Whatever is made of the count afterwards, the driver has been called once at most.
  have extended := driver.fsRead_extends self.file data.bytes.length transfer
  unfold read
  split
  · exact ⟨extends_of_handles rfl, rfl⟩
  · simp only
    split
    · exact extended
    · split <;> exact extended

/-- Opening creates at most the file at the path, and gives out a handle with the mode asked for. -/
theorem openFile_files (driver : FsDriver) (fileName : List UInt8) (flags : FsMode)
    (mount : List UInt8) (verdict : Int) :
    driver.Extends (openFile driver fileName flags mount verdict).1 ∧
      (∀ other, (openFile driver fileName flags mount verdict).1.files other = driver.files other ∨
        driver.files other = none ∧
          (openFile driver fileName flags mount verdict).1.files other = some []) ∧
      ∀ file, (openFile driver fileName flags mount verdict).2 = .ok file →
        file = ⟨some driver.handles.length, flags⟩ ∧
          (openFile driver fileName flags mount verdict).1.handles = driver.handles ++
            [some ⟨CString.ofChars (filePath mount fileName).items, 0, flags⟩] := by
  -- The constructor only passes on what the driver answered.
  obtain ⟨extended, files⟩ := driver.fsOpen_extends fsFileInit
    (CString.ofChars (filePath mount fileName).items) flags verdict
  unfold openFile
  by_cases opened : (driver.fsOpen fsFileInit (CString.ofChars (filePath mount fileName).items)
    flags verdict).2.2 = 0
  · obtain ⟨given, changed⟩ := fsOpen_opened opened
    simp only [opened, ne_eq, not_true_eq_false, if_false]
    refine ⟨extended, files, fun file same => ?_⟩
    cases same
    exact ⟨given, by rw [changed]⟩
  · simp only [ne_eq, opened, not_false_eq_true, if_true]
    exact ⟨extended, files, nofun⟩

end ZFile

/-- A live file has the mode its handle was opened with, which is one allowed on its path. -/
def LiveFile.Bound (path : CString) (allowed : FsMode → Prop) (driver : FsDriver)
    (live : LiveFile) : Prop :=
  ∃ handle < driver.handles.length, live.file.file.filep = some handle ∧
    ∀ opened ∈ driver.handleAt handle, opened.flags = live.file.file.flags ∧
      (opened.path = path → allowed opened.flags)

/-- A mode in which all that is written comes behind what is there. -/
def Appends (flags : FsMode) : Prop :=
  hasFlag flags ZFile.Flags.write = true → flags.sets FsMode.append = true

/-- A mode in which nothing is written. -/
def Protects (flags : FsMode) : Prop :=
  hasFlag flags ZFile.Flags.write = false

instance : DecidablePred Appends := fun flags =>
  inferInstanceAs (Decidable (hasFlag flags ZFile.Flags.write = true → _))

instance : DecidablePred Protects := fun flags =>
  inferInstanceAs (Decidable (hasFlag flags ZFile.Flags.write = false))

/-- What is opened at a path is opened with one of the modes allowed there. -/
def FsOperation.OpensWith (path : CString) (allowed : FsMode → Prop) : FsOperation → Prop
  | .openFile system fileName flags _ =>
    CString.ofChars (ZFile.filePath system.mount.mntPoint.chars fileName).items = path →
      allowed flags
  | _ => True

instance (path : CString) (allowed : FsMode → Prop) [DecidablePred allowed] :
    (operation : FsOperation) → Decidable (operation.OpensWith path allowed)
  | .openFile system fileName flags _ =>
    inferInstanceAs (Decidable (CString.ofChars
      (ZFile.filePath system.mount.mntPoint.chars fileName).items = path → allowed flags))
  | .mount .. | .unmount _ | .checkFileExists .. | .write .. | .read .. | .close _ =>
    isTrue trivial

namespace Session

open FsDriver

variable {session next : Session} {path : CString} {allowed : FsMode → Prop}

/-- All live files are bound to a mode that is allowed on their path. -/
def Bound (path : CString) (allowed : FsMode → Prop) (session : Session) : Prop :=
  ∀ live ∈ session.files, live.Bound path allowed session.driver

/-- The bytes that an operation stores at a path. -/
def stored (path : CString) (session : Session) : FsOperation → List UInt8
  | .write live data transfer =>
    -- A live file is open on one path, and writes to no other.
    if session.driver.pathOf live.file.file = some path then
      ZFile.accounted data.bytes (live.file.write session.driver data transfer).2
    else []
  | _ => []

/-- How the file at a path comes out of an operation that stores some bytes there. -/
inductive Change (allowed : FsMode → Prop) (before after : Option (List UInt8))
    (stored : List UInt8) : Prop where
  | kept (same : after = before) (nothing : stored = [])
  | created (absent : before = none) (empty : after = some []) (nothing : stored = [])
  /-- The file was open for writing, in a mode that is allowed. -/
  | written (opened : OpenFile) (content : List UInt8) (there : before = some content)
      (permitted : allowed opened.flags) (writes : hasFlag opened.flags ZFile.Flags.write = true)
      (result : after = some (overwritten content opened stored))

/-- A live file stays bound while the driver's table of handles is extended. -/
theorem bound_extends {live : LiveFile} {driver later : FsDriver}
    (bound : live.Bound path allowed driver) (extended : driver.Extends later) :
    live.Bound path allowed later := by
  -- The handle keeps its path and its mode, which is all that a bound speaks of.
  obtain ⟨handle, within, given, held⟩ := bound
  refine ⟨handle, Nat.lt_of_lt_of_le within extended.given, given, fun opened found => ?_⟩
  obtain ⟨earlier, before, same, flags⟩ := extended.held handle within opened found
  rw [same, flags]
  exact held earlier before

/-- No operation opens a live file in another mode, and only a new file is bound anew. -/
theorem Bound.extend (bound : session.Bound path allowed) {driver : FsDriver}
    {files : List LiveFile} (extended : session.driver.Extends driver)
    (fewer : ∀ live ∈ files, live ∈ session.files) :
    Bound path allowed { session with driver := driver, files := files } :=
  -- No file is alive that was not alive before.
  fun live member => bound_extends (bound live (fewer live member)) extended

/-- A file that could be opened is bound to the mode it was opened with. -/
theorem Bound.openFile (bound : session.Bound path allowed) (system : ZFileSystem)
    (fileName : List UInt8) (flags : FsMode) (verdict : Int)
    (opens : (FsOperation.openFile system fileName flags verdict).OpensWith path allowed) :
    (session.openFile system fileName flags verdict).Bound path allowed ∧
      ((session.openFile system fileName flags verdict).driver.files path =
          session.driver.files path ∨
        session.driver.files path = none ∧
          (session.openFile system fileName flags verdict).driver.files path = some []) := by
  -- The new handle is the last of the table, and all others are older than it.
  obtain ⟨extended, files, given⟩ := ZFile.openFile_files session.driver fileName flags
    system.mount.mntPoint.chars verdict
  generalize answered : ZFile.openFile session.driver fileName flags system.mount.mntPoint.chars
    verdict = answer at extended files given
  obtain ⟨driver, result⟩ := answer
  cases result with
  | error error =>
    simp only [Session.openFile, ZFileSystem.openFile, ZFile.construct, answered]
    exact ⟨bound.extend extended fun _ => id, files path⟩
  | ok file =>
    simp only [Session.openFile, ZFileSystem.openFile, ZFile.construct, answered]
    obtain ⟨rfl, table⟩ := given file rfl
    refine ⟨fun live member => ?_, files path⟩
    rcases List.mem_cons.mp member with rfl | old
    · have last : driver.handleAt session.driver.handles.length =
          some ⟨CString.ofChars (ZFile.filePath system.mount.mntPoint.chars fileName).items, 0,
            flags⟩ := by
        rw [handleAt, show driver.handles = _ from table]
        simp
      refine ⟨session.driver.handles.length, ?_, rfl, fun opened found => ?_⟩
      · show _ < driver.handles.length
        rw [show driver.handles = _ from table, List.length_append]
        exact Nat.lt_add_one _
      · obtain rfl := Option.some.inj (last.symm.trans found)
        exact ⟨rfl, opens⟩
    · exact bound_extends (bound live old) extended

/-- An existence check changes no content, and leaves only its closed handle behind. -/
theorem checkFileExists_files (system : ZFileSystem) (driver : FsDriver) (fileName : List UInt8)
    (opening closing : Int) :
    driver.Extends (system.checkFileExists driver fileName opening closing).1 ∧
      ∀ other, (system.checkFileExists driver fileName opening closing).1.files other =
          driver.files other ∨
        driver.files other = none ∧
          (system.checkFileExists driver fileName opening closing).1.files other = some [] := by
  -- The handle of the check is opened and closed again, and a close changes no file.
  obtain ⟨extended, files, _⟩ := ZFile.openFile_files driver fileName 0
    system.mount.mntPoint.chars opening
  generalize answered : ZFile.openFile driver fileName 0 system.mount.mntPoint.chars opening =
    answer at extended files
  obtain ⟨opened, result⟩ := answer
  cases result with
  | error error =>
    simp only [ZFileSystem.checkFileExists, answered]
    split <;> exact ⟨extended, files⟩
  | ok file =>
    simp only [ZFileSystem.checkFileExists, answered]
    rw [(fsClose_kept opened file closing).2]
    exact ⟨extended.trans (fsClose_extends opened file closing), files⟩

/-- A write changes the file its object is open on, and no other. -/
theorem Bound.write (bound : session.Bound path allowed) {live : LiveFile}
    (member : live ∈ session.files) (data : Span) (transfer : Transfer) :
    Change allowed (session.driver.files path)
      ((live.file.write session.driver data transfer).1.files path)
      (session.stored path (.write live data transfer)) := by
  -- Either nothing is stored, or it goes where the handle of the object is open.
  obtain ⟨same, nothing⟩ | ⟨flag, opened, content, holds, written⟩ :=
    (live.file.write_files session.driver data transfer).2
  · refine .kept (by rw [same]) ?_
    simp only [stored, nothing, ite_self]
  · have on : session.driver.pathOf live.file.file = some opened.path := by
      simp [pathOf, holds.held]
    rw [written]
    by_cases own : opened.path = path
    · subst own
      obtain ⟨handle, _, given, bounds⟩ := bound live member
      have held : opened ∈ session.driver.handleAt handle := by
        have found := holds.held
        rwa [openedAs, given, Option.bind_some] at found
      obtain ⟨flags, permitted⟩ := bounds opened held
      refine .written opened content holds.stored (permitted rfl) (flags ▸ flag) ?_
      simp [stored, on]
    · refine .kept (by simp [Ne.symm own]) ?_
      simp [stored, on, own]

/-- An operation keeps the file at a path, creates it, or writes it as the mode allows. -/
theorem Bound.step {operation : FsOperation} (bound : session.Bound path allowed)
    (opens : operation.OpensWith path allowed)
    (stepped : Session.step session operation = some next) :
    next.Bound path allowed ∧
      Change allowed (session.driver.files path) (next.driver.files path)
        (session.stored path operation) := by
  -- Opening and checking create a file at most, and only a write stores anything.
  have change_of_created {after : Option (List UInt8)}
      (files : after = session.driver.files path ∨
        session.driver.files path = none ∧ after = some []) :
      Change allowed (session.driver.files path) after [] := by
    rcases files with same | ⟨absent, empty⟩
    · exact .kept same rfl
    · exact .created absent empty rfl
  cases operation with
  | mount mount verdict =>
    cases stepped
    obtain ⟨handles, files⟩ := fsMount_files session.driver mount verdict
    have extended := extends_of_handles handles
    simp only [Session.mount, ZFileSystem.construct]
    by_cases failed : (session.driver.fsMount mount verdict).2 = 0
    · simp only [failed, ne_eq, not_true_eq_false, if_false]
      exact ⟨fun live member => bound_extends (bound live member) extended,
        .kept (congrFun files path) rfl⟩
    · simp only [ne_eq, failed, not_false_eq_true, if_true]
      exact ⟨bound.extend extended fun _ => id, .kept (congrFun files path) rfl⟩
  | unmount system =>
    obtain ⟨_, ⟨⟩⟩ := Option.ite_none_right_eq_some.mp stepped
    obtain ⟨handles, files⟩ := fsUnmount_files session.driver system.mount 0
    have extended := extends_of_handles handles
    exact ⟨fun live member => bound_extends (bound live member) extended,
      .kept (congrFun files path) rfl⟩
  | openFile system fileName flags verdict =>
    obtain ⟨_, ⟨⟩⟩ := Option.ite_none_right_eq_some.mp stepped
    obtain ⟨kept, files⟩ := bound.openFile system fileName flags verdict opens
    exact ⟨kept, change_of_created files⟩
  | checkFileExists system fileName verdict =>
    obtain ⟨_, ⟨⟩⟩ := Option.ite_none_right_eq_some.mp stepped
    obtain ⟨extended, files⟩ := checkFileExists_files system session.driver fileName verdict 0
    exact ⟨bound.extend extended fun _ => id, change_of_created (files path)⟩
  | write live data transfer =>
    obtain ⟨member, ⟨⟩⟩ := Option.ite_none_right_eq_some.mp stepped
    have extended := (live.file.write_files session.driver data transfer).1
    exact ⟨bound.extend extended fun _ => id, bound.write member data transfer⟩
  | read live data transfer =>
    obtain ⟨_, ⟨⟩⟩ := Option.ite_none_right_eq_some.mp stepped
    obtain ⟨extended, same⟩ := live.file.read_files session.driver data transfer
    exact ⟨bound.extend extended fun _ => id, .kept (congrFun same path) rfl⟩
  | close live =>
    obtain ⟨_, ⟨⟩⟩ := Option.ite_none_right_eq_some.mp stepped
    have extended := session.driver.fsClose_extends live.file.file 0
    have same := (fsClose_kept session.driver live.file.file 0).2
    exact ⟨bound.extend extended fun _ => List.mem_of_mem_erase, .kept (congrFun same path) rfl⟩

/-- A change adds what is stored to a file that is only appended to. -/
theorem Change.append {before after : Option (List UInt8)} {stored : List UInt8}
    (change : Change Appends before after stored) :
    after.getD [] = before.getD [] ++ stored := by
  cases change with
  | kept same nothing => simp [same, nothing]
  | created absent empty nothing => simp [absent, empty, nothing]
  | written opened content there permitted writes result =>
    -- The offset of every write is the end of the file.
    simp [there, result, overwritten, permitted writes]

/-- A change of any kind leaves a file that was there, and no shorter than it was. -/
theorem Change.grows {before after : Option (List UInt8)} {stored : List UInt8}
    (change : Change allowed before after stored) (there : before ≠ none) :
    after ≠ none ∧ (before.getD []).length ≤ (after.getD []).length := by
  -- What is overwritten is no longer than what it is put in the place of.
  cases change with
  | kept same nothing => exact ⟨same ▸ there, by rw [same]⟩
  | created absent => exact absurd absent there
  | written opened content there permitted writes result =>
    refine ⟨by simp [result], ?_⟩
    simp only [there, result, Option.getD_some, overwritten, List.length_append, List.length_take,
      List.length_drop]
    omega

/-- A file that is never opened for writing is kept, or created empty. -/
theorem Change.unwritten {before after : Option (List UInt8)} {stored : List UInt8}
    (change : Change Protects before after stored) :
    after = before ∨ before = none ∧ after = some [] := by
  -- A write through the handle would contradict the mode it was opened with.
  cases change with
  | kept same => exact .inl same
  | created absent empty => exact .inr ⟨absent, empty⟩
  | written opened content there permitted writes =>
    rw [Protects] at permitted
    rw [permitted] at writes
    cases writes

/-- At boot no file is alive. -/
theorem bound_boot (path : CString) (allowed : FsMode → Prop)
    (files : CString → Option (List UInt8)) : (boot files).Bound path allowed :=
  -- There is nothing to say of no file.
  nofun

/-- A log file beside a file of settings, on one volume. -/
def logSystem : ZFileSystem :=
  ⟨⟨0, .ofChars [47, 97]⟩⟩

/-- The log is opened twice and written to in turns, and the settings are overwritten between. -/
def logOperations : List FsOperation :=
  let append : FsMode := ZFile.Flags.create ||| ZFile.Flags.write ||| ZFile.Flags.append
  let change : FsMode := ZFile.Flags.create ||| ZFile.Flags.write
  [.mount logSystem.mount 0, .openFile logSystem [108] append 0, .openFile logSystem [115] change 0,
    .write ⟨logSystem, ⟨⟨some 0, append⟩⟩⟩ ⟨false, [6, 7, 8], by decide, by decide⟩ (.moves 2),
    .write ⟨logSystem, ⟨⟨some 1, change⟩⟩⟩ ⟨false, [9], by decide, by decide⟩ (.moves 4),
    .close ⟨logSystem, ⟨⟨some 0, append⟩⟩⟩, .openFile logSystem [108] append 0,
    .write ⟨logSystem, ⟨⟨some 2, append⟩⟩⟩ ⟨false, [4, 5], by decide, by decide⟩ (.moves 4)]

/--
No file ever disappears or gets shorter, whatever is done to it.

A file that is never opened for writing keeps its content, or is empty if it was not there.
-/
theorem kept_of_run {files : CString → Option (List UInt8)} {operations : List FsOperation}
    {last : Session} (ran : step.run (boot files) operations = some last) :
    (files path ≠ none → last.driver.files path ≠ none ∧
      (content files path).length ≤ (content last.driver.files path).length) ∧
    ((∀ operation ∈ operations, operation.OpensWith path Protects) →
      last.driver.files path = files path ∨
        files path = none ∧ last.driver.files path = some []) := by
  constructor
  · intro there
    have any : ∀ operation : FsOperation, operation.OpensWith path fun _ => True := by
      rintro (_ | _ | _) <;> simp [FsOperation.OpensWith]
    have grows : ∀ session operation next, (Bound path (fun _ => True) session ∧
        session.driver.files path ≠ none ∧
          (content files path).length ≤ (content session.driver.files path).length) →
        step session operation = some next → Bound path (fun _ => True) next ∧
          next.driver.files path ≠ none ∧
            (content files path).length ≤ (content next.driver.files path).length := by
      rintro session operation next ⟨bound, here, length⟩ stepped
      obtain ⟨kept, change⟩ := bound.step (any operation) stepped
      obtain ⟨still, longer⟩ := change.grows here
      exact ⟨kept, still, Nat.le_trans length longer⟩
    exact (Machine.run_invariant grows
      ⟨bound_boot path _ files, there, Nat.le_refl _⟩ ran).2
  · intro opens
    have met : step.Meets (fun _ operation => FsOperation.OpensWith path Protects operation)
        (boot files) operations := Machine.meets_of_forall opens
    have keeps : ∀ session operation next, (Bound path Protects session ∧
        (session.driver.files path = files path ∨
          files path = none ∧ session.driver.files path = some [])) →
        FsOperation.OpensWith path Protects operation → step session operation = some next →
          Bound path Protects next ∧ (next.driver.files path = files path ∨
            files path = none ∧ next.driver.files path = some []) := by
      rintro session operation next ⟨bound, soFar⟩ opens stepped
      obtain ⟨kept, change⟩ := bound.step opens stepped
      refine ⟨kept, ?_⟩
      rcases change.unwritten with same | ⟨absent, empty⟩
      · rwa [same]
      · -- A file that is created now has not been there at boot.
        rcases soFar with before | ⟨_, before⟩
        · exact .inr ⟨before ▸ absent, empty⟩
        · rw [before] at absent
          cases absent
    exact (Machine.run_invariant_of_meets keeps ⟨bound_boot path _ files, .inl rfl⟩ met ran).2

/-- What the log writes leaves the settings of an earlier run as they are. -/
theorem kept_of_run_log :
    ∃ last, step.run (boot fun _ => some [7]) logOperations = some last ∧
      last.driver.files (.ofChars [47, 98]) = some [7] := by
  -- A file that was there is not one that was created.
  have completes : (step.run (boot fun _ => some [7]) logOperations).isSome := by decide
  have ran := (Option.some_get completes).symm
  have opens : ∀ operation ∈ logOperations, operation.OpensWith (.ofChars [47, 98]) Protects := by
    decide
  refine ⟨_, ran, ((kept_of_run ran).2 opens).resolve_right ?_⟩
  rintro ⟨⟨⟩, _⟩

end Session
end Notus
