import Notus.LittlefsSample.Pattern

/-! What the files say after any number of boots, whichever calls failed in them. -/

namespace Notus.LittlefsSample

open FsDriver (content)

/-- Calls answer with zero or an error, and transfers move all they are asked to or fail. -/
structure FileAnswers.Whole (answers : FileAnswers) (size : Nat) : Prop where
  opening : answers.opening ≤ 0
  stat : answers.stat ≤ 0
  reading : answers.reading.Whole size
  seek : answers.seek ≤ 0
  writing : answers.writing.Whole size
  closing : answers.closing ≤ 0

/-- What the sample keeps in its two files: how often each of them was written. -/
structure Counts where
  booted : Nat
  patterned : Nat
  deriving DecidableEq, Repr

/-- What was written stays when the file is closed. -/
def FileAnswers.keeps (answers : FileAnswers) : Bool :=
  ¬ (answers.closing < 0 ∧ answers.loses)

/-- A close that goes well loses nothing. -/
theorem FileAnswers.keeps_of_closing {answers : FileAnswers} (closed : answers.closing = 0) :
    answers.keeps = true := by
  -- Only a close that fails may lose anything.
  simp [keeps, closed]

/-- The count is stored when all calls before the close go well, and the close keeps it. -/
def FileAnswers.stores (answers : FileAnswers) : Bool :=
  (answers.opening = 0 ∧ answers.reading.succeeds ∧ answers.seek = 0 ∧ answers.writing.succeeds) ∧
    answers.keeps

/-- The pattern is stored when they do, and the first one is not read before. -/
def FileAnswers.storesPattern (answers : FileAnswers) (first : Bool) : Bool :=
  (answers.opening = 0 ∧ answers.stat = 0 ∧ (first ∨ answers.reading.succeeds) ∧
    answers.seek = 0 ∧ answers.writing.succeeds) ∧ answers.keeps

/-- A boot gets as far as the files. -/
def BootAnswers.reaches (answers : BootAnswers) : Bool :=
  0 ≤ answers.flash ∧ 0 ≤ answers.mount ∧ 0 ≤ answers.statvfs ∧ 0 ≤ answers.lsdir

/-- What one boot adds to the counts. -/
def Counts.boot (counts : Counts) (answers : BootAnswers) : Counts :=
  if ¬ answers.reaches then counts
  else
    let booted := counts.booted + answers.bootCount.stores.toNat
    -- A count that could not be closed was written, but ends the boot.
    if ¬ answers.bootCount.stores ∨ answers.bootCount.closing < 0 then
      { counts with booted := booted }
    else
      { booted := booted
        patterned := counts.patterned +
          (answers.pattern.storesPattern (decide (counts.patterned = 0))).toNat }

/-- The files of a volume say what the counts are. -/
structure Represents (mountpoint : FsMount) (contents : CString → List UInt8) (counts : Counts) :
    Prop where
  bootCount : contents (fname mountpoint "boot_count") =
    if counts.booted = 0 then [] else [UInt8.ofNat counts.booted]
  patternBin : contents (fname mountpoint "pattern.bin") =
    if counts.patterned = 0 then [] else pattern testFileSize (counts.patterned - 1)

/-- Contents are written where the files are. -/
theorem content_update (files : CString → Option (List UInt8)) (path : CString)
    (bytes : List UInt8) :
    content (Function.update files path (some bytes)) =
      Function.update (content files) path bytes := by
  -- A path that is written to holds what was written, and the others what they held.
  funext other
  by_cases same : other = path
  · subst same
    simp [content]
  · simp [content, same]

/-- A file that can be opened exists afterwards, and no content is changed by it. -/
theorem exists_opened (driver : FsDriver) (path : CString) :
    ∃ opened file, driver.fsOpen fsFileInit path (FsMode.create ||| FsMode.rdwr) 0 =
        (opened, file, 0) ∧
      opened.Holds file ⟨path, 0, FsMode.create ||| FsMode.rdwr⟩ (content driver.files path) ∧
      file.filep ≠ none ∧ content opened.files = content driver.files := by
  -- The mode creates what is not there, so only the driver itself could refuse.
  have creates : (driver.fsOpen fsFileInit path (FsMode.create ||| FsMode.rdwr) 0).2.2 = 0 := by
    have mode : (FsMode.create ||| FsMode.rdwr).sets FsMode.create = true := by decide
    cases stored : driver.files path <;> simp [FsDriver.fsOpen, stored, FsDriver.attach, mode]
  obtain ⟨given, changed⟩ := FsDriver.fsOpen_opened creates
  refine ⟨(driver.fsOpen fsFileInit path (FsMode.create ||| FsMode.rdwr) 0).1,
    (driver.fsOpen fsFileInit path (FsMode.create ||| FsMode.rdwr) 0).2.1,
    Prod.ext rfl (Prod.ext rfl creates), FsDriver.fsOpen_holds creates, ?_, ?_⟩
  · rw [given]
    exact Option.some_ne_none _
  · rw [changed]
    cases stored : driver.files path with
    | some bytes => rfl
    | none =>
      -- A file that was created has no more content than one that is not there.
      rw [content_update]
      exact Function.update_eq_self_iff.mpr (by simp [content, stored])

/-- What is done with an open file is what is done with the file, if it can be opened. -/
theorem withFile_spec {driver : FsDriver} {path : CString} {answers : FileAnswers}
    {body : FsDriver → FsFile → FsDriver × Int} {stored : Prop} [Decidable stored]
    {after : List UInt8} (opening : answers.opening ≤ 0) (closing : answers.closing ≤ 0)
    (writes : ∀ opened file,
      opened.Holds file ⟨path, 0, FsMode.create ||| FsMode.rdwr⟩ (content driver.files path) →
        (body opened file).1.files =
            (if stored then Function.update opened.files path (some after) else opened.files) ∧
          (0 ≤ (body opened file).2 ↔ stored)) :
    content (withFile driver path answers body).1.files =
        (if (answers.opening = 0 ∧ stored) ∧ answers.keeps = true then
          Function.update (content driver.files) path after
        else content driver.files) ∧
      ((withFile driver path answers body).2 = 0 ↔
        (answers.opening = 0 ∧ stored) ∧ answers.closing = 0) := by
  rcases Int.lt_or_eq_of_le opening with failed | answered
  · have nonzero : answers.opening ≠ 0 := by omega
    simp [withFile, FsDriver.fsOpen, nonzero, failed]
  · obtain ⟨opened, file, given, holds, isOpen, same⟩ := exists_opened driver path
    obtain ⟨files, rc⟩ := writes opened file holds
    obtain ⟨handle, given'⟩ := Option.ne_none_iff_exists'.mp isOpen
    -- A close that fails is what is answered, and otherwise it is what failed before.
    have kept := (FsDriver.fsClose_kept (body opened file).1 file answers.closing).2
    have ret : ((body opened file).1.fsClose file answers.closing).2.2 = answers.closing := by
      simp only [FsDriver.fsClose, given']
      split <;> simp_all
    simp only [withFile, answered, given, Int.lt_irrefl, if_false, ret, true_and]
    constructor
    · by_cases lost : answers.closing < 0 ∧ answers.loses = true
      · simp [FileAnswers.keeps, lost, same]
      · rw [if_neg lost, kept, files]
        by_cases well : stored <;> simp [FileAnswers.keeps, lost, well, content_update, same]
    · rw [← rc]
      by_cases failed : answers.closing < 0
      · rw [if_pos failed]
        omega
      · rw [if_neg failed]
        split <;> omega

/-- The front of a file is replaced, if the seek and the write go well. -/
theorem rewrite_spec {driver : FsDriver} {file : FsFile} {opened : OpenFile}
    {before bytes : List UInt8} {answers : FileAnswers}
    (holds : driver.Holds file opened before)
    (plain : opened.flags.sets FsMode.append = false) (fits : bytes.length ≤ FsDriver.ssizeMax)
    (seek : answers.seek ≤ 0) (whole : answers.writing.Whole bytes.length) :
    (rewrite driver file answers bytes).1.files =
        (if answers.seek = 0 ∧ answers.writing.succeeds then
          Function.update driver.files opened.path (some (bytes ++ before.drop bytes.length))
        else driver.files) ∧
      (0 ≤ (rewrite driver file answers bytes).2 ↔
        answers.seek = 0 ∧ answers.writing.succeeds) := by
  have untouched := FsDriver.fsSeek_files driver file 0 answers.seek
  unfold rewrite
  rcases Int.lt_or_eq_of_le seek with failed | sought
  · have negative := FsDriver.fsSeek_fails holds 0 failed
    -- A seek that fails ends it before anything is written.
    have nonzero : answers.seek ≠ 0 := by omega
    simp [negative, nonzero, untouched]
  · obtain ⟨rc, start⟩ := FsDriver.fsSeek_spec holds 0
    rw [sought] at untouched ⊢
    simp only [rc, Int.lt_irrefl, if_false, true_and]
    -- The write fails as a whole, or is a whole one.
    cases writing : answers.writing with
    | fails code negative =>
      obtain ⟨below, same⟩ := @FsDriver.fsWrite_fails _ _ _ _ bytes code negative start
      simp [same, untouched, below]
    | moves limit =>
      rw [writing] at whole
      obtain ⟨count, written⟩ := FsDriver.fsWrite_whole start rfl plain fits whole
      simp [written, untouched, count]

/-- What was read from the front of a file is changed and written back there. -/
def reread (size : Nat) (next : List UInt8 → List UInt8) (answers : FileAnswers)
    (driver : FsDriver) (file : FsFile) : FsDriver × Int :=
  let (driver, rc, bytes) := driver.fsRead file size answers.reading
  if rc < 0 then (driver, rc) else rewrite driver file answers (next bytes)

/-- The front is replaced by what it is changed to, if both transfers and the seek go well. -/
theorem reread_spec {driver : FsDriver} {file : FsFile} {opened : OpenFile}
    {before : List UInt8} {size : Nat} {next : List UInt8 → List UInt8} {answers : FileAnswers}
    (holds : driver.Holds file opened before) (start : opened.offset = 0)
    (plain : opened.flags.sets FsMode.append = false) (fits : size ≤ FsDriver.ssizeMax)
    (length : (next (before.take size)).length = size) (whole : answers.Whole size) :
    (reread size next answers driver file).1.files =
        (if answers.reading.succeeds ∧ answers.seek = 0 ∧ answers.writing.succeeds then
          Function.update driver.files opened.path
            (some (next (before.take size) ++ before.drop size))
        else driver.files) ∧
      (0 ≤ (reread size next answers driver file).2 ↔
        answers.reading.succeeds ∧ answers.seek = 0 ∧ answers.writing.succeeds) := by
  have untouched := FsDriver.fsRead_files driver file size answers.reading
  have wholeRead := whole.reading
  unfold reread
  -- A read that fails ends it, and one that does not delivers the whole front.
  cases reading : answers.reading with
  | fails code negative =>
    have failed := @FsDriver.fsRead_fails _ _ _ _ size code negative holds
    rw [reading] at untouched
    simp [failed, untouched]
  | moves limit =>
    rw [reading] at untouched wholeRead
    obtain ⟨delivered, moved, stays⟩ := FsDriver.fsRead_whole holds start fits wholeRead
    have counted : ¬ (((before.take size).length : Int) < 0) := by omega
    have written := rewrite_spec stays plain (length.le.trans fits) whole.seek
      (length.symm ▸ whole.writing)
    rw [untouched, length] at written
    simp only [delivered, if_neg counted, Transfer.succeeds_moves, true_and]
    exact written

/-- The count goes up by one where it can be read and written, and stays otherwise. -/
theorem increase_spec {driver : FsDriver} {path : CString} {answers : FileAnswers}
    (whole : answers.Whole 1) :
    content (littlefsIncreaseInfileValue driver path answers).1.files =
        (if answers.stores then
          Function.update (content driver.files) path
            (((content driver.files path).headD 0 + 1) :: (content driver.files path).drop 1)
        else content driver.files) ∧
      ((littlefsIncreaseInfileValue driver path answers).2 = 0 ↔
        answers.stores ∧ answers.closing = 0) := by
  have plain : (FsMode.create ||| FsMode.rdwr).sets FsMode.append = false := by decide
  have front : ((content driver.files path).take 1).headD 0 =
      (content driver.files path).headD 0 := by
    cases content driver.files path <;> rfl
  -- The first byte that was read is the first byte of the content.
  have spec := @withFile_spec driver path answers
    (reread 1 (fun bytes => [bytes.headD 0 + 1]) answers) _ _ _ whole.opening whole.closing
    fun opened file holds => reread_spec holds rfl plain (by decide) rfl whole
  rw [front] at spec
  simp only [FileAnswers.stores, decide_eq_true_eq]
  refine ⟨spec.1, spec.2.trans ⟨?_, ?_⟩⟩
  · rintro ⟨written, closed⟩
    exact ⟨⟨written, FileAnswers.keeps_of_closing closed⟩, closed⟩
  · rintro ⟨⟨written, _⟩, closed⟩
    exact ⟨written, closed⟩

/-- What the file of a pattern is changed to at its front. -/
def adjusted (before : List UInt8) : List UInt8 :=
  if before = [] then initPattern testFileSize
  else incrPattern (before.take testFileSize ++
    List.replicate (testFileSize - (before.take testFileSize).length) 0) 1

@[simp] theorem length_initPattern {size : Nat} (nonempty : 0 < size) :
    (initPattern size).length = size := by
  -- The closed form is as long as it is asked to be.
  rw [initPattern_eq nonempty, length_pattern]

/-- The front of a file is adjusted, which an empty file is not read for. -/
theorem readjust_spec {driver : FsDriver} {file : FsFile} {opened : OpenFile}
    {before : List UInt8} {answers : FileAnswers} (holds : driver.Holds file opened before)
    (start : opened.offset = 0) (plain : opened.flags.sets FsMode.append = false)
    (whole : answers.Whole testFileSize) :
    (readjust opened.path answers driver file).1.files =
        (if answers.stat = 0 ∧ (before = [] ∨ answers.reading.succeeds) ∧ answers.seek = 0 ∧
            answers.writing.succeeds then
          Function.update driver.files opened.path
            (some (adjusted before ++ before.drop testFileSize))
        else driver.files) ∧
      (0 ≤ (readjust opened.path answers driver file).2 ↔
        answers.stat = 0 ∧ (before = [] ∨ answers.reading.succeeds) ∧ answers.seek = 0 ∧
          answers.writing.succeeds) := by
  have fits : testFileSize ≤ FsDriver.ssizeMax := by decide
  rcases Int.lt_or_eq_of_le whole.stat with failed | answered
  · have nonzero : answers.stat ≠ 0 := by omega
    simp [readjust, FsDriver.fsStat, nonzero, failed]
  · have stat : driver.fsStat opened.path 0 = (0, before.length) := by
      simp [FsDriver.fsStat, holds.stored]
    by_cases empty : before = []
    · -- An empty file gets the first pattern, whatever a read would have answered.
      have length := @length_initPattern testFileSize (by decide)
      have written := rewrite_spec holds plain (length.le.trans fits) whole.seek
        (length.symm ▸ whole.writing)
      rw [length] at written
      simpa [readjust, stat, answered, empty, adjusted] using written
    · have length : (incrPattern (before.take testFileSize ++
          List.replicate (testFileSize - (before.take testFileSize).length) 0) 1).length =
          testFileSize := by
        simp only [length_incrPattern, List.length_append, List.length_take, List.length_replicate]
        omega
      have written := @reread_spec _ _ _ _ testFileSize (fun bytes =>
        incrPattern (bytes ++ List.replicate (testFileSize - bytes.length) 0) 1) _ holds start
        plain fits length whole
      have same : readjust opened.path answers driver file = reread testFileSize (fun bytes =>
          incrPattern (bytes ++ List.replicate (testFileSize - bytes.length) 0) 1) answers driver
          file := by
        simp [readjust, reread, stat, answered, empty]
      rw [same]
      simp only [answered, adjusted, empty, false_or, true_and]
      exact written

/-- The pattern is replaced by the next one where all of it goes well, and stays otherwise. -/
theorem adjust_spec {driver : FsDriver} {path : CString} {answers : FileAnswers}
    (whole : answers.Whole testFileSize) :
    content (littlefsBinaryFileAdj driver path answers).1.files =
      if answers.storesPattern (decide (content driver.files path = [])) then
        Function.update (content driver.files) path
          (adjusted (content driver.files path) ++ (content driver.files path).drop testFileSize)
      else content driver.files := by
  -- The file was opened to be read and written, and begins at its start.
  have plain : (FsMode.create ||| FsMode.rdwr).sets FsMode.append = false := by decide
  have spec := @withFile_spec driver path answers (readjust path answers) _ _ _
    whole.opening whole.closing fun opened file holds => readjust_spec holds rfl plain whole
  simp only [FileAnswers.storesPattern, decide_eq_true_eq]
  exact spec.1

/-- The contents after a boot that gets as far as the files. -/
def adjustedBoth (mountpoint : FsMount) (answers : BootAnswers) (before : CString → List UInt8) :
    CString → List UInt8 :=
  let countPath := fname mountpoint "boot_count"
  let patternPath := fname mountpoint "pattern.bin"
  let counted :=
    if answers.bootCount.stores then
      Function.update before countPath
        (((before countPath).headD 0 + 1) :: (before countPath).drop 1)
    else before
  if (answers.bootCount.stores ∧ answers.bootCount.closing = 0) ∧
      answers.pattern.storesPattern (decide (counted patternPath = [])) then
    Function.update counted patternPath
      (adjusted (counted patternPath) ++ (counted patternPath).drop testFileSize)
  else counted

/-- A volume is mounted when nothing fails, and its files are what they were. -/
theorem littlefsMount_spec (mountpoint : FsMount) (files : CString → Option (List UInt8))
    (answers : BootAnswers) :
    (littlefsMount (FsDriver.boot files) mountpoint answers).1.files = files ∧
      ((littlefsMount (FsDriver.boot files) mountpoint answers).2 < 0 ↔
        answers.flash < 0 ∨ answers.mount < 0) := by
  unfold littlefsMount
  by_cases erased : answers.flash < 0
  · simp [erased, FsDriver.boot]
  · -- Nothing is mounted at boot, so only the volume can refuse.
    by_cases answered : answers.mount = 0
    · simp [erased, FsDriver.fsMount, FsDriver.boot, answered]
    · by_cases failed : answers.mount < 0 <;>
        simp [erased, FsDriver.fsMount, FsDriver.boot, answered, failed]

/-- Both files are written in turn, and the pattern only after the count. -/
theorem content_adjustedBoth {mountpoint : FsMount} {driver : FsDriver} {answers : BootAnswers}
    (count : answers.bootCount.Whole 1) (pattern : answers.pattern.Whole testFileSize) :
    content
        (if (littlefsIncreaseInfileValue driver (fname mountpoint "boot_count")
            answers.bootCount).2 ≠ 0 then
          (littlefsIncreaseInfileValue driver (fname mountpoint "boot_count") answers.bootCount).1
        else
          (littlefsBinaryFileAdj (littlefsIncreaseInfileValue driver
              (fname mountpoint "boot_count") answers.bootCount).1
            (fname mountpoint "pattern.bin") answers.pattern).1).files =
      adjustedBoth mountpoint answers (content driver.files) := by
  obtain ⟨counted, rc⟩ := @increase_spec driver (fname mountpoint "boot_count") _ count
  -- An error of the first file skips the second.
  by_cases ended : answers.bootCount.stores = true ∧ answers.bootCount.closing = 0
  · rw [if_neg (not_not.mpr (rc.mpr ended)), adjust_spec pattern, counted]
    simp only [adjustedBoth, ended, true_and]
  · rw [if_pos (mt rc.mp ended), counted]
    simp only [adjustedBoth, ended, false_and, if_false]

/-- A boot changes the contents of its two files, or gives up before. -/
theorem content_main {mountpoint : FsMount} {files : CString → Option (List UInt8)}
    {answers : BootAnswers} (count : answers.bootCount.Whole 1)
    (pattern : answers.pattern.Whole testFileSize) :
    content (main mountpoint (FsDriver.boot files) answers).files =
      if answers.reaches then adjustedBoth mountpoint answers (content files)
      else content files := by
  obtain ⟨same, failed⟩ := littlefsMount_spec mountpoint files answers
  unfold main
  generalize littlefsMount (FsDriver.boot files) mountpoint answers = mounted at same failed
  obtain ⟨driver, rc⟩ := mounted
  simp only at same failed
  subst same
  -- A boot that cannot mount its volume ends at once.
  by_cases mounting : rc < 0
  · have unreached : ¬ answers.reaches = true := by
      have early := failed.mp mounting
      simp only [BootAnswers.reaches, decide_eq_true_eq]
      omega
    simp only [if_pos mounting, if_neg unreached]
  · have ready := mt failed.mpr mounting
    -- Whatever happens in between, the volume is unmounted last, and that changes no file.
    have unmounted (left : FsDriver) :
        (left.fsUnmount mountpoint answers.unmount).1.files = left.files :=
      (FsDriver.fsUnmount_files left mountpoint answers.unmount).2
    simp only [if_neg mounting, unmounted]
    -- A volume or a directory that cannot be listed skips both files.
    by_cases listing : answers.statvfs < 0 ∨ answers.lsdir < 0
    · have unreached : ¬ answers.reaches = true := by
        simp only [BootAnswers.reaches, decide_eq_true_eq]
        omega
      rw [if_pos listing, if_neg unreached]
    · have reached : answers.reaches = true := by
        simp only [BootAnswers.reaches, decide_eq_true_eq]
        omega
      rw [if_neg listing, if_pos reached]
      exact content_adjustedBoth count pattern

/-- The two files have paths of their own on a volume whose path leaves room for their names. -/
theorem fname_ne {mountpoint : FsMount} (room : mountpoint.mntPoint.chars.length ≤ 252) :
    fname mountpoint "boot_count" ≠ fname mountpoint "pattern.bin" := by
  have chars (name : String) (nulFree : 0 ∉ name.toList.map (·.toNat.toUInt8)) :
      (fname mountpoint name).chars =
        (mountpoint.mntPoint.chars ++ 0x2f :: name.toList.map (·.toNat.toUInt8)).take 254 := by
    refine CString.ofChars_chars fun zero => ?_
    rcases List.mem_append.mp (List.mem_of_mem_take zero) with mounted | named
    · exact mountpoint.mntPoint.nulFree mounted
    · rcases List.mem_cons.mp named with separator | named
      · exact absurd separator (by decide)
      · exact nulFree named
  intro same
  -- The names differ in their first letters, which follow the separator.
  have letters := congrArg (·.chars[mountpoint.mntPoint.chars.length + 1]?) same
  have inside : mountpoint.mntPoint.chars.length + 1 < 254 := by omega
  simp only [chars "boot_count" (by decide), chars "pattern.bin" (by decide),
    List.getElem?_take_of_lt inside] at letters
  rw [List.getElem?_append_right (by omega), List.getElem?_append_right (by omega),
    Nat.add_sub_cancel_left] at letters
  exact absurd letters (by decide)

section

variable {mountpoint : FsMount} {before : CString → List UInt8} {counts : Counts}

/-- A count that is written back says one boot more. -/
theorem Represents.increase (represents : Represents mountpoint before counts)
    (distinct : fname mountpoint "boot_count" ≠ fname mountpoint "pattern.bin") :
    Represents mountpoint
      (Function.update before (fname mountpoint "boot_count")
        (((before (fname mountpoint "boot_count")).headD 0 + 1) ::
          (before (fname mountpoint "boot_count")).drop 1))
      { counts with booted := counts.booted + 1 } := by
  -- An empty file counts from zero, and another one from its first byte.
  refine ⟨?_, ?_⟩
  · rw [Function.update_self, represents.bootCount]
    by_cases first : counts.booted = 0 <;> simp [first, UInt8.ofNat_add]
  · rw [Function.update_of_ne distinct.symm]
    exact represents.patternBin

/-- A pattern that is adjusted is the next one. -/
theorem Represents.adjust (represents : Represents mountpoint before counts)
    (distinct : fname mountpoint "boot_count" ≠ fname mountpoint "pattern.bin") :
    Represents mountpoint
      (Function.update before (fname mountpoint "pattern.bin")
        (adjusted (before (fname mountpoint "pattern.bin")) ++
          (before (fname mountpoint "pattern.bin")).drop testFileSize))
      { counts with patterned := counts.patterned + 1 } := by
  refine ⟨?_, ?_⟩
  · rw [Function.update_of_ne distinct]
    exact represents.bootCount
  · rw [Function.update_self, represents.patternBin]
    have wide : 1 < testFileSize := by decide
    by_cases first : counts.patterned = 0
    · simp [first, adjusted, initPattern_eq (Nat.lt_of_succ_lt wide)]
    · -- A pattern fills its file, so nothing is read short and nothing is left behind it.
      have length := length_pattern testFileSize (counts.patterned - 1)
      have nonempty : pattern testFileSize (counts.patterned - 1) ≠ [] := by
        intro empty
        rw [empty] at length
        exact absurd length (by decide)
      have next : counts.patterned - 1 + 1 = counts.patterned := by omega
      rw [if_neg first, adjusted, if_neg nonempty, List.take_of_length_le length.le,
        List.drop_of_length_le length.le, length, Nat.sub_self, List.replicate_zero,
        List.append_nil, List.append_nil, incrPattern_pattern wide, next]
      simp

/-- A boot that gets as far as the files keeps what they say in step with the counts. -/
theorem Represents.boot {answers : BootAnswers} (represents : Represents mountpoint before counts)
    (distinct : fname mountpoint "boot_count" ≠ fname mountpoint "pattern.bin")
    (whole : answers.bootCount.Whole 1) (reached : answers.reaches = true) :
    Represents mountpoint (adjustedBoth mountpoint answers before) (counts.boot answers) := by
  have closing := whole.closing
  -- The pattern is looked at after the count, whether or not that was written.
  have first {booted : Nat} {counted : CString → List UInt8}
      (represents : Represents mountpoint counted { counts with booted := booted }) :
      decide (counted (fname mountpoint "pattern.bin") = []) = decide (counts.patterned = 0) := by
    rw [represents.patternBin]
    by_cases none : counts.patterned = 0
    · simp [none]
    · simp [none, pattern, testFileSize]
  simp only [adjustedBoth, Counts.boot, reached, not_true_eq_false, if_false]
  -- A boot that does not store its count leaves both files as they were.
  by_cases stores : answers.bootCount.stores = true
  · have counted := represents.increase distinct
    simp only [stores, if_true, true_and, not_true_eq_false, false_or, Bool.toNat_true,
      first counted]
    -- A close that fails has stored the count, but skips the pattern.
    by_cases ended : answers.bootCount.closing < 0
    · have failed : answers.bootCount.closing ≠ 0 := by omega
      simpa only [ended, failed, false_and, if_false, if_true] using counted
    · have closed : answers.bootCount.closing = 0 := by omega
      simp only [closed, Int.lt_irrefl, true_and, if_false]
      by_cases stored : answers.pattern.storesPattern (decide (counts.patterned = 0)) = true
      · simpa only [stored, if_true, Bool.toNat_true] using counted.adjust distinct
      · simpa [stored] using counted
  · simpa [stores] using represents

/-- Both files begin with their counts, as far as one byte can tell them. -/
theorem Represents.alike_iff (represents : Represents mountpoint before counts) :
    (before (fname mountpoint "boot_count")).headD 0 =
        (before (fname mountpoint "pattern.bin")).headD 0 ↔
      counts.booted % 256 = counts.patterned % 256 := by
  have counted : (before (fname mountpoint "boot_count")).headD 0 = UInt8.ofNat counts.booted := by
    rw [represents.bootCount]
    by_cases none : counts.booted = 0 <;> simp [none]
  have patterned : (before (fname mountpoint "pattern.bin")).headD 0 =
      UInt8.ofNat counts.patterned := by
    rw [represents.patternBin]
    by_cases none : counts.patterned = 0
    · simp [none]
    · have next : counts.patterned - 1 + 1 = counts.patterned := by omega
      rw [if_neg none, head_pattern (by decide), next]
  -- Both bytes are the counts in eight bits, also where the file is empty.
  rw [counted, patterned, ← UInt8.toNat_inj]
  simp only [UInt8.toNat_ofNat']

end

/-- The counts go up by one at most, and the pattern's only together with the other. -/
theorem Counts.boot_le (counts : Counts) (answers : BootAnswers) :
    (counts.boot answers).booted ≤ counts.booted + 1 ∧
      (counts.patterned ≤ counts.booted →
        (counts.boot answers).patterned ≤ (counts.boot answers).booted) := by
  have once := Bool.toNat_le answers.bootCount.stores
  have again := Bool.toNat_le (answers.pattern.storesPattern (decide (counts.patterned = 0)))
  -- A pattern is stored only by a boot that stored its count.
  unfold Counts.boot
  split
  · exact ⟨Nat.le_succ _, id⟩
  · by_cases stores : answers.bootCount.stores = true
    · simp only [stores, Bool.toNat_true]
      split
      · exact ⟨Nat.le_refl _, Nat.le_succ_of_le⟩
      · exact ⟨Nat.le_refl _, fun behind => Nat.add_le_add behind again⟩
    · simp [stores]

/-- What is not one of the two files is left alone by a boot. -/
theorem adjustedBoth_of_ne {mountpoint : FsMount} {answers : BootAnswers}
    {before : CString → List UInt8} {path : CString}
    (notCount : path ≠ fname mountpoint "boot_count")
    (notPattern : path ≠ fname mountpoint "pattern.bin") :
    adjustedBoth mountpoint answers before path = before path := by
  -- Whether one of the two files is written or both, the path is neither of them.
  by_cases stores : answers.bootCount.stores = true
  · simp only [adjustedBoth, stores, if_true]
    split <;> simp [notCount, notPattern]
  · simp [adjustedBoth, stores]

/-- After any number of boots, the files say what the counts are, and nothing else has changed. -/
theorem represents_boots {mountpoint : FsMount}
    (distinct : fname mountpoint "boot_count" ≠ fname mountpoint "pattern.bin") :
    ∀ {runs : List BootAnswers} {files : CString → Option (List UInt8)} {counts : Counts},
      (∀ answers ∈ runs, answers.bootCount.Whole 1 ∧ answers.pattern.Whole testFileSize) →
      Represents mountpoint (content files) counts → counts.patterned ≤ counts.booted →
      let after := content ((boots mountpoint).final files runs)
      let counted := runs.foldl Counts.boot counts
      Represents mountpoint after counted ∧ counted.patterned ≤ counted.booted ∧
        counted.booted ≤ counts.booted + runs.length ∧
        ∀ path, path ≠ fname mountpoint "boot_count" → path ≠ fname mountpoint "pattern.bin" →
          after path = content files path := by
  -- The induction is on the boots, and each starts from the files the one before left.
  intro runs
  induction runs with
  | nil =>
    intro files counts _ represents behind
    exact ⟨represents, behind, Nat.le_refl _, fun _ _ _ => rfl⟩
  | cons answers rest ih =>
    intro files counts whole represents behind
    obtain ⟨⟨count, pattern⟩, later⟩ := List.forall_mem_cons.mp whole
    obtain ⟨once, still⟩ := counts.boot_le answers
    have written := @content_main mountpoint files answers count pattern
    have kept : Represents mountpoint (content (boots mountpoint files answers).1)
        (counts.boot answers) := by
      simp only [boots, written]
      split
      · exact represents.boot distinct count ‹_›
      · have unreached : counts.boot answers = counts := by simp [Counts.boot, *]
        rw [unreached]
        exact represents
    obtain ⟨represented, bounded, few, same⟩ := ih later kept (still behind)
    refine ⟨represented, bounded, ?_, fun path notCount notPattern => ?_⟩
    · simp only [List.foldl_cons, List.length_cons]
      omega
    · rw [Transducer.final_cons, same path notCount notPattern]
      simp only [boots, written]
      split
      · exact adjustedBoth_of_ne notCount notPattern
      · rfl

/-- Files on which every call goes well. -/
def fine : FileAnswers :=
  { opening := 0, stat := 0, reading := .moves testFileSize, seek := 0
    writing := .moves testFileSize, closing := 0, loses := false }

/-- A boot on which nothing fails but what is done with the pattern. -/
def fineBut (pattern : FileAnswers) : BootAnswers :=
  { flash := 0, mount := 0, statvfs := 0, lsdir := 0, bootCount := fine, pattern := pattern
    unmount := 0 }

/-- The volume of the sample, mounted at its own path. -/
def lfs : FsMount :=
  { volume := 0, mntPoint := .ofChars [0x2f, 0x6c, 0x66, 0x73] }

/-- Three boots, on the second of which the volume is full when the pattern is written. -/
def filledUp : List BootAnswers :=
  [fineBut fine, fineBut { fine with writing := .fails (-28) (by decide) }, fineBut fine]

end Notus.LittlefsSample
