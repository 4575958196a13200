import Notus.Core.Transducer
import Notus.FileSystem.Names

/-! Byte accounting: what was written is in the file, and reads deliver it from the front. -/

namespace Notus

namespace ZFile

/-- The bytes a transfer accounts for: its whole span, or as many as the error says. -/
def accounted (data : List UInt8) : Except MajorError Unit → List UInt8
  -- A negative number counts as none.
  | .ok () => data
  | .error error => data.take error.errNo.toNat

/-- A file that takes one write after the other. -/
def writing (self : ZFile) : Transducer FsDriver (Span × Transfer) (Except MajorError Unit) :=
  fun driver call => self.write driver call.1 call.2

/-- A file that serves one read after the other, each with the span it has filled. -/
def reading (self : ZFile) :
    Transducer FsDriver (Span × Transfer) (List UInt8 × Except MajorError Unit) :=
  fun driver call => self.read driver call.1 call.2

/-- All bytes that a sequence of writes accounts for, in call order. -/
def written (self : ZFile) (driver : FsDriver) (calls : List (Span × Transfer)) : List UInt8 :=
  -- Every call contributes what its own outcome says.
  (List.zipWith (fun call outcome => accounted call.1.bytes outcome) calls
    (self.writing.answers driver calls)).flatten

/-- All bytes that a sequence of reads delivers, in call order. -/
def delivered (self : ZFile) (driver : FsDriver) (calls : List (Span × Transfer)) : List UInt8 :=
  (List.zipWith (fun _ answer => accounted answer.1 answer.2) calls
    (self.reading.answers driver calls)).flatten

/-- A write adds to the end of the file exactly what it accounts for. -/
theorem write_accounted {self : ZFile} {driver : FsDriver} {path : CString} {flags : FsMode}
    {content : List UInt8}
    (holds : driver.Holds self.file ⟨path, content.length, flags⟩ content) (data : Span)
    (transfer : Transfer) :
    (self.write driver data transfer).1.Holds self.file
      ⟨path, (content ++ accounted data.bytes (self.write driver data transfer).2).length, flags⟩
      (content ++ accounted data.bytes (self.write driver data transfer).2) := by
  -- A call that is refused before it reaches the driver reports zero bytes.
  have answered := FsDriver.fsWrite_spec holds data.bytes transfer
  unfold write
  split
  · simpa [accounted] using holds
  · split
    · simpa [accounted] using holds
    · -- The call reaches the driver, whose answer decides the rest.
      rcases answered with ⟨failed, kept⟩ | ⟨count, within, fits, moved, grown⟩
      · have nothing := Int.toNat_of_nonpos (Int.le_of_lt failed)
        simpa [failed, accounted, nothing] using kept
      · have valid : ¬ (count : Int) < 0 := by omega
        simp only [moved, if_neg valid, ne_eq, castInt_eq_iff fits data.bounded]
        by_cases whole : count = data.bytes.length
        · simpa [whole, accounted] using grown
        · simpa [whole, accounted] using grown

/-- A span is filled from the front, so what was delivered can be taken from it again. -/
theorem accounted_filled {data : Span} {got : List UInt8} {error : MajorError}
    (counted : error.errNo = got.length) : accounted (filled data got) (.error error) = got := by
  -- The front of the span is what was delivered, and the number says where it ends.
  simp [accounted, filled, counted]

/-- A span that was filled completely holds what was delivered and nothing else. -/
theorem filled_whole {data : Span} {got : List UInt8} (whole : got.length = data.bytes.length) :
    filled data got = got := by
  -- Nothing is left over of what the span held before.
  simp [filled, whole]

/-- The front of a list is extended by taking from what follows it. -/
theorem prefix_extend {front content : List UInt8} (front_ : front <+: content) (count : Nat) :
    front ++ (content.drop front.length).take count <+: content := by
  -- What follows the front is a rest, and taking from it gives a prefix of the rest.
  obtain ⟨rest, rfl⟩ := front_
  simp [List.take_prefix]

/-- What has been delivered so far is the front of the file, and the offset is behind it. -/
structure Delivered (reader : ZFile) (path : CString) (flags : FsMode) (content : List UInt8)
    (driver : FsDriver) (front : List UInt8) : Prop where
  holds : driver.Holds reader.file ⟨path, front.length, flags⟩ content
  front : front <+: content

/-- A read delivers the bytes that follow the front, and accounts for exactly these. -/
theorem Delivered.read {self : ZFile} {path : CString} {flags : FsMode} {content front : List UInt8}
    {driver : FsDriver} (before : self.Delivered path flags content driver front) (data : Span)
    (transfer : Transfer) :
    self.Delivered path flags content (self.read driver data transfer).1
      (front ++ accounted (self.read driver data transfer).2.1
        (self.read driver data transfer).2.2) := by
  -- The front grows by what the driver delivers, which is what the call accounts for.
  have answered := FsDriver.fsRead_spec before.holds data.bytes.length transfer
  unfold ZFile.read
  split
  · simpa [accounted] using before
  · rcases answered with ⟨failed, nothing, kept⟩ | ⟨count, within, fits, remain, moved, got, held⟩
    · have unread := Int.toNat_of_nonpos (Int.le_of_lt failed)
      simp only [if_pos failed, accounted, unread, List.take_zero, List.append_nil]
      exact ⟨kept, before.front⟩
    · have valid : ¬ (count : Int) < 0 := by omega
      have length : ((content.drop front.length).take count).length = count := by
        rw [List.length_take, List.length_drop]
        omega
      have extended := prefix_extend before.front count
      -- However the call ends, it accounts for the bytes that the driver has moved.
      have same : ∀ outcome : Except MajorError Unit,
          accounted (filled data ((content.drop front.length).take count)) outcome =
              (content.drop front.length).take count →
            self.Delivered path flags content
              (driver.fsRead self.file data.bytes.length transfer).1
              (front ++
                accounted (filled data ((content.drop front.length).take count)) outcome) := by
        intro outcome counted
        rw [counted]
        refine ⟨?_, extended⟩
        rwa [List.length_append, length]
      simp only [moved, got, if_neg valid, ne_eq, castInt_eq_iff fits data.bounded]
      split
      · exact same _ (accounted_filled (by rw [length]))
      · rename_i whole
        exact same _ (filled_whole (length.trans (not_not.mp whole)))

/-- A sequence of writes adds to the end of the file what they account for together. -/
theorem writes_accounted {self : ZFile} {driver : FsDriver} {path : CString} {flags : FsMode}
    {content : List UInt8}
    (holds : driver.Holds self.file ⟨path, content.length, flags⟩ content)
    (calls : List (Span × Transfer)) :
    (self.writing.final driver calls).Holds self.file
      ⟨path, (content ++ self.written driver calls).length, flags⟩
      (content ++ self.written driver calls) :=
  -- Each write starts at the end that the one before it left.
  Transducer.final_accumulates self.writing
    (fun driver content => driver.Holds self.file ⟨path, content.length, flags⟩ content)
    (fun call outcome => accounted call.1.bytes outcome)
    (fun _ call _ before => write_accounted before call.1 call.2) calls holds

/-- A sequence of reads delivers a front of the file, and ends right behind it. -/
theorem reads_accounted {self : ZFile} {driver : FsDriver} {path : CString} {flags : FsMode}
    {content : List UInt8} (holds : driver.Holds self.file ⟨path, 0, flags⟩ content)
    (calls : List (Span × Transfer)) :
    self.Delivered path flags content (self.reading.final driver calls)
      (self.delivered driver calls) := by
  -- Nothing has been delivered before the first read.
  have start : self.Delivered path flags content driver [] := ⟨holds, List.nil_prefix⟩
  exact Transducer.final_accumulates self.reading
    (fun driver front => self.Delivered path flags content driver front)
    (fun _ answer => accounted answer.1 answer.2)
    (fun _ call _ before => before.read call.1 call.2) calls start

/-- The destructor of a file changes no file. -/
theorem destruct_files (self : ZFile) (driver : FsDriver) (verdict : Int) :
    (self.destruct driver verdict).files = driver.files :=
  -- A close changes handles only.
  (FsDriver.fsClose_kept driver self.file verdict).2

/--
A new file holds what its writes account for, and reads of it deliver a front of exactly that.

The file that was written may still be open when it is read, or be closed. After the reads the
offset of the reader stands right behind what was delivered.
-/
theorem bytes_accounted {system : ZFileSystem} {name : CString} {before opened : FsDriver}
    {writer : ZFile} {opening : Int} (new : before.files (system.handedPath name) = none)
    (created : system.openFile before name.chars (Flags.create ||| Flags.write) opening =
      (opened, .ok writer)) (writes : List (Span × Transfer)) :
    (writer.writing.final opened writes).files (system.handedPath name) =
        some (writer.written opened writes) ∧
      ∀ left readable reader verdict reads,
        (left = writer.writing.final opened writes ∨
          ∃ closing, left = writer.destruct (writer.writing.final opened writes) closing) →
        system.openFile left name.chars Flags.read verdict = (readable, .ok reader) →
          reader.delivered readable reads <+: writer.written opened writes ∧
            (reader.reading.final readable reads).openedAs reader.file =
              some ⟨system.handedPath name, (reader.delivered readable reads).length,
                Flags.read⟩ := by
  obtain ⟨_, holds⟩ := ZFileSystem.openFile_holds created
  -- The file starts out empty, so its end is its beginning.
  rw [new, Option.getD_none] at holds
  have start : opened.Holds writer.file
      ⟨system.handedPath name, ([] : List UInt8).length, Flags.create ||| Flags.write⟩ [] := holds
  have stored := (writes_accounted start writes).stored
  refine ⟨stored, ?_⟩
  intro left readable reader verdict reads ended opened'
  -- Closing the file or not, its content is the one the reader finds.
  have same : left.files (system.handedPath name) = some (writer.written opened writes) := by
    rcases ended with rfl | ⟨closing, rfl⟩
    · exact stored
    · rw [destruct_files]
      exact stored
  obtain ⟨_, holds⟩ := ZFileSystem.openFile_holds opened'
  rw [same, Option.getD_some] at holds
  have after := reads_accounted holds reads
  exact ⟨after.front, after.holds.held⟩

/-- A new file on an empty volume, opened to be written. -/
def notes : FsDriver :=
  (ZFileSystem.lfs.openFile (.boot fun _ => none) (ZFileSystem.letters 1).chars
    (Flags.create ||| Flags.write) 0).1

/-- The handle of the new file. -/
def notesWriter : ZFile :=
  { file := { filep := some 0, flags := 0x12 } }

/-- A write that succeeds, one that is cut short, and one that fails. -/
def notesWrites : List (Span × Transfer) :=
  [(⟨false, [1, 2, 3], by decide, by decide⟩, .moves 9),
    (⟨false, [4, 5, 6, 7], by decide, by decide⟩, .moves 2),
    (⟨false, [8], by decide, by decide⟩, .fails (-9) (by decide))]

/-- A file on the second handle, opened to be read. -/
def notesReader : ZFile :=
  { file := { filep := some 1, flags := 0x01 } }

/-- The volume after the writes, with the file opened once more. -/
def notesReadable : FsDriver :=
  (ZFileSystem.lfs.openFile (notesWriter.writing.final notes notesWrites)
    (ZFileSystem.letters 1).chars Flags.read 0).1

/-- A read into a buffer of four bytes. -/
def notesReads : List (Span × Transfer) :=
  [(⟨false, [0, 0, 0, 0], by decide, by decide⟩, .moves 9)]

/-- The bytes that were stored are in the file, and a reader with a buffer of four gets a front. -/
theorem bytes_accounted_short :
    (notesWriter.writing.final notes notesWrites).files
        (ZFileSystem.lfs.handedPath (ZFileSystem.letters 1)) = some [1, 2, 3, 4, 5] ∧
      notesReader.delivered notesReadable notesReads = [1, 2, 3, 4] ∧
      notesReader.delivered notesReadable notesReads <+: [1, 2, 3, 4, 5] ∧
      (notesReader.reading.final notesReadable notesReads).openedAs notesReader.file =
        some ⟨ZFileSystem.lfs.handedPath (ZFileSystem.letters 1), 4, Flags.read⟩ := by
  -- The file is opened again for reading once all has been written.
  have created : ZFileSystem.lfs.openFile (.boot fun _ => none) (ZFileSystem.letters 1).chars
      (Flags.create ||| Flags.write) 0 = (notes, .ok notesWriter) := rfl
  obtain ⟨stored, delivered⟩ := bytes_accounted rfl created notesWrites
  obtain ⟨front, behind⟩ := delivered _ notesReadable notesReader 0 notesReads (.inl rfl) rfl
  exact ⟨stored, rfl, front, behind⟩

end ZFile
end Notus
