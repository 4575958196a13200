import Notus.Core.Separator
import Notus.Errors.Category
import Notus.Errors.Timestamp

/-! The line an error prints when it is constructed, and what can be read from it. -/

namespace Notus.MajorError

/-- Where an error was constructed. -/
structure SourceLocation where
  fileName : List Char
  line : BitVec 32
  column : BitVec 32
  deriving DecidableEq

/-- The beginning and the end of a line, which make it stand out on a terminal. -/
def highlight : List Char × List Char :=
  (Char.ofNat 27 :: "[1;45m".toList, Char.ofNat 27 :: "[0m\n".toList)

/-- The line, "%s <exception>: %s:%d:%d - %s:%s:%d" between the marks of a terminal. -/
def logLine (timestamp : List Char) (loc : SourceLocation) (code : StdErrorCode) (errNo : Int) :
    List Char :=
  -- Unsigned words are printed as signed ones.
  highlight.1 ++ (timestamp ++ " <exception>: ".toList ++ loc.fileName ++
    ':' :: Decimal.signed 0 loc.line.toInt ++ ':' :: Decimal.signed 0 loc.column.toInt ++
    " - ".toList ++ code.category.category.name ++
    ':' :: code.category.category.message code.value ++
    ':' :: Decimal.signed 0 errNo) ++ highlight.2

/-- The constructor prints the line for the uptime it finds. -/
def construct (now : Microseconds) (loc : SourceLocation) (code : StdErrorCode) (errNo : Int) :
    List Char :=
  logLine (timestamp now) loc code errNo

/-- A timestamp has no space in it. -/
theorem space_not_mem_timestamp (now : Microseconds) : ' ' ∉ timestamp now := by
  -- What is not a digit in it is punctuation.
  have digits : ∀ width number, ' ' ∉ Decimal.padded width number := fun width number member =>
    absurd (Decimal.isDigit_of_mem_padded member) (by decide)
  intro member
  have written := List.mem_of_mem_take member
  simp [Fields.text, digits] at written

/-- In the first thousand hours the whole text is in the buffer. -/
theorem timestamp_whole {now : Microseconds} (forward : 0 ≤ now.count)
    (early : now.count < 3600000000000) : timestamp now = (fields now).text := by
  -- Three digits of hours still fit in front of the rest.
  obtain ⟨hours, reduced, _⟩ := fields_exact forward (by omega)
  have length := length_text reduced
  have digits : (Decimal.padded 2 (fields now).hours).length ≤ 3 ↔ (fields now).hours < 10 ^ 3 :=
    Decimal.length_padded_le_iff _ (by decide) (by decide)
  have few := digits.mpr (by omega)
  exact List.take_of_length_le (by omega)

/-- In the first thousand hours different uptimes have different timestamps. -/
theorem timestamp_inj {now later : Microseconds} (forward : 0 ≤ now.count)
    (early : now.count < 3600000000000) (laterForward : 0 ≤ later.count)
    (laterEarly : later.count < 3600000000000) : timestamp now = timestamp later ↔ now = later := by
  refine ⟨fun same => ?_, fun same => same ▸ rfl⟩
  rw [timestamp_whole forward early, timestamp_whole laterForward laterEarly] at same
  -- Both texts show the same fields, and the fields are the uptime.
  have shown : fields now = fields later :=
    Option.some.inj ((decode_text _).symm.trans ((congrArg decode same).trans (decode_text _)))
  obtain ⟨_, _, instant⟩ := fields_exact forward (by omega)
  obtain ⟨_, _, laterInstant⟩ := fields_exact laterForward (by omega)
  have count : now.count = later.count := by
    rw [← instant, ← laterInstant, shown]
  cases now
  cases later
  exact congrArg Microseconds.mk count

/-- Names of categories tell the categories apart. -/
theorem name_inj {category other : Subsystem} :
    category.category.name = other.category.name ↔ category = other := by
  -- The three names are compared pair by pair.
  cases category <;> cases other <;> decide

/-- A line can be taken apart again, from both of its ends. -/
theorem logLine_inj {time otherTime : List Char} (plain : ' ' ∉ time) (otherPlain : ' ' ∉ otherTime)
    {loc otherLoc : SourceLocation} {code otherCode : StdErrorCode} {errNo otherErrNo : Int} :
    logLine time loc code errNo = logLine otherTime otherLoc otherCode otherErrNo ↔
      time = otherTime ∧ loc = otherLoc ∧ code.category = otherCode.category ∧
        code.category.category.message code.value =
          otherCode.category.category.message otherCode.value ∧ errNo = otherErrNo := by
  have numbers : ∀ number, ':' ∉ Decimal.signed 0 number := fun number =>
    Decimal.not_mem_signed (by decide) (by decide)
  have undashed : ∀ category : Subsystem, '-' ∉ ' ' :: category.category.name := fun category =>
    List.not_mem_cons_of_ne_of_not_mem (by decide) (StdErrorCode.category_plain category).2
  have dashed : ∀ front name : List Char,
      front ++ " - ".toList ++ name = (front ++ [' ']) ++ '-' :: ' ' :: name := by simp
  have spaced : ∀ time name : List Char, time ++ " <exception>: ".toList ++ name =
      time ++ ' ' :: ("<exception>: ".toList ++ name) := by simp
  constructor
  · intro same
    simp only [logLine, List.append_cancel_left_eq, List.append_cancel_right_eq] at same
    -- From the end: the number, the message and the name, each behind its own separator.
    obtain ⟨same, number⟩ := (Separator.last_inj (numbers _) (numbers _)).mp same
    obtain ⟨same, message⟩ := (Separator.last_inj (StdErrorCode.message_plain _ _)
      (StdErrorCode.message_plain _ _)).mp same
    rw [dashed, dashed] at same
    obtain ⟨same, name⟩ := (Separator.last_inj (undashed _) (undashed _)).mp same
    have same := List.append_cancel_right same
    obtain ⟨same, column⟩ := (Separator.last_inj (numbers _) (numbers _)).mp same
    obtain ⟨same, line⟩ := (Separator.last_inj (numbers _) (numbers _)).mp same
    -- From the beginning: the timestamp, which ends at the first space.
    rw [spaced, spaced] at same
    obtain ⟨times, same⟩ := (Separator.first_inj plain otherPlain).mp same
    have file := List.append_cancel_left same
    have here : loc = otherLoc := by
      obtain ⟨fileName, lineNumber, columnNumber⟩ := loc
      obtain rfl : fileName = _ := file
      obtain rfl := BitVec.toInt_inj.mp (Decimal.signed_inj.mp line)
      obtain rfl := BitVec.toInt_inj.mp (Decimal.signed_inj.mp column)
      rfl
    exact ⟨times, here, name_inj.mp (List.cons.inj name).2, message, Decimal.signed_inj.mp number⟩
  · rintro ⟨rfl, rfl, category, message, rfl⟩
    rw [category] at message
    simp only [logLine, category, message]

/-- Lines tell codes apart, except for two codes of one category whose values have no name. -/
theorem construct_eq_iff {now later : Microseconds} (forward : 0 ≤ now.count)
    (early : now.count < 3600000000000) (laterForward : 0 ≤ later.count)
    (laterEarly : later.count < 3600000000000) (loc otherLoc : SourceLocation)
    (code otherCode : StdErrorCode) (errNo otherErrNo : Int) :
    construct now loc code errNo = construct later otherLoc otherCode otherErrNo ↔
      now = later ∧ loc = otherLoc ∧ errNo = otherErrNo ∧
        code.category = otherCode.category ∧
          (code.value = otherCode.value ∨ ¬ code.Recognized ∧ ¬ otherCode.Recognized) := by
  -- The line gives back its parts, of which the message is less than the code.
  obtain ⟨value, category⟩ := code
  obtain ⟨otherValue, otherCategory⟩ := otherCode
  simp only [construct]
  rw [logLine_inj (space_not_mem_timestamp now) (space_not_mem_timestamp later),
    timestamp_inj forward early laterForward laterEarly]
  constructor
  · rintro ⟨rfl, rfl, rfl, message, rfl⟩
    exact ⟨rfl, rfl, rfl, rfl, StdErrorCode.message_eq_iff.mp message⟩
  · rintro ⟨rfl, rfl, rfl, rfl, values⟩
    exact ⟨rfl, rfl, rfl, StdErrorCode.message_eq_iff.mpr values, rfl⟩

/-- What an error prints when it is constructed at an instant and a place. -/
def printed (now : Microseconds) (loc : SourceLocation) (error : MajorError) : List Char :=
  construct now loc error.code.make error.errNo

/-- Different enumerators make different codes. -/
theorem make_inj {err other : ErrorCode} : err.make = other.make ↔ err = other := by
  -- The category tells the subsystem, and the number the enumerator.
  refine ⟨fun same => ?_, fun same => same ▸ rfl⟩
  cases err with
  | button err =>
    cases other with
    | button other => cases err <;> cases other <;> first | rfl | exact absurd same (by decide)
    | fileSystem other => cases congrArg StdErrorCode.category same
    | loadCell other => cases congrArg StdErrorCode.category same
  | fileSystem err =>
    cases other with
    | fileSystem other => cases err <;> cases other <;> first | rfl | exact absurd same (by decide)
    | button other => cases congrArg StdErrorCode.category same
    | loadCell other => cases congrArg StdErrorCode.category same
  | loadCell err =>
    cases other with
    | loadCell other => cases err <;> cases other <;> first | rfl | exact absurd same (by decide)
    | button other => cases congrArg StdErrorCode.category same
    | fileSystem other => cases congrArg StdErrorCode.category same

/--
In the first thousand hours, a printed line is that of one error at one instant and one place.

This is so for every file name, whatever separators of the line it has in it.
-/
theorem printed_eq_iff {now later : Microseconds} (forward : 0 ≤ now.count)
    (early : now.count < 3600000000000) (laterForward : 0 ≤ later.count)
    (laterEarly : later.count < 3600000000000) (loc otherLoc : SourceLocation)
    (error other : MajorError) :
    printed now loc error = printed later otherLoc other ↔
      now = later ∧ loc = otherLoc ∧ error = other := by
  have recognized (err : ErrorCode) : err.make.Recognized :=
    StdErrorCode.recognized_iff.mpr ⟨err, rfl⟩
  simp only [printed]
  rw [construct_eq_iff forward early laterForward laterEarly]
  constructor
  · rintro ⟨instant, here, number, category, values⟩
    refine ⟨instant, here, ?_⟩
    -- The codes of enumerators have names, so their values are the same.
    have value := values.resolve_right fun unnamed => unnamed.1 (recognized error.code)
    have code := make_inj.mp (show error.code.make = other.code.make by
      cases left : error.code.make
      cases right : other.code.make
      simp_all)
    obtain ⟨errorCode, errNo⟩ := error
    obtain ⟨otherCode, otherErrNo⟩ := other
    cases code
    cases number
    rfl
  · rintro ⟨rfl, rfl, rfl⟩
    exact ⟨rfl, rfl, rfl, rfl, .inl rfl⟩

/-- Two errors of one category, thrown a microsecond apart, are told apart. -/
theorem printed_eq_iff_neighbours :
    printed ⟨5⟩ ⟨"main.cpp".toList, 7, 9⟩ ⟨.button .addCallback, -5⟩ ≠
      printed ⟨6⟩ ⟨"main.cpp".toList, 7, 9⟩ ⟨.button .gpioIsReady, -5⟩ := by
  -- They differ in the time and in the code, and the time is enough.
  intro same
  have apart := (printed_eq_iff (by decide) (by decide) (by decide) (by decide) _ _ _ _).mp same
  exact absurd apart.1 (by decide)

end Notus.MajorError
