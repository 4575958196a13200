import Notus.ErrorCodes.Queries

/-! What two error codes print, against what can be found out about them by asking. -/

namespace Notus.ErrorCodes

open SystemError

variable {Other : Type*}

/-- No message is written for a number that is no enumerator, nor for all of the other flights. -/
def Unwritten (code : ErrorCode Other) : Prop :=
  code.category = .flights2 ∨ ∀ err, ¬ Named code err

/-- The message that a code prints. -/
def ErrorCode.message (code : ErrorCode Other) : Option String :=
  ErrorCodes.message code.category code.value

/-- The shortage that one service reports, and the internal error that the other one does. -/
def Confused (first second : ErrorCode Other) : Prop :=
  first = FlightsErrc.resourceError.makeErrorCode ∧
    second = SeatsErrc.internalError.makeErrorCode

/-- No two enumerators of the flights have the same message. -/
theorem FlightsErrc.message_injective : Function.Injective FlightsErrc.message := by
  intro first second same
  -- The eight texts are compared pair by pair.
  cases first <;> cases second <;> first | rfl | exact absurd same (by decide)

/-- No two enumerators of the seats have the same message. -/
theorem SeatsErrc.message_injective : Function.Injective SeatsErrc.message := by
  -- The six texts are compared in the same way.
  intro first second same
  cases first <;> cases second <;> first | rfl | exact absurd same (by decide)

/-- The services share four messages, and one of them is not for the same error. -/
theorem FlightsErrc.message_eq_message {err : FlightsErrc} {other : SeatsErrc} :
    err.message = other.message ↔
      err.subsystemError = other.subsystemError ∨
        err = .resourceError ∧ other = .internalError := by
  -- They share what they say of requests, connections, resources and timeouts.
  cases err <;> cases other <;> decide

/-- Errors of the flights that come down to the same are the same. -/
theorem FlightsErrc.subsystemError_injective :
    Function.Injective FlightsErrc.subsystemError := by
  -- No two cases of the switch return the same.
  intro first second same
  cases first <;> cases second <;> first | rfl | cases same

/-- Errors of the seats that come down to the same are the same. -/
theorem SeatsErrc.subsystemError_injective : Function.Injective SeatsErrc.subsystemError := by
  -- No two cases of this switch return the same either.
  intro first second same
  cases first <;> cases second <;> first | rfl | cases same

/-- The two confused codes are told from the other ones by their enumerators. -/
theorem confused_iff {err : FlightsErrc} {other : SeatsErrc} :
    Confused (err.makeErrorCode : ErrorCode Other) other.makeErrorCode ↔
      err = .resourceError ∧ other = .internalError := by
  -- No two enumerators of a service have the same number.
  constructor
  · rintro ⟨flights, seats⟩
    exact ⟨FlightsErrc.enumeration.distinct _ _ (congrArg Code.value flights),
      SeatsErrc.enumeration.distinct _ _ (congrArg Code.value seats)⟩
  · rintro ⟨rfl, rfl⟩
    exact ⟨rfl, rfl⟩

/-- Two confused codes are of two services, in that order. -/
theorem Confused.categories {first second : ErrorCode Other} (confused : Confused first second) :
    first.category = .flights ∧ second.category = .seats := by
  -- The enumerators decide the categories.
  obtain ⟨rfl, rfl⟩ := confused
  exact ⟨rfl, rfl⟩

/-- Two named codes come down to the same when the two errors they come down to are the same. -/
theorem Named.alike_iff {first second : ErrorCode Other} {err other : SubsystemError}
    (named : Named first err) (also : Named second other) :
    (∀ meant, Named first meant ↔ Named second meant) ↔ err = other := by
  -- A code comes down to one error only.
  simp only [named.iff_eq, also.iff_eq]
  constructor
  · intro alike
    exact (alike err).mp rfl
  · rintro rfl meant
    rfl

/-- Two confused codes do not come down to the same error. -/
theorem Confused.not_alike {first second : ErrorCode Other} (confused : Confused first second) :
    ¬ ∀ err, Named first err ↔ Named second err := by
  obtain ⟨rfl, rfl⟩ := confused
  -- One is a shortage of resources, and the other is internal.
  rw [(Named.flights .resourceError).alike_iff (.seats .internalError)]
  decide

/-- The text of an enumerator is found by its number. -/
theorem getD_map_cast {Errc : Type*} (enumeration : Enumeration Errc) (text : Errc → String)
    (unrecognized : String) (err : Errc) :
    ((enumeration.cast (enumeration.value err)).map text).getD unrecognized = text err := by
  -- The number is cast back to the enumerator.
  rw [Enumeration.cast_eq_some.mpr rfl]
  rfl

/-- The code of an enumerator of the flights prints its message. -/
theorem FlightsErrc.message_makeErrorCode (err : FlightsErrc) :
    (err.makeErrorCode : ErrorCode Other).message = some err.message :=
  -- The category of the code is theirs, and so is the table of the messages.
  congrArg some (getD_map_cast enumeration FlightsErrc.message _ err)

/-- The code of an enumerator of the seats prints its message, too. -/
theorem SeatsErrc.message_makeErrorCode (err : SeatsErrc) :
    (err.makeErrorCode : ErrorCode Other).message = some err.message :=
  -- Here the category and the table are those of the seats.
  congrArg some (getD_map_cast enumeration SeatsErrc.message _ err)

/-- A code with a message of its own is one of an enumerator of the two services that have some. -/
theorem written_cases {code : ErrorCode Other} (written : ¬ Unwritten code) :
    (∃ err : FlightsErrc, code = err.makeErrorCode) ∨
      ∃ err : SeatsErrc, code = err.makeErrorCode := by
  -- Of the three services, the other flights have no messages.
  obtain ⟨foreign, named⟩ := not_or.mp written
  obtain ⟨err, named⟩ := not_forall_not.mp named
  cases named with
  | flights err => exact .inl ⟨err, rfl⟩
  | flights2 err => exact absurd rfl foreign
  | seats err => exact .inr ⟨err, rfl⟩

/-- A code says that it is not recognized when it is no enumerator or its messages are missing. -/
theorem OfSubsystem.message_eq_iff {code : ErrorCode Other} (within : OfSubsystem code) :
    code.message = some "(unrecognized error)" ↔ Unwritten code := by
  -- A number that is no enumerator is one without a default condition.
  have unnamed : defaultErrorCondition (fun _ _ => none) code.category code.value = none ↔
      ∀ err, ¬ Named code err := by
    constructor
    · intro missing err named
      rw [named.known] at missing
      cases missing
    · intro unnamed
      by_contra known
      obtain ⟨condition, known⟩ := Option.ne_none_iff_exists'.mp known
      obtain ⟨err, named, _⟩ := within.named known
      exact unnamed err named
  obtain ⟨value, category⟩ := code
  rcases within with rfl | rfl | rfl
  · rw [Unwritten, ← unnamed]
    simpa [ErrorCode.message] using message_unrecognized_iff.1
  · exact iff_of_true rfl (.inl rfl)
  · rw [Unwritten, ← unnamed]
    simpa [ErrorCode.message] using message_unrecognized_iff.2

/--
Codes with messages of their own print the same if they answer alike, or if they are confused.

The others, all of one service among them, print that they are not recognized.
-/
theorem printed_alike_iff {first second : ErrorCode Other} (within : OfSubsystem first) :
    (first.message = some "(unrecognized error)" ↔ Unwritten first) ∧
      (¬ Unwritten first → ¬ Unwritten second →
        (first.message = second.message ↔
          (∀ err, Named first err ↔ Named second err) ∨ Confused first second ∨
            Confused second first)) ∧
      (Confused first second → ¬ ∀ err, Named first err ↔ Named second err) := by
  refine ⟨within.message_eq_iff, fun written alsoWritten => ?_, Confused.not_alike⟩
  -- Each code is of the flights or of the seats, and only across the two is a message used twice.
  rcases written_cases written with ⟨err, rfl⟩ | ⟨err, rfl⟩
  · rcases written_cases alsoWritten with ⟨other, rfl⟩ | ⟨other, rfl⟩
    · have apart : ∀ left right : FlightsErrc,
          ¬ Confused (left.makeErrorCode : ErrorCode Other) right.makeErrorCode :=
        fun _ _ confused => by cases confused.categories.2
      rw [(Named.flights err).alike_iff (.flights other), err.message_makeErrorCode,
        other.message_makeErrorCode, Option.some.injEq, FlightsErrc.message_injective.eq_iff,
        FlightsErrc.subsystemError_injective.eq_iff]
      simp only [apart, or_false]
    · have reversed : ¬ Confused (other.makeErrorCode : ErrorCode Other) err.makeErrorCode :=
        fun confused => by cases confused.categories.1
      rw [(Named.flights err).alike_iff (.seats other), err.message_makeErrorCode,
        other.message_makeErrorCode, Option.some.injEq, FlightsErrc.message_eq_message,
        confused_iff]
      simp only [reversed, or_false]
  · rcases written_cases alsoWritten with ⟨other, rfl⟩ | ⟨other, rfl⟩
    · have reversed : ¬ Confused (err.makeErrorCode : ErrorCode Other) other.makeErrorCode :=
        fun confused => by cases confused.categories.1
      rw [(Named.seats err).alike_iff (.flights other), err.message_makeErrorCode,
        other.message_makeErrorCode, Option.some.injEq, eq_comm, FlightsErrc.message_eq_message,
        confused_iff, eq_comm]
      simp only [reversed, false_or]
    · have apart : ∀ left right : SeatsErrc,
          ¬ Confused (left.makeErrorCode : ErrorCode Other) right.makeErrorCode :=
        fun _ _ confused => by cases confused.categories.1
      rw [(Named.seats err).alike_iff (.seats other), err.message_makeErrorCode,
        other.message_makeErrorCode, Option.some.injEq, SeatsErrc.message_injective.eq_iff,
        SeatsErrc.subsystemError_injective.eq_iff]
      simp only [apart, or_false]

/-- A shortage at the flights and an internal error of the seats print the same line. -/
theorem printed_alike_iff_shortage :
    (FlightsErrc.resourceError.makeErrorCode : ErrorCode Empty).message =
        (SeatsErrc.internalError.makeErrorCode : ErrorCode Empty).message ∧
      alone.equals FlightsErrc.resourceError.makeErrorCode Severity.resource.makeErrorCondition ≠
        alone.equals SeatsErrc.internalError.makeErrorCode
          Severity.resource.makeErrorCondition := by
  have flights : ¬ Unwritten (FlightsErrc.resourceError.makeErrorCode : ErrorCode Empty) :=
    not_or.mpr ⟨by decide, fun unnamed => unnamed _ (.flights _)⟩
  have seats : ¬ Unwritten (SeatsErrc.internalError.makeErrorCode : ErrorCode Empty) :=
    not_or.mpr ⟨by decide, fun unnamed => unnamed _ (.seats _)⟩
  -- Only one of them is a shortage to the query.
  exact ⟨((printed_alike_iff (.inl rfl)).2.1 flights seats).mpr
    (.inr (.inl ⟨rfl, rfl⟩)), by decide⟩

end Notus.ErrorCodes
