import Mathlib.Data.List.Basic
import Notus.ErrorCodes

/-! A code can be asked for its failure source and its severity, and has exactly one of each. -/

namespace Notus.ErrorCodes

open SystemError

/-- The failure source that a subsystem error is of. -/
def SubsystemError.source : SubsystemError → FailureSource
  | inputBadAirport | inputPastDate | inputBadDateRange | inputBadClass => .badUserInput
  | noFlightFound | noSeatFound => .noSolution
  | subsysProtocolErr | subsysInternal | subsysResource | subsysConfig | subsysTimeout =>
    .systemError

/-- The severity that a subsystem error is of. -/
def SubsystemError.severity : SubsystemError → Severity
  | subsysProtocolErr | subsysInternal => .bug
  | subsysConfig => .config
  | subsysResource | subsysTimeout => .resource
  | inputBadAirport | inputPastDate | inputBadDateRange | inputBadClass | noFlightFound
  | noSeatFound => .normal

/-- Every subsystem error is listed under one failure source. -/
theorem SubsystemError.mem_source {err : SubsystemError} {source : FailureSource} :
    err ∈ source.subsystemErrors ↔ source = err.source := by
  -- The lists of the sources have no error in common and leave none out.
  cases err <;> cases source <;> decide

/-- Every subsystem error is listed under one severity. -/
theorem SubsystemError.mem_severity {err : SubsystemError} {severity : Severity} :
    err ∈ severity.subsystemErrors ↔ severity = err.severity := by
  -- The lists of the severities have no error in common and leave none out.
  cases err <;> cases severity <;> decide

/-- The errors that need no attention are those that no system is to blame for. -/
theorem SubsystemError.severity_normal_iff {err : SubsystemError} :
    err.severity = .normal ↔ err.source ≠ .systemError := by
  -- Every other severity lists errors of the system, and all of them.
  cases err <;> decide

variable {Other : Type*}

/-- The conditions a caller may ask for: those of the program's own three categories. -/
def Asked (condition : ErrorCondition Other) : Prop :=
  condition.category = .submoduleError ∨ condition.category = .failureSource ∨
    condition.category = .severity

/-- The codes of the three subsystems, whatever their number. -/
def OfSubsystem (code : ErrorCode Other) : Prop :=
  code.category = .flights ∨ code.category = .flights2 ∨ code.category = .seats

/-- Of all conditions a caller may ask for, these are the ones an error meets. -/
def SubsystemError.conditions (err : SubsystemError) : List (ErrorCondition Other) :=
  [err.makeErrorCondition, err.source.makeErrorCondition, err.severity.makeErrorCondition]

/-- Two subsystem errors with the same condition are the same. -/
theorem makeErrorCondition_inj {err other : SubsystemError} :
    (err.makeErrorCondition : ErrorCondition Other) = other.makeErrorCondition ↔ err = other := by
  -- The number of the condition is that of the enumerator.
  constructor
  · intro same
    exact SubsystemError.enumeration.distinct err other (congrArg Condition.value same)
  · rintro rfl
    rfl

variable {others : Other → Int → Option (ErrorCondition Other)}

/-- Two errors answer all conditions in the same way only if they are the same. -/
theorem SubsystemError.conditions_inj {err other : SubsystemError}
    (same : err.makeErrorCondition ∈ (other.conditions : List (ErrorCondition Other))) :
    err = other := by
  -- The other two conditions are of other categories.
  simp only [conditions, List.mem_cons, List.not_mem_nil, or_false] at same
  rcases same with same | same | same
  · exact makeErrorCondition_inj.mp same
  · cases congrArg Condition.category same
  · cases congrArg Condition.category same

/-- A code is that of an enumerator, which comes down to a subsystem error. -/
inductive Named : ErrorCode Other → SubsystemError → Prop where
  | flights (err : FlightsErrc) : Named err.makeErrorCode err.subsystemError
  | flights2 (err : Flights2Errc) : Named err.makeErrorCode err.subsystemError
  | seats (err : SeatsErrc) : Named err.makeErrorCode err.subsystemError

/-- A number has a default condition exactly if it is the value of an enumerator. -/
theorem subsystemCondition_eq_some {Errc : Type*} {enumeration : Enumeration Errc}
    {subsystemError : Errc → SubsystemError} {value : Int} {condition : ErrorCondition Other} :
    subsystemCondition enumeration subsystemError value = some condition ↔
      ∃ enum, enumeration.value enum = value ∧
        (subsystemError enum).makeErrorCondition = condition := by
  -- A cast finds the enumerator that has the number.
  simp only [subsystemCondition, Option.map_eq_some_iff, Enumeration.cast_eq_some]

/-- The code of an enumerator has the condition of its subsystem error as its default. -/
theorem Named.known {code : ErrorCode Other} {err : SubsystemError} (named : Named code err) :
    defaultErrorCondition others code.category code.value = some err.makeErrorCondition := by
  -- The number of the code is converted back to its enumerator.
  cases named with
  | flights err => exact subsystemCondition_eq_some.mpr ⟨err, rfl, rfl⟩
  | flights2 err => exact subsystemCondition_eq_some.mpr ⟨err, rfl, rfl⟩
  | seats err => exact subsystemCondition_eq_some.mpr ⟨err, rfl, rfl⟩

/-- A code comes down to one subsystem error. -/
theorem Named.iff_eq {code : ErrorCode Other} {err other : SubsystemError}
    (named : Named code err) : Named code other ↔ other = err := by
  -- The default condition of the code can only be one.
  constructor
  · intro also
    have known : defaultErrorCondition (fun _ _ => none) code.category code.value = _ := also.known
    rw [named.known] at known
    exact (makeErrorCondition_inj.mp (Option.some.inj known)).symm
  · rintro rfl
    exact named

/-- A code of a subsystem with a default condition is the code of an enumerator. -/
theorem OfSubsystem.named {code : ErrorCode Other} (within : OfSubsystem code)
    {condition : ErrorCondition Other}
    (known : defaultErrorCondition others code.category code.value = some condition) :
    ∃ err, Named code err ∧ condition = err.makeErrorCondition := by
  obtain ⟨value, category⟩ := code
  -- The category of the code says which enumeration its number is looked up in.
  rcases within with rfl | rfl | rfl
  · obtain ⟨err, rfl, rfl⟩ := subsystemCondition_eq_some.mp known
    exact ⟨_, .flights err, rfl⟩
  · obtain ⟨err, rfl, rfl⟩ := subsystemCondition_eq_some.mp known
    exact ⟨_, .flights2 err, rfl⟩
  · obtain ⟨err, rfl, rfl⟩ := subsystemCondition_eq_some.mp known
    exact ⟨_, .seats err, rfl⟩

/-- The messages recognize the numbers that have a default condition, where they are written. -/
theorem message_unrecognized_iff {value : Int} :
    (message (.flights : Category Other) value = some "(unrecognized error)" ↔
      defaultErrorCondition others .flights value = none) ∧
    (message (.seats : Category Other) value = some "(unrecognized error)" ↔
      defaultErrorCondition others .seats value = none) := by
  -- No message of an enumerator is the one for the others.
  constructor
  · simp only [message, defaultErrorCondition, subsystemCondition]
    cases FlightsErrc.enumeration.cast value with
    | none => simp
    | some err => cases err <;> simp [FlightsErrc.message]
  · simp only [message, defaultErrorCondition, subsystemCondition]
    cases SeatsErrc.enumeration.cast value with
    | none => simp
    | some err => cases err <;> simp [SeatsErrc.message]

variable [DecidableEq Other]

/-- The conditions of the subsystem errors are those of a category that overrides nothing. -/
theorem plain_submoduleError : (subsystems others).Plain .submoduleError where
  -- Both functions are those of the base class.
  standard _ := rfl
  own _ _ := rfl

/-- A condition of a subsystem error is asked the same way everywhere. -/
theorem equals_subsystems (code : ErrorCode Other) {condition : ErrorCondition Other}
    (within : condition.category = .submoduleError) :
    (categories others).equals code condition = (subsystems others).equals code condition := by
  -- The two lists of categories differ in their query categories only.
  simp only [Categories.equals, within, categories, subsystems]

/-- A query holds of a code if the error it comes down to is among those it stands for. -/
theorem equals_query {Query : Type*} {enumeration : Enumeration Query}
    {stands : Query → List SubsystemError} {kind : SubsystemError → Query}
    (listed : ∀ err query, err ∈ stands query ↔ query = kind err) {category : Category Other}
    (asks : ∀ code value, (categories others).equivalent category code value =
      queryEquivalent others enumeration stands code value)
    (foreign : category ≠ .submoduleError) {code : ErrorCode Other} {err : SubsystemError}
    (known : defaultErrorCondition others code.category code.value = some err.makeErrorCondition)
    (value : Int) :
    (categories others).equals code ⟨value, category⟩ =
      some (decide (value = enumeration.value (kind err))) := by
  have apart : (err.makeErrorCondition : ErrorCondition Other) ≠ ⟨value, category⟩ :=
    fun same => foreign (congrArg Condition.category same).symm
  have standard : (categories others).defaultErrorCondition code.category code.value =
      some err.makeErrorCondition := known
  simp only [Categories.equals, standard, Option.bind_some, if_neg apart, asks, queryEquivalent]
  cases converted : enumeration.cast value with
  | none =>
    -- A number that is no enumerator is not that of the kind either.
    have other : value ≠ enumeration.value (kind err) := by
      intro same
      have found := Enumeration.cast_eq_some.mpr same.symm
      rw [converted] at found
      cases found
    simp [other]
  | some query =>
    have plain : ∀ condition ∈ (stands query).map SubsystemError.makeErrorCondition,
        (subsystems others).Plain condition.category := by
      intro condition member
      obtain ⟨_, _, rfl⟩ := List.mem_map.mp member
      exact plain_submoduleError
    have answered := Categories.equalsAny_plain plain known
    have held : (err.makeErrorCondition : ErrorCondition Other) ∈
        (stands query).map SubsystemError.makeErrorCondition ↔ query = kind err :=
      (List.mem_map_of_injective fun _ _ => makeErrorCondition_inj.mp).trans (listed err query)
    have same : value = enumeration.value (kind err) ↔ query = kind err := by
      rw [← Enumeration.cast_eq_some.mp converted]
      exact ⟨enumeration.distinct query (kind err), congrArg enumeration.value⟩
    show (subsystems others).equalsAny code _ = _
    rw [answered]
    exact congrArg some (decide_eq_decide.mpr (held.trans same.symm))

/-- A code that comes down to a subsystem error meets its three conditions, and no others. -/
theorem equals_known {code : ErrorCode Other} {err : SubsystemError}
    (known : defaultErrorCondition others code.category code.value = some err.makeErrorCondition)
    {condition : ErrorCondition Other} (asked : Asked condition) :
    (categories others).equals code condition = some (decide (condition ∈ err.conditions)) := by
  have standard : (subsystems others).defaultErrorCondition code.category code.value =
      some err.makeErrorCondition := known
  obtain ⟨value, category⟩ := condition
  -- The condition is the error itself, its source or its severity.
  rcases asked with rfl | rfl | rfl
  · rw [equals_subsystems code rfl, Categories.equals_plain plain_submoduleError, standard]
    simp [SubsystemError.conditions, SubsystemError.makeErrorCondition,
      FailureSource.makeErrorCondition, Severity.makeErrorCondition, eq_comm]
  · rw [equals_query (fun _ _ => SubsystemError.mem_source) (fun _ _ => rfl) (by simp) known]
    simp [SubsystemError.conditions, SubsystemError.makeErrorCondition,
      FailureSource.makeErrorCondition, Severity.makeErrorCondition]
  · rw [equals_query (fun _ _ => SubsystemError.mem_severity) (fun _ _ => rfl) (by simp) known]
    simp [SubsystemError.conditions, SubsystemError.makeErrorCondition,
      FailureSource.makeErrorCondition, Severity.makeErrorCondition]

/-- A code that is no enumerator of its subsystem has no comparison that comes to an end. -/
theorem equals_unnamed {code : ErrorCode Other} (within : OfSubsystem code)
    (unnamed : ∀ err, ¬ Named code err) (condition : ErrorCondition Other) :
    (categories others).equals code condition = none := by
  refine Categories.equals_stopped ?_ condition
  -- The category of the code is asked first, and its assertion fails.
  cases known : (categories others).defaultErrorCondition code.category code.value with
  | none => rfl
  | some standard =>
    obtain ⟨err, named, _⟩ := within.named known
    exact absurd named (unnamed err)

/--
Of all conditions a caller may ask for, a named code meets three: its own, its source, its severity.

Asking a number that is no enumerator of its subsystem anything at all stops the program.
-/
theorem classified (others : Other → Int → Option (ErrorCondition Other)) {code : ErrorCode Other}
    (within : OfSubsystem code) :
    (∀ err, Named code err →
      (∀ condition, Asked condition →
        (categories others).equals code condition = some (decide (condition ∈ err.conditions))) ∧
      (err.severity = .normal ↔ err.source ≠ .systemError)) ∧
    ((∀ err, ¬ Named code err) →
      ∀ condition, (categories others).equals code condition = none) := by
  -- The default condition of a named code decides all its comparisons.
  constructor
  · intro err named
    exact ⟨fun condition asked => equals_known named.known asked,
      SubsystemError.severity_normal_iff⟩
  · intro unnamed condition
    exact equals_unnamed within unnamed condition

/-- A query tells two codes of the subsystems apart if they come down to different errors. -/
theorem asked_alike_iff (others : Other → Int → Option (ErrorCondition Other))
    {first second : ErrorCode Other} (within : OfSubsystem first)
    (alsoWithin : OfSubsystem second) :
    (∀ condition, Asked condition →
      (categories others).equals first condition = (categories others).equals second condition) ↔
      ∀ err, Named first err ↔ Named second err := by
  -- What a code answers to the condition of an error tells whether it comes down to that error.
  have answers : ∀ {code : ErrorCode Other}, OfSubsystem code → ∀ err : SubsystemError,
      (categories others).equals code err.makeErrorCondition = some true ↔ Named code err := by
    intro code within err
    constructor
    · intro holds
      -- A code that is asked and does not stop is named, and meets no other error's condition.
      have some_name : ∃ other, Named code other := by
        by_contra unnamed
        rw [equals_unnamed within (not_exists.mp unnamed)] at holds
        cases holds
      obtain ⟨other, named⟩ := some_name
      rw [equals_known named.known (.inl rfl), Option.some.injEq, decide_eq_true_eq] at holds
      exact SubsystemError.conditions_inj holds ▸ named
    · intro named
      rw [equals_known named.known (.inl rfl)]
      simp [SubsystemError.conditions]
  constructor
  · intro alike err
    rw [← answers within err, ← answers alsoWithin err, alike err.makeErrorCondition (.inl rfl)]
  · intro names condition asked
    -- Either both come down to the same error, or neither is an enumerator.
    by_cases named : ∃ err, Named first err
    · obtain ⟨err, named⟩ := named
      rw [equals_known named.known asked, equals_known ((names err).mp named).known asked]
    · have alsoUnnamed : ∀ err, ¬ Named second err :=
        fun err other => named ⟨err, (names err).mpr other⟩
      rw [equals_unnamed within (not_exists.mp named), equals_unnamed alsoWithin alsoUnnamed]

/-- A program that uses no other library with categories of its own. -/
def noOthers (category : Empty) : Int → Option (ErrorCondition Empty) :=
  category.elim

/-- The categories of that program. -/
def alone : Categories (Category Empty) :=
  categories noOthers

/-- The query of the sample's program, and a number between the enumerators of the flights. -/
theorem classified_flights :
    alone.equals FlightsErrc.noFlightsFound.makeErrorCode
        FailureSource.noSolution.makeErrorCondition = some true ∧
      alone.equals ⟨21, .flights⟩ FailureSource.noSolution.makeErrorCondition = none := by
  -- The number in question is that of no enumerator of the flights.
  constructor
  · have within : OfSubsystem (FlightsErrc.noFlightsFound.makeErrorCode : ErrorCode Empty) :=
      .inl rfl
    have named := (classified noOthers within).1 _ (.flights .noFlightsFound)
    exact (named.1 _ (.inr (.inl rfl))).trans (by decide)
  · have within : OfSubsystem (⟨21, .flights⟩ : ErrorCode Empty) := .inl rfl
    refine (classified noOthers within).2 (fun err named => ?_) _
    generalize held : (⟨21, .flights⟩ : ErrorCode Empty) = code at named
    have value := congrArg Code.value held
    have category := congrArg Code.category held
    cases named with
    | flights err => cases err <;> exact absurd value (by decide)
    | flights2 err => cases category
    | seats err => cases category

/-- Two subsystems that could not connect to their servers answer alike. -/
theorem asked_alike_iff_connection :
    ¬ ∃ condition, Asked condition ∧
      alone.equals FlightsErrc.connectionError.makeErrorCode condition ≠
        alone.equals SeatsErrc.couldNotConnect.makeErrorCode condition := by
  -- Both come down to an error of the configuration.
  rintro ⟨condition, asked, different⟩
  refine different ((asked_alike_iff noOthers (.inl rfl) (.inr (.inr rfl))).mpr ?_ condition asked)
  intro err
  rw [(Named.flights .connectionError).iff_eq, (Named.seats .couldNotConnect).iff_eq]
  exact Iff.rfl

end Notus.ErrorCodes
