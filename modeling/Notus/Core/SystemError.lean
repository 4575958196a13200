import Mathlib.Data.Int.Notation

/-! Error codes compared with error conditions, over any family of categories and enumerations. -/

/-- An enumeration lists its enumerators, and no two of them have the same value. -/
structure Enumeration (Enum : Type*) where
  enumerators : List Enum
  value : Enum → Int
  complete : ∀ enum, enum ∈ enumerators
  distinct : ∀ first second, value first = value second → first = second

namespace Enumeration

variable {Enum : Type*}

/-- A number converted to an enumeration, and the enumerator it is if it is one. -/
def cast (enumeration : Enumeration Enum) (value : Int) : Option Enum :=
  -- A switch over the converted number falls to its default when no enumerator has the value.
  enumeration.enumerators.find? fun enum => enumeration.value enum == value

/-- The numbers that are converted to an enumerator are those with its value. -/
theorem cast_eq_some {enumeration : Enumeration Enum} {value : Int} {enum : Enum} :
    enumeration.cast value = some enum ↔ enumeration.value enum = value := by
  -- The first enumerator with the value is the only one that has it.
  constructor
  · intro found
    have same := List.find?_some found
    simpa using same
  · rintro rfl
    have there : (enumeration.cast (enumeration.value enum)).isSome := by
      simp only [cast, List.find?_isSome]
      exact ⟨enum, enumeration.complete enum, by simp⟩
    obtain ⟨first, found⟩ := Option.isSome_iff_exists.mp there
    have same := List.find?_some found
    have equal := enumeration.distinct first enum (by simpa using same)
    exact equal ▸ found

end Enumeration

namespace SystemError

/-- A code is a number, and the category that knows what the number stands for. -/
structure Code (Category : Type*) where
  value : Int
  category : Category
  deriving DecidableEq

/-- A condition is a number of a category as well, and codes are compared with it. -/
structure Condition (Category : Type*) where
  value : Int
  category : Category
  deriving DecidableEq

/-- What the categories answer, or nothing where an assertion of theirs stops the program. -/
structure Categories (Category : Type*) where
  defaultErrorCondition : Category → Int → Option (Condition Category)
  equivalent : Category → Code Category → Int → Option Bool

variable {Category : Type*} [DecidableEq Category]

/-- A category that does not say otherwise has a code equivalent to its own number only. -/
def Code.isOwn (code : Code Category) (category : Category) (value : Int) : Bool :=
  decide (category = code.category ∧ code.value = value)

namespace Categories

/-- The category of the code is asked first, and then the category of the condition. -/
def equals (categories : Categories Category) (code : Code Category)
    (condition : Condition Category) : Option Bool :=
  (categories.defaultErrorCondition code.category code.value).bind fun standard =>
    -- The second category is not asked where the first one has agreed.
    if standard = condition then some true
    else categories.equivalent condition.category code condition.value

/-- The comparisons are made one after the other, until one of them holds. -/
def equalsAny (categories : Categories Category) (code : Code Category) :
    List (Condition Category) → Option Bool
  | [] => some false
  | condition :: rest =>
    (categories.equals code condition).bind fun same =>
      if same then some true else categories.equalsAny code rest

variable {categories : Categories Category} {code : Code Category}

/-- A category that overrides nothing: its numbers are their own conditions, and no others. -/
structure Plain (categories : Categories Category) (category : Category) : Prop where
  standard : ∀ value, categories.defaultErrorCondition category value = some ⟨value, category⟩
  own : ∀ code value, categories.equivalent category code value = some (code.isOwn category value)

/-- Where the category of the code stops the program, no comparison comes to an end. -/
theorem equals_stopped (stopped : categories.defaultErrorCondition code.category code.value = none)
    (condition : Condition Category) : categories.equals code condition = none := by
  -- Nothing is compared before the category of the code has answered.
  simp [equals, stopped]

/-- A condition of a plain category holds exactly if it is the default condition of the code. -/
theorem equals_plain {condition : Condition Category}
    (plain : categories.Plain condition.category) :
    categories.equals code condition =
      (categories.defaultErrorCondition code.category code.value).map
        fun standard => decide (standard = condition) := by
  -- Without a default condition there is nothing to compare.
  cases known : categories.defaultErrorCondition code.category code.value with
  | none => simp [equals, known]
  | some standard =>
    simp only [equals, known, Option.bind_some, Option.map_some]
    split
    case isTrue same => simp [same]
    case isFalse apart =>
      -- A code of the plain category itself has that number as its default condition.
      have foreign : code.isOwn condition.category condition.value = false := by
        simp only [Code.isOwn, decide_eq_false_iff_not]
        rintro ⟨within, value⟩
        have own := plain.standard code.value
        rw [within, known] at own
        refine apart ?_
        rw [Option.some.inj own, ← within, value]
      simp [plain.own, foreign, apart]

/-- Some condition of plain categories holds exactly if the default condition is among them. -/
theorem equalsAny_plain {conditions : List (Condition Category)}
    (plain : ∀ condition ∈ conditions, categories.Plain condition.category)
    {standard : Condition Category}
    (known : categories.defaultErrorCondition code.category code.value = some standard) :
    categories.equalsAny code conditions = some (decide (standard ∈ conditions)) := by
  induction conditions with
  | nil => simp [equalsAny]
  | cons condition rest ih =>
    -- The comparisons that follow are made only where the first one does not hold.
    have first : categories.equals code condition = _ :=
      equals_plain (plain condition List.mem_cons_self)
    have others := ih fun other member => plain other (List.mem_cons_of_mem _ member)
    simp only [known, Option.map_some] at first
    simp only [equalsAny, first, Option.bind_some, others]
    by_cases same : standard = condition <;> simp [same]

end Categories
end SystemError
