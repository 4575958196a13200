import Mathlib.Data.List.TakeDrop

/-! Lists of bounded length: appending keeps what fits, and putting refuses what does not. -/

/-- A list that is never longer than its capacity. -/
structure Bounded (Item : Type*) (capacity : Nat) where
  items : List Item
  bounded : items.length ≤ capacity
  deriving DecidableEq

namespace Bounded

variable {Item : Type*} {capacity : Nat}

/-- The list that holds nothing. -/
def empty : Bounded Item capacity :=
  { items := [], bounded := Nat.zero_le capacity }

/-- Appending keeps the items that fit and drops the others. -/
def append (list : Bounded Item capacity) (more : List Item) : Bounded Item capacity :=
  -- What does not fit is cut off at the end, and nothing reports it.
  { items := (list.items ++ more).take capacity
    bounded := List.length_take_le capacity _ }

@[simp] theorem items_empty : (empty : Bounded Item capacity).items = [] := rfl

@[simp] theorem items_append (list : Bounded Item capacity) (more : List Item) :
    (list.append more).items = (list.items ++ more).take capacity := rfl

/-- What one append drops, a later append does not bring back. -/
theorem append_append (list : Bounded Item capacity) (first second : List Item) :
    (list.append first).append second = list.append (first ++ second) := by
  -- Either the first append fills the list, or it keeps everything.
  have same : ((list.items ++ first).take capacity ++ second).take capacity =
      (list.items ++ (first ++ second)).take capacity := by
    rw [← List.append_assoc]
    by_cases room : (list.items ++ first).length ≤ capacity
    · rw [List.take_of_length_le room]
    · -- A full list takes nothing of the second part, and neither does the joined one.
      have full : ((list.items ++ first).take capacity).length = capacity :=
        List.length_take_of_le (by omega)
      have long : capacity ≤ (list.items ++ first).length := by omega
      calc ((list.items ++ first).take capacity ++ second).take capacity
          = (list.items ++ first).take capacity := by
            rw [List.take_append_of_le_length (by omega), List.take_take, Nat.min_self]
        _ = (list.items ++ first ++ second).take capacity :=
            (List.take_append_of_le_length long).symm
  unfold append
  simp only [same]

/-- Putting an item behind the others fails when the list is full. -/
def put (list : Bounded Item capacity) (item : Item) : Option (Bounded Item capacity) :=
  if room : list.items.length < capacity then
    some
      { items := list.items ++ [item]
        bounded := by
          rw [List.length_append]
          exact room }
  else none

/-- Getting takes the first item, and fails when there is none. -/
def get : Bounded Item capacity → Option (Item × Bounded Item capacity)
  | ⟨[], _⟩ => none
  -- One item fewer is still within the capacity.
  | ⟨first :: rest, bounded⟩ => some (first, ⟨rest, Nat.le_of_succ_le bounded⟩)

/-- An item was put in behind the others, where there was room for it. -/
theorem put_eq_some {list next : Bounded Item capacity} {item : Item} :
    list.put item = some next ↔
      list.items.length < capacity ∧ next.items = list.items ++ [item] := by
  -- Two bounded lists are the same when their items are.
  obtain ⟨items, bounded⟩ := next
  by_cases room : list.items.length < capacity <;> simp [put, room, eq_comm]

/-- Only a full list refuses an item. -/
theorem put_eq_none {list : Bounded Item capacity} {item : Item} :
    list.put item = none ↔ list.items.length = capacity := by
  -- The length never exceeds the capacity, so a list without room is exactly full.
  have bounded := list.bounded
  unfold put
  split <;> simp <;> omega

/-- Only from an empty list nothing can be got. -/
theorem get_eq_none {list : Bounded Item capacity} : list.get = none ↔ list.items = [] := by
  -- The first item is given out wherever there is one.
  obtain ⟨items, bounded⟩ := list
  cases items <;> simp [get]

/-- What was got was first, and the others are left in order. -/
theorem get_eq_some {list rest : Bounded Item capacity} {first : Item} :
    list.get = some (first, rest) ↔ list.items = first :: rest.items := by
  -- The bounds are proofs, so only the items have to be compared.
  obtain ⟨items, bounded⟩ := list
  obtain ⟨others, fewer⟩ := rest
  cases items <;> simp [get]

/-- What is first can be got. -/
theorem exists_get {list : Bounded Item capacity} {first : Item} {rest : List Item}
    (items : list.items = first :: rest) : ∃ others, list.get = some (first, others) := by
  -- What is left is within the capacity as well.
  obtain ⟨stored, bounded⟩ := list
  subst items
  exact ⟨_, rfl⟩

end Bounded
