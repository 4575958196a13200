import Mathlib.Data.List.Nodup
import Mathlib.Data.List.Range

/-! Tables of numbered places, given out in order and given back one by one. -/

/-- A table of places, each with what it holds while it is in use. -/
abbrev Slots (Held : Type*) := List (Option Held)

namespace Slots

variable {Held : Type*}

/-- The places in use, in order. -/
def used (slots : Slots Held) : List Nat :=
  -- A place that was given back stays in the table, and holds nothing.
  (List.range slots.length).filter fun place => slots[place]?.join.isSome

/-- A place is in use when it holds something. -/
theorem mem_used {slots : Slots Held} {place : Nat} :
    place ∈ slots.used ↔ slots[place]?.join.isSome := by
  rw [used, List.mem_filter, List.mem_range]
  refine ⟨And.right, fun held => ⟨?_, held⟩⟩
  -- Beyond the end of the table nothing is held.
  by_contra beyond
  rw [List.getElem?_eq_none (Nat.le_of_not_lt beyond)] at held
  simp at held

/-- Every place in use is one of the table. -/
theorem lt_of_mem_used {slots : Slots Held} {place : Nat} (member : place ∈ slots.used) :
    place < slots.length :=
  -- The places in use are picked from all the places.
  List.mem_range.mp (List.mem_filter.mp member).1

/-- No place is in use twice. -/
theorem used_nodup (slots : Slots Held) : slots.used.Nodup :=
  -- The places they are picked from are numbered one after the other.
  List.nodup_range.filter _

/-- The next place is given out at the end of the table. -/
theorem used_append (slots : Slots Held) (held : Held) :
    Slots.used (slots ++ [some held]) = slots.used ++ [slots.length] := by
  simp only [used, List.length_append, List.length_singleton, List.range_succ, List.filter_append]
  congr 1
  · -- The places before it are read as they were.
    refine List.filter_congr fun place member => ?_
    rw [List.getElem?_append_left (List.mem_range.mp member)]
  · simp

/-- A place in use can hold something else. -/
theorem used_set_some {slots : Slots Held} {place : Nat} (held : Held)
    (member : place ∈ slots.used) : Slots.used (slots.set place (some held)) = slots.used := by
  -- Whether a place is in use does not depend on what it holds.
  rw [used, used, List.length_set]
  refine List.filter_congr fun other _ => ?_
  by_cases same : place = other
  · subst same
    rw [List.getElem?_set_self (lt_of_mem_used member), mem_used.mp member]
    rfl
  · rw [List.getElem?_set_ne same]

/-- A place that is given back is the only one that leaves. -/
theorem used_set_none (slots : Slots Held) (place : Nat) :
    Slots.used (slots.set place none) = slots.used.erase place := by
  -- Erasing from a list without duplicates takes out every occurrence.
  rw [(used_nodup slots).erase_eq_filter, used, used, List.length_set, List.filter_filter]
  refine List.filter_congr fun other member => ?_
  by_cases same : other = place
  · subst same
    simp [List.getElem?_set_self (List.mem_range.mp member)]
  · simp [List.getElem?_set_ne (Ne.symm same), same]

end Slots
