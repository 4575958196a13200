import Mathlib.Data.List.Basic

/-! Texts put together around a separator, and taken apart again at its first or last place. -/

namespace Separator

variable {Item : Type*} {separator : Item} {front back otherFront otherBack : List Item}

/-- The first separator of a text is where its front has none. -/
theorem first_inj (absent : separator ∉ front) (otherAbsent : separator ∉ otherFront) :
    front ++ separator :: back = otherFront ++ separator :: otherBack ↔
      front = otherFront ∧ back = otherBack := by
  refine ⟨fun same => ?_, by rintro ⟨rfl, rfl⟩; rfl⟩
  -- Item by item, neither front can end before the other.
  induction front generalizing otherFront with
  | nil =>
    cases otherFront with
    | nil => exact ⟨rfl, (List.cons.inj same).2⟩
    | cons item rest =>
      have head : separator = item := (List.cons.inj same).1
      exact absurd (head ▸ List.mem_cons_self) otherAbsent
  | cons item rest ih =>
    cases otherFront with
    | nil =>
      have head : item = separator := (List.cons.inj same).1
      exact absurd (head ▸ List.mem_cons_self) absent
    | cons other others =>
      obtain ⟨rfl, tails⟩ := List.cons.inj same
      obtain ⟨rfl, backs⟩ := ih (List.not_mem_of_not_mem_cons absent)
        (List.not_mem_of_not_mem_cons otherAbsent) tails
      exact ⟨rfl, backs⟩

/-- The last separator of a text is where its back has none. -/
theorem last_inj (absent : separator ∉ back) (otherAbsent : separator ∉ otherBack) :
    front ++ separator :: back = otherFront ++ separator :: otherBack ↔
      front = otherFront ∧ back = otherBack := by
  -- Read from the end, it is the first one.
  have turned : back.reverse ++ separator :: front.reverse =
      otherBack.reverse ++ separator :: otherFront.reverse ↔ _ := first_inj
    (fun member => absent (List.mem_reverse.mp member))
    (fun member => otherAbsent (List.mem_reverse.mp member))
  constructor
  · intro same
    have reversed := congrArg List.reverse same
    simp only [List.reverse_append, List.reverse_cons, List.append_assoc, List.singleton_append]
      at reversed
    obtain ⟨backs, fronts⟩ := turned.mp reversed
    exact ⟨List.reverse_inj.mp fronts, List.reverse_inj.mp backs⟩
  · rintro ⟨rfl, rfl⟩
    rfl

end Separator
