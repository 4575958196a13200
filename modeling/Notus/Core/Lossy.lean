import Notus.Core.Machine

/-! Machines that are offered items one at a time, and keep each of them or lose it for good. -/

namespace Machine

variable {State Label Item : Type*}

/-- What a step does to the items: nothing, or one more is offered and then kept or lost. -/
inductive Dealt (offered kept : State → List Item) (loses : Prop) (state next : State) : Prop where
  | nothing (holds : ¬ loses) (same : offered next = offered state)
      (rest : kept next = kept state)
  | keeps (item : Item) (holds : ¬ loses) (more : offered next = offered state ++ [item])
      (stored : kept next = kept state ++ [item])
  | loses (item : Item) (lost : loses) (more : offered next = offered state ++ [item])
      (rest : kept next = kept state)

/-- Every step that is taken keeps the invariant, and deals with one item at most. -/
def Deals (machine : Machine State Label) (inv : State → Prop) (offered kept : State → List Item)
    (loses : State → Label → Prop) : Prop :=
  ∀ state label next, inv state → machine state label = some next →
    inv next ∧ Dealt offered kept (loses state label) state next

variable {machine : Machine State Label} {inv : State → Prop} {offered kept : State → List Item}
  {loses : State → Label → Prop} {labels : List Label} {state last : State}

/-- What is kept is always a part of what was offered, in the same order. -/
theorem Deals.sublist (deals : machine.Deals inv offered kept loses) (holds : inv state)
    (part : (kept state).Sublist (offered state)) (ran : machine.run state labels = some last) :
    (kept last).Sublist (offered last) := by
  -- An item that is lost makes the sequence it is missing from longer.
  have preserved : ∀ state label next, inv state ∧ (kept state).Sublist (offered state) →
      machine state label = some next → inv next ∧ (kept next).Sublist (offered next) := by
    rintro state label next ⟨holds, part⟩ stepped
    obtain ⟨holds, dealt⟩ := deals state label next holds stepped
    refine ⟨holds, ?_⟩
    cases dealt with
    | nothing _ same rest => rwa [same, rest]
    | keeps item _ more stored =>
      rw [more, stored]
      exact part.append_right [item]
    | loses item _ more rest =>
      rw [more, rest]
      exact part.trans (List.sublist_append_left _ _)
  exact (run_invariant preserved ⟨holds, part⟩ ran).2

/-- Once fewer items are kept than were offered, it stays so. -/
theorem Deals.short (deals : machine.Deals inv offered kept loses) (holds : inv state)
    (short : (kept state).length < (offered state).length)
    (ran : machine.run state labels = some last) :
    (kept last).length < (offered last).length := by
  -- No step keeps more items than it offers.
  have preserved : ∀ state label next, inv state ∧ (kept state).length < (offered state).length →
      machine state label = some next →
        inv next ∧ (kept next).length < (offered next).length := by
    rintro state label next ⟨holds, short⟩ stepped
    obtain ⟨holds, dealt⟩ := deals state label next holds stepped
    refine ⟨holds, ?_⟩
    cases dealt with
    | nothing _ same rest => rwa [same, rest]
    | keeps item _ more stored =>
      simp only [more, stored, List.length_append, List.length_singleton]
      omega
    | loses item _ more rest =>
      simp only [more, rest, List.length_append, List.length_singleton]
      omega
  exact (run_invariant preserved ⟨holds, short⟩ ran).2

/-- As long as no step has lost anything, all that was offered is kept. -/
theorem Deals.complete (deals : machine.Deals inv offered kept loses) (holds : inv state)
    (complete : kept state = offered state) (ran : machine.run state labels = some last)
    (spares : machine.Meets (fun state label => ¬ loses state label) state labels) :
    inv last ∧ kept last = offered last := by
  -- A step that loses nothing adds to both sequences or to neither.
  have preserved : ∀ state label next, inv state ∧ kept state = offered state →
      ¬ loses state label → machine state label = some next →
        inv next ∧ kept next = offered next := by
    rintro state label next ⟨holds, complete⟩ spares stepped
    obtain ⟨holds, dealt⟩ := deals state label next holds stepped
    refine ⟨holds, ?_⟩
    cases dealt with
    | nothing _ same rest => rw [rest, same, complete]
    | keeps item _ more stored => rw [stored, more, complete]
    | loses item lost _ _ => exact absurd lost spares
  exact run_invariant_of_meets preserved ⟨holds, complete⟩ spares ran

/-- All that was offered is kept exactly if no step of the run has lost anything. -/
theorem Deals.complete_iff (deals : machine.Deals inv offered kept loses) (holds : inv state)
    (complete : kept state = offered state) (ran : machine.run state labels = some last) :
    kept last = offered last ↔
      machine.Meets (fun state label => ¬ loses state label) state labels := by
  constructor
  · intro whole
    by_contra violated
    -- What the first losing step has lost is missing at the end too.
    obtain ⟨before, label, after, middle, next, _, reached, met, lost, stepped, rest⟩ :=
      exists_first_violation ran violated
    obtain ⟨holds, same⟩ := deals.complete holds complete reached met
    obtain ⟨holds, dealt⟩ := deals middle label next holds stepped
    have short : (kept next).length < (offered next).length := by
      cases dealt with
      | nothing spares _ _ => exact absurd spares lost
      | keeps _ spares _ _ => exact absurd spares lost
      | loses item _ more rest => simp [more, rest, same]
    have still := deals.short holds short rest
    rw [whole] at still
    exact Nat.lt_irrefl _ still
  · intro spares
    exact (deals.complete holds complete ran spares).2

end Machine
