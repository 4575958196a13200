import Notus.Core.Machine

/-! What the steps of a run put out, one after the other. -/

namespace Machine

variable {State Label Item : Type*}

/-- All that a run puts out, in the order of its steps. -/
def collected (machine : Machine State Label) (output : State → Label → List Item) :
    State → List Label → List Item
  | _, [] => []
  | state, label :: rest =>
    output state label ++
      -- A refused label puts out nothing more than what it would have begun with.
      match machine state label with
      | some next => machine.collected output next rest
      | none => []

/-- A run puts out what its first step does, and then what the rest does. -/
theorem collected_cons {machine : Machine State Label} {output : State → Label → List Item}
    {state next : State} {label : Label} {rest : List Label}
    (stepped : machine state label = some next) :
    machine.collected output state (label :: rest) =
      output state label ++ machine.collected output next rest := by
  -- The recursion goes on with the state after the step.
  simp [collected, stepped]

/-- A content to which every step adds its output has had all output of a run added to it. -/
theorem run_collects {machine : Machine State Label} {output : State → Label → List Item}
    {condition : State → Label → Prop} {inv : State → Prop} {content : State → List Item}
    (adds : ∀ state label next, inv state → condition state label →
      machine state label = some next →
        inv next ∧ content next = content state ++ output state label) :
    ∀ {labels state last}, inv state → machine.Meets condition state labels →
      machine.run state labels = some last →
      content last = content state ++ machine.collected output state labels := by
  -- The invariant is carried along, so that the next step may add its output too.
  intro labels
  induction labels with
  | nil =>
    intro state last _ _ ran
    cases ran
    exact (List.append_nil _).symm
  | cons label rest ih =>
    intro state last holds met ran
    obtain ⟨next, stepped, ran⟩ := run_cons.mp ran
    obtain ⟨kept, added⟩ := adds state label next holds met.1 stepped
    rw [ih kept (met.2 next stepped) ran, added, collected_cons stepped, List.append_assoc]

end Machine
