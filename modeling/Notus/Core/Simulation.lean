import Notus.Core.Machine

/-! Machines that follow other machines: what a run of one looks like from the other's side. -/

namespace Machine

variable {State Label Other Event : Type*}

/-- A step of the first machine is seen by the second as the events it takes part in. -/
def Simulates (machine : Machine State Label) (follower : Machine Other Event)
    (view : Label → List Event) (related : State → Other → Prop) : Prop :=
  -- A label that is not seen at all leaves the follower where it is.
  ∀ state other label next, related state other → machine state label = some next →
    ∃ later, follower.run other (view label) = some later ∧ related next later

variable {machine : Machine State Label} {follower : Machine Other Event}
  {view : Label → List Event} {related : State → Other → Prop}

/-- A whole run is seen as a run over all events that are seen of it. -/
theorem Simulates.run (simulates : machine.Simulates follower view related) :
    ∀ {labels state last other}, related state other → machine.run state labels = some last →
      ∃ later, follower.run other (labels.flatMap view) = some later ∧ related last later := by
  -- The events of the first step come before those of the rest.
  intro labels
  induction labels with
  | nil =>
    intro state last other holds ran
    cases ran
    exact ⟨other, rfl, holds⟩
  | cons label rest ih =>
    intro state last other holds ran
    obtain ⟨next, stepped, ran⟩ := run_cons.mp ran
    obtain ⟨middle, first, kept⟩ := simulates state other label next holds stepped
    obtain ⟨later, second, ended⟩ := ih kept ran
    exact ⟨later, run_append.mpr ⟨middle, first, second⟩, ended⟩

/-- A single event is a run of one step. -/
theorem run_singleton {state : State} {label : Label} :
    machine.run state [label] = machine state label := by
  -- The run is refused exactly where the step is.
  cases stepped : machine state label with
  | none => simp [Machine.run, stepped]
  | some next => exact run_cons.mpr ⟨next, stepped, rfl⟩

end Machine
