import Notus.Core.Machine

/-! Machines with a record beside their state, which follows every run and hinders none. -/

namespace Machine

variable {State Label Record : Type*}

/-- The machine with a record that every step it takes adds to. -/
def withRecord (machine : Machine State Label) (note : State → Label → Record → Record) :
    Machine (State × Record) Label := fun (state, record) label =>
  -- The record is written from the state before the step, and never looked at by the machine.
  (machine state label).map fun next => (next, note state label record)

variable {machine : Machine State Label} (note : State → Label → Record → Record)

/-- A step with a record is a step of the machine. -/
theorem withRecord_eq_some {note : State → Label → Record → Record}
    {state next : State × Record} {label : Label} :
    machine.withRecord note state label = some next ↔
      machine state.1 label = some next.1 ∧ next.2 = note state.1 label state.2 := by
  -- The record is written whenever the machine makes its step.
  obtain ⟨next, written⟩ := next
  simp only [withRecord, Option.map_eq_some_iff, Prod.mk.injEq]
  constructor
  · rintro ⟨_, stepped, rfl, rfl⟩
    exact ⟨stepped, rfl⟩
  · rintro ⟨stepped, rfl⟩
    exact ⟨next, stepped, rfl, rfl⟩

/-- Every run of the machine is recorded. -/
theorem exists_recorded {labels : List Label} :
    ∀ {state last : State} (record : Record), machine.run state labels = some last →
      ∃ written, (machine.withRecord note).run (state, record) labels = some (last, written) := by
  -- The record is passed on from step to step.
  induction labels with
  | nil =>
    intro state last record ran
    cases ran
    exact ⟨record, rfl⟩
  | cons label rest ih =>
    intro state last record ran
    obtain ⟨next, stepped, ran⟩ := run_cons.mp ran
    obtain ⟨written, recorded⟩ := ih (note state label record) ran
    exact ⟨written, run_cons.mpr ⟨(next, note state label record),
      withRecord_eq_some.mpr ⟨stepped, rfl⟩, recorded⟩⟩

/-- What holds along a run holds along the recorded run, and the other way round. -/
theorem meets_withRecord {condition : State → Label → Prop} {labels : List Label} :
    ∀ {state : State} (record : Record),
      (machine.withRecord note).Meets (fun state => condition state.1) (state, record) labels ↔
        machine.Meets condition state labels := by
  -- By induction on the run, for any record that it begins with.
  induction labels with
  | nil => intro state record; exact Iff.rfl
  | cons label rest ih =>
    intro state record
    refine and_congr_right fun _ => ⟨fun met next stepped => ?_, fun met next stepped => ?_⟩
    · exact (ih _).mp (met (next, note state label record) (withRecord_eq_some.mpr ⟨stepped, rfl⟩))
    · obtain ⟨taken, _⟩ := withRecord_eq_some.mp stepped
      exact (ih _).mpr (met next.1 taken)

end Machine
