import Mathlib.Data.List.Basic

/-! Machines taking labelled steps one at a time, and what whole runs of them preserve. -/

/-- A machine takes a labelled step to its next state, or refuses the label. -/
abbrev Machine (State Label : Type*) := State → Label → Option State

namespace Machine

variable {State Label : Type*}

/-- The state after a sequence of labels, when no step of it is refused. -/
def run (machine : Machine State Label) : State → List Label → Option State
  | state, [] => some state
  -- The first refusal ends the whole run with nothing.
  | state, label :: rest => (machine state label).bind fun next => run machine next rest

/-- Every step that is taken meets the condition in the state it is taken from. -/
def Meets (machine : Machine State Label) (condition : State → Label → Prop) :
    State → List Label → Prop
  | _, [] => True
  | state, label :: rest =>
    condition state label ∧
      -- A refused label ends the run, and nothing is asked of what would follow.
      ∀ next, machine state label = some next → Meets machine condition next rest

@[simp] theorem run_nil (machine : Machine State Label) (state : State) :
    machine.run state [] = some state := rfl

/-- A run takes its first step, and the rest from where that step leads. -/
theorem run_cons {machine : Machine State Label} {state last : State} {label : Label}
    {rest : List Label} :
    machine.run state (label :: rest) = some last ↔
      ∃ next, machine state label = some next ∧ machine.run next rest = some last := by
  -- The option monad fails as soon as the first step does.
  simp [run, Option.bind_eq_some_iff]

/-- A run over two label sequences passes through the state after the first. -/
theorem run_append {machine : Machine State Label} {state last : State}
    {before after : List Label} :
    machine.run state (before ++ after) = some last ↔
      ∃ middle, machine.run state before = some middle ∧ machine.run middle after = some last := by
  -- The labels of the first sequence are consumed one by one.
  induction before generalizing state with
  | nil => simp
  | cons label rest ih =>
    simp only [List.cons_append, run_cons, ih]
    constructor
    · rintro ⟨next, stepped, middle, first, second⟩
      exact ⟨middle, ⟨next, stepped, first⟩, second⟩
    · rintro ⟨middle, ⟨next, stepped, first⟩, second⟩
      exact ⟨next, stepped, middle, first, second⟩

@[simp] theorem meets_nil (machine : Machine State Label) (condition : State → Label → Prop)
    (state : State) : machine.Meets condition state [] := trivial

/-- A run meets a condition when its first step does, and the rest does from where that leads. -/
theorem meets_cons {machine : Machine State Label} {condition : State → Label → Prop}
    {state next : State} {label : Label} {rest : List Label}
    (stepped : machine state label = some next) :
    machine.Meets condition state (label :: rest) ↔
      condition state label ∧ machine.Meets condition next rest := by
  -- There is only one state the step leads to.
  refine and_congr_right fun _ => ⟨fun met => met next stepped, fun met other taken => ?_⟩
  rw [stepped] at taken
  exact Option.some.inj taken ▸ met

instance decidableMeets (machine : Machine State Label) (condition : State → Label → Prop)
    [∀ state label, Decidable (condition state label)] :
    ∀ state labels, Decidable (machine.Meets condition state labels)
  | _, [] => isTrue trivial
  | state, label :: rest =>
    match taken : machine state label with
    -- A refused label leaves nothing to ask of what follows it.
    | none => decidable_of_iff (condition state label)
        ⟨fun met => ⟨met, fun next stepped => by rw [taken] at stepped; cases stepped⟩, And.left⟩
    | some next =>
      have := decidableMeets machine condition next rest
      decidable_of_iff (condition state label ∧ machine.Meets condition next rest)
        (meets_cons taken).symm

/-- A run meets a condition when its beginning does, and the rest does from where that leads. -/
theorem meets_append {machine : Machine State Label} {condition : State → Label → Prop}
    {before after : List Label} :
    ∀ {state middle}, machine.run state before = some middle →
      (machine.Meets condition state (before ++ after) ↔
        machine.Meets condition state before ∧ machine.Meets condition middle after) := by
  -- The beginning is left behind one step at a time.
  induction before with
  | nil =>
    intro state middle ran
    cases ran
    simp
  | cons label rest ih =>
    intro state middle ran
    obtain ⟨next, stepped, ran⟩ := run_cons.mp ran
    rw [List.cons_append, meets_cons stepped, meets_cons stepped, ih ran, and_assoc]

/-- A condition on labels alone is met along any run of labels that satisfy it. -/
theorem meets_of_forall {machine : Machine State Label} {condition : Label → Prop} :
    ∀ {labels state}, (∀ label ∈ labels, condition label) →
      machine.Meets (fun _ label => condition label) state labels := by
  -- The states do not matter, so the induction is on the labels alone.
  intro labels
  induction labels with
  | nil => intro state _; exact trivial
  | cons label rest ih =>
    intro state each
    exact ⟨each label List.mem_cons_self,
      fun next _ => ih fun other member => each other (List.mem_cons_of_mem _ member)⟩

/-- What every step meeting the condition preserves, a run of such steps preserves. -/
theorem run_invariant_of_meets {machine : Machine State Label}
    {condition : State → Label → Prop} {inv : State → Prop}
    (preserved : ∀ state label next, inv state → condition state label →
      machine state label = some next → inv next) :
    ∀ {labels state last}, inv state → machine.Meets condition state labels →
      machine.run state labels = some last → inv last := by
  -- The condition is read off step by step, in the state each step is taken from.
  intro labels
  induction labels with
  | nil =>
    intro state last holds _ ran
    cases ran
    exact holds
  | cons label rest ih =>
    intro state last holds met ran
    obtain ⟨next, stepped, ran⟩ := run_cons.mp ran
    -- The first step preserves the invariant, and the rest starts from there.
    exact ih (preserved state label next holds met.1 stepped) (met.2 next stepped) ran

/-- A run meets what an invariant of its steps and their condition imply. -/
theorem meets_of_invariant {machine : Machine State Label}
    {condition implied : State → Label → Prop} {inv : State → Prop}
    (preserved : ∀ state label next, inv state → condition state label →
      machine state label = some next → inv next)
    (follows : ∀ state label, inv state → condition state label → implied state label) :
    ∀ {labels state}, inv state → machine.Meets condition state labels →
      machine.Meets implied state labels := by
  -- The invariant holds wherever the run gets to, and the condition is met there.
  intro labels
  induction labels with
  | nil => intro state _ _; exact trivial
  | cons label rest ih =>
    intro state holds met
    refine ⟨follows state label holds met.1, fun next stepped => ?_⟩
    exact ih (preserved state label next holds met.1 stepped) (met.2 next stepped)

/-- What every step preserves, every run preserves. -/
theorem run_invariant {machine : Machine State Label} {inv : State → Prop}
    (preserved : ∀ state label next, inv state → machine state label = some next → inv next)
    {labels : List Label} {state last : State} (holds : inv state)
    (ran : machine.run state labels = some last) : inv last := by
  -- It is the case in which nothing is asked of the steps.
  have always : machine.Meets (fun _ _ => True) state labels :=
    meets_of_forall fun _ _ => trivial
  have kept : ∀ state label next, inv state → True → machine state label = some next → inv next :=
    fun state label next holds _ stepped => preserved state label next holds stepped
  exact run_invariant_of_meets kept holds always ran

/-- Where every step of a run takes something of a measure, the run is no longer than that. -/
theorem length_le_of_decreases {machine : Machine State Label} {condition : Label → Prop}
    {measure : State → Nat}
    (decreases : ∀ state label next, condition label → machine state label = some next →
      measure next < measure state) :
    ∀ {labels state last}, (∀ label ∈ labels, condition label) →
      machine.run state labels = some last → labels.length + measure last ≤ measure state := by
  -- What is left of the measure bounds what is left of the run.
  intro labels
  induction labels with
  | nil =>
    intro state last _ ran
    cases ran
    simp
  | cons label rest ih =>
    intro state last each ran
    obtain ⟨next, stepped, ran⟩ := run_cons.mp ran
    have less := decreases state label next (each label List.mem_cons_self) stepped
    have later := ih (fun other member => each other (List.mem_cons_of_mem _ member)) ran
    simp only [List.length_cons]
    omega

/-- A run that does not meet a condition has a first step, taken in it, that does not. -/
theorem exists_first_violation {machine : Machine State Label}
    {condition : State → Label → Prop} :
    ∀ {labels state last}, machine.run state labels = some last →
      ¬ machine.Meets condition state labels →
      ∃ before label after middle next, labels = before ++ label :: after ∧
        machine.run state before = some middle ∧ machine.Meets condition state before ∧
        ¬ condition middle label ∧ machine middle label = some next ∧
        machine.run next after = some last := by
  -- The induction keeps the part of the run before the violation, which met the condition.
  intro labels
  induction labels with
  | nil => intro state last _ refused; exact absurd (meets_nil machine condition state) refused
  | cons label rest ih =>
    intro state last ran refused
    obtain ⟨next, stepped, later⟩ := run_cons.mp ran
    -- Either the first step violates the condition, or some later one does.
    by_cases first : condition state label
    · have rest_refused : ¬ machine.Meets condition next rest :=
        fun met => refused ((meets_cons stepped).mpr ⟨first, met⟩)
      obtain ⟨before, found, after, middle, reached, split, ran, kept, violated, taken, rest_ran⟩ :=
        ih later rest_refused
      exact ⟨label :: before, found, after, middle, reached, by rw [split]; rfl,
        run_cons.mpr ⟨next, stepped, ran⟩, (meets_cons stepped).mpr ⟨first, kept⟩, violated, taken,
        rest_ran⟩
    · exact ⟨[], label, rest, state, next, rfl, rfl, trivial, first, stepped, later⟩

/-- Every state a run passes through satisfies the invariant, the first and the last included. -/
def Always (machine : Machine State Label) (inv : State → Prop) (state : State)
    (labels : List Label) : Prop :=
  -- The states passed through are those that the beginnings of the run lead to.
  ∀ before reached, before <+: labels → machine.run state before = some reached → inv reached

/-- A run passes through its first state, and through those of the rest. -/
theorem always_cons {machine : Machine State Label} {inv : State → Prop} {state next : State}
    {label : Label} {rest : List Label} (stepped : machine state label = some next) :
    machine.Always inv state (label :: rest) ↔ inv state ∧ machine.Always inv next rest := by
  constructor
  · intro always
    refine ⟨always [] state List.nil_prefix rfl, fun before reached first ran => ?_⟩
    exact always (label :: before) reached (List.cons_prefix_cons.mpr ⟨rfl, first⟩)
      (run_cons.mpr ⟨next, stepped, ran⟩)
  · rintro ⟨first, later⟩ before reached beginning ran
    cases before with
    | nil =>
      cases ran
      exact first
    | cons other before =>
      -- The beginning takes the same first step.
      obtain ⟨rfl, shorter⟩ := List.cons_prefix_cons.mp beginning
      obtain ⟨middle, taken, ran⟩ := run_cons.mp ran
      rw [stepped] at taken
      cases taken
      exact later before reached shorter ran

/-- What a condition decides at every step, exactly the runs meeting it keep. -/
theorem always_iff_meets {machine : Machine State Label} {condition : State → Label → Prop}
    {inv : State → Prop}
    (decides : ∀ state label next, inv state → machine state label = some next →
      (inv next ↔ condition state label)) :
    ∀ {labels state last}, inv state → machine.run state labels = some last →
      (machine.Always inv state labels ↔ machine.Meets condition state labels) := by
  -- By induction on the run, whose first state has the invariant.
  intro labels
  induction labels with
  | nil =>
    intro state last holds _
    refine ⟨fun _ => trivial, fun _ before reached beginning ran => ?_⟩
    cases List.prefix_nil.mp beginning
    cases ran
    exact holds
  | cons label rest ih =>
    intro state last holds ran
    obtain ⟨next, stepped, ran⟩ := run_cons.mp ran
    rw [always_cons stepped, meets_cons stepped]
    have decided := decides state label next holds stepped
    constructor
    · rintro ⟨_, later⟩
      have kept : inv next := later [] next List.nil_prefix rfl
      exact ⟨decided.mp kept, (ih kept ran).mp later⟩
    · rintro ⟨met, later⟩
      have kept := decided.mpr met
      exact ⟨holds, (ih kept ran).mpr later⟩

/-- A condition that follows from an invariant is met by runs that always satisfy it. -/
theorem meets_of_always {machine : Machine State Label} {condition : State → Label → Prop}
    {inv : State → Prop} (follows : ∀ state label, inv state → condition state label) :
    ∀ {labels state}, machine.Always inv state labels → machine.Meets condition state labels := by
  -- By induction on the run, as the state before every step has the invariant.
  intro labels
  induction labels with
  | nil => intro state _; exact trivial
  | cons label rest ih =>
    intro state always
    refine ⟨follows state label (always [] state List.nil_prefix rfl), fun next stepped => ?_⟩
    exact ih ((always_cons stepped).mp always).2

/-- A state can be reached by steps that all meet the condition. -/
def Reaches (machine : Machine State Label) (condition : State → Label → Prop)
    (state last : State) : Prop :=
  ∃ labels, machine.run state labels = some last ∧ machine.Meets condition state labels

section Reaches

variable {machine : Machine State Label} {condition : State → Label → Prop}
  {state middle last : State}

/-- No step is needed to reach the state itself. -/
theorem Reaches.refl (state : State) : machine.Reaches condition state state :=
  -- The run is empty.
  ⟨[], rfl, trivial⟩

/-- A step that meets the condition leads to all that is reached from where it leads. -/
theorem Reaches.head {label : Label} (met : condition state label)
    (stepped : machine state label = some middle) (later : machine.Reaches condition middle last) :
    machine.Reaches condition state last := by
  -- The step is put in front of the run.
  obtain ⟨labels, ran, rest⟩ := later
  exact ⟨label :: labels, run_cons.mpr ⟨middle, stepped, ran⟩, (meets_cons stepped).mpr ⟨met, rest⟩⟩

/-- What is reached from a reached state is reached. -/
theorem Reaches.trans (first : machine.Reaches condition state middle)
    (second : machine.Reaches condition middle last) : machine.Reaches condition state last := by
  -- The first of the two runs is taken apart step by step.
  obtain ⟨labels, ran, met⟩ := first
  induction labels generalizing state with
  | nil =>
    cases ran
    exact second
  | cons label rest ih =>
    obtain ⟨next, stepped, ran⟩ := run_cons.mp ran
    exact .head met.1 stepped (ih ran (met.2 next stepped))

/-- What every step meeting the condition preserves holds of every state that is reached. -/
theorem Reaches.invariant {inv : State → Prop}
    (preserved : ∀ state label next, inv state → condition state label →
      machine state label = some next → inv next)
    (reached : machine.Reaches condition state last) (holds : inv state) : inv last := by
  -- Reaching a state is running to it.
  obtain ⟨_, ran, met⟩ := reached
  exact run_invariant_of_meets preserved holds met ran

end Reaches

end Machine
