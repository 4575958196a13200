import Mathlib.Data.List.ReduceOption

/-! Sequential objects: every call is answered, and answers of whole call sequences are compared. -/

/-- An object answering each call from its state, which the call may change. -/
abbrev Transducer (State Call Answer : Type*) := State → Call → State × Answer

namespace Transducer

variable {State Call Answer Other Reply : Type*}

/-- The state left by a sequence of calls. -/
def final (object : Transducer State Call Answer) : State → List Call → State
  | state, [] => state
  -- The answer is dropped here, and only the state is handed on.
  | state, call :: rest => final object (object state call).1 rest

/-- The answers to a sequence of calls, in call order. -/
def answers (object : Transducer State Call Answer) : State → List Call → List Answer
  | _, [] => []
  -- The rest is answered from the state that this call leaves.
  | state, call :: rest => (object state call).2 :: answers object (object state call).1 rest

/-- Every call of the sequence is allowed in the state it is made from. -/
def Meets (object : Transducer State Call Answer) (allowed : State → Call → Prop) :
    State → List Call → Prop
  | _, [] => True
  -- A call is judged in the state it is made from, not in the one the sequence starts in.
  | state, call :: rest => allowed state call ∧ Meets object allowed (object state call).1 rest

@[simp] theorem final_nil (object : Transducer State Call Answer) (state : State) :
    object.final state [] = state := rfl

@[simp] theorem final_cons (object : Transducer State Call Answer) (state : State) (call : Call)
    (rest : List Call) :
    object.final state (call :: rest) = object.final (object state call).1 rest := rfl

@[simp] theorem answers_nil (object : Transducer State Call Answer) (state : State) :
    object.answers state [] = [] := rfl

@[simp] theorem answers_cons (object : Transducer State Call Answer) (state : State) (call : Call)
    (rest : List Call) :
    object.answers state (call :: rest) =
      (object state call).2 :: object.answers (object state call).1 rest := rfl

@[simp] theorem meets_nil (object : Transducer State Call Answer) (allowed : State → Call → Prop)
    (state : State) : object.Meets allowed state [] := trivial

@[simp] theorem meets_cons (object : Transducer State Call Answer)
    (allowed : State → Call → Prop) (state : State) (call : Call) (rest : List Call) :
    object.Meets allowed state (call :: rest) ↔
      allowed state call ∧ object.Meets allowed (object state call).1 rest := Iff.rfl

instance decidableMeets (object : Transducer State Call Answer) (allowed : State → Call → Prop)
    [∀ state call, Decidable (allowed state call)] :
    ∀ state calls, Decidable (object.Meets allowed state calls)
  | _, [] => isTrue trivial
  | state, call :: rest =>
    -- The rest is decided first, so that the conjunction finds an instance for it.
    have := decidableMeets object allowed (object state call).1 rest
    inferInstanceAs (Decidable (allowed state call ∧ _))

/-- The state after two call sequences is reached by making the second from the first's state. -/
theorem final_append (object : Transducer State Call Answer) (state : State)
    (before after : List Call) :
    object.final state (before ++ after) = object.final (object.final state before) after := by
  -- Each call of the first sequence is consumed in turn.
  induction before generalizing state with
  | nil => rfl
  | cons call rest ih => exact ih (object state call).1

/-- The answers to two call sequences are those of the first, then those from its final state. -/
theorem answers_append (object : Transducer State Call Answer) (state : State)
    (before after : List Call) :
    object.answers state (before ++ after) =
      object.answers state before ++ object.answers (object.final state before) after := by
  -- While the first sequence is answered, the state moves on to where the second begins.
  induction before generalizing state with
  | nil => rfl
  | cons call rest ih => simp [ih]

/-- A sequence is allowed when its first part is, and the rest is from where that part ends. -/
theorem meets_append (object : Transducer State Call Answer) (allowed : State → Call → Prop)
    (state : State) (before after : List Call) :
    object.Meets allowed state (before ++ after) ↔
      object.Meets allowed state before ∧
        object.Meets allowed (object.final state before) after := by
  -- At every call of the first sequence the conjunction only has to be regrouped.
  induction before generalizing state with
  | nil => simp
  | cons call rest ih => simp [ih, and_assoc]

/-- A sequence that is not allowed has a first call that is not, after an allowed beginning. -/
theorem exists_first_refused {object : Transducer State Call Answer}
    {allowed : State → Call → Prop} :
    ∀ {calls state}, ¬ object.Meets allowed state calls →
      ∃ before call after, calls = before ++ call :: after ∧
        object.Meets allowed state before ∧ ¬ allowed (object.final state before) call := by
  -- The induction walks to the first refusal, and keeps what was allowed on the way.
  intro calls
  induction calls with
  | nil => intro state refused; exact absurd (meets_nil object allowed state) refused
  | cons call rest ih =>
    intro state refused
    -- Either the head is refused at once, or it is allowed and the tail holds the first refusal.
    by_cases head : allowed state call
    · obtain ⟨before, next, after, split, kept, first⟩ :=
        ih (fun tail => refused ⟨head, tail⟩)
      exact ⟨call :: before, next, after, by rw [split]; rfl, ⟨head, kept⟩, first⟩
    · exact ⟨[], call, rest, rfl, trivial, head⟩

/-- Where every call adds its own share, a sequence of calls adds all shares in call order. -/
theorem final_accumulates {Item : Type*} (object : Transducer State Call Answer)
    (holds : State → List Item → Prop) (share : Call → Answer → List Item)
    (each : ∀ state call items, holds state items →
      holds (object state call).1 (items ++ share call (object state call).2)) :
    ∀ calls {state items}, holds state items →
      holds (object.final state calls)
        (items ++ (List.zipWith share calls (object.answers state calls)).flatten) := by
  -- The collected items are the invariant, so they change together with the state.
  intro calls
  induction calls with
  | nil => intro state items start; simpa using start
  | cons call rest ih =>
    intro state items start
    -- The share of the first call comes before those of the rest.
    have later := ih (each state call items start)
    rw [List.append_assoc] at later
    exact later

/-- What every single answer satisfies, whatever the state, all answers satisfy. -/
theorem answers_forall {object : Transducer State Call Answer} (good : Answer → Prop)
    (each : ∀ state call, good (object state call).2) :
    ∀ {calls state}, ∀ answer ∈ object.answers state calls, good answer := by
  -- The state is left open, for it may change from call to call.
  intro calls
  induction calls with
  | nil => intro state answer member; simp at member
  | cons call rest ih =>
    intro state answer member
    rcases List.mem_cons.mp member with same | member
    -- The answer is that of the first call, or one of the rest.
    · exact same ▸ each state call
    · exact ih answer member

/--
An object whose every allowed call answers as its specification does, up to a reading of answers.

The relation between the two states carries the argument from one call to the next.
-/
theorem answers_simulate {object : Transducer State Call Answer}
    {spec : Transducer Other Call Reply}
    {allowed : Other → Call → Prop} {related : State → Other → Prop} (read : Reply → Answer)
    (simulated : ∀ state other call, related state other → allowed other call →
      related (object state call).1 (spec other call).1 ∧
        (object state call).2 = read (spec other call).2) :
    ∀ {calls state other}, related state other → spec.Meets allowed other calls →
      object.answers state calls = (spec.answers other calls).map read := by
  -- The related pair of states is what one call hands to the next.
  intro calls
  induction calls with
  | nil => intro state other _ _; rfl
  | cons call rest ih =>
    intro state other holds met
    obtain ⟨kept, answered⟩ := simulated state other call holds met.1
    -- The heads agree by the simulation, and the tails by induction.
    simp only [answers_cons, List.map_cons, answered, ih kept met.2]

end Transducer
