import Notus.TypeState
import Mathlib.Tactic.Common

/-! The types of unspent handles match the pin, as long as at most one of them exists. -/

namespace Notus.TypeState

namespace World

/-- Every handle that is not spent has the type of the pin's configuration. -/
def Matching (world : World) : Prop :=
  ∀ slot ∈ world.slots, slot.unspent = true → slot.state.flags = world.pin

/-- A variable whose handle would be spent by a reconfiguration. -/
def Spends (world : World) (slot : Nat) : Prop :=
  ∀ held ∈ world.slots[slot]?, held.unspent = true

/-- A reconfiguration that takes effect is made while no other handle is unspent. -/
def Alone (world : World) : Operation → Prop
  | .configureAsInput slot | .configureAsOutput slot =>
    world.Spends slot → world.slots.countP Slot.unspent ≤ 1
  | _ => True

instance (world : World) (slot : Nat) : Decidable (world.Spends slot) :=
  inferInstanceAs (Decidable (∀ held ∈ world.slots[slot]?, _))

instance (world : World) : ∀ operation, Decidable (world.Alone operation)
  | .configureAsInput slot => inferInstanceAs (Decidable (world.Spends slot → _))
  | .configureAsOutput slot => inferInstanceAs (Decidable (world.Spends slot → _))
  | .getState .. | .setState .. | .copy _ | .assign .. | .reset _ => isTrue trivial

/-- Pins are read only while they are inputs, and written only while they are outputs. -/
def Proper (world : World) : Operation → Prop
  | .getState slot pinGet => ∀ self, world.slots[slot]? = some ⟨.input, some self⟩ →
      self.getState pinGet ≠ none → world.pin = .input
  | .setState slot state pinSet => ∀ self, world.slots[slot]? = some ⟨.ouput, some self⟩ →
      (self.setState state pinSet).1 ≠ none → world.pin = .output
  | _ => True

/-- The first handle has the type of a pin without a configuration. -/
theorem matching_initial : initial.Matching := by
  -- There is one variable, and its type is that of the pin's configuration.
  intro slot member _
  rw [List.mem_singleton.mp member]
  rfl

/-- A reconfiguration is one of a variable that holds a handle of another type. -/
theorem step_configure {world next : World} {operation : Operation} {slot : Nat}
    (configures : operation = .configureAsInput slot ∨ operation = .configureAsOutput slot)
    (stepped : step world operation = some next) :
    ∃ (state made : TState) (self : Gpio state), state.flags ≠ made.flags ∧
      world.slots[slot]? = some ⟨state, some self⟩ ∧
      next = world.reconfigured slot (self.configure made world.pin) := by
  rcases configures with rfl | rfl
  · -- An output or a pin without a configuration can become an input.
    simp only [step] at stepped
    split at stepped
    · rename_i self held
      exact ⟨.ouput, .input, self, by decide, held, (Option.some.inj stepped).symm⟩
    · rename_i self held
      exact ⟨.unconfigured, .input, self, by decide, held, (Option.some.inj stepped).symm⟩
    · cases stepped
  · simp only [step] at stepped
    split at stepped
    · rename_i self held
      exact ⟨.input, .ouput, self, by decide, held, (Option.some.inj stepped).symm⟩
    · rename_i self held
      exact ⟨.unconfigured, .ouput, self, by decide, held, (Option.some.inj stepped).symm⟩
    · cases stepped

/-- Reading a pin changes no variable. -/
theorem step_getState {world next : World} {slot : Nat} {pinGet : Int}
    (stepped : step world (.getState slot pinGet) = some next) : next = world := by
  -- What is read goes to the caller and into no variable.
  simp only [step] at stepped
  split at stepped
  · exact (Option.some.inj stepped).symm
  · cases stepped

/-- Writing a pin changes no variable. -/
theorem step_setState {world next : World} {slot : Nat} {state : Bool} {pinSet : Int}
    (stepped : step world (.setState slot state pinSet) = some next) : next = world := by
  -- What is written goes to the pin and into no variable.
  simp only [step] at stepped
  split at stepped
  · exact (Option.some.inj stepped).symm
  · cases stepped

/-- An assignment puts what one variable holds into another of its type. -/
theorem step_assign {world next : World} {source target : Nat}
    (stepped : step world (.assign source target) = some next) :
    ∃ assigned, world.slots[source]? = some assigned ∧
      next = { world with slots := world.slots.set target assigned } := by
  -- Both variables must be there, and be of the same type.
  simp only [step] at stepped
  split at stepped
  · rename_i assigned old held _
    split at stepped
    · exact ⟨assigned, held, (Option.some.inj stepped).symm⟩
    · cases stepped
  · cases stepped

/-- A variable with a handle that is not spent has the type of the pin's configuration. -/
theorem Matching.flags_eq {world : World} (matching : world.Matching) {slot : Nat} {state : TState}
    {self : Gpio state} (held : world.slots[slot]? = some ⟨state, some self⟩)
    (unspent : self.hasBeenConfigured = false) : state.flags = world.pin :=
  -- The variable is one of those that the invariant speaks of.
  matching _ (List.mem_of_getElem? held) (by simp [Slot.unspent, unspent])

/-- Spending the handle of a variable leaves one unspent handle less. -/
theorem countP_spend {world : World} {slot : Nat} {state : TState} {self : Gpio state}
    (held : world.slots[slot]? = some ⟨state, some self⟩)
    (unspent : self.hasBeenConfigured = false) :
    (world.slots.set slot ⟨state, some ⟨true⟩⟩).countP Slot.unspent + 1 =
      world.slots.countP Slot.unspent := by
  -- One that counted is replaced by one that does not.
  obtain ⟨within, found⟩ := List.getElem?_eq_some_iff.mp held
  have counted : Slot.unspent ⟨state, some self⟩ = true := by simp [Slot.unspent, unspent]
  have atLeastOne : 0 < world.slots.countP Slot.unspent :=
    List.countP_pos_iff.mpr ⟨_, List.mem_of_getElem? held, counted⟩
  have spent : Slot.unspent ⟨state, some ⟨true⟩⟩ = false := rfl
  rw [List.countP_set within, found, if_pos counted, spent]
  simp only [Bool.false_eq_true, if_false]
  omega

/-- A variable of the changed list that is not spent was there before. -/
theorem mem_of_mem_set {world : World} {slot : Nat} {spent other : Slot}
    (member : other ∈ world.slots.set slot spent) (isSpent : spent.unspent = false)
    (unspent : other.unspent = true) : other ∈ world.slots := by
  -- The only new entry of the list is spent.
  rcases List.mem_or_eq_of_mem_set member with old | rfl
  · exact old
  · rw [isSpent] at unspent
    cases unspent

/-- After a reconfiguration all handles match exactly when it was made alone. -/
theorem matching_reconfigured_iff {world : World} {slot : Nat} {state made : TState}
    {self : Gpio state} (matching : world.Matching) (different : state.flags ≠ made.flags)
    (held : world.slots[slot]? = some ⟨state, some self⟩) :
    (world.reconfigured slot (self.configure made world.pin)).Matching ↔
      (world.Spends slot → world.slots.countP Slot.unspent ≤ 1) := by
  have spends : world.Spends slot ↔ self.hasBeenConfigured = false := by
    simp [Spends, held, Slot.unspent]
  rw [spends]
  cases flag : self.hasBeenConfigured with
  | true =>
    -- Nothing takes effect: the variable keeps its handle, and the returned optional is empty.
    rw [Gpio.configure_spent flag]
    refine ⟨fun _ => by simp, fun _ other member unspent => ?_⟩
    rcases List.mem_append.mp member with old | new
    · exact matching other (mem_of_mem_set old (by simp [Slot.unspent, flag]) unspent) unspent
    · rw [List.mem_singleton.mp new] at unspent
      cases unspent
  | false =>
    rw [Gpio.configure_unspent flag]
    have counted := countP_spend held flag
    have pin := matching.flags_eq held flag
    constructor
    · intro after _
      -- Any other handle would keep the type of the old configuration.
      by_contra many
      have others : 0 < (world.slots.set slot ⟨state, some ⟨true⟩⟩).countP Slot.unspent := by omega
      obtain ⟨other, member, unspent⟩ := List.countP_pos_iff.mp others
      have old := matching other (mem_of_mem_set member rfl unspent) unspent
      have new := after other (List.mem_append_left _ member) unspent
      exact different (pin.trans (old.symm.trans new))
    · intro alone other member unspent
      have nothing : (world.slots.set slot ⟨state, some ⟨true⟩⟩).countP Slot.unspent = 0 := by
        have atMost := alone rfl
        omega
      rcases List.mem_append.mp member with old | new
      · exact absurd unspent (List.countP_eq_zero.mp nothing other old)
      · rw [List.mem_singleton.mp new]
        rfl

/-- Copying, assigning and emptying variables makes no handle of another type. -/
theorem matching_of_subset {world : World} {slots : List Slot} (matching : world.Matching)
    (known : ∀ slot ∈ slots, slot.unspent = true → slot ∈ world.slots) :
    ({ world with slots := slots } : World).Matching :=
  -- The pin is as it was, and so is the type of every handle that counts.
  fun slot member unspent => matching slot (known slot member unspent) unspent

/-- One operation keeps the handles matching exactly when it is not a reconfiguration of many. -/
theorem matching_step {world next : World} {operation : Operation} (matching : world.Matching)
    (stepped : step world operation = some next) : next.Matching ↔ world.Alone operation := by
  cases operation with
  | configureAsInput slot =>
    obtain ⟨state, made, self, different, held, rfl⟩ := step_configure (.inl rfl) stepped
    exact matching_reconfigured_iff matching different held
  | configureAsOutput slot =>
    obtain ⟨state, made, self, different, held, rfl⟩ := step_configure (.inr rfl) stepped
    exact matching_reconfigured_iff matching different held
  | getState slot pinGet =>
    obtain rfl := step_getState stepped
    exact iff_of_true matching trivial
  | setState slot state pinSet =>
    obtain rfl := step_setState stepped
    exact iff_of_true matching trivial
  | copy slot =>
    refine iff_of_true ?_ trivial
    obtain ⟨copied, held, rfl⟩ := Option.map_eq_some_iff.mp stepped
    -- The new variable holds what another one does.
    refine matching_of_subset matching fun other member _ => ?_
    rcases List.mem_append.mp member with old | new
    · exact old
    · rw [List.mem_singleton.mp new]
      exact List.mem_of_getElem? held
  | assign source target =>
    refine iff_of_true ?_ trivial
    obtain ⟨assigned, held, rfl⟩ := step_assign stepped
    refine matching_of_subset matching fun other member _ => ?_
    rcases List.mem_or_eq_of_mem_set member with kept | rfl
    · exact kept
    · exact List.mem_of_getElem? held
  | reset slot =>
    refine iff_of_true ?_ trivial
    obtain ⟨old, held, rfl⟩ := Option.map_eq_some_iff.mp stepped
    -- An empty variable holds no handle.
    exact matching_of_subset matching fun other member unspent =>
      mem_of_mem_set member rfl unspent

/-- A handle that matches its pin reads only inputs and writes only outputs. -/
theorem Matching.proper {world : World} (matching : world.Matching) (operation : Operation) :
    world.Proper operation := by
  -- A spent handle answers with an error, so one that does not has the type of the pin.
  cases operation with
  | getState slot pinGet =>
    intro self held answered
    have unspent : self.hasBeenConfigured = false := by
      by_contra spent
      simp [Gpio.getState, spent] at answered
    exact (matching.flags_eq held unspent).symm
  | setState slot state pinSet =>
    intro self held written
    have unspent : self.hasBeenConfigured = false := by
      by_contra spent
      simp [Gpio.setState, spent] at written
    exact (matching.flags_eq held unspent).symm
  | configureAsInput | configureAsOutput | copy | assign | reset => trivial

end World

/--
All handles match the pin throughout a run exactly when every reconfiguration is made alone.

Then pins are read only while they are inputs, and written only while they are outputs.
-/
theorem matching_iff {operations : List Operation} {last : World}
    (ran : World.step.run .initial operations = some last) :
    (World.step.Always World.Matching .initial operations ↔
      World.step.Meets World.Alone .initial operations) ∧
    (World.step.Meets World.Alone .initial operations →
      World.step.Meets World.Proper .initial operations) := by
  -- A reconfiguration keeps the handles matching just when no other handle is unspent.
  have exact := Machine.always_iff_meets
    (fun _ _ _ matching stepped => World.matching_step matching stepped) World.matching_initial ran
  exact ⟨exact, fun alone => Machine.meets_of_always (fun _ operation matching =>
    matching.proper operation) (exact.mpr alone)⟩

/-- A chain of reconfigurations, each of the latest handle, keeps them matching. -/
theorem matching_chain :
    World.step.Always World.Matching .initial
      [.configureAsInput 0, .getState 1 1, .configureAsOutput 1, .setState 2 true 0] := by
  -- At every reconfiguration the handle that is used is the only one not spent.
  have completes : (World.step.run .initial
      [.configureAsInput 0, .getState 1 1, .configureAsOutput 1, .setState 2 true 0]).isSome := by
    decide
  exact (matching_iff (Option.some_get completes).symm).1.mpr (by decide)

/-- The copy of an input answers after the original was made an output. -/
theorem not_matching_copy : ∃ last,
    World.step.run .initial [.configureAsInput 0, .copy 1, .configureAsOutput 1] = some last ∧
      last.slots[2]? = some ⟨.input, some ⟨false⟩⟩ ∧
      (⟨false⟩ : Gpio .input).getState 1 = some true ∧ last.pin = .output ∧
      ¬ World.step.Always World.Matching .initial
        [.configureAsInput 0, .copy 1, .configureAsOutput 1] := by
  refine ⟨{ pin := .output, slots := [⟨.unconfigured, some ⟨true⟩⟩, ⟨.input, some ⟨true⟩⟩,
    ⟨.input, some ⟨false⟩⟩, ⟨.ouput, some ⟨false⟩⟩] }, rfl, rfl, rfl, rfl, fun always => ?_⟩
  -- The copy is still unspent, and its type is not that of the pin any more.
  have matching := always _ _ List.prefix_rfl rfl
  exact absurd (matching ⟨.input, some ⟨false⟩⟩ (by decide) rfl) (by decide)

end Notus.TypeState
