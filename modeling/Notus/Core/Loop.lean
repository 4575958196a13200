import Mathlib.Data.List.Basic

/-! Counted loops, and what an invariant of their rounds says about all of them. -/

namespace Loop

variable {State : Type*}

/-- The rounds of a loop, counted from zero. -/
def run (count : Nat) (body : Nat → State → State) (state : State) : State :=
  (List.range count).foldl (fun state round => body round state) state

/-- A loop of one round more takes that round last. -/
theorem run_succ (count : Nat) (body : Nat → State → State) (state : State) :
    run (count + 1) body state = body count (run count body state) := by
  -- The rounds are a range, which ends with the last one.
  simp [run, List.range_succ]

/-- What each round carries on to the next holds after all of them. -/
theorem invariant {count : Nat} {body : Nat → State → State} {inv : Nat → State → Prop}
    {state : State} (start : inv 0 state)
    (round : ∀ index < count, ∀ state, inv index state → inv (index + 1) (body index state)) :
    inv count (run count body state) := by
  -- The last round is taken from where the rounds before it have led.
  induction count with
  | zero => exact start
  | succ count ih =>
    rw [run_succ]
    refine round count (Nat.lt_succ_self count) _ (ih fun index within => ?_)
    exact round index (Nat.lt_succ_of_lt within)

/-- A loop that writes the entries of a list one after the other, each from what it was. -/
theorem run_set {Item : Type*} (count : Nat) (value : Nat → Option Item → Item)
    (items : List Item) :
    (run count (fun index items => items.set index (value index items[index]?)) items).length =
        items.length ∧
      ∀ index, (run count (fun index items => items.set index (value index items[index]?))
          items)[index]? =
        if index < count ∧ index < items.length then some (value index items[index]?)
        else items[index]? := by
  -- An entry is written in its own round, from what it was at the beginning.
  induction count with
  | zero => simp [run]
  | succ count ih =>
    obtain ⟨length, entries⟩ := ih
    rw [run_succ]
    refine ⟨by simp [length], fun index => ?_⟩
    rw [List.getElem?_set, entries, entries]
    -- Only the entry of the last round is written by it, and it had not been written before.
    by_cases here : count = index
    · subst here
      by_cases within : count < items.length <;> simp [length, within]
    · have other : index < count + 1 ↔ index < count := by omega
      simp [here, other]

end Loop
