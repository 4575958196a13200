import Notus.Button.Phase

/-! A live button is always ready for the next press, or inside a window that will end. -/

namespace Notus.Button

variable {Callback : Type*}

/-- The pin is watched, and no window is open. -/
structure Armed (button : Button Callback) (port : Port) : Prop where
  enabled : port.interrupt = .edgeBoth
  linkedOnce : port.callbacks.addresses.count button.address = 1
  stopped : button.debounceTimer.expiresAt = none
  status : button.debounceTimer.status ≤ 1

/-- The pin is released, and the timer that will take it back is running. -/
structure Debouncing (button : Button Callback) (port : Port) (now delay : Nat) : Prop where
  masked : port.interrupt = .disable
  unlinked : button.address ∉ port.callbacks.addresses
  status : button.debounceTimer.status = 0
  running : ∃ due, button.debounceTimer.expiresAt = some due ∧ now ≤ due ∧ due ≤ now + delay

/-- A watched pin is not a released one. -/
theorem Armed.not_debouncing {self : Button Callback} {port : Port} {now delay : Nat}
    (armed : self.Armed port) : ¬ self.Debouncing port now delay := by
  -- The interrupt cannot be both on and off.
  intro debouncing
  have masked := debouncing.masked
  rw [armed.enabled] at masked
  cases masked

/-- The happenings of a button that stays alive. -/
def Event.LeavesAlive (event : Event Callback) : Prop :=
  match event.happening with
  | .edge | .expiry | .addOnPressCallback _ => True
  -- The object is neither built a second time nor destroyed.
  | .construct .. | .destroy => False

/-- At most one expiry is unread, and an open window began in the past and is not overdue. -/
def Phase.Timely (delay now : Nat) : Phase → Prop
  | .armed status => status ≤ 1
  | .window since => since ≤ now ∧ now ≤ since + delay

namespace World

/-- A button at its address, in a phase that is neither overdue nor has expired twice. -/
structure Alive (address delay : Nat) (world : World Callback) : Prop where
  inPhase : ∃ callback phase, world.InPhase delay callback phase ∧ phase.Timely delay world.now
  placed : world.self.map Button.address = some address

/-- A phase stays timely as long as the clock does not pass a deadline. -/
theorem InPhase.timely {delay now : Nat} {callback : Option Callback} {phase : Phase}
    {world : World Callback} (inPhase : world.InPhase delay callback phase)
    (timely : phase.Timely delay world.now) (reached : world.Reaches now) :
    phase.Timely delay now := by
  cases phase with
  | armed status => exact timely
  | window since =>
    -- The deadline of the window is ahead of everything that can happen.
    have ahead := reached.2 _ inPhase.deadline_window
    exact ⟨Nat.le_trans timely.1 reached.1, ahead⟩

/-- An edge opens a window that is not overdue, or reads the only unread expiry. -/
theorem timely_edge {delay now : Nat} {phase : Phase} (timely : phase.Timely delay now) :
    (phase.edge now).Timely delay now := by
  -- An unread expiry is read by the edge, so that it opens no window.
  cases phase with
  | window since => exact timely
  | armed status =>
    cases status with
    | zero => exact ⟨Nat.le_refl now, Nat.le_add_right now delay⟩
    | succ status => exact Nat.zero_le 1

/-- Every happening of a button that stays alive keeps it alive. -/
theorem Alive.step {address delay : Nat} {world next : World Callback} {event : Event Callback}
    (alive : world.Alive address delay) (leaves : event.LeavesAlive)
    (stepped : step world event = some next) : next.Alive address delay := by
  obtain ⟨⟨callback, phase, inPhase, timely⟩, placed⟩ := alive
  obtain ⟨now, happening⟩ := event
  cases happening with
  | construct => exact leaves.elim
  | destroy => exact leaves.elim
  | edge =>
    -- The handler moves the phase on, at the instant of the edge.
    obtain ⟨reached, moved⟩ := step_edge.mp stepped
    obtain ⟨kept, clock, _⟩ := inPhase.edge stepped
    have later := timely_edge (inPhase.timely timely reached)
    refine ⟨⟨callback, _, kept, clock ▸ later⟩, ?_⟩
    rw [moved, (edge_kept _).2]
    exact placed
  | expiry =>
    obtain ⟨since, _, _, kept, _, _⟩ := inPhase.expire stepped
    obtain ⟨_, self, held, _, rfl⟩ := step_expiry.mp stepped
    refine ⟨⟨callback, _, kept, Nat.le_refl 1⟩, ?_⟩
    rw [held] at placed
    exact placed
  | addOnPressCallback added =>
    obtain ⟨kept, clock, _⟩ := inPhase.addOnPressCallback stepped
    obtain ⟨reached, _, self, held, rfl⟩ := step_addOnPressCallback.mp stepped
    refine ⟨⟨some added, phase, kept, inPhase.timely timely reached⟩, ?_⟩
    rw [held] at placed
    exact placed

/-- In either phase the hardware and the kernel agree with the object. -/
theorem Alive.ready {address delay : Nat} {world : World Callback}
    (alive : world.Alive address delay) :
    ∃ self, world.self = some self ∧ self.address = address ∧
      (self.Armed world.port ∨ self.Debouncing world.port world.now delay) := by
  obtain ⟨⟨callback, phase, inPhase, timely⟩, placed⟩ := alive
  cases inPhase with
  | @armed _ self status held _ _ timer fires =>
    rw [held] at placed
    -- The driver never links a callback twice, so linked is linked once.
    have once := List.count_eq_one_of_mem world.port.callbacks.linkedOnce fires.2
    exact ⟨self, held, Option.some.inj placed,
      .inl ⟨fires.1, once, by simp [timer], by simpa [timer, Phase.Timely] using timely⟩⟩
  | @window _ self since held _ _ timer _ masked unlinked =>
    rw [held] at placed
    -- The window began in the past, so at most the whole delay is left.
    have left : since + delay ≤ world.now + delay := Nat.add_le_add_right timely.1 delay
    exact ⟨self, held, Option.some.inj placed,
      .inr ⟨masked, unlinked, by simp [timer], since + delay, by simp [timer], timely.2, left⟩⟩

/-- Where the pin is off or the callback gone, a timer is running that will restore both. -/
theorem Alive.restored {address delay : Nat} {world : World Callback}
    (alive : world.Alive address delay)
    (deaf : world.port.interrupt = .disable ∨ address ∉ world.port.callbacks.addresses) :
    ∃ due next, world.now ≤ due ∧ due ≤ world.now + delay ∧
      World.step world ⟨due, .expiry⟩ = some next ∧ next.port.Fires address := by
  obtain ⟨self, held, rfl, ready⟩ := alive.ready
  rcases ready with armed | debouncing
  · -- An armed button has its interrupt on and its callback linked.
    have linked : self.address ∈ world.port.callbacks.addresses :=
      List.count_pos_iff.mp (by rw [armed.linkedOnce]; exact Nat.zero_lt_one)
    rcases deaf with off | gone
    · rw [armed.enabled] at off
      cases off
    · exact absurd linked gone
  · obtain ⟨due, running, ahead, near⟩ := debouncing.running
    have pending : world.deadline = some due := by simp [deadline, held, running]
    obtain ⟨same, holds, stepped⟩ := exists_step_expiry pending ahead
    obtain rfl := Option.some.inj (held.symm.trans holds)
    -- The expiry function enables the interrupt and links the callback of the same object.
    exact ⟨due, _, ahead, near, stepped,
      by simp [World.expire, timerExpiryFunc_eq], by simp [World.expire, timerExpiryFunc_eq]⟩

end World

/--
A live button is armed or debouncing, and never both.

Whenever its pin is off or its callback is not linked, a running timer will restore both.
-/
theorem ready_of_run {address delay boot : Nat} {world built last : World Callback}
    {events : List (Event Callback)}
    (constructed :
      World.step world ⟨boot, .construct address (.ticks delay) .succeed⟩ = some built)
    (ran : World.step.run built events = some last)
    (leaves : ∀ event ∈ events, event.LeavesAlive) :
    (∃ self, last.self = some self ∧ self.address = address ∧
      Xor (self.Armed last.port) (self.Debouncing last.port last.now delay)) ∧
    (last.port.interrupt = .disable ∨ address ∉ last.port.callbacks.addresses →
      ∃ due next, last.now ≤ due ∧ due ≤ last.now + delay ∧
        World.step last ⟨due, .expiry⟩ = some next ∧ next.port.Fires address) := by
  -- A new button is armed, with a status that counts nothing.
  have placed : built.self.map Button.address = some address := by
    obtain ⟨_, _, rfl⟩ := World.step_construct.mp constructed
    rw [World.constructed_succeed]
    rfl
  obtain ⟨armed, _, _⟩ := World.inPhase_constructed constructed
  have begun : built.Alive address delay := ⟨⟨none, _, armed, Nat.zero_le 1⟩, placed⟩
  have met : World.step.Meets (fun _ event => event.LeavesAlive) built events :=
    Machine.meets_of_forall leaves
  have alive := Machine.run_invariant_of_meets
    (fun _ _ _ alive leaves stepped => World.Alive.step alive leaves stepped) begun met ran
  refine ⟨?_, alive.restored⟩
  obtain ⟨self, held, placed, ready⟩ := alive.ready
  refine ⟨self, held, placed, ?_⟩
  rcases ready with armed | debouncing
  · exact .inl ⟨armed, armed.not_debouncing⟩
  · exact .inr ⟨debouncing, fun armed => armed.not_debouncing debouncing⟩

/-- A button that was pressed and released is armed, and its status counts nothing. -/
theorem ready_of_run_released :
    ∃ last : World Nat, World.step.run (.initial 0 ⟨false, .disable, .empty⟩)
        [⟨0, .construct 1 (.ticks 5) .succeed⟩, ⟨2, .addOnPressCallback 7⟩, ⟨10, .edge⟩,
          ⟨15, .expiry⟩, ⟨30, .edge⟩] = some last ∧
      ∃ self, last.self = some self ∧ self.address = 1 ∧
        Xor (self.Armed last.port) (self.Debouncing last.port last.now 5) := by
  -- The edge at 30 only reads the expiry of 15 away.
  let built : World Nat := (World.initial 0 ⟨false, .disable, .empty⟩).constructed 1 (.ticks 5)
    .succeed
  let events : List (Event Nat) :=
    [⟨2, .addOnPressCallback 7⟩, ⟨10, .edge⟩, ⟨15, .expiry⟩, ⟨30, .edge⟩]
  have completes : (World.step.run built events).isSome := by decide
  have ran := (Option.some_get completes).symm
  have constructed : World.step (.initial 0 ⟨false, .disable, .empty⟩)
      ⟨0, .construct 1 (.ticks 5) .succeed⟩ = some built := rfl
  have leaves : ∀ event ∈ events, event.LeavesAlive := by simp [events, Event.LeavesAlive]
  exact ⟨_, Machine.run_cons.mpr ⟨built, constructed, ran⟩,
    (ready_of_run constructed ran leaves).1⟩

end Notus.Button
