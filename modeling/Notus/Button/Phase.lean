import Notus.Button

/-! A live button is either armed or inside a debounce window, and every event moves it between. -/

namespace Notus.Button

variable {Callback : Type*}

/-- Armed with a timer status that counts unread expiries, or in the window an edge opened. -/
inductive Phase where
  | armed (status : Nat)
  | window (since : Nat)
  deriving DecidableEq, Repr

namespace Phase

/-- A cleared status lets an edge open a window, an unread expiry is read away instead. -/
def edge (now : Nat) : Phase → Phase
  -- The status alone decides, whatever the level of the pin.
  | .armed 0 => .window now
  | .armed (_ + 1) => .armed 0
  -- The pin is masked until the window ends.
  | .window since => .window since

end Phase

namespace World

/-- The hardware, the timer and the object agree on the phase of a button. -/
inductive InPhase (delay : Nat) (callback : Option Callback) : Phase → World Callback → Prop where
  /-- While armed the pin is watched, and nothing is due. -/
  | armed {world : World Callback} {self : Button Callback} {status : Nat}
      (held : world.self = some self) (finite : self.debounceTime = .ticks delay)
      (registered : self.onPressCallback = callback)
      (timer : self.debounceTimer = ⟨status, none⟩) (fires : world.port.Fires self.address) :
      InPhase delay callback (.armed status) world
  /-- Inside a window the pin is released, and the timer will restore it. -/
  | window {world : World Callback} {self : Button Callback} {since : Nat}
      (held : world.self = some self) (finite : self.debounceTime = .ticks delay)
      (registered : self.onPressCallback = callback)
      (timer : self.debounceTimer = ⟨0, some (since + delay)⟩) (opened : self.startTp = since)
      (masked : world.port.interrupt = .disable)
      (unlinked : self.address ∉ world.port.callbacks.addresses) :
      InPhase delay callback (.window since) world

/-- The callback calls among all that has been executed: which, for which edge, and when. -/
def presses (world : World Callback) : List (Callback × Nat × Nat) :=
  -- Handler runs and expiry functions are left out.
  world.log.filterMap fun execution =>
    match execution with
    | .onPressCallback callback edge now => some (callback, edge, now)
    | _ => none

/-- An armed button has nothing due. -/
theorem InPhase.deadline_armed {delay status : Nat} {callback : Option Callback}
    {world : World Callback} (phase : world.InPhase delay callback (.armed status)) :
    world.deadline = none := by
  -- The timer in this phase has no deadline.
  cases phase with
  | armed held _ _ timer _ => simp [deadline, held, timer]

/-- A window is due one delay after the edge that opened it. -/
theorem InPhase.deadline_window {delay since : Nat} {callback : Option Callback}
    {world : World Callback} (phase : world.InPhase delay callback (.window since)) :
    world.deadline = some (since + delay) := by
  -- The timer was started when the window was opened.
  cases phase with
  | window held _ _ timer _ _ _ => simp [deadline, held, timer]

/-- An edge moves the phase on, and runs the handler exactly when the button is armed. -/
theorem InPhase.edge {delay now : Nat} {callback : Option Callback} {phase : Phase}
    {world next : World Callback} (inPhase : world.InPhase delay callback phase)
    (stepped : step world ⟨now, .edge⟩ = some next) :
    next.InPhase delay callback (phase.edge now) ∧ next.now = now ∧
      next.presses = world.presses := by
  cases inPhase with
  | window held finite registered timer opened masked unlinked =>
    -- The pin is masked, so the edge reaches nobody.
    obtain rfl := step_edge_masked masked stepped
    exact ⟨.window held finite registered timer opened masked unlinked, rfl, rfl⟩
  | armed held finite registered timer fires =>
    rename_i self status
    obtain ⟨_, rfl⟩ := step_edge.mp stepped
    cases status with
    | zero =>
      -- The handler masks the pin and starts the timer.
      have opened := gpioHandler_open now world.port (congrArg KTimer.status timer) finite
      simp only [World.edge, held, if_pos fires, opened]
      exact ⟨.window rfl finite registered rfl rfl rfl (CallbackList.not_mem_remove _ _), trivial,
        by simp [presses]⟩
    | succ status =>
      -- Reading the status cleared it, and nothing else happens.
      have unread : self.debounceTimer.status ≠ 0 := by simp [timer]
      have swallowed := gpioHandler_swallow now world.port unread
      simp only [World.edge, held, if_pos fires, swallowed]
      exact ⟨.armed rfl finite registered (by simp [timer]) fires, trivial, by simp [presses]⟩

/-- An expiry ends a window, restores the pin and calls the callback, if one is registered. -/
theorem InPhase.expire {delay now : Nat} {callback : Option Callback} {phase : Phase}
    {world next : World Callback} (inPhase : world.InPhase delay callback phase)
    (stepped : step world ⟨now, .expiry⟩ = some next) :
    ∃ since, phase = .window since ∧ now = since + delay ∧
      next.InPhase delay callback (.armed 1) ∧ next.now = now ∧
      next.presses = world.presses ++
        callback.toList.map fun callback => (callback, since, now) := by
  -- Only a window has a deadline, and it is the one the timer was started with.
  obtain ⟨_, self, held, due, rfl⟩ := step_expiry.mp stepped
  cases inPhase with
  | armed same _ _ timer _ =>
    -- An armed button has no timer running.
    obtain rfl := Option.some.inj (held.symm.trans same)
    simp [timer] at due
  | window same finite registered timer opened masked unlinked =>
    rename_i since
    obtain rfl := Option.some.inj (held.symm.trans same)
    have instant : now = since + delay := by
      rw [timer] at due
      exact (Option.some.inj due).symm
    refine ⟨since, rfl, instant, ?_, rfl, ?_⟩
    · exact .armed rfl finite registered (by simp [timer, KTimer.expire])
        ⟨by simp [World.expire, timerExpiryFunc_eq], by simp [World.expire, timerExpiryFunc_eq]⟩
    · subst opened
      cases callback <;> simp [presses, World.expire, timerExpiryFunc_eq, registered]

/-- A construction that succeeds leaves the button armed, with nothing to call. -/
theorem inPhase_constructed {now address delay : Nat} {world built : World Callback}
    (stepped : step world ⟨now, .construct address (.ticks delay) .succeed⟩ = some built) :
    built.InPhase delay none (.armed 0) ∧ built.now = now ∧ built.presses = world.presses := by
  -- The timer is initialised and not started, and the pin is watched.
  obtain ⟨_, _, rfl⟩ := step_construct.mp stepped
  rw [constructed_succeed]
  exact ⟨.armed rfl rfl rfl rfl ⟨rfl, CallbackList.mem_add _ _⟩, rfl, rfl⟩

/-- Registering a callback leaves the phase alone. -/
theorem InPhase.addOnPressCallback {delay now : Nat} {registered : Option Callback}
    {callback : Callback} {phase : Phase} {world next : World Callback}
    (inPhase : world.InPhase delay registered phase)
    (stepped : step world ⟨now, .addOnPressCallback callback⟩ = some next) :
    next.InPhase delay (some callback) phase ∧ next.now = now ∧
      next.presses = world.presses := by
  -- Neither the port nor the timer is touched.
  obtain ⟨_, _, self, held, rfl⟩ := step_addOnPressCallback.mp stepped
  cases inPhase with
  | armed same finite _ timer fires =>
    obtain rfl := Option.some.inj (held.symm.trans same)
    exact ⟨.armed rfl finite rfl timer fires, rfl, rfl⟩
  | window same finite _ timer opened masked unlinked =>
    obtain rfl := Option.some.inj (held.symm.trans same)
    exact ⟨.window rfl finite rfl timer opened masked unlinked, rfl, rfl⟩

end World
end Notus.Button
