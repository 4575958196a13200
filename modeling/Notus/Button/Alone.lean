import Notus.Button.Panel

/-! What a button does to its port depends on nothing but its own pin and its own callback. -/

namespace Notus

namespace CallbackList

/-- Adding a callback links or unlinks no other. -/
theorem mem_add_ne {address other : Nat} (apart : other ≠ address) (callbacks : CallbackList) :
    other ∈ (callbacks.add address).addresses ↔ other ∈ callbacks.addresses := by
  -- The callback comes first, after it was taken from where it may have been.
  simp [add, apart, List.mem_erase_of_ne apart]

/-- Removing a callback links or unlinks no other. -/
theorem mem_remove_ne {address other : Nat} (apart : other ≠ address) (callbacks : CallbackList) :
    other ∈ (callbacks.remove address).addresses ↔ other ∈ callbacks.addresses := by
  -- Only the address that is removed is erased.
  simp [remove, List.mem_erase_of_ne apart]

end CallbackList

namespace Port

/-- Two ports look the same to a button at an address, whatever other callbacks they have. -/
structure Agree (address : Nat) (port other : Port) : Prop where
  isInput : port.isInput = other.isInput
  interrupt : port.interrupt = other.interrupt
  linked : address ∈ port.callbacks.addresses ↔ address ∈ other.callbacks.addresses

/-- A change that only depends on what a button at an address sees, and spares other callbacks. -/
structure Local (address : Nat) (change : Port → Port) : Prop where
  agree : ∀ {port other : Port}, port.Agree address other →
    (change port).Agree address (change other)
  spares : ∀ {other : Nat} (port : Port), other ≠ address →
    (other ∈ (change port).callbacks.addresses ↔ other ∈ port.callbacks.addresses)

variable {address : Nat}

/-- Changing nothing concerns nobody. -/
theorem local_id (address : Nat) : Local address id :=
  -- The other members of the port are as they were, too.
  ⟨id, fun _ _ => Iff.rfl⟩

/-- Two changes that concern one button concern only it when they are made one after the other. -/
theorem Local.comp {first second : Port → Port} (after : Local address second)
    (before : Local address first) : Local address fun port => second (first port) :=
  -- What each of them looks at agrees before it is called.
  ⟨fun agree => after.agree (before.agree agree),
    fun port apart => (after.spares _ apart).trans (before.spares port apart)⟩

/-- Making the pin an input is no matter of any callback. -/
theorem local_pinConfigureInput (address : Nat) :
    Local address fun port => { port with isInput := true } :=
  -- The list of callbacks is not touched.
  ⟨fun agree => ⟨rfl, agree.interrupt, agree.linked⟩, fun _ _ => Iff.rfl⟩

/-- Setting the interrupt of the pin is no matter of any callback. -/
theorem local_interruptConfigure (address : Nat) (mode : GpioInterrupt) :
    Local address fun port => { port with interrupt := mode } :=
  -- The list of callbacks is not touched by it either.
  ⟨fun agree => ⟨agree.isInput, rfl, agree.linked⟩, fun _ _ => Iff.rfl⟩

/-- A callback is linked without a look at the others. -/
theorem local_addCallback (address : Nat) :
    Local address fun port => { port with callbacks := port.callbacks.add address } :=
  -- The list grows by this address, wherever in it the others are.
  ⟨fun agree => ⟨agree.isInput, agree.interrupt, by simp⟩,
    fun port apart => CallbackList.mem_add_ne apart port.callbacks⟩

/-- A callback is unlinked without a look at the others. -/
theorem local_removeCallback (address : Nat) :
    Local address fun port => { port with callbacks := port.callbacks.remove address } :=
  -- The list loses this address, wherever in it the others are.
  ⟨fun agree => ⟨agree.isInput, agree.interrupt, by simp⟩,
    fun port apart => CallbackList.mem_remove_ne apart port.callbacks⟩

/-- A driver call answers its verdict, and what it does to the port is still local. -/
theorem Local.answer {change : Port → Port} (here : Local address change) (verdict : Int) :
    ∃ done, Local address done ∧
      ∀ port : Port, port.answer verdict (change port) = (verdict, done port) := by
  -- A call that fails changes nothing.
  by_cases succeeds : verdict = 0
  · exact ⟨change, here, fun port => by simp [Port.answer, succeeds]⟩
  · exact ⟨id, local_id address, fun port => by simp [Port.answer, succeeds]⟩

end Port

namespace Button

variable {Callback : Type*}

/-- The constructor does the same on every port, wherever the driver makes it stop. -/
theorem construct_local (address : Nat) (debounceTime : KTimeout) (verdicts : Verdicts) :
    ∃ change, Port.Local address change ∧ ∃ result : Except MajorError (Button Callback),
      (∀ self, result = .ok self → verdicts = .succeed ∧
        self = ⟨address, debounceTime, 0, kTimerInit, none⟩) ∧
      ∀ port, construct address debounceTime verdicts port = (change port, result) := by
  obtain ⟨pin, pinHere, pinDone⟩ : ∃ pin, Port.Local address pin ∧
      ∀ port : Port, port.pinConfigureInput verdicts.pinConfigure =
        (verdicts.pinConfigure, pin port) :=
    (Port.local_pinConfigureInput address).answer verdicts.pinConfigure
  obtain ⟨interrupt, interruptHere, interruptDone⟩ : ∃ interrupt, Port.Local address interrupt ∧
      ∀ port : Port, port.interruptConfigure .edgeBoth verdicts.interruptConfigure =
        (verdicts.interruptConfigure, interrupt port) :=
    (Port.local_interruptConfigure address .edgeBoth).answer verdicts.interruptConfigure
  obtain ⟨add, addHere, addDone⟩ : ∃ add, Port.Local address add ∧
      ∀ port : Port, port.addCallback address verdicts.addCallback =
        (verdicts.addCallback, add port) :=
    (Port.local_addCallback address).answer verdicts.addCallback
  have both := interruptHere.comp pinHere
  have succeeds : verdicts.isReady = true → verdicts.pinConfigure = 0 →
      verdicts.interruptConfigure = 0 → verdicts.addCallback = 0 → verdicts = .succeed := by
    intro ready pinned interrupted added
    cases verdicts
    simp_all [Verdicts.succeed]
  simp only [construct, pinDone, interruptDone, addDone]
  -- Each driver call either ends the constructor, or is followed by the next.
  by_cases ready : verdicts.isReady = true
  · by_cases pinned : verdicts.pinConfigure = 0
    · by_cases interrupted : verdicts.interruptConfigure = 0
      · by_cases added : verdicts.addCallback = 0
        · exact ⟨_, addHere.comp both, .ok ⟨address, debounceTime, 0, kTimerInit, none⟩,
            by simpa using succeeds ready pinned interrupted added,
            fun port => by simp [ready, pinned, interrupted, added]⟩
        · exact ⟨_, addHere.comp both, .error _, by simp, fun port => by
            simp [ready, pinned, interrupted, added]; rfl⟩
      · exact ⟨_, both, .error _, by simp, fun port => by simp [ready, pinned, interrupted]; rfl⟩
    · exact ⟨_, pinHere, .error _, by simp, fun port => by simp [ready, pinned]; rfl⟩
  · exact ⟨id, Port.local_id address, .error _, by simp, fun port => by simp [ready]; rfl⟩

/-- The handler does the same on every port, depending on its timer only. -/
theorem gpioHandler_local (self : Button Callback) (now : Nat) :
    ∃ change, Port.Local self.address change ∧ ∃ after : Button Callback,
      after.address = self.address ∧
      ∀ port, self.gpioHandler now port = (after, change port) := by
  -- The first edge of a window is answered, and the one after it is swallowed.
  by_cases cleared : self.debounceTimer.status = 0
  · have masked := Port.local_interruptConfigure self.address .disable
    have unlinked := (Port.local_removeCallback self.address).comp masked
    refine ⟨_, (Port.local_pinConfigureInput self.address).comp unlinked,
      { self with
        debounceTimer := { self.debounceTimer with status := 0 }.start now self.debounceTime
        startTp := now }, rfl, fun port => ?_⟩
    simp [gpioHandler, KTimer.statusGet, cleared, Port.pinConfigureInput, Port.removeCallback,
      Port.interruptConfigure, Port.answer]
  · exact ⟨id, Port.local_id _,
      { self with debounceTimer := { self.debounceTimer with status := 0 } }, rfl,
      fun port => gpioHandler_swallow now port cleared⟩

/-- The expiry function restores the pin and the callback of its own button. -/
theorem timerExpiryFunc_local (self : Button Callback) :
    ∃ change, Port.Local self.address change ∧
      ∀ port, self.timerExpiryFunc port = (change port, self.onPressCallback) :=
  -- It sets the interrupt of the pin first, and then adds its own callback.
  ⟨_, (Port.local_addCallback self.address).comp
    (Port.local_interruptConfigure self.address .edgeBoth), timerExpiryFunc_eq self⟩

/-- The destructor releases the pin and the callback of its own button. -/
theorem destruct_local (self : Button Callback) : Port.Local self.address self.destruct := by
  -- The timer is not stopped, but it is no part of the port.
  have changed := (Port.local_removeCallback self.address).comp
    (Port.local_interruptConfigure self.address .disable)
  rwa [← funext self.destruct_eq] at changed

namespace World

/-- Two worlds of one button, of which the other may have its clock behind and other callbacks. -/
structure Twin (address : Nat) (world other : World Callback) : Prop where
  behind : other.now ≤ world.now
  port : world.port.Agree address other.port
  life : world.life = other.life
  self : world.self = other.self
  placed : ∀ button ∈ world.self, button.address = address

/-- What a step of a button does elsewhere: no other callback is linked or unlinked. -/
structure Spares (address : Nat) (world next : World Callback) : Prop where
  clock : next.now = world.now
  others : ∀ other, other ≠ address →
    (other ∈ next.port.callbacks.addresses ↔ other ∈ world.port.callbacks.addresses)

variable {address : Nat}

/-- The other world gets wherever time gets in the first one. -/
theorem Twin.reaches {world other : World Callback} {now : Nat} (twin : world.Twin address other)
    (reached : world.Reaches now) : other.Reaches now := by
  -- Both deadlines are the one of the same timer.
  have deadline : other.deadline = world.deadline := by simp [World.deadline, twin.self]
  exact ⟨Nat.le_trans twin.behind reached.1, deadline ▸ reached.2⟩

/-- A port changed by a button's own hand leaves the two worlds alike. -/
theorem Twin.change {world other : World Callback} {now : Nat} {change : Port → Port} {life : Life}
    {self : Option (Button Callback)} {log added : List (Execution Callback)}
    (twin : world.Twin address other) (here : Port.Local address change)
    (placed : ∀ button ∈ self, button.address = address) :
    Twin address
      { now := now, port := change world.port, life := life, self := self, log := log }
      { now := now, port := change other.port, life := life, self := self, log := added } :=
  -- Both clocks are set to the instant of the change.
  ⟨Nat.le_refl now, here.agree twin.port, rfl, rfl, placed⟩

/-- A world is its own twin. -/
theorem Twin.refl (world : World Callback)
    (placed : ∀ button ∈ world.self, button.address = address) : world.Twin address world :=
  -- Each part of the world is compared with itself.
  ⟨Nat.le_refl _, ⟨rfl, rfl, Iff.rfl⟩, rfl, rfl, placed⟩

/-- Whatever happens to a button happens in the other world as well, and is executed there too. -/
theorem step_twin {world other next : World Callback} {happening : Happening Callback}
    (twin : world.Twin address other) (here : happening.At address) (silent : world.log = [])
    (stepped : step world ⟨world.now, happening⟩ = some next) :
    ∃ later, step other ⟨world.now, happening⟩ = some later ∧ next.Twin address later ∧
      later.log = other.log ++ next.log ∧ world.Spares address next := by
  cases happening with
  -- Edges come from the port, and are no happenings of a button.
  | edge => exact here.elim
  | construct lies debounceTime verdicts =>
    obtain rfl : lies = address := here
    obtain ⟨reached, unborn, rfl⟩ := step_construct.mp stepped
    obtain ⟨change, confined, result, built, done⟩ :=
      @construct_local Callback lies debounceTime verdicts
    refine ⟨_, step_construct.mpr ⟨twin.reaches reached, twin.life ▸ unborn, rfl⟩, ?_⟩
    simp only [constructed, done]
    -- A constructor that throws leaves its effects on the port, and no object.
    cases result with
    | ok self =>
      exact ⟨twin.change confined (by rintro _ ⟨⟩; rw [(built self rfl).2]), by simp [silent],
        ⟨rfl, fun _ apart => confined.spares _ apart⟩⟩
    | error err =>
      exact ⟨twin.self ▸ twin.change confined twin.placed, by simp [silent],
        ⟨rfl, fun _ apart => confined.spares _ apart⟩⟩
  | addOnPressCallback callback =>
    -- Both have the same object, so what is changed in it is the same.
    obtain ⟨reached, alive, self, held, rfl⟩ := step_addOnPressCallback.mp stepped
    refine ⟨_, step_addOnPressCallback.mpr
      ⟨twin.reaches reached, twin.life ▸ alive, self, twin.self ▸ held, rfl⟩, ?_⟩
    have placed := twin.placed self held
    exact ⟨⟨Nat.le_refl _, twin.port, twin.life, rfl, by rintro _ ⟨⟩; exact placed⟩,
      by simp [silent], ⟨rfl, fun _ _ => Iff.rfl⟩⟩
  | destroy =>
    obtain ⟨reached, alive, self, held, rfl⟩ := step_destroy.mp stepped
    refine ⟨_, step_destroy.mpr
      ⟨twin.reaches reached, twin.life ▸ alive, self, twin.self ▸ held, rfl⟩, ?_⟩
    obtain rfl := twin.placed self held
    have released := destruct_local self
    exact ⟨⟨Nat.le_refl _, released.agree twin.port, rfl, twin.self, twin.placed⟩,
      by simp [silent], ⟨rfl, fun _ apart => released.spares _ apart⟩⟩
  | expiry =>
    obtain ⟨reached, self, held, due, rfl⟩ := step_expiry.mp stepped
    refine ⟨_, step_expiry.mpr ⟨twin.reaches reached, self, twin.self ▸ held, due, rfl⟩, ?_⟩
    -- The timer is the object's own, so it restores the pin of the object.
    obtain rfl := twin.placed self held
    obtain ⟨change, restored, done⟩ :=
      timerExpiryFunc_local { self with debounceTimer := self.debounceTimer.expire }
    simp only [expire, done]
    exact ⟨⟨Nat.le_refl _, restored.agree twin.port, twin.life, rfl, by rintro _ ⟨⟩; rfl⟩,
      by simp [silent], ⟨rfl, fun _ apart => restored.spares _ apart⟩⟩

/-- No deadline is behind the clock. -/
def Ahead (world : World Callback) : Prop :=
  ∀ due ∈ world.deadline, world.now ≤ due

/-- The handler starts its timer for a deadline that is not behind. -/
theorem gpioHandler_ahead {self : Button Callback} {now : Nat} (port : Port)
    (ahead : ∀ due ∈ self.debounceTimer.expiresAt, now ≤ due) :
    ∀ due ∈ (self.gpioHandler now port).1.debounceTimer.expiresAt, now ≤ due := by
  -- Only a window that is opened sets a deadline, and it sets one from now on.
  by_cases cleared : self.debounceTimer.status = 0
  · cases endless : self.debounceTime with
    | forever => simpa [gpioHandler, KTimer.statusGet, cleared, endless, KTimer.start] using ahead
    | ticks count => simp [gpioHandler_open now port cleared endless]
  · simpa [gpioHandler_swallow now port cleared] using ahead

/-- No step takes the clock past a deadline, or starts a timer for the past. -/
theorem step_ahead {world next : World Callback} {happening : Happening Callback}
    (here : happening.At address) (stepped : step world ⟨world.now, happening⟩ = some next) :
    next.Ahead := by
  cases happening with
  | edge => exact here.elim
  | construct lies debounceTime verdicts =>
    obtain ⟨reached, _, rfl⟩ := step_construct.mp stepped
    obtain ⟨change, _, result, built, done⟩ := @construct_local Callback lies debounceTime verdicts
    simp only [constructed, done]
    cases result with
    | ok self =>
      obtain ⟨_, rfl⟩ := built self rfl
      -- A new timer is stopped.
      intro due running
      cases running
    | error err => exact reached.2
  | addOnPressCallback callback =>
    obtain ⟨reached, _, self, held, rfl⟩ := step_addOnPressCallback.mp stepped
    intro due running
    exact reached.2 due (by simpa [deadline, held, Button.addOnPressCallback] using running)
  | destroy =>
    obtain ⟨reached, _, _, _, rfl⟩ := step_destroy.mp stepped
    exact reached.2
  | expiry =>
    obtain ⟨_, self, _, _, rfl⟩ := step_expiry.mp stepped
    intro due running
    simp [deadline, expire, KTimer.expire] at running

/-- The driver calls the callback of the button, if there is a button. -/
def called (world : World Callback) : World Callback :=
  match world.self with
  | none => world
  | some self =>
    let (self, port) := self.gpioHandler world.now world.port
    { world with port := port, self := some self, log := world.log ++ [.gpioHandler world.now] }

/-- An edge calls the callback where the button watches its pin. -/
theorem edge_eq_called {world : World Callback}
    (placed : ∀ self ∈ world.self, self.address = address) :
    world.edge = if world.port.Fires address then world.called else world := by
  -- The port looks for the callback of the object, which lies at the address.
  unfold edge called
  cases held : world.self with
  | none => simp
  | some self =>
    obtain rfl := placed self held
    rfl

/-- The handler does in both worlds the same, and nothing to other callbacks. -/
theorem called_twin {world other : World Callback} (twin : world.Twin address other)
    (same : other.now = world.now) (silent : world.log = []) :
    world.called.Twin address other.called ∧ other.called.log = other.log ++ world.called.log ∧
      world.Spares address world.called := by
  -- Both worlds have the same object, or none.
  unfold called
  rw [← twin.self, same]
  cases held : world.self with
  | none => exact ⟨twin, by simp [silent], ⟨rfl, fun _ _ => Iff.rfl⟩⟩
  | some self =>
    obtain rfl := twin.placed self held
    obtain ⟨change, here, after, placed, done⟩ := gpioHandler_local self world.now
    simp only [done]
    exact ⟨⟨Nat.le_refl _, here.agree twin.port, twin.life, rfl,
      by rintro _ ⟨⟩; exact placed⟩, by simp [silent], ⟨rfl, fun _ apart => here.spares _ apart⟩⟩

/-- The handler neither lets time pass nor starts a timer for the past. -/
theorem called_ahead {world : World Callback} (ahead : world.Ahead) : world.called.Ahead := by
  -- Without a button there is no timer to start.
  unfold called
  cases held : world.self with
  | none => exact ahead
  | some self =>
    have running : ∀ due ∈ self.debounceTimer.expiresAt, world.now ≤ due := fun due running =>
      ahead due (by simpa [deadline, held] using running)
    exact gpioHandler_ahead world.port running

end World

end Button
end Notus
