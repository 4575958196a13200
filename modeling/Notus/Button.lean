import Notus.Core.Machine
import Notus.Errors
import Notus.Zephyr.Gpio
import Notus.Zephyr.Timer

/-! The button, with the pin it is on and the kernel timer that ends its debounce window. -/

namespace Notus

/-- The members of the class, of which `address` is where its `gpio_callback` lies. -/
structure Button (Callback : Type*) where
  address : Nat
  debounceTime : KTimeout
  startTp : Nat
  debounceTimer : KTimer
  onPressCallback : Option Callback
  deriving DecidableEq

namespace Button

variable {Callback : Type*}

/-- How the driver answers the calls of the constructor, in call order. -/
structure Verdicts where
  isReady : Bool
  pinConfigure : Int
  interruptConfigure : Int
  addCallback : Int
  deriving DecidableEq, Repr

/-- The constructor stops at the first driver call that fails, and undoes nothing. -/
def construct (address : Nat) (debounceTime : KTimeout) (verdicts : Verdicts) (port : Port) :
    Port × Except MajorError (Button Callback) :=
  if !verdicts.isReady then (port, .error ⟨.button .gpioIsReady, 0⟩) else
  let (ret, port) := port.pinConfigureInput verdicts.pinConfigure
  if ret ≠ 0 then (port, .error ⟨.button .pinConfiguration, ret⟩) else
  let (ret, port) := port.interruptConfigure .edgeBoth verdicts.interruptConfigure
  if ret ≠ 0 then (port, .error ⟨.button .interruptConfiguration, ret⟩) else
  -- The timer is initialised with the object as its user data, and is not started.
  let self : Button Callback :=
    { address := address
      debounceTime := debounceTime
      startTp := 0
      debounceTimer := kTimerInit
      onPressCallback := none }
  let (ret, port) := port.addCallback address verdicts.addCallback
  if ret ≠ 0 then (port, .error ⟨.button .addCallback, ret⟩) else
  (port, .ok self)

/-- The driver answers every call of the constructor with success. -/
def Verdicts.succeed : Verdicts :=
  { isReady := true, pinConfigure := 0, interruptConfigure := 0, addCallback := 0 }

/-- Only the callback to call is replaced. -/
def addOnPressCallback (self : Button Callback) (callback : Callback) : Button Callback :=
  -- A running window reports to the callback that is registered when it ends.
  { self with onPressCallback := some callback }

/-- The first edge with a cleared status opens a debounce window, and any other only clears it. -/
def gpioHandler (now : Nat) (self : Button Callback) (port : Port) : Button Callback × Port :=
  -- Reading the status clears it, so the same expiry is never seen twice.
  let (status, timer) := self.debounceTimer.statusGet
  let self := { self with debounceTimer := timer }
  if status = 0 then
    let port := (port.interruptConfigure .disable 0).2
    let port := (port.removeCallback self.address 0).2
    let port := (port.pinConfigureInput 0).2
    ({ self with
        debounceTimer := self.debounceTimer.start now self.debounceTime
        startTp := now }, port)
  else (self, port)

/-- The end of a window enables the interrupt, links the callback and reports the press. -/
def timerExpiryFunc (self : Button Callback) (port : Port) : Port × Option Callback :=
  -- Whether the object is still alive is not looked at.
  let port := (port.interruptConfigure .edgeBoth 0).2
  let port := (port.addCallback self.address 0).2
  (port, self.onPressCallback)

/-- The destructor releases the pin, and leaves the timer as it is. -/
def destruct (self : Button Callback) (port : Port) : Port :=
  let port := (port.interruptConfigure .disable 0).2
  (port.removeCallback self.address 0).2

/-- A construction that succeeds watches the pin, with a stopped timer and no callback to call. -/
theorem construct_succeed (address : Nat) (debounceTime : KTimeout) (port : Port) :
    construct address debounceTime .succeed port =
      ({ isInput := true, interrupt := .edgeBoth, callbacks := port.callbacks.add address },
        .ok ({ address := address, debounceTime := debounceTime, startTp := 0,
               debounceTimer := kTimerInit, onPressCallback := none } : Button Callback)) := by
  -- No verdict stops the constructor, so its effects on the port add up.
  simp [construct, Verdicts.succeed, Port.pinConfigureInput, Port.interruptConfigure,
    Port.addCallback, Port.answer]

/-- A cleared status masks the pin, unlinks the callback and starts the timer. -/
theorem gpioHandler_open {self : Button Callback} {delay : Nat} (now : Nat) (port : Port)
    (cleared : self.debounceTimer.status = 0) (finite : self.debounceTime = .ticks delay) :
    self.gpioHandler now port =
      ({ self with debounceTimer := ⟨0, some (now + delay)⟩, startTp := now },
        { isInput := true, interrupt := .disable,
          callbacks := port.callbacks.remove self.address }) := by
  -- All driver calls succeed, so the three port updates add up.
  simp [gpioHandler, KTimer.statusGet, cleared, finite, KTimer.start, Port.interruptConfigure,
    Port.removeCallback, Port.pinConfigureInput, Port.answer]

/-- An unread expiry is only read away. -/
theorem gpioHandler_swallow {self : Button Callback} (now : Nat) (port : Port)
    (unread : self.debounceTimer.status ≠ 0) :
    self.gpioHandler now port =
      ({ self with debounceTimer := { self.debounceTimer with status := 0 } }, port) := by
  -- A status that is not zero skips the whole branch.
  simp [gpioHandler, KTimer.statusGet, unread]

/-- Handling an edge leaves the object where it lies. -/
theorem gpioHandler_address (now : Nat) (self : Button Callback) (port : Port) :
    (self.gpioHandler now port).1.address = self.address := by
  -- Either branch changes only the timer and the start time of the object.
  simp only [gpioHandler, KTimer.statusGet]
  by_cases cleared : self.debounceTimer.status = 0 <;> simp [cleared]

/-- The expiry function restores the pin's interrupt and callback. -/
theorem timerExpiryFunc_eq (self : Button Callback) (port : Port) :
    self.timerExpiryFunc port =
      ({ port with interrupt := .edgeBoth, callbacks := port.callbacks.add self.address },
        self.onPressCallback) := by
  -- Both calls of the driver are answered with success.
  simp [timerExpiryFunc, Port.interruptConfigure, Port.addCallback, Port.answer]

/-- The destructor masks the pin and unlinks the callback. -/
theorem destruct_eq (self : Button Callback) (port : Port) :
    self.destruct port =
      { port with interrupt := .disable, callbacks := port.callbacks.remove self.address } := by
  -- What the driver answers to the destructor is not looked at, and here it is success.
  simp [destruct, Port.interruptConfigure, Port.removeCallback, Port.answer]

/-- An object is not there yet, alive, or gone with its memory left as it was. -/
inductive Life where
  | unborn
  | alive
  | dead
  deriving DecidableEq, Repr

/-- What is executed with the object as `self`, and when. -/
inductive Execution (Callback : Type*) where
  | gpioHandler (now : Nat)
  | timerExpiryFunc (now : Nat)
  /-- The callback called at the end of the window that an edge opened. -/
  | onPressCallback (callback : Callback) (edge now : Nat)
  deriving DecidableEq, Repr

/-- The object, the hardware under it, and everything executed with it so far. -/
structure World (Callback : Type*) where
  now : Nat
  port : Port
  life : Life
  self : Option (Button Callback)
  log : List (Execution Callback)

/-- What can happen to a button and its pin. -/
inductive Happening (Callback : Type*) where
  | construct (address : Nat) (debounceTime : KTimeout) (verdicts : Verdicts)
  | addOnPressCallback (callback : Callback)
  | destroy
  | edge
  | expiry
  deriving DecidableEq, Repr

/-- A happening at an instant. -/
structure Event (Callback : Type*) where
  now : Nat
  happening : Happening Callback
  deriving DecidableEq, Repr

namespace World

/-- A pin before any button is constructed on it. -/
def initial (now : Nat) (port : Port) : World Callback :=
  { now := now, port := port, life := .unborn, self := none, log := [] }

/-- When the debounce timer of the object is due, if it runs. -/
def deadline (world : World Callback) : Option Nat :=
  world.self.bind fun self => self.debounceTimer.expiresAt

/-- Time goes on, and not past the deadline of a running timer. -/
def Reaches (world : World Callback) (now : Nat) : Prop :=
  -- A due expiry comes before anything later, and may come after an edge of the same instant.
  world.now ≤ now ∧ ∀ due ∈ world.deadline, now ≤ due

instance (world : World Callback) (now : Nat) : Decidable (world.Reaches now) :=
  inferInstanceAs (Decidable (_ ∧ _))

/-- An edge runs the handler when the pin's interrupt is on and the callback is linked. -/
def edge (world : World Callback) : World Callback :=
  match world.self with
  | none => world
  | some self =>
    if world.port.Fires self.address then
      let (self, port) := self.gpioHandler world.now world.port
      { world with
        port := port, self := some self, log := world.log ++ [.gpioHandler world.now] }
    else world

/-- A due timer is counted and stopped, and then its expiry function runs. -/
def expire (world : World Callback) (self : Button Callback) : World Callback :=
  -- The kernel counts and stops the timer before it calls the function.
  let self := { self with debounceTimer := self.debounceTimer.expire }
  let (port, callback) := self.timerExpiryFunc world.port
  let called := callback.toList.map fun callback =>
    .onPressCallback callback self.startTp world.now
  { world with
    port := port, self := some self, log := world.log ++ .timerExpiryFunc world.now :: called }

/-- What a construction makes of the world, whether it returns or throws. -/
def constructed (world : World Callback) (address : Nat) (debounceTime : KTimeout)
    (verdicts : Verdicts) : World Callback :=
  -- The port keeps whatever was done to it before the constructor ended.
  match construct address debounceTime verdicts world.port with
  | (port, .ok self) => { world with port := port, life := .alive, self := some self }
  -- The destructor of an object whose constructor throws never runs.
  | (port, .error _) => { world with port := port, life := .dead }

/-- A construction that succeeds brings a button to life that watches its pin. -/
theorem constructed_succeed (world : World Callback) (address : Nat) (debounceTime : KTimeout) :
    world.constructed address debounceTime .succeed =
      { world with
        port :=
  -- No call of the constructor fails, so nothing is thrown.
          { isInput := true, interrupt := .edgeBoth, callbacks := world.port.callbacks.add address }
        life := .alive
        self := some { address := address, debounceTime := debounceTime, startTp := 0,
                       debounceTimer := kTimerInit, onPressCallback := none } } := by
  simp only [constructed, construct_succeed]

/-- One happening at its instant, refused where it cannot occur. -/
def step : Machine (World Callback) (Event Callback) := fun world event =>
  if world.Reaches event.now then
    let world := { world with now := event.now }
    match event.happening with
    | .construct address debounceTime verdicts =>
      if world.life = .unborn then some (world.constructed address debounceTime verdicts)
      else none
    | .addOnPressCallback callback =>
      match world.life, world.self with
      | .alive, some self => some { world with self := some (self.addOnPressCallback callback) }
      | _, _ => none
    | .destroy =>
      match world.life, world.self with
      | .alive, some self => some { world with port := self.destruct world.port, life := .dead }
      | _, _ => none
    | .edge => some world.edge
    | .expiry =>
      match world.self with
      | some self =>
        if self.debounceTimer.expiresAt = some event.now then some (world.expire self) else none
      | none => none
  else none

/-- An edge is taken at any instant the clock can reach. -/
theorem step_edge {world next : World Callback} {now : Nat} :
    step world ⟨now, .edge⟩ = some next ↔
      world.Reaches now ∧ next = ({ world with now := now } : World Callback).edge := by
  -- The only guard of an edge is the clock.
  simp only [step]
  split <;> simp_all [eq_comm]

/-- An edge on a masked pin is seen by nobody. -/
theorem edge_masked {world : World Callback} (masked : world.port.interrupt = .disable) :
    world.edge = world := by
  -- The object, if there is one, does not fire.
  unfold edge
  cases held : world.self with
  | none => rfl
  | some self => simp [Port.Fires, masked]

/-- An edge neither creates nor ends an object, and leaves it where it lies. -/
theorem edge_kept (world : World Callback) :
    world.edge.life = world.life ∧
      world.edge.self.map Button.address = world.self.map Button.address := by
  -- The handler changes the timer and the port, and the object stays where it is.
  unfold edge
  cases held : world.self with
  | none => simp [held]
  | some self =>
    by_cases fires : world.port.Fires self.address <;> simp [fires, held, gpioHandler_address]

/-- While the pin is masked, an edge only moves the clock. -/
theorem step_edge_masked {world next : World Callback} {now : Nat}
    (masked : world.port.interrupt = .disable) (stepped : step world ⟨now, .edge⟩ = some next) :
    next = { world with now := now } := by
  -- The driver calls nobody, whether the callback is linked or not.
  obtain ⟨_, rfl⟩ := step_edge.mp stepped
  exact edge_masked masked

/-- The timer expires exactly when it is due. -/
theorem step_expiry {world next : World Callback} {now : Nat} :
    step world ⟨now, .expiry⟩ = some next ↔
      world.Reaches now ∧ ∃ self, world.self = some self ∧
        self.debounceTimer.expiresAt = some now ∧
          next = ({ world with now := now } : World Callback).expire self := by
  -- Both an object and a deadline at this instant are needed.
  simp only [step]
  split
  · cases held : world.self with
    | none => simp
    | some self => by_cases due : self.debounceTimer.expiresAt = some now <;> simp_all [eq_comm]
  · simp_all

/-- A running timer that is not overdue can expire. -/
theorem exists_step_expiry {world : World Callback} {due : Nat}
    (pending : world.deadline = some due) (ahead : world.now ≤ due) :
    ∃ self, world.self = some self ∧
      step world ⟨due, .expiry⟩ =
        some (({ world with now := due } : World Callback).expire self) := by
  -- The deadline is the one of the object, and the clock does not pass it.
  obtain ⟨self, held, running⟩ := Option.bind_eq_some_iff.mp pending
  have reached : world.Reaches due := by
    refine ⟨ahead, fun other member => ?_⟩
    rw [pending] at member
    cases member
    exact Nat.le_refl _
  exact ⟨self, held, step_expiry.mpr ⟨reached, self, held, running, rfl⟩⟩

/-- An object is constructed once. -/
theorem step_construct {world next : World Callback} {now address : Nat}
    {debounceTime : KTimeout} {verdicts : Verdicts} :
    step world ⟨now, .construct address debounceTime verdicts⟩ = some next ↔
      world.Reaches now ∧ world.life = .unborn ∧
        next = ({ world with now := now } : World Callback).constructed address debounceTime
          verdicts := by
  -- The life of the object is the guard besides the clock.
  simp only [step]
  split <;> simp_all [eq_comm]

/-- A callback is registered with a live object. -/
theorem step_addOnPressCallback {world next : World Callback} {now : Nat} {callback : Callback} :
    step world ⟨now, .addOnPressCallback callback⟩ = some next ↔
      world.Reaches now ∧ world.life = .alive ∧ ∃ self, world.self = some self ∧
        next = { world with now := now, self := some (self.addOnPressCallback callback) } := by
  -- The object is matched on together with its life.
  obtain ⟨clock, port, life, self, log⟩ := world
  simp only [step]
  split
  · cases life <;> cases self <;> simp_all [eq_comm]
  · simp_all

/-- A live object is destroyed. -/
theorem step_destroy {world next : World Callback} {now : Nat} :
    step world ⟨now, .destroy⟩ = some next ↔
      world.Reaches now ∧ world.life = .alive ∧ ∃ self, world.self = some self ∧
        next = { world with now := now, port := self.destruct world.port, life := .dead } := by
  -- The object is matched on together with its life.
  obtain ⟨clock, port, life, self, log⟩ := world
  simp only [step]
  split
  · cases life <;> cases self <;> simp_all [eq_comm]
  · simp_all

end World
end Button
end Notus
