import Notus.Button
import Notus.Zephyr.GpioPort

/-! Several buttons on the pins of one port, which share the port's list of callbacks. -/

namespace Notus.Button

/-- Where the buttons of a port lie, and the pin that each of them has to itself. -/
structure Layout (Pin : Type*) where
  addresses : List Nat
  pin : Nat → Pin
  apart : ∀ one ∈ addresses, ∀ other ∈ addresses, pin one = pin other → one = other

/-- A happening concerns one button, or is an interrupt of the port for some of its pins. -/
inductive PanelHappening (Callback Pin : Type*) where
  | button (address : Nat) (happening : Happening Callback)
  | edges (pins : List Pin)
  deriving DecidableEq, Repr

/-- A happening of the panel at an instant. -/
structure PanelEvent (Callback Pin : Type*) where
  now : Nat
  happening : PanelHappening Callback Pin
  deriving DecidableEq, Repr

/-- The objects by their addresses, the port under them, and what was executed with which. -/
structure Panel (Callback Pin : Type*) where
  now : Nat
  port : GpioPort Pin
  life : Nat → Life
  self : Nat → Option (Button Callback)
  log : List (Nat × Execution Callback)

/-- What can happen to the button at an address, apart from edges, which come from the port. -/
def Happening.At {Callback : Type*} (address : Nat) : Happening Callback → Prop
  | .construct lies _ _ => lies = address
  | .edge => False
  | .addOnPressCallback _ | .destroy | .expiry => True

instance {Callback : Type*} (address : Nat) :
    (happening : Happening Callback) → Decidable (happening.At address)
  | .construct lies _ _ => inferInstanceAs (Decidable (lies = address))
  | .edge => isFalse not_false
  | .addOnPressCallback _ | .destroy | .expiry => isTrue trivial

namespace Panel

variable {Callback Pin : Type*} [DecidableEq Pin]

/-- A port before any button is constructed on its pins. -/
def initial (now : Nat) (port : GpioPort Pin) : Panel Callback Pin :=
  { now := now, port := port, life := fun _ => .unborn, self := fun _ => none, log := [] }

/-- The panel as one of its buttons deals with it, with nothing executed yet. -/
def focus (layout : Layout Pin) (panel : Panel Callback Pin) (address : Nat) : World Callback :=
  { now := panel.now
    port := panel.port.onPin (layout.pin address)
    life := panel.life address
    self := panel.self address
    log := [] }

/-- What a button has done, put back into the panel. -/
def restore (layout : Layout Pin) (panel : Panel Callback Pin) (address : Nat)
    (world : World Callback) : Panel Callback Pin :=
  { now := world.now
    port := panel.port.put (layout.pin address) world.port
    life := Function.update panel.life address world.life
    self := Function.update panel.self address world.self
    log := panel.log ++ world.log.map fun execution => (address, execution) }

/-- The driver calls a callback, which finds its button by its own address. -/
def zephyrCallback (layout : Layout Pin) (panel : Panel Callback Pin) (address : Nat) :
    Panel Callback Pin :=
  match panel.self address with
  | none => panel
  | some self =>
    let (self, port) := self.gpioHandler panel.now (panel.port.onPin (layout.pin address))
    panel.restore layout address
      { panel.focus layout address with
        port := port, self := some self, log := [.gpioHandler panel.now] }

/-- The callbacks that are linked when the interrupt comes are called, each for its own pin. -/
def gpioFireCallbacks (layout : Layout Pin) (panel : Panel Callback Pin) (pins : List Pin) :
    Panel Callback Pin :=
  -- A callback that unlinks itself while it is called does not disturb the others.
  let pending := panel.port.pending pins
  (panel.port.callbacks.addresses.filter fun address => layout.pin address ∈ pending).foldl
    (zephyrCallback layout) panel

/-- Time goes on, and not past the deadline of any button's timer. -/
def Reaches (layout : Layout Pin) (panel : Panel Callback Pin) (now : Nat) : Prop :=
  panel.now ≤ now ∧ ∀ address ∈ layout.addresses, ∀ due ∈ (panel.focus layout address).deadline,
    now ≤ due

instance (layout : Layout Pin) (panel : Panel Callback Pin) (now : Nat) :
    Decidable (panel.Reaches layout now) :=
  inferInstanceAs (Decidable (_ ∧ _))

/-- No button that is gone has left its timer running. -/
def Defined (layout : Layout Pin) (panel : Panel Callback Pin) : Prop :=
  ∀ address ∈ layout.addresses, panel.life address = .dead →
    (panel.focus layout address).deadline = none

instance (layout : Layout Pin) (panel : Panel Callback Pin) : Decidable (panel.Defined layout) :=
  inferInstanceAs (Decidable (∀ _ ∈ _, _))

/-- One happening on the panel at its instant, refused where it cannot occur. -/
def step (layout : Layout Pin) : Machine (Panel Callback Pin) (PanelEvent Callback Pin) :=
  fun panel event =>
    -- The kernel keeps a running timer in a list, and nobody knows what becomes of the list when
    -- the memory of the timer is gone.
    if panel.Defined layout ∧ panel.Reaches layout event.now then
      let panel := { panel with now := event.now }
      match event.happening with
      | .edges pins => some (panel.gpioFireCallbacks layout pins)
      | .button address happening =>
        -- Every button does to its own pin what it would do alone.
        if address ∈ layout.addresses ∧ happening.At address then
          (World.step (panel.focus layout address) ⟨event.now, happening⟩).map
            (panel.restore layout address)
        else none
    else none

end Panel
end Notus.Button
