import Notus.Core.Machine

/-! The type state sample: handles of one pin, whose types say how the pin is configured. -/

namespace Notus.TypeState

/-- The types a handle is made for. -/
inductive TState where
  | input
  | ouput
  | unconfigured
  deriving DecidableEq, Repr

/-- How the driver has configured the pin. -/
inductive GpioFlags where
  | input
  | output
  | disconnected
  deriving DecidableEq, Repr

/-- The configuration that the constructor of each class asks the driver for. -/
def TState.flags : TState → GpioFlags
  | .input => .input
  | .ouput => .output
  | .unconfigured => .disconnected

/-- A handle, which is spent once another has been made from it. -/
structure Gpio (state : TState) where
  hasBeenConfigured : Bool
  deriving DecidableEq, Repr

namespace Gpio

/-- The constructors configure the pin, and what the driver answers is not looked at. -/
def construct (state : TState) : GpioFlags × Gpio state :=
  (state.flags, { hasBeenConfigured := false })

/-- A handle that is not spent is spent for one of another type. -/
def configure {state : TState} (made : TState) (self : Gpio state) (pin : GpioFlags) :
    GpioFlags × Gpio state × Option (Gpio made) :=
  if !self.hasBeenConfigured then
    let self : Gpio state := { hasBeenConfigured := true }
    -- The new handle is constructed, and so the pin is configured anew.
    let (pin, handle) := construct made
    (pin, self, some handle)
  else (pin, self, none)

/-- What the driver reads is compared with one. -/
def getState (self : Gpio .input) (pinGet : Int) : Option Bool :=
  if !self.hasBeenConfigured then some (pinGet = 1) else none

/-- What is written to the pin, and what is returned: the driver's answer to the write. -/
def setState (self : Gpio .ouput) (state : Bool) (pinSet : Int) : Option Bool × Option Int :=
  if !self.hasBeenConfigured then (some state, some pinSet) else (none, none)

/-- The reconfiguration of an input. -/
def inputConfigureAsOutput (self : Gpio .input) (pin : GpioFlags) :=
  self.configure .ouput pin

/-- The reconfiguration of an output. -/
def ouputConfigureAsInput (self : Gpio .ouput) (pin : GpioFlags) :=
  self.configure .input pin

/-- One of the two configurations of a pin that has none. -/
def unconfiguredConfigureAsInput (self : Gpio .unconfigured) (pin : GpioFlags) :=
  self.configure .input pin

/-- The other one. -/
def unconfiguredConfigureAsOutput (self : Gpio .unconfigured) (pin : GpioFlags) :=
  self.configure .ouput pin

/-- A spent handle is left alone, and so is the pin. -/
theorem configure_spent {state made : TState} {self : Gpio state} {pin : GpioFlags}
    (spent : self.hasBeenConfigured = true) : self.configure made pin = (pin, self, none) := by
  -- The flag of the handle is looked at before anything else.
  simp [configure, spent]

/-- A handle that is not spent configures the pin for the one made from it. -/
theorem configure_unspent {state made : TState} {self : Gpio state} {pin : GpioFlags}
    (unspent : self.hasBeenConfigured = false) :
    self.configure made pin = (made.flags, ⟨true⟩, some ⟨false⟩) := by
  -- The handle is spent by the call, and the one made from it is not.
  simp [configure, construct, unspent]

end Gpio

/-- A variable of the program: an optional handle of a type that does not change. -/
structure Slot where
  state : TState
  handle : Option (Gpio state)
  deriving DecidableEq

/-- A variable holds a handle that is not spent. -/
def Slot.unspent (slot : Slot) : Bool :=
  slot.handle.any fun self => !self.hasBeenConfigured

/-- The pin, and every variable a handle of it has been put into. -/
structure World where
  pin : GpioFlags
  slots : List Slot
  deriving DecidableEq

/-- What a program can do with its variables. -/
inductive Operation where
  | configureAsInput (slot : Nat)
  | configureAsOutput (slot : Nat)
  | getState (slot : Nat) (pinGet : Int)
  | setState (slot : Nat) (state : Bool) (pinSet : Int)
  /-- A new variable is initialised from another. -/
  | copy (slot : Nat)
  | assign (source target : Nat)
  /-- A variable is emptied, or goes out of scope. -/
  | reset (slot : Nat)
  deriving DecidableEq, Repr

namespace World

/-- One handle for a pin without a configuration. -/
def initial : World :=
  let (pin, handle) := Gpio.construct .unconfigured
  { pin := pin, slots := [⟨.unconfigured, some handle⟩] }

/-- The old handle stays in its variable, and the optional that is returned gets a new one. -/
def reconfigured {state made : TState} (world : World) (slot : Nat)
    (result : GpioFlags × Gpio state × Option (Gpio made)) : World :=
  let (pin, self, returned) := result
  { pin := pin, slots := world.slots.set slot ⟨state, some self⟩ ++ [⟨made, returned⟩] }

/-- One operation, refused where a variable is missing, empty or of another type. -/
def step : Machine World Operation := fun world operation =>
  match operation with
  | .configureAsInput slot =>
    match world.slots[slot]? with
    | some ⟨.ouput, some self⟩ =>
      some (world.reconfigured slot (self.ouputConfigureAsInput world.pin))
    | some ⟨.unconfigured, some self⟩ =>
      some (world.reconfigured slot (self.unconfiguredConfigureAsInput world.pin))
    | _ => none
  | .configureAsOutput slot =>
    match world.slots[slot]? with
    | some ⟨.input, some self⟩ =>
      some (world.reconfigured slot (self.inputConfigureAsOutput world.pin))
    | some ⟨.unconfigured, some self⟩ =>
      some (world.reconfigured slot (self.unconfiguredConfigureAsOutput world.pin))
    | _ => none
  -- Reading and writing the pin changes no handle.
  | .getState slot _ =>
    match world.slots[slot]? with
    | some ⟨.input, some _⟩ => some world
    | _ => none
  | .setState slot _ _ =>
    match world.slots[slot]? with
    | some ⟨.ouput, some _⟩ => some world
    | _ => none
  | .copy slot => world.slots[slot]?.map fun copied =>
      { world with slots := world.slots ++ [copied] }
  | .assign source target =>
    match world.slots[source]?, world.slots[target]? with
    | some assigned, some old =>
      if assigned.state = old.state then
        some { world with slots := world.slots.set target assigned }
      else none
    | _, _ => none
  | .reset slot => world.slots[slot]?.map fun old =>
      { world with slots := world.slots.set slot ⟨old.state, none⟩ }

end World
end Notus.TypeState
