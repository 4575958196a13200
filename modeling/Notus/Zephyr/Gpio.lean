import Mathlib.Data.List.Nodup

/-! The pin a button is on, as the driver keeps it, with the callbacks of the pin's port. -/

namespace Notus

/-- The interrupt of a pin is off, or raised by both edges. -/
inductive GpioInterrupt where
  | disable
  | edgeBoth
  deriving DecidableEq, Repr

/-- The callbacks of a port, by address, of which the driver never links one twice. -/
structure CallbackList where
  addresses : List Nat
  linkedOnce : addresses.Nodup
  deriving DecidableEq

namespace CallbackList

/-- No callback is linked. -/
def empty : CallbackList :=
  { addresses := [], linkedOnce := List.nodup_nil }

/-- Adding takes the callback out first, in case it is already linked. -/
def add (callbacks : CallbackList) (address : Nat) : CallbackList where
  -- The newest callback comes first in the list.
  addresses := address :: callbacks.addresses.erase address
  linkedOnce := List.nodup_cons.mpr
    ⟨callbacks.linkedOnce.not_mem_erase, callbacks.linkedOnce.erase address⟩

/-- Removing a callback that is not linked changes nothing. -/
def remove (callbacks : CallbackList) (address : Nat) : CallbackList where
  addresses := callbacks.addresses.erase address
  linkedOnce := callbacks.linkedOnce.erase address

@[simp] theorem mem_add (callbacks : CallbackList) (address : Nat) :
    address ∈ (callbacks.add address).addresses := List.mem_cons_self

@[simp] theorem not_mem_remove (callbacks : CallbackList) (address : Nat) :
    address ∉ (callbacks.remove address).addresses := callbacks.linkedOnce.not_mem_erase

end CallbackList

/-- What the driver keeps for the pin and its port. -/
structure Port where
  isInput : Bool
  interrupt : GpioInterrupt
  callbacks : CallbackList
  deriving DecidableEq

namespace Port

/-- A driver call that fails reports its code and changes nothing. -/
def answer (port : Port) (verdict : Int) (changed : Port) : Int × Port :=
  -- The verdict stands for whatever the hardware makes the driver answer.
  if verdict = 0 then (0, changed) else (verdict, port)

/-- The pin becomes an input. -/
def pinConfigureInput (port : Port) (verdict : Int) : Int × Port :=
  port.answer verdict { port with isInput := true }

/-- The interrupt of the pin is set. -/
def interruptConfigure (port : Port) (mode : GpioInterrupt) (verdict : Int) : Int × Port :=
  port.answer verdict { port with interrupt := mode }

/-- A callback is linked into the port's list. -/
def addCallback (port : Port) (address : Nat) (verdict : Int) : Int × Port :=
  port.answer verdict { port with callbacks := port.callbacks.add address }

/-- A callback is taken out of the port's list. -/
def removeCallback (port : Port) (address : Nat) (verdict : Int) : Int × Port :=
  port.answer verdict { port with callbacks := port.callbacks.remove address }

/-- An edge reaches a callback when the interrupt is on and the callback is linked. -/
def Fires (port : Port) (address : Nat) : Prop :=
  -- Both conditions have to hold, so either of them is enough to silence a callback.
  port.interrupt = .edgeBoth ∧ address ∈ port.callbacks.addresses

instance (port : Port) (address : Nat) : Decidable (port.Fires address) :=
  inferInstanceAs (Decidable (_ ∧ _))

end Port
end Notus
