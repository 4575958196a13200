import Mathlib.Logic.Function.Basic
import Notus.Zephyr.Gpio

/-! A port with several pins, which share one list of callbacks. -/

namespace Notus

/-- What the driver keeps for each pin of a port, and the callbacks of all of them. -/
structure GpioPort (Pin : Type*) where
  isInput : Pin → Bool
  interrupt : Pin → GpioInterrupt
  callbacks : CallbackList

namespace GpioPort

variable {Pin : Type*} [DecidableEq Pin]

/-- The port as a user of one pin deals with it. -/
def onPin (port : GpioPort Pin) (pin : Pin) : Port :=
  { isInput := port.isInput pin, interrupt := port.interrupt pin, callbacks := port.callbacks }

/-- What a user of one pin has done to the port. -/
def put (port : GpioPort Pin) (pin : Pin) (changed : Port) : GpioPort Pin :=
  -- The other pins are configured as before, but the list of callbacks is everybody's.
  { isInput := Function.update port.isInput pin changed.isInput
    interrupt := Function.update port.interrupt pin changed.interrupt
    callbacks := changed.callbacks }

/-- An edge is noticed on a pin whose interrupt is on. -/
def pending (port : GpioPort Pin) (pins : List Pin) : List Pin :=
  pins.filter fun pin => port.interrupt pin = .edgeBoth

/-- The user of a pin finds there what it has done. -/
@[simp] theorem onPin_put (port : GpioPort Pin) (pin : Pin) (changed : Port) :
    (port.put pin changed).onPin pin = changed := by
  -- The pin and the list are put back where they were taken from.
  simp [onPin, put]

/-- The user of another pin finds only the list of callbacks changed. -/
theorem onPin_put_ne {pin other : Pin} (apart : other ≠ pin) (port : GpioPort Pin)
    (changed : Port) :
    (port.put pin changed).onPin other =
      { port.onPin other with callbacks := changed.callbacks } := by
  -- The list belongs to the port and not to the pin.
  simp [onPin, put, apart]

end GpioPort
end Notus
