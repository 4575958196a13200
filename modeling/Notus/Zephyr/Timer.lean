import Mathlib.Data.Nat.Notation

/-! The kernel timer: started for one delay, and counting its expiries until the count is read. -/

namespace Notus

/-- A timeout is endless or a number of ticks. -/
inductive KTimeout where
  | forever
  | ticks (count : Nat)
  deriving DecidableEq, Repr

/-- The status counts expiries since it was last read, and a running timer has a deadline. -/
structure KTimer where
  status : Nat
  expiresAt : Option Nat
  deriving DecidableEq, Repr

/-- An initialised timer is stopped and has not expired. -/
def kTimerInit : KTimer :=
  -- Only a start gives it a deadline.
  { status := 0, expiresAt := none }

namespace KTimer

/-- Starting arms the timer and clears its status, and an endless delay starts nothing. -/
def start (timer : KTimer) (now : Nat) (duration : KTimeout) : KTimer :=
  match duration with
  | .forever => timer
  -- The count of expiries begins anew with every start.
  | .ticks count => { status := 0, expiresAt := some (now + count) }

/-- Reading the status clears it. -/
def statusGet (timer : KTimer) : Nat × KTimer :=
  -- The old count is the answer, and nobody can read it a second time.
  (timer.status, { timer with status := 0 })

/-- A one-shot timer that expires is counted once and stops. -/
def expire (timer : KTimer) : KTimer :=
  -- Without a period there is no next deadline.
  { status := timer.status + 1, expiresAt := none }

end KTimer
end Notus
