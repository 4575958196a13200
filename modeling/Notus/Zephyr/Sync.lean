import Mathlib.Data.Int.Notation
import Notus.Core.Bounded

/-! Message queues and semaphores of the kernel. -/

namespace Notus

/-- A queue of at most so many messages. -/
abbrev KMsgq (Msg : Type*) (maxMsgs : Nat) := Bounded Msg maxMsgs

/-- The code of a put without waiting into a full queue. -/
def enomsg : Int := 35

/-- Without waiting, a message that finds no room is refused, and the queue stays as it is. -/
def kMsgqPut {Msg : Type*} {maxMsgs : Nat} (msgq : KMsgq Msg maxMsgs) (msg : Msg) :
    KMsgq Msg maxMsgs × Int :=
  -- Nobody is made to wait, so a full queue is answered at once.
  match msgq.put msg with
  | some msgq => (msgq, 0)
  | none => (msgq, -enomsg)

/-- Purging drops all messages. -/
def kMsgqPurge {Msg : Type*} {maxMsgs : Nat} (_ : KMsgq Msg maxMsgs) : KMsgq Msg maxMsgs :=
  Bounded.empty

/-- A put is answered with success when there was room, and then the message is the last one. -/
theorem kMsgqPut_cases {Msg : Type*} {maxMsgs : Nat} (msgq : KMsgq Msg maxMsgs) (msg : Msg) :
    (msgq.items.length < maxMsgs ∧ (kMsgqPut msgq msg).2 = 0 ∧
        (kMsgqPut msgq msg).1.items = msgq.items ++ [msg]) ∨
      (msgq.items.length = maxMsgs ∧ (kMsgqPut msgq msg).2 = -enomsg ∧
        (kMsgqPut msgq msg).1 = msgq) := by
  -- The queue has room or it is full, and the answer says which.
  unfold kMsgqPut
  cases stored : msgq.put msg with
  | some next =>
    obtain ⟨room, items⟩ := Bounded.put_eq_some.mp stored
    exact .inl ⟨room, rfl, items⟩
  | none => exact .inr ⟨Bounded.put_eq_none.mp stored, rfl, rfl⟩

/-- What is in a queue after a put was there before, or is the message. -/
theorem mem_kMsgqPut {Msg : Type*} {maxMsgs : Nat} {msgq : KMsgq Msg maxMsgs} {msg other : Msg}
    (member : other ∈ (kMsgqPut msgq msg).1.items) : other ∈ msgq.items ∨ other = msg := by
  -- A refused message is in no queue.
  rcases kMsgqPut_cases msgq msg with ⟨_, _, stored⟩ | ⟨_, _, same⟩
  · simpa [stored] using member
  · exact .inl (same ▸ member)

/-- A semaphore counts what was given and not yet taken, up to its limit. -/
structure KSem where
  count : Nat
  limit : Nat
  within : count ≤ limit
  deriving DecidableEq

namespace KSem

/-- A semaphore starts with a count that is within its limit. -/
def init (count limit : Nat) (within : count ≤ limit) : KSem :=
  { count := count, limit := limit, within := within }

/-- Giving adds one, unless the limit is reached. -/
def give (sem : KSem) : KSem :=
  -- A semaphore at its limit stays there, and the giver is not told.
  { sem with
    count := min (sem.count + 1) sem.limit
    within := Nat.min_le_right _ _ }

/-- Taking waits until the count is not zero. -/
def take (sem : KSem) : Option KSem :=
  if sem.count = 0 then none
  else some
    { sem with
      count := sem.count - 1
      within := Nat.le_trans (Nat.sub_le _ _) sem.within }

/-- What was taken had been given. -/
theorem take_eq_some {sem taken : KSem} (took : sem.take = some taken) :
    sem.count ≠ 0 ∧ taken.count = sem.count - 1 := by
  -- A semaphore at zero has nothing to take.
  unfold take at took
  split at took
  · cases took
  · rename_i given
    cases took
    exact ⟨given, rfl⟩

/-- Taking leaves the limit as it is. -/
theorem take_limit {sem taken : KSem} (took : sem.take = some taken) :
    taken.limit = sem.limit := by
  -- Only the count goes down.
  unfold take at took
  split at took
  · cases took
  · cases took
    rfl

/-- A semaphore that can be given at all has something to take afterwards. -/
theorem give_ne_zero {sem : KSem} (limit : 0 < sem.limit) : sem.give.count ≠ 0 := by
  -- The count is one more, or at its limit.
  show min (sem.count + 1) sem.limit ≠ 0
  omega

/-- What is there can be taken. -/
theorem exists_take {sem : KSem} (given : sem.count ≠ 0) : ∃ taken, sem.take = some taken :=
  -- Taking fails at zero only.
  ⟨_, if_neg given⟩

/-- Giving once adds at most one. -/
theorem give_le (sem : KSem) : sem.give.count ≤ sem.count + 1 :=
  -- It adds nothing at the limit.
  Nat.min_le_left _ _

end KSem
end Notus
