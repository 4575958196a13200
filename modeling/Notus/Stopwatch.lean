import Notus.Chrono
import Notus.Core.Transducer

/-! The stopwatch, with the instant its uptime clock shows passed to every call. -/

namespace Notus

/-- The fields of the class, with the values its default construction gives them. -/
structure Stopwatch where
  -- The epoch of the uptime clock, not an instant at which the watch was started.
  startTp : Microseconds := ⟨0⟩
  timeBeforePause : Microseconds := ⟨0⟩
  isPaused : Bool := false
  deriving DecidableEq, Repr

namespace Stopwatch

/-- The open segment begins now, whatever it was before. -/
def start (watch : Stopwatch) (now : Microseconds) : Stopwatch :=
  -- The bank stays, and a segment that was open is forgotten.
  { watch with startTp := now, isPaused := false }

/-- The banked time, with the open segment added while running, cut to whole milliseconds. -/
def getTime (watch : Stopwatch) (now : Microseconds) : Milliseconds :=
  -- All arithmetic is in microseconds, and only the result is cut.
  let timePassed :=
    if watch.isPaused then watch.timeBeforePause
    else now - watch.startTp + watch.timeBeforePause
  timePassed.durationCast

/-- A running watch banks the milliseconds it shows, and a paused one is left alone. -/
def pause (watch : Stopwatch) (now : Microseconds) : Stopwatch :=
  if !watch.isPaused then
    -- The bank counts microseconds, but what is stored has already been cut to milliseconds.
    { watch with timeBeforePause := (watch.getTime now).toMicroseconds, isPaused := true }
  else watch

/-- The bank is emptied and a segment begins, also when the watch was paused. -/
def reset (watch : Stopwatch) (now : Microseconds) : Stopwatch :=
  { watch with timeBeforePause := ⟨0⟩ }.start now

/-- The four members of the interface. -/
inductive Operation where
  | start
  | pause
  | reset
  | getTime
  deriving DecidableEq, Repr

/-- A member called at an instant of the uptime clock. -/
structure Call where
  operation : Operation
  now : Microseconds
  deriving DecidableEq, Repr

/-- One call, which answers with a time only when it asks for one. -/
def call : Transducer Stopwatch Call (Option Milliseconds) := fun watch made =>
  -- The clock shows the same instant throughout one call.
  match made.operation with
  | .start => (watch.start made.now, none)
  | .pause => (watch.pause made.now, none)
  | .reset => (watch.reset made.now, none)
  | .getTime => (watch, some (watch.getTime made.now))

/-- The times a sequence of calls reads, in call order. -/
def readings (watch : Stopwatch) (calls : List Call) : List Milliseconds :=
  -- Calls that answer nothing leave no trace in the list.
  (call.answers watch calls).reduceOption

/-- A sequence made in two parts reads the second part from where the first leaves the watch. -/
theorem readings_append (watch : Stopwatch) (before after : List Call) :
    watch.readings (before ++ after) =
      watch.readings before ++ (call.final watch before).readings after := by
  -- Only calls of getTime are answered.
  simp only [readings, Transducer.answers_append, List.reduceOption_append]

/-- The head's answer is read first, when it is a time. -/
theorem readings_cons (watch : Stopwatch) (made : Call) (rest : List Call) :
    watch.readings (made :: rest) =
      (call watch made).2.toList ++ (call watch made).1.readings rest := by
  -- A call that answers nothing contributes the empty list.
  cases answer : (call watch made).2 <;>
    simp [readings, answer, List.reduceOption_cons_of_some, List.reduceOption_cons_of_none]

/-- Where the open segment began, on a watch that has one. -/
def openedAt (watch : Stopwatch) : Option Int :=
  if watch.isPaused then none else some watch.startTp.count

/-- The length of an open segment so far, and nothing where none is open. -/
def openTime (opened : Option Int) (now : Int) : Int :=
  match opened with
  | some since => now - since
  | none => 0

@[simp] theorem openTime_some (since now : Int) : openTime (some since) now = now - since := rfl

@[simp] theorem openTime_none (now : Int) : openTime none now = 0 := rfl

@[simp] theorem openedAt_start (watch : Stopwatch) (now : Microseconds) :
    (watch.start now).openedAt = some now.count := rfl

@[simp] theorem openedAt_reset (watch : Stopwatch) (now : Microseconds) :
    (watch.reset now).openedAt = some now.count := rfl

@[simp] theorem openedAt_pause (watch : Stopwatch) (now : Microseconds) :
    (watch.pause now).openedAt = none := by
  -- After a pause the watch is paused, whether or not it was before.
  cases paused : watch.isPaused <;> simp [pause, openedAt, paused]

@[simp] theorem timeBeforePause_start (watch : Stopwatch) (now : Microseconds) :
    (watch.start now).timeBeforePause = watch.timeBeforePause := rfl

@[simp] theorem timeBeforePause_reset (watch : Stopwatch) (now : Microseconds) :
    (watch.reset now).timeBeforePause = ⟨0⟩ := rfl

/-- The bank holds whole milliseconds, and an open segment did not begin in the future. -/
structure Sound (watch : Stopwatch) (clock : Int) : Prop where
  whole : watch.timeBeforePause.count % 1000 = 0
  forward : 0 ≤ watch.timeBeforePause.count
  begun : ∀ since, watch.openedAt = some since → since ≤ clock

/-- An open segment never has a negative length. -/
theorem Sound.openTime_nonneg {watch : Stopwatch} {clock now : Int} (sound : watch.Sound clock)
    (later : clock ≤ now) : 0 ≤ openTime watch.openedAt now := by
  -- A closed segment counts nothing, and an open one began no later than the clock shows.
  cases opened : watch.openedAt with
  | none => simp
  | some since =>
    have begun := sound.begun since opened
    simp only [openTime_some]
    omega

/-- A reading is the floor of the bank and the open segment. -/
theorem getTime_count {watch : Stopwatch} {clock : Int} (sound : watch.Sound clock)
    {now : Microseconds} (later : clock ≤ now.count) :
    (watch.getTime now).count =
      (watch.timeBeforePause.count + openTime watch.openedAt now.count) / 1000 := by
  -- The flag decides whether the open segment counts, just as it decides whether there is one.
  have forward := sound.forward
  have nonneg := sound.openTime_nonneg later
  cases paused : watch.isPaused with
  | true =>
    have opened : watch.openedAt = none := by simp [openedAt, paused]
    simp only [getTime, paused, if_true, Microseconds.durationCast_count forward, opened,
      openTime_none, Int.add_zero]
  | false =>
    have opened : watch.openedAt = some watch.startTp.count := by simp [openedAt, paused]
    rw [opened, openTime_some] at nonneg ⊢
    -- Neither summand is negative, so the truncating cast is the floor.
    have total : 0 ≤ (now - watch.startTp + watch.timeBeforePause).count := by
      simp only [Microseconds.count_add, Microseconds.count_sub]
      omega
    simp only [getTime, paused, Bool.false_eq_true, if_false,
      Microseconds.durationCast_count total, Microseconds.count_add, Microseconds.count_sub]
    congr 1
    omega

/-- Pausing banks the open segment without what it holds beyond whole milliseconds. -/
theorem pause_bank {watch : Stopwatch} {clock : Int} (sound : watch.Sound clock)
    {now : Microseconds} (later : clock ≤ now.count) :
    (watch.pause now).timeBeforePause.count = watch.timeBeforePause.count +
      openTime watch.openedAt now.count - openTime watch.openedAt now.count % 1000 := by
  -- A paused watch has no open segment, and a running one banks what it reads.
  have whole := sound.whole
  cases paused : watch.isPaused with
  | true =>
    have opened : watch.openedAt = none := by simp [openedAt, paused]
    simp [pause, paused, opened]
  | false =>
    have banked : (watch.pause now).timeBeforePause.count = (watch.getTime now).count * 1000 := by
      simp [pause, paused]
    -- The bank is a multiple of 1000, so only the open segment loses its remainder.
    rw [banked, getTime_count sound later]
    omega

/-- Every call made in order leaves a sound watch behind. -/
theorem call_sound {watch : Stopwatch} {clock : Int} (sound : watch.Sound clock) (made : Call)
    (later : clock ≤ made.now.count) : (call watch made).1.Sound made.now.count := by
  -- Starting and resetting open a segment now, and only a pause changes the bank by counting.
  have forward := sound.forward
  have whole := sound.whole
  rcases made with ⟨operation, now⟩
  replace later : clock ≤ now.count := later
  cases operation with
  | start => exact ⟨whole, forward, by rintro since ⟨⟩; exact le_rfl⟩
  | reset => exact ⟨rfl, le_rfl, by rintro since ⟨⟩; exact le_rfl⟩
  | getTime => exact ⟨whole, forward, fun since opened => (sound.begun since opened).trans later⟩
  | pause =>
    have banked := pause_bank sound later
    have nonneg := sound.openTime_nonneg later
    -- What is left of the segment is a whole number of milliseconds and not negative.
    refine ⟨?_, ?_, by simp [call]⟩
    · simp only [call, banked]; omega
    · simp only [call, banked]; omega

/-- A default construction is sound from boot on: it runs since the epoch of the clock. -/
theorem sound_default : ({} : Stopwatch).Sound 0 :=
  -- Both of its times are zero.
  ⟨rfl, le_rfl, by rintro since ⟨⟩; exact le_rfl⟩

/-- Its first start makes a watch sound from then on, whatever the clock shows. -/
theorem sound_started (first : Microseconds) :
    (({} : Stopwatch).start first).Sound first.count :=
  -- The bank is still empty, and the segment begins at this very instant.
  ⟨rfl, le_rfl, by rintro since ⟨⟩; exact le_rfl⟩

/-- The open segment of a new watch has the length of the uptime. -/
@[simp] theorem openTime_default (now : Int) : openTime ({} : Stopwatch).openedAt now = now := by
  -- Its start is the epoch.
  simp [openedAt]

end Stopwatch
end Notus
