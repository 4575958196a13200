import Notus.Stopwatch
import Mathlib.Algebra.Order.BigOperators.Group.List
import Mathlib.Algebra.Order.Ring.Int

/-! The time a pause cuts off is never given back, and the readings show when it adds up. -/

namespace Notus

/--
What an exact stopwatch remembers of a sequence of calls.

It keeps the length of every segment closed since the last reset, in microseconds.
-/
structure ExactWatch where
  clock : Int
  closed : List Int
  openedAt : Option Int
  deriving DecidableEq, Repr

/-- An exact time read off, with the sub-millisecond parts of the segments that make it up. -/
structure ExactReading where
  running : Int
  dropped : Int
  deriving DecidableEq, Repr

namespace ExactWatch

/-- The watch just after its first start. -/
def started (first : Microseconds) : ExactWatch :=
  -- The first start opens a segment, and none has been closed.
  { clock := first.count, closed := [], openedAt := some first.count }

/-- Everything that lies between a start or reset and the following pause, or now. -/
def running (watch : ExactWatch) (now : Int) : Int :=
  watch.closed.sum + match watch.openedAt with
    | some since => now - since
    -- While paused no segment is open, so time stands still.
    | none => 0

/-- The parts of the closed segments below a whole millisecond. -/
def dropped (watch : ExactWatch) : Int :=
  (watch.closed.map (· % 1000)).sum

/-- The four members, on exact time. -/
def call : Transducer ExactWatch Stopwatch.Call (Option ExactReading) := fun watch made =>
  -- Every call is seen by the clock, also one that changes nothing else.
  let seen := { watch with clock := made.now.count }
  match made.operation with
  | .start => ({ seen with openedAt := some made.now.count }, none)
  | .pause =>
    match watch.openedAt with
    | some since =>
      ({ seen with closed := watch.closed ++ [made.now.count - since], openedAt := none }, none)
    -- A pause while paused closes nothing.
    | none => (seen, none)
  | .reset => ({ seen with closed := [], openedAt := some made.now.count }, none)
  | .getTime => (seen, some ⟨watch.running made.now.count, watch.dropped⟩)

/-- A pause closes the open segment with the length it has reached. -/
theorem call_pause_some {watch : ExactWatch} {since : Int} {now : Microseconds}
    (opened : watch.openedAt = some since) :
    (call watch ⟨.pause, now⟩).1 =
      { clock := now.count, closed := watch.closed ++ [now.count - since], openedAt := none } := by
  -- What was open is now the last of the closed segments.
  simp [call, opened]

/-- Where no segment is open, a pause only looks at the clock. -/
theorem call_pause_none {watch : ExactWatch} {now : Microseconds}
    (opened : watch.openedAt = none) :
    (call watch ⟨.pause, now⟩).1 = { watch with clock := now.count } := by
  -- There is nothing to close.
  simp [call, opened]

/-- Time does not run back, and a start comes only while no segment is open. -/
def Allows (watch : ExactWatch) (made : Stopwatch.Call) : Prop :=
  -- Pauses and resets may be repeated freely.
  watch.clock ≤ made.now.count ∧ (made.operation = .start → watch.openedAt = none)

instance (watch : ExactWatch) (made : Stopwatch.Call) : Decidable (watch.Allows made) :=
  inferInstanceAs (Decidable (_ ∧ _))

/-- The exact times a sequence of calls should read. -/
def readings (watch : ExactWatch) (calls : List Stopwatch.Call) : List ExactReading :=
  (call.answers watch calls).reduceOption

end ExactWatch

namespace Stopwatch

/-- The bank holds the closed segments of the exact watch, each cut to whole milliseconds. -/
structure Tracks (watch : Stopwatch) (exact : ExactWatch) : Prop where
  sound : watch.Sound exact.clock
  opened : watch.openedAt = exact.openedAt
  bank : watch.timeBeforePause.count = exact.closed.sum - exact.dropped

/-- A reading is the exact time without what the pauses dropped, in whole milliseconds. -/
theorem getTime_tracks {watch : Stopwatch} {exact : ExactWatch} (tracks : watch.Tracks exact)
    {now : Microseconds} (later : exact.clock ≤ now.count) :
    (watch.getTime now).count = (exact.running now.count - exact.dropped) / 1000 := by
  rw [getTime_count tracks.sound later, tracks.bank, tracks.opened]
  -- Both sides add the same open segment to the closed ones.
  cases opened : exact.openedAt <;> simp only [ExactWatch.running, opened, openTime] <;>
    congr 1 <;> omega

/-- Closing a segment adds its length to the sum, and its remainder to what is dropped. -/
theorem pause_tracks {watch : Stopwatch} {exact : ExactWatch} (tracks : watch.Tracks exact)
    {now : Microseconds} (later : exact.clock ≤ now.count) :
    (watch.pause now).Tracks (exact.call ⟨.pause, now⟩).1 := by
  -- The bank grows by the length of the open segment without its remainder.
  have sound := call_sound tracks.sound ⟨.pause, now⟩ later
  have banked := pause_bank tracks.sound later
  have bank := tracks.bank
  cases opened : exact.openedAt with
  | some since =>
    rw [ExactWatch.call_pause_some opened]
    refine ⟨sound, openedAt_pause watch now, ?_⟩
    rw [banked, tracks.opened, opened, bank]
    -- The sum of lengths and the sum of remainders both grow by the segment that is closed.
    simp only [ExactWatch.dropped, List.map_append, List.sum_append, List.map_cons, List.map_nil,
      List.sum_cons, List.sum_nil, openTime_some]
    omega
  | none =>
    -- A repeated pause is guarded by the flag, so the bank stays as it is.
    rw [ExactWatch.call_pause_none opened]
    refine ⟨sound, (openedAt_pause watch now).trans opened.symm, ?_⟩
    rw [banked, tracks.opened, opened, bank]
    simp only [openTime_none, ExactWatch.dropped]
    omega

/-- One allowed call keeps the code on the exact watch, and answers the kept time. -/
theorem call_tracks (watch : Stopwatch) (exact : ExactWatch) (made : Call)
    (tracks : watch.Tracks exact) (allowed : exact.Allows made) :
    (call watch made).1.Tracks (exact.call made).1 ∧
      (call watch made).2 = (exact.call made).2.map
        fun seen => ⟨(seen.running - seen.dropped) / 1000⟩ := by
  -- Only a pause changes the closed segments without emptying them.
  obtain ⟨later, paused⟩ := allowed
  have sound := call_sound tracks.sound made later
  rcases made with ⟨operation, now⟩
  cases operation with
  | start => exact ⟨⟨sound, rfl, tracks.bank⟩, rfl⟩
  | reset => exact ⟨⟨sound, rfl, rfl⟩, rfl⟩
  | getTime =>
    refine ⟨⟨sound, tracks.opened, tracks.bank⟩, ?_⟩
    show some (watch.getTime now) = some ⟨(exact.running now.count - exact.dropped) / 1000⟩
    exact congrArg some (congrArg Milliseconds.mk (getTime_tracks tracks later))
  | pause =>
    refine ⟨pause_tracks tracks later, ?_⟩
    cases opened : exact.openedAt <;> simp [call, ExactWatch.call, opened]

/-- Every reading of an allowed run is the exact time without what the pauses dropped. -/
theorem readings_kept {first : Microseconds} {calls : List Call}
    (allowed : ExactWatch.call.Meets ExactWatch.Allows (.started first) calls) :
    ({} : Stopwatch).readings (⟨.start, first⟩ :: calls) =
      ((ExactWatch.started first).readings calls).map
        fun seen => ⟨(seen.running - seen.dropped) / 1000⟩ := by
  -- The first start answers nothing, so the readings are those of the started watch.
  have begun : (({} : Stopwatch).start first).Tracks (.started first) :=
    ⟨sound_started first, rfl, rfl⟩
  have answered := Transducer.answers_simulate
    (Option.map fun seen : ExactReading => (⟨(seen.running - seen.dropped) / 1000⟩ : Milliseconds))
    call_tracks begun allowed
  exact (congrArg List.reduceOption answered).trans List.reduceOption_map

/-- The dropped parts are remainders, so they never add up to less than nothing. -/
theorem readings_dropped_nonneg {exact : ExactWatch} {calls : List Call} :
    ∀ seen ∈ exact.readings calls, 0 ≤ seen.dropped := by
  intro seen member
  have answered : some seen ∈ ExactWatch.call.answers exact calls :=
    List.reduceOption_mem_iff.mp member
  refine Transducer.answers_forall (fun answer => ∀ seen ∈ answer, 0 ≤ seen.dropped)
    ?_ _ answered seen rfl
  -- Only a get_time answers, with the sum of remainders it finds.
  rintro watch ⟨operation, now⟩ seen answer
  cases operation with
  | getTime =>
    cases answer
    exact List.sum_nonneg (by simp only [List.mem_map]; rintro _ ⟨length, _, rfl⟩; omega)
  | start => simp [ExactWatch.call] at answer
  | reset => simp [ExactWatch.call] at answer
  | pause => cases opened : watch.openedAt <;> simp [ExactWatch.call, opened] at answer

/--
The watch reads exact time as long as the dropped parts stay below its own sub-millisecond part.

Every segment closed since the last reset drops its length modulo a millisecond.
-/
theorem readings_exact_iff (first : Microseconds) (calls : List Call)
    (allowed : ExactWatch.call.Meets ExactWatch.Allows (.started first) calls) :
    ({} : Stopwatch).readings (⟨.start, first⟩ :: calls) =
        ((ExactWatch.started first).readings calls).map (fun seen => ⟨seen.running / 1000⟩) ↔
      ∀ seen ∈ (ExactWatch.started first).readings calls,
        seen.dropped ≤ seen.running % 1000 := by
  rw [readings_kept allowed, List.map_inj_left]
  -- Reading by reading, the floor survives a loss exactly when the remainder covers it.
  refine forall₂_congr fun seen member => ?_
  have nonneg := readings_dropped_nonneg seen member
  rw [Milliseconds.mk.injEq]
  omega

/-- A segment of a millisecond and a half is paused, and the sum of two is still read exactly. -/
theorem readings_exact_pauses :
    ({} : Stopwatch).readings
        [⟨.start, ⟨0⟩⟩, ⟨.pause, ⟨1500⟩⟩, ⟨.start, ⟨2000⟩⟩, ⟨.getTime, ⟨3100⟩⟩] =
      ((ExactWatch.started ⟨0⟩).readings
        [⟨.pause, ⟨1500⟩⟩, ⟨.start, ⟨2000⟩⟩, ⟨.getTime, ⟨3100⟩⟩]).map
          (fun seen => ⟨seen.running / 1000⟩) :=
  -- The parts that are cut off do not add up to a millisecond here.
  (readings_exact_iff ⟨0⟩ _ (by decide)).mpr (by decide)

/-- Half a millisecond cut off by a pause is missing from the sum of two segments. -/
theorem readings_drift :
    ExactWatch.call.Meets ExactWatch.Allows (.started ⟨0⟩)
        [⟨.pause, ⟨1500⟩⟩, ⟨.start, ⟨2000⟩⟩, ⟨.getTime, ⟨2500⟩⟩] ∧
      ({} : Stopwatch).readings
          [⟨.start, ⟨0⟩⟩, ⟨.pause, ⟨1500⟩⟩, ⟨.start, ⟨2000⟩⟩, ⟨.getTime, ⟨2500⟩⟩] ≠
        ((ExactWatch.started ⟨0⟩).readings
          [⟨.pause, ⟨1500⟩⟩, ⟨.start, ⟨2000⟩⟩, ⟨.getTime, ⟨2500⟩⟩]).map
            (fun seen => ⟨seen.running / 1000⟩) := by
  -- Here the half that the pause cuts off would have made up a millisecond.
  decide

end Stopwatch
end Notus
