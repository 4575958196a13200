import Notus.Stopwatch.Ticks
import Mathlib.Tactic.Linarith
import Mathlib.Algebra.Order.Field.Rat

/-! How far a stopwatch is from the ticks that really passed while it ran. -/

namespace Notus

/-- The ticks of the segments closed so far, the open one, and how often a segment was closed. -/
structure TickWatch where
  clock : Int
  closed : Int
  openedAt : Option Int
  pauses : Nat
  deriving DecidableEq, Repr

namespace TickWatch

/-- The watch just after its first start. -/
def started (first : Int) : TickWatch :=
  { clock := first, closed := 0, openedAt := some first, pauses := 0 }

/-- The ticks spent running so far. -/
def running (watch : TickWatch) (now : Int) : Int :=
  watch.closed + Stopwatch.openTime watch.openedAt now

/-- The three members, on exact ticks. -/
def call : Transducer TickWatch Stopwatch.TickCall Unit := fun watch made =>
  match made.operation with
  | .start => ({ watch with clock := made.ticks, openedAt := some made.ticks }, ())
  | .pause =>
    match watch.openedAt with
    | some since =>
      ({ clock := made.ticks, closed := watch.closed + (made.ticks - since), openedAt := none,
         pauses := watch.pauses + 1 }, ())
    -- Only a pause of a running watch has an effect.
    | none => ({ watch with clock := made.ticks }, ())
  | .reset => ({ watch with clock := made.ticks, closed := 0, openedAt := some made.ticks }, ())
  | .getTime => ({ watch with clock := made.ticks }, ())

/-- Ticks do not run back, nothing is reset, and a start comes only while paused. -/
def Allows (watch : TickWatch) (made : Stopwatch.TickCall) : Prop :=
  watch.clock ≤ made.ticks ∧ made.operation ≠ .reset ∧
    (made.operation = .start → watch.openedAt = none)

instance (watch : TickWatch) (made : Stopwatch.TickCall) : Decidable (watch.Allows made) :=
  inferInstanceAs (Decidable (_ ∧ _ ∧ (_ → _)))

end TickWatch

namespace Stopwatch

/-- What a call sequence on a new watch reads at a tick count, where the clock dates all of it. -/
def shownAt (ticksPerSec : Nat) (made : List TickCall) (ticks : Int) : Option Milliseconds := do
  let calls ← made.mapM (TickCall.read ticksPerSec)
  let now ← UpTime.now ticksPerSec ticks
  return (call.final {} calls).getTime now

/-- The time shown is closer to the exact one than one millisecond a rounding, in milliseconds. -/
def Within (roundings : Nat) (exact : ℚ) (shown : Milliseconds) : Prop :=
  -- Time is lost by the millisecond, and gained only by the microsecond.
  exact - roundings < shown.count ∧ shown.count < exact + roundings / 1000

/-- The bank is off by less than a millisecond for every pause, and the open segment agrees. -/
structure Near (ticksPerSec : Nat) (watch : Stopwatch) (exact : TickWatch) : Prop where
  sound : watch.Sound (exact.clock * 1000000 / ticksPerSec)
  forward : 0 ≤ exact.clock
  opened : watch.openedAt = exact.openedAt.map (· * 1000000 / (ticksPerSec : Int))
  /-- Scaled by the tick rate, a closed segment loses a microsecond at most, and a rest. -/
  atLeast : exact.closed * 1000000 - exact.pauses * (1000 * ticksPerSec - 1) ≤
    watch.timeBeforePause.count * ticksPerSec
  atMost : watch.timeBeforePause.count * ticksPerSec ≤
    exact.closed * 1000000 + exact.pauses * (ticksPerSec - 1)
  paused : exact.openedAt = none → 0 < exact.pauses

/-- The roundings at both ends of a segment are less than one microsecond apart. -/
theorem segment_near {ticksPerSec : Nat} (rate : 0 < ticksPerSec) (since ticks : Int) :
    (ticks - since) * 1000000 - (ticksPerSec - 1) ≤
        (ticks * 1000000 / ticksPerSec - since * 1000000 / ticksPerSec) * ticksPerSec ∧
      (ticks * 1000000 / ticksPerSec - since * 1000000 / ticksPerSec) * ticksPerSec ≤
        (ticks - since) * 1000000 + (ticksPerSec - 1) := by
  have positive : (0 : Int) < ticksPerSec := by omega
  -- Rounding down takes less than one unit off, at either end.
  have first := Int.lt_mul_ediv_self_add (x := since * 1000000) positive
  have firstDown := Int.mul_ediv_self_le (x := since * 1000000) positive.ne'
  have last := Int.lt_mul_ediv_self_add (x := ticks * 1000000) positive
  have lastDown := Int.mul_ediv_self_le (x := ticks * 1000000) positive.ne'
  constructor <;> linarith

/-- The open segment of the watch has the length of the exact one, rounded at both ends. -/
theorem Near.openTime {ticksPerSec : Nat} {watch : Stopwatch} {exact : TickWatch}
    (near : watch.Near ticksPerSec exact) (ticks : Int) {since : Int}
    (opened : exact.openedAt = some since) :
    openTime watch.openedAt (ticks * 1000000 / ticksPerSec) =
      ticks * 1000000 / ticksPerSec - since * 1000000 / ticksPerSec := by
  -- Both ends are read on the same clock.
  rw [near.opened, opened, Option.map_some, openTime_some]

/-- One more pause adds one more rounding of each kind. -/
theorem Near.pause {ticksPerSec : Nat} {watch : Stopwatch} {exact : TickWatch}
    (rate : 0 < ticksPerSec) (near : watch.Near ticksPerSec exact) {ticks : Int}
    (later : exact.clock ≤ ticks) :
    (watch.pause ⟨ticks * 1000000 / ticksPerSec⟩).Near ticksPerSec
      (exact.call ⟨.pause, ticks⟩).1 := by
  have dated := UpTime.exact_mono rate later
  have sound := call_sound near.sound ⟨.pause, ⟨ticks * 1000000 / ticksPerSec⟩⟩ dated
  have forward := near.forward.trans later
  have banked := @pause_bank _ _ near.sound ⟨ticks * 1000000 / ticksPerSec⟩ dated
  have atLeast := near.atLeast
  have atMost := near.atMost
  cases opened : exact.openedAt with
  | none =>
    -- A paused watch is left alone, and so is what is known of it.
    have bank : (watch.pause ⟨ticks * 1000000 / ticksPerSec⟩).timeBeforePause.count =
        watch.timeBeforePause.count := by
      simpa [near.opened, opened] using banked
    have same : (exact.call ⟨.pause, ticks⟩).1 = { exact with clock := ticks } := by
      simp only [TickWatch.call, opened]
    rw [same]
    exact ⟨sound, forward, by simp [opened], bank ▸ atLeast, bank ▸ atMost, near.paused⟩
  | some since =>
    have closes : (exact.call ⟨.pause, ticks⟩).1 =
        { clock := ticks, closed := exact.closed + (ticks - since), openedAt := none,
          pauses := exact.pauses + 1 } := by
      simp only [TickWatch.call, opened]
    rw [near.openTime ticks opened] at banked
    obtain ⟨lower, upper⟩ := segment_near rate since ticks
    -- Less than a millisecond is cut off, and nothing is added.
    generalize ticks * 1000000 / (ticksPerSec : Int) - since * 1000000 / ticksPerSec = length
      at banked lower upper
    have rest : 0 ≤ length % 1000 * ticksPerSec :=
      Int.mul_nonneg (by omega) (Int.natCast_nonneg _)
    have cut : length % 1000 * ticksPerSec ≤ 999 * ticksPerSec :=
      Int.mul_le_mul_of_nonneg_right (by omega) (by omega)
    rw [closes]
    refine ⟨sound, forward, by simp, ?_, ?_, fun _ => Nat.succ_pos _⟩
    · rw [banked]
      push_cast
      linarith
    · rw [banked]
      push_cast
      linarith

/-- Every allowed call keeps the watch near the exact one. -/
theorem Near.call {ticksPerSec : Nat} {watch : Stopwatch} {exact : TickWatch}
    (rate : 0 < ticksPerSec) (near : watch.Near ticksPerSec exact) {made : TickCall}
    (allowed : exact.Allows made) :
    (Stopwatch.call watch (made.exact ticksPerSec)).1.Near ticksPerSec (exact.call made).1 := by
  obtain ⟨later, noReset, onlyPaused⟩ := allowed
  have dated := UpTime.exact_mono rate later
  have sound := call_sound near.sound (made.exact ticksPerSec) dated
  have forward := near.forward.trans later
  rcases made with ⟨operation, ticks⟩
  cases operation with
  | start =>
    -- No segment is open, so none is forgotten.
    have closed := near.paused (onlyPaused rfl)
    exact ⟨sound, forward, rfl, near.atLeast, near.atMost, fun _ => closed⟩
  | pause => exact near.pause rate later
  | reset => exact absurd rfl noReset
  | getTime =>
    exact ⟨sound, forward, near.opened, near.atLeast, near.atMost, near.paused⟩

/-- A whole sequence of allowed calls keeps the watch near the exact one. -/
theorem Near.final {ticksPerSec : Nat} (rate : 0 < ticksPerSec) {made : List TickCall} :
    ∀ {watch : Stopwatch} {exact : TickWatch}, watch.Near ticksPerSec exact →
      TickWatch.call.Meets TickWatch.Allows exact made →
      (Stopwatch.call.final watch (made.map (TickCall.exact ticksPerSec))).Near ticksPerSec
        (TickWatch.call.final exact made) := by
  -- By induction on the calls, with both watches taking each of them.
  induction made with
  | nil => intro watch exact near _; exact near
  | cons one rest ih => intro watch exact near met; exact ih (near.call rate met.1) met.2

/-- The first start forgets the time since boot, so nothing has been rounded yet. -/
theorem near_started (ticksPerSec : Nat) {first : Int} (forward : 0 ≤ first) :
    (({} : Stopwatch).start ⟨first * 1000000 / ticksPerSec⟩).Near ticksPerSec
      (.started first) := by
  -- The bank is empty and no pause has been counted.
  refine ⟨sound_started _, forward, rfl, ?_, ?_, ?_⟩
  · simp [TickWatch.started, start]
  · simp [TickWatch.started, start]
  · simp [TickWatch.started]

/-- The roundings between a reading and the exact time: one for each pause, and the last cut. -/
def roundings (exact : TickWatch) : Nat :=
  exact.pauses + if exact.openedAt = none then 0 else 1

/-- A reading of a near watch is off by less than a millisecond for each rounding, scaled. -/
theorem Near.reading {ticksPerSec : Nat} {watch : Stopwatch} {exact : TickWatch}
    (rate : 0 < ticksPerSec) (near : watch.Near ticksPerSec exact) {ticks : Int}
    (later : exact.clock ≤ ticks) :
    exact.running ticks * 1000000 - roundings exact * (1000 * ticksPerSec - 1) ≤
        (watch.getTime ⟨ticks * 1000000 / ticksPerSec⟩).count * 1000 * ticksPerSec ∧
      (watch.getTime ⟨ticks * 1000000 / ticksPerSec⟩).count * 1000 * ticksPerSec ≤
        exact.running ticks * 1000000 + roundings exact * (ticksPerSec - 1) := by
  have dated := UpTime.exact_mono rate later
  have atLeast := near.atLeast
  have atMost := near.atMost
  have whole := near.sound.whole
  rw [getTime_count near.sound dated]
  cases opened : exact.openedAt with
  | none =>
    -- The bank already holds whole milliseconds, so nothing is cut off when it is read.
    have bank : watch.timeBeforePause.count / 1000 * 1000 = watch.timeBeforePause.count := by omega
    simp only [near.opened, opened, Option.map_none, openTime_none, Int.add_zero, bank,
      TickWatch.running, roundings, if_true, Nat.add_zero]
    exact ⟨atLeast, atMost⟩
  | some since =>
    obtain ⟨lower, upper⟩ := segment_near rate since ticks
    simp only [near.openTime ticks opened, TickWatch.running, opened, openTime_some, roundings,
      reduceCtorEq, if_false]
    generalize ticks * 1000000 / (ticksPerSec : Int) - since * 1000000 / ticksPerSec = length
      at lower upper ⊢
    -- The reading is the sum without its remainder, which is less than a millisecond.
    have split := congrArg (· * (ticksPerSec : Int))
      (Int.mul_ediv_add_emod (watch.timeBeforePause.count + length) 1000)
    have rest : 0 ≤ (watch.timeBeforePause.count + length) % 1000 * ticksPerSec :=
      Int.mul_nonneg (by omega) (Int.natCast_nonneg _)
    have cut : (watch.timeBeforePause.count + length) % 1000 * ticksPerSec ≤ 999 * ticksPerSec :=
      Int.mul_le_mul_of_nonneg_right (by omega) (by omega)
    push_cast
    constructor <;> linarith

/-- What is near after scaling is within the roundings, of which there is at least one. -/
theorem within_of_scaled {ticksPerSec roundings : Nat} {running : Int} {shown : Milliseconds}
    (rate : 0 < ticksPerSec) (some : 0 < roundings)
    (lower : running * 1000000 - roundings * (1000 * ticksPerSec - 1) ≤
      shown.count * 1000 * ticksPerSec)
    (upper : shown.count * 1000 * ticksPerSec ≤
      running * 1000000 + roundings * (ticksPerSec - 1)) :
    Within roundings (1000 * running / ticksPerSec) shown := by
  have positive : (0 : ℚ) < ticksPerSec := by exact_mod_cast rate
  have least : (1 : ℚ) ≤ roundings := by exact_mod_cast some
  have lower' : (running * 1000000 - roundings * (1000 * ticksPerSec - 1) : ℚ) ≤
      shown.count * 1000 * ticksPerSec := by exact_mod_cast lower
  have upper' : (shown.count * 1000 * ticksPerSec : ℚ) ≤
      running * 1000000 + roundings * (ticksPerSec - 1) := by exact_mod_cast upper
  -- Each rounding leaves a last unit of the scaled time, which makes the bounds strict.
  constructor
  · rw [sub_lt_iff_lt_add, div_lt_iff₀ positive]
    linarith
  · have exact : (shown.count - roundings / 1000 : ℚ) < 1000 * running / ticksPerSec := by
      rw [lt_div_iff₀ positive]
      linarith
    linarith

/-- More roundings allow more. -/
theorem Within.mono {fewer more : Nat} {exact : ℚ} {shown : Milliseconds}
    (within : Within fewer exact shown) (atMost : fewer ≤ more) : Within more exact shown := by
  -- Every rounding more widens the interval on both sides.
  have cast : (fewer : ℚ) ≤ more := by exact_mod_cast atMost
  obtain ⟨lower, upper⟩ := within
  constructor <;> linarith

/-- Every call brings the clock of the exact watch to its own tick count. -/
@[simp] theorem TickWatch.clock_call (exact : TickWatch) (made : TickCall) :
    (exact.call made).1.clock = made.ticks := by
  -- A pause takes the time whether a segment is open or not.
  rcases made with ⟨operation, ticks⟩
  cases operation with
  | pause => cases opened : exact.openedAt <;> simp [TickWatch.call, opened]
  | start => rfl
  | reset => rfl
  | getTime => rfl

/-- Allowed calls happen between the tick counts of the exact watch before and after them. -/
theorem TickWatch.within_final {made : List TickCall} :
    ∀ {exact : TickWatch}, TickWatch.call.Meets TickWatch.Allows exact made →
      exact.clock ≤ (TickWatch.call.final exact made).clock ∧
        ∀ one ∈ made,
          exact.clock ≤ one.ticks ∧ one.ticks ≤ (TickWatch.call.final exact made).clock := by
  -- The clock never runs back, so the first call is the earliest of all.
  induction made with
  | nil => intro exact _; simp
  | cons one rest ih =>
    intro exact met
    obtain ⟨ahead, each⟩ := ih met.2
    have later := met.1.1
    rw [TickWatch.clock_call] at ahead each
    refine ⟨later.trans ahead, fun other member => ?_⟩
    rcases List.mem_cons.mp member with rfl | member
    · exact ⟨later, ahead⟩
    · exact ⟨later.trans (each other member).1, (each other member).2⟩

/--
A time read is less than one millisecond below and one microsecond above, for each rounding.

Every pause rounds once, and reading a running watch rounds once more.
-/
theorem shownAt_envelope (ticksPerSec : Nat) (first : Int) (made : List TickCall) (ticks : Int)
    (rate : 0 < ticksPerSec) (forward : 0 ≤ first)
    (met : TickWatch.call.Meets TickWatch.Allows (.started first) made)
    (later : (TickWatch.call.final (.started first) made).clock ≤ ticks)
    (small : ticks * 1000000 < 9223372036854775808) :
    ∃ shown, shownAt ticksPerSec (⟨.start, first⟩ :: made) ticks = some shown ∧
      Within ((TickWatch.call.final (.started first) made).pauses + 1)
        (1000 * (TickWatch.call.final (.started first) made).running ticks / ticksPerSec) shown ∧
      ((TickWatch.call.final (.started first) made).openedAt = none →
        Within (TickWatch.call.final (.started first) made).pauses
          (1000 * (TickWatch.call.final (.started first) made).running ticks / ticksPerSec)
          shown) := by
  obtain ⟨ahead, each⟩ := TickWatch.within_final met
  have near := Near.final rate (near_started ticksPerSec forward) met
  have begun : first ≤ ticks := ahead.trans later
  -- No call is dated after the reading, so none of them overflows the clock.
  have within : ∀ one ∈ (⟨.start, first⟩ :: made : List TickCall),
      0 ≤ one.ticks ∧ one.ticks ≤ ticks := by
    intro one member
    rcases List.mem_cons.mp member with rfl | member
    · exact ⟨forward, begun⟩
    · exact ⟨forward.trans (each one member).1, (each one member).2.trans later⟩
  have dated := TickCall.mapM_read ticksPerSec within small
  have shown := UpTime.now_exact ticksPerSec (forward.trans begun) small
  obtain ⟨lower, upper⟩ := near.reading rate later
  refine ⟨_, by simp only [shownAt, dated, shown, bind, Option.bind, pure]; rfl, ?_⟩
  generalize TickWatch.call.final (.started first) made = exact at near lower upper ⊢
  cases opened : exact.openedAt with
  | none =>
    -- A paused watch has been paused at least once.
    have paused : roundings exact = exact.pauses := by simp [roundings, opened]
    rw [paused] at lower upper
    have bounds := within_of_scaled rate (near.paused opened) lower upper
    exact ⟨bounds.mono (Nat.le_succ _), fun _ => bounds⟩
  | some since =>
    have running : roundings exact = exact.pauses + 1 := by simp [roundings, opened]
    rw [running] at lower upper
    exact ⟨within_of_scaled rate (Nat.succ_pos _) lower upper, by simp⟩

/-- After one pause of many ticks a running watch is within two roundings. -/
theorem shownAt_envelope_running :
    ∃ shown, shownAt 32768 [⟨.start, 0⟩, ⟨.pause, 1000⟩, ⟨.start, 2000⟩] 2500 = some shown ∧
      Within 2 (1000 * (1500 : Int) / (32768 : Nat)) shown := by
  -- Of the 2500 ticks, 1500 were spent running.
  obtain ⟨shown, read, within, _⟩ := shownAt_envelope 32768 0 [⟨.pause, 1000⟩, ⟨.start, 2000⟩] 2500
    (by decide) (by decide) (by decide) (by decide) (by decide)
  exact ⟨shown, read, within⟩

end Stopwatch
end Notus
