import Notus.Stopwatch
import Notus.UpTime

/-! A stopwatch on the uptime clock: its calls happen at tick counts, and the clock dates them. -/

namespace Notus.Stopwatch

/-- A member called at a tick count of the kernel. -/
structure TickCall where
  operation : Operation
  ticks : Int
  deriving DecidableEq, Repr

namespace TickCall

/-- The call with the instant that the clock shows, where it shows one. -/
def read (ticksPerSec : Nat) (made : TickCall) : Option Call :=
  (UpTime.now ticksPerSec made.ticks).map fun now => ⟨made.operation, now⟩

/-- The call with the exact time of its ticks, rounded down to microseconds. -/
def exact (ticksPerSec : Nat) (made : TickCall) : Call :=
  -- Nothing overflows here, so every tick count has an instant.
  ⟨made.operation, ⟨made.ticks * 1000000 / ticksPerSec⟩⟩

/-- The clock dates a call exactly as long as its product does not overflow. -/
theorem read_exact {ticksPerSec : Nat} {made : TickCall} (forward : 0 ≤ made.ticks)
    (small : made.ticks * 1000000 < 9223372036854775808) :
    made.read ticksPerSec = some (made.exact ticksPerSec) := by
  -- The product is all that can go wrong in the conversion.
  simp only [read, exact, UpTime.now_exact ticksPerSec forward small, Option.map_some]

/-- The calls follow one another, from boot up to a tick count. -/
def InOrder (made : List TickCall) (ticks : Int) : Prop :=
  -- Two calls may happen at the same tick.
  (made.map TickCall.ticks).Pairwise (· ≤ ·) ∧ ∀ one ∈ made, 0 ≤ one.ticks ∧ one.ticks ≤ ticks

/-- Calls in order are all dated when the last tick count is. -/
theorem mapM_read (ticksPerSec : Nat) {made : List TickCall} {ticks : Int}
    (within : ∀ one ∈ made, 0 ≤ one.ticks ∧ one.ticks ≤ ticks)
    (small : ticks * 1000000 < 9223372036854775808) :
    made.mapM (read ticksPerSec) = some (made.map (exact ticksPerSec)) := by
  induction made with
  | nil => rfl
  | cons one rest ih =>
    -- A smaller tick count has a smaller product.
    obtain ⟨forward, bounded⟩ := within one List.mem_cons_self
    have dated : one.read ticksPerSec = some (one.exact ticksPerSec) :=
      read_exact forward (by omega)
    have others := ih fun other member => within other (List.mem_cons_of_mem _ member)
    simp only [List.mapM_cons, dated, others, List.map_cons, bind, Option.bind, pure]

end TickCall

/-- A sound watch stays sound while the clock goes on. -/
theorem Sound.mono {watch : Stopwatch} {clock later : Int} (sound : watch.Sound clock)
    (goesOn : clock ≤ later) : watch.Sound later :=
  -- Only the beginning of the open segment is compared with the clock.
  ⟨sound.whole, sound.forward, fun since opened => (sound.begun since opened).trans goesOn⟩

/-- Calls made in order leave a sound watch behind. -/
theorem final_sound {calls : List Call} {limit : Int} :
    ∀ {watch : Stopwatch} {clock : Int}, watch.Sound clock → clock ≤ limit →
      (calls.map (·.now.count)).Pairwise (· ≤ ·) →
      (∀ made ∈ calls, clock ≤ made.now.count ∧ made.now.count ≤ limit) →
      (call.final watch calls).Sound limit := by
  -- The clock of the invariant moves on to the instant of each call.
  induction calls with
  | nil => intro watch clock sound before _ _; exact sound.mono before
  | cons made rest ih =>
    intro watch clock sound _ ordered within
    obtain ⟨later, bounded⟩ := within made List.mem_cons_self
    refine ih (call_sound sound made later) bounded ordered.of_cons fun other member => ⟨?_, ?_⟩
    · exact List.rel_of_pairwise_cons ordered (List.mem_map_of_mem member)
    · exact (within other (List.mem_cons_of_mem _ member)).2

/-- What a steady exact clock shows at a tick count, and what the stopwatch then subtracts. -/
structure Steady (ticksPerSec : Nat) (ticks : Int) : Prop where
  exact : UpTime.now ticksPerSec ticks = some ⟨ticks * 1000000 / ticksPerSec⟩
  /-- What was shown at an earlier tick count is no later. -/
  mono : ∀ earlier, 0 ≤ earlier → earlier ≤ ticks → ∃ before now,
    UpTime.now ticksPerSec earlier = some before ∧ UpTime.now ticksPerSec ticks = some now ∧
      before.count ≤ now.count
  /-- A running watch subtracts no more than the clock shows, whatever was called before. -/
  forward : ∀ made, TickCall.InOrder made ticks → ∃ calls now,
    made.mapM (TickCall.read ticksPerSec) = some calls ∧
      UpTime.now ticksPerSec ticks = some now ∧
      ((call.final {} calls).isPaused = false →
        0 ≤ (now - (call.final {} calls).startTp).count)

/-- The dated calls of a sequence in order are in order too, and within the date of its limit. -/
theorem TickCall.InOrder.dated {ticksPerSec : Nat} {made : List TickCall} {ticks : Int}
    (rate : 0 < ticksPerSec) (ordered : InOrder made ticks) :
    ((made.map (exact ticksPerSec)).map (·.now.count)).Pairwise (· ≤ ·) ∧
      ∀ call ∈ made.map (exact ticksPerSec),
        0 ≤ call.now.count ∧ call.now.count ≤ ticks * 1000000 / ticksPerSec := by
  constructor
  · -- Dating keeps the order of any two tick counts.
    rw [List.map_map, List.pairwise_map]
    exact (List.pairwise_map.mp ordered.1).imp fun before => UpTime.exact_mono rate before
  · intro call member
    obtain ⟨one, found, rfl⟩ := List.mem_map.mp member
    obtain ⟨forward, bounded⟩ := ordered.2 one found
    exact ⟨Int.ediv_nonneg (by omega) (by omega), UpTime.exact_mono rate bounded⟩

/--
The clock is steady and exact at a tick count exactly while its product fits into 64 bits.

The tick rate does not matter, though the exact time is smaller than the product by this factor.
-/
theorem steady_iff (ticksPerSec : Nat) (ticks : Int) (rate : 0 < ticksPerSec)
    (counted : 0 ≤ ticks) :
    Steady ticksPerSec ticks ↔ ticks * 1000000 < 9223372036854775808 := by
  constructor
  · -- An overflow leaves nothing that could be exact.
    intro steady
    by_contra large
    have nothing := UpTime.now_overflow ticksPerSec (Int.not_lt.mp large)
    rw [steady.exact] at nothing
    cases nothing
  · intro small
    have shown := UpTime.now_exact ticksPerSec counted small
    refine ⟨shown, fun earlier forward later => ?_, fun made ordered => ?_⟩
    · -- The earlier product is smaller, so it fits as well.
      exact ⟨_, _, UpTime.now_exact ticksPerSec forward (by omega), shown,
        UpTime.exact_mono rate later⟩
    · obtain ⟨sorted, within⟩ := ordered.dated rate
      have nonneg : 0 ≤ ticks * 1000000 / (ticksPerSec : Int) :=
        Int.ediv_nonneg (by omega) (by omega)
      -- A segment that is open began no later than the clock shows.
      have sound := final_sound sound_default nonneg sorted within
      refine ⟨_, _, TickCall.mapM_read ticksPerSec ordered.2 small, shown, fun running => ?_⟩
      have begun := sound.begun _ (by simp only [openedAt, running]; rfl)
      simp only [Microseconds.count_sub]
      omega

/-- After 25 hours at 32768 ticks a second the clock is still steady and exact. -/
theorem steady_day : Steady 32768 2949120000 :=
  -- The product is far from the greatest number of 63 bits.
  (steady_iff 32768 2949120000 (by decide) (by decide)).mpr (by decide)

/-- After 29 years at 10000 ticks a second the time still fits, but its product overflows. -/
theorem not_steady_decades :
    (9223372036855 : Int) < 9223372036854775808 ∧
      (9223372036855 : Int) * 1000000 / (10000 : Nat) < 9223372036854775808 ∧
      ¬ Steady 10000 9223372036855 := by
  refine ⟨by decide, by decide, fun steady => ?_⟩
  -- The clock has nothing to show, so it does not show the exact time.
  have nothing : UpTime.now 10000 9223372036855 = none := UpTime.now_overflow 10000 (by decide)
  rw [steady.exact] at nothing
  cases nothing

end Notus.Stopwatch
