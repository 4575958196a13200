import Notus.Stopwatch

/-! A watch counts from its first start, unless it is paused or read before one. -/

namespace Notus

/-- Where counting may begin: the last reset, or the first start when there has been none. -/
structure Origin where
  clock : Int
  since : Option Int
  touched : Bool
  deriving DecidableEq, Repr

namespace Origin

/-- At boot nothing has been called. -/
def fresh : Origin :=
  -- The clock of the device counts from zero.
  { clock := 0, since := none, touched := false }

/-- Resets move the origin, and only the first start sets it. -/
def call : Transducer Origin Stopwatch.Call Unit := fun origin made =>
  -- Reading is the only call that leaves an untouched watch untouched.
  let now := made.now.count
  match made.operation with
  | .start => ({ clock := now, since := some (origin.since.getD now), touched := true }, ())
  | .reset => ({ clock := now, since := some now, touched := true }, ())
  | .pause => ({ origin with clock := now, touched := true }, ())
  | .getTime => ({ origin with clock := now }, ())

/-- The clock of the device starts at zero and does not run back. -/
def InOrder (origin : Origin) (made : Stopwatch.Call) : Prop :=
  -- The first call is no earlier than boot.
  origin.clock ≤ made.now.count

/-- A watch that has only been read so far is read or paused in the first millisecond of uptime. -/
def QuietBoot (origin : Origin) (made : Stopwatch.Call) : Prop :=
  -- A start or a reset repairs what the construction left, and a pause freezes it.
  origin.touched = false → made.operation = .pause ∨ made.operation = .getTime →
    made.now.count < 1000

instance (origin : Origin) (made : Stopwatch.Call) : Decidable (origin.InOrder made) :=
  inferInstanceAs (Decidable (_ ≤ _))

instance (origin : Origin) (made : Stopwatch.Call) : Decidable (origin.QuietBoot made) :=
  inferInstanceAs (Decidable (_ → _ → _))

/-- Nothing is read before the origin is set, and no more than the time since it afterwards. -/
def Bounds (origin : Origin) (now : Microseconds) (time : Milliseconds) : Prop :=
  match origin.since with
  | none => time.count = 0
  | some since => time.count ≤ (now.count - since) / 1000

end Origin

namespace Stopwatch

/-- Every time read in a sequence of calls on a new watch is within its bounds. -/
def CountsFromOrigin (calls : List Call) : Prop :=
  ∀ before now after, calls = before ++ ⟨.getTime, now⟩ :: after →
    (Origin.call.final .fresh before).Bounds now ((call.final {} before).getTime now)

/-- A watch that has only been read is as it was constructed. -/
structure Follows (watch : Stopwatch) (origin : Origin) : Prop where
  sound : watch.Sound origin.clock
  untouched : origin.touched = false → watch = {} ∧ origin.since = none

/-- The time counted so far fits between the origin and the last call. -/
def CountedSince (watch : Stopwatch) (origin : Origin) : Prop :=
  match origin.since with
  -- Before the origin is set the bank is empty, and stays so once the watch is paused.
  | none => watch.timeBeforePause.count = 0 ∧ (origin.touched = true → watch.openedAt = none)
  | some since =>
    watch.timeBeforePause.count + openTime watch.openedAt origin.clock ≤ origin.clock - since

/-- Every call in order leaves the watch following its origin. -/
theorem Follows.call {watch : Stopwatch} {origin : Origin} (follows : watch.Follows origin)
    {made : Call} (later : origin.InOrder made) :
    (Stopwatch.call watch made).1.Follows (origin.call made).1 := by
  -- After a start, a reset or a pause nothing is asked of the construction any more.
  have sound := call_sound follows.sound made later
  rcases made with ⟨operation, now⟩
  cases operation with
  | start => exact ⟨sound, by simp [Origin.call]⟩
  | reset => exact ⟨sound, by simp [Origin.call]⟩
  | pause => exact ⟨sound, by simp [Origin.call]⟩
  | getTime => exact ⟨sound, follows.untouched⟩

/-- Both descriptions of a new watch start out together. -/
theorem fresh_follows : ({} : Stopwatch).Follows .fresh ∧ ({} : Stopwatch).CountedSince .fresh :=
  -- A new watch is as it was constructed, and its bank is empty.
  ⟨⟨sound_default, fun _ => ⟨rfl, rfl⟩⟩, rfl, by simp [Origin.fresh]⟩

/-- After any sequence of calls in order, the watch follows its origin. -/
theorem final_follows {calls : List Call} :
    ∀ {watch : Stopwatch} {origin : Origin}, watch.Follows origin →
      Origin.call.Meets Origin.InOrder origin calls →
      (call.final watch calls).Follows (Origin.call.final origin calls) := by
  -- By induction on the calls, each of which keeps the origin followed.
  induction calls with
  | nil => intro watch origin follows _; exact follows
  | cons made rest ih =>
    intro watch origin follows ordered
    exact ih (follows.call ordered.1) ordered.2

/-- Time that has been counted since the origin stays within it as time passes. -/
theorem counted_within {watch : Stopwatch} {origin : Origin} {since : Int}
    (set : origin.since = some since) (counted : watch.CountedSince origin)
    {now : Int} (later : origin.clock ≤ now) :
    watch.timeBeforePause.count + openTime watch.openedAt now ≤ now - since := by
  simp only [CountedSince, set] at counted
  -- An open segment grows exactly as fast as the bound, and a closed one does not grow.
  cases opened : watch.openedAt with
  | none =>
    simp only [opened, openTime_none] at counted ⊢
    omega
  | some begun =>
    simp only [opened, openTime_some] at counted ⊢
    omega

/-- A start counts nothing yet, and the first of all finds an empty bank. -/
theorem CountedSince.start {watch : Stopwatch} {origin : Origin}
    (counted : watch.CountedSince origin) (sound : watch.Sound origin.clock)
    {now : Microseconds} (later : origin.clock ≤ now.count) :
    (watch.start now).CountedSince (origin.call ⟨.start, now⟩).1 := by
  cases set : origin.since with
  | none =>
    have empty : watch.timeBeforePause.count = 0 := by
      simp only [CountedSince, set] at counted
      exact counted.1
    simp [CountedSince, Origin.call, set, empty]
  | some since =>
    -- A later start forgets its open segment, which only makes the count smaller.
    have within := counted_within set counted later
    have nonneg := sound.openTime_nonneg later
    simp only [CountedSince, Origin.call, set, Option.getD_some, timeBeforePause_start,
      openedAt_start, openTime_some]
    omega

/-- A pause banks no more than was counted, and less than a millisecond of a boot is nothing. -/
theorem CountedSince.pause {watch : Stopwatch} {origin : Origin} (follows : watch.Follows origin)
    (counted : watch.CountedSince origin) {now : Microseconds}
    (later : origin.clock ≤ now.count) (quiet : origin.QuietBoot ⟨.pause, now⟩) :
    (watch.pause now).CountedSince (origin.call ⟨.pause, now⟩).1 := by
  have banked := pause_bank follows.sound later
  have nonneg := follows.sound.openTime_nonneg later
  cases set : origin.since with
  | some since =>
    -- What is banked was counted since the origin already.
    have within := counted_within set counted later
    simp only [CountedSince, Origin.call, set, openedAt_pause, openTime_none, banked]
    omega
  | none =>
    simp only [CountedSince, set] at counted
    obtain ⟨empty, closed⟩ := counted
    have short : openTime watch.openedAt now.count < 1000 := by
      cases touched : origin.touched with
      | true => simp [closed touched]
      | false =>
        -- An untouched watch runs since the epoch, so a pause banks the whole uptime.
        have small := quiet touched (.inl rfl)
        obtain ⟨fresh, _⟩ := follows.untouched touched
        subst watch
        simpa using small
    simp only [CountedSince, Origin.call, set, openedAt_pause, banked]
    exact ⟨by omega, fun _ => trivial⟩

/-- A call that leaves the boot quiet counts nothing from before the origin. -/
theorem CountedSince.call {watch : Stopwatch} {origin : Origin} (follows : watch.Follows origin)
    (counted : watch.CountedSince origin) {made : Call} (later : origin.InOrder made)
    (quiet : origin.QuietBoot made) :
    (Stopwatch.call watch made).1.CountedSince (origin.call made).1 := by
  -- The bound grows with the clock, so only what is counted from before the origin could break it.
  rcases made with ⟨operation, now⟩
  replace later : origin.clock ≤ now.count := later
  cases operation with
  | start =>
    show (watch.start now).CountedSince _
    exact counted.start follows.sound later
  | pause =>
    show (watch.pause now).CountedSince _
    exact counted.pause follows later quiet
  | reset => simp [CountedSince, Stopwatch.call, Origin.call]
  | getTime =>
    cases set : origin.since with
    | none => simpa [CountedSince, Stopwatch.call, Origin.call, set] using counted
    | some since =>
      simpa [CountedSince, Stopwatch.call, Origin.call, set] using
        counted_within set counted later

/-- A time read with the boot kept quiet is within its bounds. -/
theorem getTime_bounded {watch : Stopwatch} {origin : Origin} (follows : watch.Follows origin)
    (counted : watch.CountedSince origin) {now : Microseconds}
    (later : origin.clock ≤ now.count) (quiet : origin.QuietBoot ⟨.getTime, now⟩) :
    origin.Bounds now (watch.getTime now) := by
  -- Past the origin the bound is the time since it, and before that an empty bank has to show.
  have read := getTime_count follows.sound later
  cases set : origin.since with
  | some since =>
    have within := counted_within set counted later
    simp only [Origin.Bounds, set, read]
    omega
  | none =>
    have nonneg := follows.sound.openTime_nonneg later
    simp only [CountedSince, set] at counted
    obtain ⟨empty, closed⟩ := counted
    simp only [Origin.Bounds, set, read]
    cases touched : origin.touched with
    | true => simp [closed touched, empty]
    | false =>
      -- The reading is the uptime, which is still below a millisecond.
      have small : now.count < 1000 := quiet touched (.inr rfl)
      obtain ⟨fresh, _⟩ := follows.untouched touched
      subst watch
      simp only [openTime_default] at nonneg ⊢
      omega

/-- A quiet sequence of calls in order counts nothing from before the origin. -/
theorem final_counted {calls : List Call} :
    ∀ {watch : Stopwatch} {origin : Origin}, watch.Follows origin → watch.CountedSince origin →
      Origin.call.Meets Origin.InOrder origin calls →
      Origin.call.Meets Origin.QuietBoot origin calls →
      (call.final watch calls).CountedSince (Origin.call.final origin calls) := by
  -- By induction on the calls, where following the origin is carried along.
  induction calls with
  | nil => intro watch origin _ counted _ _; exact counted
  | cons made rest ih =>
    intro watch origin follows counted ordered quiet
    exact ih (follows.call ordered.1) (counted.call follows ordered.1 quiet.1) ordered.2 quiet.2

/-- A look at a watch that was paused or read first, a millisecond after boot, shows the uptime. -/
theorem unquiet_counts {watch : Stopwatch} {origin : Origin} (follows : watch.Follows origin)
    {made : Call} (later : origin.InOrder made) (unquiet : ¬ origin.QuietBoot made) :
    ¬ (origin.call made).1.Bounds made.now ((Stopwatch.call watch made).1.getTime made.now) := by
  -- The watch is as constructed, so its open segment is as long as the uptime.
  obtain ⟨untouched, unquiet⟩ := Classical.not_imp.mp unquiet
  obtain ⟨asked, late⟩ := Classical.not_imp.mp unquiet
  obtain ⟨fresh, unset⟩ := follows.untouched untouched
  subst watch
  have read := getTime_count (call_sound follows.sound made later) le_rfl
  rcases made with ⟨operation, now⟩
  replace late : ¬ now.count < 1000 := late
  rcases asked with rfl | rfl
  · -- The pause has banked the uptime.
    have banked := pause_bank follows.sound later
    simp only [Stopwatch.call, openedAt_pause, openTime_none, banked, openTime_default] at read
    simp only [Origin.Bounds, Origin.call, unset, Stopwatch.call, read]
    omega
  · -- The reading itself is the uptime.
    simp only [Stopwatch.call, openTime_default] at read
    simp only [Origin.Bounds, Origin.call, unset, Stopwatch.call, read]
    omega

/--
A watch counts from its first start or last reset exactly when the boot is quiet.

A default construction runs from the epoch of the clock, which a read or a pause reveals.
-/
theorem countsFromOrigin (calls : List Call)
    (ordered : Origin.call.Meets Origin.InOrder .fresh calls) :
    (Origin.call.Meets Origin.QuietBoot .fresh calls → CountsFromOrigin calls) ∧
      (¬ Origin.call.Meets Origin.QuietBoot .fresh calls →
        ∃ before made after, calls = before ++ made :: after ∧
          ¬ CountsFromOrigin (before ++ [made, ⟨.getTime, made.now⟩])) := by
  obtain ⟨follows, counted⟩ := fresh_follows
  constructor
  · intro quiet before now after split
    -- Every reading is made after a quiet sequence of calls, and is quiet itself.
    rw [split, Transducer.meets_append] at ordered quiet
    exact getTime_bounded (final_follows follows ordered.1)
      (final_counted follows counted ordered.1 quiet.1) ordered.2.1 quiet.2.1
  · intro unquiet
    obtain ⟨before, made, after, split, _, refused⟩ := Transducer.exists_first_refused unquiet
    rw [split, Transducer.meets_append] at ordered
    have violated := unquiet_counts (final_follows follows ordered.1) ordered.2.1 refused
    refine ⟨before, made, after, split, fun counts => violated ?_⟩
    -- The look is the last call, made after the refused one.
    have looked := counts (before ++ [made]) made.now [] (by simp)
    simpa only [Transducer.final_append, Transducer.final_cons, Transducer.final_nil] using looked

/-- A pause in the first millisecond of uptime leaves nothing behind for a later start. -/
theorem countsFromOrigin_early_pause :
    CountsFromOrigin [⟨.getTime, ⟨300⟩⟩, ⟨.pause, ⟨999⟩⟩, ⟨.getTime, ⟨8000⟩⟩, ⟨.start, ⟨9000⟩⟩,
      ⟨.getTime, ⟨9500⟩⟩, ⟨.reset, ⟨10000⟩⟩, ⟨.getTime, ⟨12000⟩⟩] :=
  -- Such a pause accumulates no whole millisecond.
  (countsFromOrigin _ (by decide)).1 (by decide)

/-- Paused five seconds after boot and then started, the watch shows the five seconds at once. -/
theorem countsFromOrigin_late_pause :
    Origin.call.Meets Origin.InOrder .fresh
        [⟨.pause, ⟨5000000⟩⟩, ⟨.start, ⟨5000000⟩⟩, ⟨.getTime, ⟨5000000⟩⟩] ∧
      ¬ CountsFromOrigin [⟨.pause, ⟨5000000⟩⟩, ⟨.start, ⟨5000000⟩⟩, ⟨.getTime, ⟨5000000⟩⟩] := by
  -- The pause accumulates five seconds of a watch that was never started.
  refine ⟨by decide, fun counts => ?_⟩
  have looked : (5000 : Int) ≤ 0 :=
    counts [⟨.pause, ⟨5000000⟩⟩, ⟨.start, ⟨5000000⟩⟩] ⟨5000000⟩ [] rfl
  exact absurd looked (by decide)

end Stopwatch
end Notus
