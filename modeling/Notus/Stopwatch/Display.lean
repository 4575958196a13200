import Notus.Stopwatch

/-! Readings run forward until a start throws away a segment that has already been shown. -/

namespace Notus

/-- What a caller has seen of the open segment: whether a reading counted a millisecond of it. -/
structure Display where
  clock : Int
  openedAt : Option Int
  shown : Bool
  deriving DecidableEq, Repr

namespace Display

/-- The caller just after the first start. -/
def started (first : Microseconds) : Display :=
  -- Nothing can have been read yet of a segment that begins now.
  { clock := first.count, openedAt := some first.count, shown := false }

/-- Opening or closing a segment leaves nothing of it shown, and a reading may show some. -/
def call : Transducer Display Stopwatch.Call Unit := fun display made =>
  let now := made.now.count
  match made.operation with
  | .start => ({ clock := now, openedAt := some now, shown := false }, ())
  | .reset => ({ clock := now, openedAt := some now, shown := false }, ())
  | .pause => ({ clock := now, openedAt := none, shown := false }, ())
  | .getTime =>
    -- Less than a millisecond of a segment cannot be seen in a reading.
    let counted := decide (1000 ≤ Stopwatch.openTime display.openedAt now)
    ({ display with clock := now, shown := display.shown || counted }, ())

/-- Time does not run back, and nothing is reset. -/
def Forward (display : Display) (made : Stopwatch.Call) : Prop :=
  display.clock ≤ made.now.count ∧ made.operation ≠ .reset

/-- A start does not discard an open segment of which a reading has counted a millisecond. -/
def KeepsShown (display : Display) (made : Stopwatch.Call) : Prop :=
  made.operation = .start → display.shown = false

instance (display : Display) (made : Stopwatch.Call) : Decidable (display.Forward made) :=
  inferInstanceAs (Decidable (_ ∧ _))

instance (display : Display) (made : Stopwatch.Call) : Decidable (display.KeepsShown made) :=
  inferInstanceAs (Decidable (_ → _))

end Display

namespace Stopwatch

/-- Successive readings do not go down. -/
def NonDecreasing (times : List Milliseconds) : Prop :=
  times.Pairwise fun earlier later => earlier.count ≤ later.count

instance (times : List Milliseconds) : Decidable (NonDecreasing times) :=
  inferInstanceAs (Decidable (times.Pairwise _))

/-- The caller follows the watch, on which no segment is shown before it is open. -/
structure Shows (watch : Stopwatch) (display : Display) : Prop where
  sound : watch.Sound display.clock
  opened : watch.openedAt = display.openedAt

/-- Every time seen so far is still covered by the bank, with the open segment if it is shown. -/
def Covers (watch : Stopwatch) (display : Display) (top : Int) : Prop :=
  -- Once part of the open segment was shown, it may be needed to cover the top reading.
  top * 1000 ≤ watch.timeBeforePause.count +
    if display.shown then openTime watch.openedAt display.clock else 0

/-- Every call made in order keeps the caller on the watch. -/
theorem Shows.call {watch : Stopwatch} {display : Display} (shows : watch.Shows display)
    {made : Call} (later : display.clock ≤ made.now.count) :
    (Stopwatch.call watch made).1.Shows (display.call made).1 := by
  -- Both sides open and close their segments in the same calls.
  have sound := call_sound shows.sound made later
  rcases made with ⟨operation, now⟩
  cases operation with
  | start => exact ⟨sound, rfl⟩
  | reset => exact ⟨sound, rfl⟩
  | pause => exact ⟨sound, openedAt_pause watch now⟩
  | getTime => exact ⟨sound, shows.opened⟩

/-- The call's reading, where it is one, comes no earlier than what is covered. -/
theorem getTime_covered {watch : Stopwatch} {display : Display} (shows : watch.Shows display)
    {now : Microseconds} (later : display.clock ≤ now.count) {top : Int}
    (covers : watch.Covers display top) : top ≤ (watch.getTime now).count := by
  have nonneg := shows.sound.openTime_nonneg later
  rw [getTime_count shows.sound later]
  -- The open segment only grows, so whatever part of it was shown is still there.
  have grown : (if display.shown then openTime watch.openedAt display.clock else 0) ≤
      openTime watch.openedAt now.count := by
    cases opened : watch.openedAt with
    | none => simp
    | some since =>
      rw [opened, openTime_some] at nonneg
      simp only [openTime_some]
      split <;> omega
  unfold Covers at covers
  omega

/-- A call that keeps what is shown still covers it, and a reading covers itself. -/
theorem Covers.call {watch : Stopwatch} {display : Display} (shows : watch.Shows display)
    {made : Call} (forward : display.Forward made) (keeps : display.KeepsShown made) {top : Int}
    (covers : watch.Covers display top) :
    ∃ seen, top ≤ seen ∧ (Stopwatch.call watch made).1.Covers (display.call made).1 seen ∧
      ∀ time, (Stopwatch.call watch made).2 = some time → time.count = seen := by
  obtain ⟨later, unreset⟩ := forward
  have nonneg := shows.sound.openTime_nonneg later
  have whole := shows.sound.whole
  rcases made with ⟨operation, now⟩
  replace later : display.clock ≤ now.count := later
  replace nonneg : 0 ≤ openTime watch.openedAt now.count := nonneg
  cases operation with
  | reset => exact absurd rfl unreset
  | start =>
    -- Only the bank survives a start, and nothing beyond it has been shown.
    have unshown : display.shown = false := keeps rfl
    refine ⟨top, le_rfl, ?_, by simp [Stopwatch.call]⟩
    simpa [Covers, Stopwatch.call, Display.call, unshown] using covers
  | pause =>
    -- The segment is banked in whole milliseconds, which is all of it that can have been shown.
    have banked := pause_bank shows.sound later
    have covered := getTime_covered shows later covers
    rw [getTime_count shows.sound later] at covered
    refine ⟨top, le_rfl, ?_, by simp [Stopwatch.call]⟩
    simp only [Covers, Stopwatch.call, Display.call, banked, Bool.false_eq_true, if_false]
    omega
  | getTime =>
    have covered := getTime_covered shows later covers
    have read := getTime_count shows.sound later
    -- What has just been read is the new top, and it is covered by what it was read from.
    refine ⟨(watch.getTime now).count, covered, ?_, by rintro time ⟨⟩; rfl⟩
    simp only [Covers, Stopwatch.call, Display.call, Bool.or_eq_true, decide_eq_true_eq,
      ← shows.opened]
    split <;> omega

/-- From a state covering what has been seen, all that is read next is at least that and sorted. -/
theorem readings_covered {calls : List Call} :
    ∀ {watch : Stopwatch} {display : Display} {top : Int}, watch.Shows display →
      watch.Covers display top → Display.call.Meets Display.Forward display calls →
      Display.call.Meets Display.KeepsShown display calls →
      (∀ time ∈ watch.readings calls, top ≤ time.count) ∧ NonDecreasing (watch.readings calls) := by
  induction calls with
  | nil =>
    intro watch display top _ _ _ _
    exact ⟨by simp [readings], .nil⟩
  | cons made rest ih =>
    intro watch display top shows covers forward keeps
    obtain ⟨seen, higher, covered, answered⟩ := covers.call shows forward.1 keeps.1
    obtain ⟨above, sorted⟩ := ih (shows.call forward.1.1) covered forward.2 keeps.2
    have tail : ∀ time ∈ (call watch made).1.readings rest, top ≤ time.count :=
      fun time member => higher.trans (above time member)
    -- Only a get_time contributes a reading, and it is the new bound.
    cases answer : (call watch made).2 with
    | none =>
      simp only [readings, Transducer.answers_cons, answer, List.reduceOption_cons_of_none]
      exact ⟨tail, sorted⟩
    | some time =>
      have same := answered time answer
      simp only [readings, Transducer.answers_cons, answer, List.reduceOption_cons_of_some,
        List.mem_cons, forall_eq_or_imp]
      refine ⟨⟨by omega, tail⟩, List.pairwise_cons.mpr ⟨?_, sorted⟩⟩
      intro later member
      rw [same]
      exact above later member

/-- A shown open segment has left a reading beyond the bank behind. -/
def Exceeds (history : List Milliseconds) (watch : Stopwatch) (display : Display) : Prop :=
  display.shown = true →
    ∃ time ∈ history, watch.timeBeforePause.count + 1000 ≤ time.count * 1000

/-- Every reading that counts a millisecond of the open segment exceeds the bank by one. -/
theorem Exceeds.call {history : List Milliseconds} {watch : Stopwatch} {display : Display}
    (exceeds : Exceeds history watch display) (shows : watch.Shows display) {made : Call}
    (forward : display.Forward made) :
    Exceeds (history ++ (Stopwatch.call watch made).2.toList) (Stopwatch.call watch made).1
      (display.call made).1 := by
  obtain ⟨later, unreset⟩ := forward
  have whole := shows.sound.whole
  rcases made with ⟨operation, now⟩
  replace later : display.clock ≤ now.count := later
  cases operation with
  | reset => exact absurd rfl unreset
  | start => intro shown; simp [Display.call] at shown
  | pause => intro shown; simp [Display.call] at shown
  | getTime =>
    intro shown
    have read := getTime_count shows.sound later
    simp only [Display.call, Bool.or_eq_true, decide_eq_true_eq] at shown
    rcases shown with before | counted
    · -- The segment had been shown already, and its reading is still in the history.
      obtain ⟨time, member, exceeded⟩ := exceeds before
      exact ⟨time, List.mem_append_left _ member, exceeded⟩
    · rw [← shows.opened] at counted
      refine ⟨watch.getTime now, by simp [Stopwatch.call], ?_⟩
      simp only [Stopwatch.call]
      omega

/-- The caller stays on the watch, and the readings stay the evidence of what is shown. -/
theorem readings_exceed {calls : List Call} :
    ∀ {history : List Milliseconds} {watch : Stopwatch} {display : Display}, watch.Shows display →
      Exceeds history watch display → Display.call.Meets Display.Forward display calls →
      (call.final watch calls).Shows (Display.call.final display calls) ∧
        Exceeds (history ++ watch.readings calls) (call.final watch calls)
          (Display.call.final display calls) := by
  -- The history grows by what each call reads, so it is generalised together with the states.
  induction calls with
  | nil => intro history watch display shows exceeds _; simpa [readings] using ⟨shows, exceeds⟩
  | cons made rest ih =>
    intro history watch display shows exceeds forward
    have next := ih (shows.call forward.1.1) (exceeds.call shows forward.1) forward.2
    refine ⟨next.1, ?_⟩
    rw [readings_cons, ← List.append_assoc]
    exact next.2

/-- Read in the instant of a start, the watch shows its bank and nothing else. -/
theorem getTime_start {watch : Stopwatch} {clock : Int} (sound : watch.Sound clock)
    {now : Microseconds} (later : clock ≤ now.count) :
    ((watch.start now).getTime now).count = watch.timeBeforePause.count / 1000 := by
  -- The segment that begins now has no length yet.
  have fresh : (watch.start now).Sound now.count := call_sound sound ⟨.start, now⟩ later
  rw [getTime_count fresh le_rfl]
  simp

/-- Looked at in the instant of a start, a watch that has shown more than its bank falls back. -/
theorem not_nonDecreasing_start {watch : Stopwatch} {before : List Call} {clock : Int}
    (sound : (call.final watch before).Sound clock) {now : Microseconds} (later : clock ≤ now.count)
    {time : Milliseconds} (member : time ∈ watch.readings before)
    (exceeded : (call.final watch before).timeBeforePause.count + 1000 ≤ time.count * 1000) :
    ¬ NonDecreasing (watch.readings (before ++ [⟨.start, now⟩, ⟨.getTime, now⟩])) := by
  have fallen := getTime_start sound later
  intro sorted
  -- The exceeding reading comes earlier in the list than the one that falls back.
  rw [readings_append] at sorted
  have last : ((call.final watch before).start now).getTime now ∈
      (call.final watch before).readings [⟨.start, now⟩, ⟨.getTime, now⟩] := by
    simp [readings, call, List.reduceOption_cons_of_some, List.reduceOption_cons_of_none]
  have low := (List.pairwise_append.mp sorted).2.2 time member _ last
  rw [fallen] at low
  omega

/-- The first start finds an empty bank, whatever the uptime, and shows nothing of it. -/
theorem started_shows (first : Microseconds) :
    (({} : Stopwatch).start first).Shows (.started first) ∧
      (({} : Stopwatch).start first).Covers (.started first) 0 :=
  -- A start opens the segment, and a new watch has nothing in its bank.
  ⟨⟨sound_started first, rfl⟩, le_rfl⟩

/--
Readings run forward as long as no start discards a segment that a reading has counted.

Where one does, a look at the watch in the same instant reads less than before.
-/
theorem readings_nonDecreasing (first : Microseconds) (calls : List Call)
    (forward : Display.call.Meets Display.Forward (.started first) calls) :
    (Display.call.Meets Display.KeepsShown (.started first) calls →
        NonDecreasing (({} : Stopwatch).readings (⟨.start, first⟩ :: calls))) ∧
      (¬ Display.call.Meets Display.KeepsShown (.started first) calls →
        ∃ before made after, calls = before ++ made :: after ∧
          ¬ NonDecreasing (({} : Stopwatch).readings
            (⟨.start, first⟩ :: (before ++ [made, ⟨.getTime, made.now⟩])))) := by
  obtain ⟨shows, covers⟩ := started_shows first
  constructor
  · intro keeps
    -- The first start answers nothing, so the readings are those of the started watch.
    show NonDecreasing ((({} : Stopwatch).start first).readings calls)
    exact (readings_covered shows covers forward keeps).2
  · intro discards
    obtain ⟨before, made, after, split, kept, refused⟩ := Transducer.exists_first_refused discards
    refine ⟨before, made, after, split, ?_⟩
    rw [split, Transducer.meets_append] at forward
    have nothing : Exceeds [] (({} : Stopwatch).start first) (.started first) := by
      intro shown
      simp [Display.started] at shown
    obtain ⟨shown, exceeds⟩ := readings_exceed shows nothing forward.1
    -- The refused call is a start, made while some reading exceeds the bank it falls back to.
    obtain ⟨isStart, seen⟩ := Classical.not_imp.mp refused
    obtain ⟨time, member, exceeded⟩ := exceeds (by simpa using seen)
    have later := forward.2.1.1
    rcases made with ⟨operation, now⟩
    replace isStart : operation = .start := isStart
    subst operation
    show ¬ NonDecreasing ((({} : Stopwatch).start first).readings
      (before ++ [⟨.start, now⟩, ⟨.getTime, now⟩]))
    exact not_nonDecreasing_start shown.sound later member exceeded

/-- A pause between two starts, and a start before any millisecond has been read, lose nothing. -/
theorem readings_nonDecreasing_pause :
    NonDecreasing (({} : Stopwatch).readings [⟨.start, ⟨0⟩⟩, ⟨.getTime, ⟨900⟩⟩, ⟨.start, ⟨950⟩⟩,
      ⟨.getTime, ⟨4000⟩⟩, ⟨.pause, ⟨5000⟩⟩, ⟨.start, ⟨9000⟩⟩, ⟨.getTime, ⟨9100⟩⟩]) :=
  -- The condition is looked at call by call.
  (readings_nonDecreasing ⟨0⟩ _ (by decide)).1 (by decide)

/-- A second start of a running watch turns its reading back from five milliseconds to nothing. -/
theorem readings_fall_back :
    Display.call.Meets Display.Forward (.started ⟨0⟩)
        [⟨.getTime, ⟨5000⟩⟩, ⟨.start, ⟨5000⟩⟩, ⟨.getTime, ⟨5000⟩⟩] ∧
      ¬ NonDecreasing (({} : Stopwatch).readings
        [⟨.start, ⟨0⟩⟩, ⟨.getTime, ⟨5000⟩⟩, ⟨.start, ⟨5000⟩⟩, ⟨.getTime, ⟨5000⟩⟩]) := by
  -- The second start is made at the very time of the reading.
  decide

end Stopwatch
end Notus
