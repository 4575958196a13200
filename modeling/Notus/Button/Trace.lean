import Notus.Button.PressCycle
import Notus.Button.Readiness

/-! The exact trace of the debouncer: every second edge seen is reported, one delay later. -/

namespace Notus.Button

variable {Callback : Type*}

/-- Every second item of a list, beginning with the first. -/
def everySecond {Item : Type*} : List Item → List Item
  | [] => []
  | [item] => [item]
  | item :: _ :: rest => item :: everySecond rest

/-- An item put behind an even number of others is kept, and one behind an odd number is not. -/
theorem everySecond_concat {Item : Type*} (last : Item) :
    ∀ items : List Item, everySecond (items ++ [last]) =
      if items.length % 2 = 0 then everySecond items ++ [last] else everySecond items
  | [] => rfl
  | [item] => rfl
  | item :: second :: rest => by
    -- Two items fewer have the same parity.
    have ih := everySecond_concat last rest
    simp only [List.cons_append, everySecond, ih, List.length_cons]
    split <;> split <;> first | rfl | omega

namespace World

/-- The interrupt is enabled, and the callback of the object is linked. -/
def Watched (world : World Callback) : Prop :=
  match world.self with
  | some self => world.port.Fires self.address
  | none => False

instance (world : World Callback) : Decidable world.Watched :=
  match held : world.self with
  | some self => decidable_of_iff (world.port.Fires self.address) (by simp [Watched, held])
  | none => isFalse (by simp [Watched, held])

/-- The instant of an event that is an edge the pin is watched for. -/
def seen (world : World Callback) (event : Event Callback) : List Nat :=
  -- Whether an edge is seen is decided before its own handler runs.
  match event.happening with
  | .edge => if world.Watched then [event.now] else []
  | _ => []

/-- The instants of the edges that occur while the pin is watched. -/
def seenEdges : World Callback → List (Event Callback) → List Nat
  | _, [] => []
  | world, event :: rest =>
    match step world event with
    | none => []
    | some next => world.seen event ++ seenEdges next rest

/-- The edges seen in a run are those its first step sees, and those the rest does. -/
theorem seenEdges_cons {world next : World Callback} {event : Event Callback}
    {rest : List (Event Callback)} (stepped : step world event = some next) :
    world.seenEdges (event :: rest) = world.seen event ++ next.seenEdges rest := by
  -- The first step goes well, so the recursion takes it.
  simp only [seenEdges, stepped]

/-- An armed button watches its pin. -/
theorem InPhase.watched {delay status : Nat} {callback : Option Callback} {world : World Callback}
    (inPhase : world.InPhase delay callback (.armed status)) : world.Watched := by
  -- Its callback is linked, and its interrupt is on.
  cases inPhase with
  | armed held _ _ _ fires => simpa [Watched, held] using fires

/-- Inside a window the pin is not watched. -/
theorem InPhase.not_watched {delay since : Nat} {callback : Option Callback}
    {world : World Callback} (inPhase : world.InPhase delay callback (.window since)) :
    ¬ world.Watched := by
  -- The handler has turned the interrupt off.
  cases inPhase with
  | window held _ _ _ _ masked _ => simp [Watched, held, Port.Fires, masked]

end World

namespace Phase

/-- How many edges have been seen, modulo two. -/
def parity : Phase → Nat
  | .armed 0 => 0
  -- The edge of a window is not yet paired, and neither is the one an unread expiry is left of.
  | .armed (_ + 1) => 1
  | .window _ => 1

/-- The edge of a window that is open. -/
def pending : Phase → Option Nat
  | .armed _ => none
  | .window since => some since

end Phase

namespace World

/-- What has been reported, with the edges seen so far and the phase they have led to. -/
structure Traced (delay : Nat) (callback : Callback) (edges expired : List Nat) (phase : Phase)
    (world : World Callback) : Prop where
  inPhase : world.InPhase delay (some callback) phase
  timely : phase.Timely delay world.now
  parity : edges.length % 2 = phase.parity
  every : everySecond edges = expired ++ phase.pending.toList
  reported : world.presses = expired.map fun edge => (callback, edge, edge + delay)
  past : ∀ edge ∈ expired, edge + delay ≤ world.now
  apart : (everySecond edges).Pairwise fun first second => first + delay ≤ second

/-- A window hides an edge, and an armed button sees it. -/
theorem Traced.edge {delay now : Nat} {callback : Callback} {edges expired : List Nat}
    {phase : Phase} {world next : World Callback}
    (traced : world.Traced delay callback edges expired phase)
    (stepped : step world ⟨now, .edge⟩ = some next) :
    next.Traced delay callback (edges ++ world.seen ⟨now, .edge⟩) expired (phase.edge now) := by
  obtain ⟨inPhase, timely, parity, every, reported, past, apart⟩ := traced
  obtain ⟨reached, _⟩ := step_edge.mp stepped
  obtain ⟨kept, clock, presses⟩ := inPhase.edge stepped
  subst clock
  have later := timely_edge (inPhase.timely timely reached)
  have stillPast : ∀ edge ∈ expired, edge + delay ≤ next.now := fun edge member =>
    Nat.le_trans (past edge member) reached.1
  cases phase with
  | window since =>
    -- Nothing is seen, so nothing changes but the clock.
    have hidden : world.seen ⟨next.now, .edge⟩ = [] := if_neg inPhase.not_watched
    rw [hidden, List.append_nil]
    exact ⟨kept, later, parity, every, presses.trans reported, stillPast, apart⟩
  | armed status =>
    have seen : world.seen ⟨next.now, .edge⟩ = [next.now] := if_pos inPhase.watched
    have longer := everySecond_concat next.now edges
    rw [seen]
    cases status with
    | zero =>
      -- The edge is the first of a pair, and begins after all that has been reported.
      replace parity : edges.length % 2 = 0 := parity
      rw [if_pos parity] at longer
      have odd : (edges ++ [next.now]).length % 2 = 1 := by
        simp only [List.length_append, List.length_singleton]
        omega
      have spaced : ∀ edge ∈ everySecond edges, edge + delay ≤ next.now := by
        rw [every]
        exact fun edge member => stillPast edge (by simpa [Phase.pending] using member)
      refine ⟨kept, later, odd, ?_, presses.trans reported, stillPast, ?_⟩
      · rw [longer, every]
        simp [Phase.pending, Phase.edge]
      · rw [longer]
        exact List.pairwise_append.mpr ⟨apart, List.pairwise_singleton _ _,
          fun edge member other last => List.mem_singleton.mp last ▸ spaced edge member⟩
    | succ status =>
      -- The edge is the second of a pair, so it is not one of every second.
      replace parity : edges.length % 2 = 1 := parity
      have odd : ¬ edges.length % 2 = 0 := by omega
      rw [if_neg odd] at longer
      have even : (edges ++ [next.now]).length % 2 = 0 := by
        simp only [List.length_append, List.length_singleton]
        omega
      exact ⟨kept, later, even, longer.trans every, presses.trans reported, stillPast,
        longer ▸ apart⟩

/-- An expiry reports the edge of the window it ends. -/
theorem Traced.expire {delay now : Nat} {callback : Callback} {edges expired : List Nat}
    {phase : Phase} {world next : World Callback}
    (traced : world.Traced delay callback edges expired phase)
    (stepped : step world ⟨now, .expiry⟩ = some next) :
    ∃ since, next.Traced delay callback edges (expired ++ [since]) (.armed 1) := by
  -- The window that ends is the only one, and so the edge that opened it is reported last.
  obtain ⟨inPhase, timely, parity, every, reported, past, apart⟩ := traced
  obtain ⟨reached, _⟩ := step_expiry.mp stepped
  obtain ⟨since, rfl, rfl, kept, clock, presses⟩ := inPhase.expire stepped
  have stillPast : ∀ edge ∈ expired ++ [since], edge + delay ≤ next.now := by
    rw [clock]
    intro edge member
    rcases List.mem_append.mp member with old | new
    · exact Nat.le_trans (past edge old) reached.1
    · exact List.mem_singleton.mp new ▸ Nat.le_refl _
  refine ⟨since, kept, Nat.le_refl 1, parity, ?_, ?_, stillPast, apart⟩
  · rw [every]
    simp [Phase.pending]
  · rw [presses, reported]
    simp

/-- A run of edges and expiries adds the edges it sees. -/
theorem Traced.run {delay : Nat} {callback : Callback} {events : List (Event Callback)} :
    ∀ {world last : World Callback} {edges expired : List Nat} {phase : Phase},
      world.Traced delay callback edges expired phase → step.run world events = some last →
      PinAndTimer events → ∃ expired phase,
        last.Traced delay callback (edges ++ world.seenEdges events) expired phase := by
  induction events with
  | nil =>
    intro world last edges expired phase traced ran _
    cases ran
    exact ⟨expired, phase, by simpa [seenEdges] using traced⟩
  | cons event rest ih =>
    intro world last edges expired phase traced ran acts
    obtain ⟨next, stepped, later⟩ := Machine.run_cons.mp ran
    have others : PinAndTimer rest := fun other member => acts other (List.mem_cons_of_mem _ member)
    rw [seenEdges_cons stepped, ← List.append_assoc]
    obtain ⟨now, happening⟩ := event
    rcases acts _ List.mem_cons_self with same | same
    · -- An edge is added to those seen, when it is seen.
      cases same
      exact ih (traced.edge stepped) later others
    · cases same
      obtain ⟨since, next_traced⟩ := traced.expire stepped
      have hidden : world.seen ⟨now, .expiry⟩ = [] := rfl
      rw [hidden, List.append_nil]
      exact ih next_traced later others

/-- After an odd number of edges seen, a watched pin has an expiry left unread. -/
theorem Traced.unread {delay : Nat} {callback : Callback} {edges expired : List Nat}
    {phase : Phase} {world : World Callback}
    (traced : world.Traced delay callback edges expired phase) (odd : edges.length % 2 = 1)
    (watched : world.Watched) : ∃ status, phase = .armed (status + 1) := by
  -- A window would hide the pin, and a cleared status comes after an even number.
  have parity := traced.parity
  cases phase with
  | window since => exact absurd watched traced.inPhase.not_watched
  | armed status =>
    cases status with
    | zero =>
      rw [odd] at parity
      cases parity
    | succ status => exact ⟨status, rfl⟩

/-- An edge that reads an expiry away changes the status of the timer and nothing else. -/
theorem InPhase.swallow {delay status now : Nat} {callback : Option Callback}
    {world next : World Callback} (inPhase : world.InPhase delay callback (.armed (status + 1)))
    (stepped : step world ⟨now, .edge⟩ = some next) :
    next =
      { world with
        now := now
        self := world.self.map fun self =>
          { self with debounceTimer := { self.debounceTimer with status := 0 } }
        log := world.log ++ [.gpioHandler now] } := by
  -- The handler returns before it masks the pin or starts the timer.
  obtain ⟨_, rfl⟩ := step_edge.mp stepped
  cases inPhase with
  | @armed _ self _ held _ _ timer fires =>
    have unread : self.debounceTimer.status ≠ 0 := by simp [timer]
    have swallowed := gpioHandler_swallow now world.port unread
    simp [World.edge, held, if_pos fires, swallowed]

end World

/--
Every second edge seen is reported exactly once, one delay after it, and nothing else is.

The edges between them only clear the status, so two reports are at least one delay apart.
-/
theorem trace_of_run {boot ready address delay : Nat} {callback : Callback} {port : Port}
    {world last : World Callback} {events : List (Event Callback)}
    (started : World.step.run (.initial boot port)
      [⟨boot, .construct address (.ticks delay) .succeed⟩,
        ⟨ready, .addOnPressCallback callback⟩] = some world)
    (ran : World.step.run world events = some last) (acts : PinAndTimer events) :
    (∃ (expired : List Nat) (pending : Option Nat),
      everySecond (world.seenEdges events) = expired ++ pending.toList ∧
      last.deadline = pending.map (· + delay) ∧
      last.presses = expired.map fun edge => (callback, edge, edge + delay)) ∧
    (∀ before now after middle next, events = before ++ ⟨now, .edge⟩ :: after →
      World.step.run world before = some middle → middle.Watched →
      (world.seenEdges before).length % 2 = 1 → World.step middle ⟨now, .edge⟩ = some next →
      next =
        { middle with
          now := now
          self := middle.self.map fun self =>
            { self with debounceTimer := { self.debounceTimer with status := 0 } }
          log := middle.log ++ [.gpioHandler now] }) ∧
    last.presses.Pairwise fun first second => first.2.2 + delay ≤ second.2.2 := by
  -- Nothing has been seen or reported when the button is armed.
  obtain ⟨armed, silent⟩ := World.armed_of_construct started
  have begun : world.Traced delay callback [] [] (.armed 0) :=
    ⟨armed, Nat.zero_le 1, rfl, rfl, silent, by simp, .nil⟩
  obtain ⟨expired, phase, traced⟩ := begun.run ran acts
  rw [List.nil_append] at traced
  refine ⟨⟨expired, phase.pending, traced.every, ?_, traced.reported⟩, ?_, ?_⟩
  · cases phase with
    | armed status => exact traced.inPhase.deadline_armed
    | window since => exact traced.inPhase.deadline_window
  · rintro before now after middle next rfl reached watched odd stepped
    -- The prefix is a run of its own, and says which phase the edge finds.
    have fewer : PinAndTimer before := fun event member =>
      acts event (List.mem_append_left _ member)
    obtain ⟨_, phase, halfway⟩ := begun.run reached fewer
    rw [List.nil_append] at halfway
    obtain ⟨status, rfl⟩ := halfway.unread odd watched
    exact halfway.inPhase.swallow stepped
  · -- The reported edges are among every second one, which are spaced.
    have apart := traced.apart
    rw [traced.every] at apart
    rw [traced.reported, List.pairwise_map]
    exact (List.pairwise_append.mp apart).1.imp fun spaced => Nat.add_le_add_right spaced delay

/-- A button on an unused pin, with its callback registered. -/
def steadyStart : World Nat :=
  { now := 2
    port := ⟨true, .edgeBoth, CallbackList.empty.add 1⟩
    life := .alive
    self := some ⟨1, .ticks 5, 0, ⟨0, none⟩, some 7⟩
    log := [] }

/-- Of six edges, four are seen and two of them reported, at least one delay apart. -/
theorem trace_of_run_steady :
    World.step.run (.initial 0 ⟨false, .disable, .empty⟩)
        [⟨0, .construct 1 (.ticks 5) .succeed⟩, ⟨2, .addOnPressCallback 7⟩] = some steadyStart ∧
      World.step.run steadyStart steadyEvents = some steadyEnd ∧
      steadyStart.seenEdges steadyEvents = [10, 30, 50, 70] ∧
      steadyEnd.presses.Pairwise fun first second => first.2.2 + 5 ≤ second.2.2 := by
  -- Two of the six edges come while a window is open.
  have started : World.step.run (.initial 0 ⟨false, .disable, .empty⟩)
      [⟨0, .construct 1 (.ticks 5) .succeed⟩, ⟨2, .addOnPressCallback 7⟩] = some steadyStart := rfl
  have ran : World.step.run steadyStart steadyEvents = some steadyEnd := rfl
  have acts : PinAndTimer steadyEvents := by simp [PinAndTimer, steadyEvents]
  exact ⟨started, ran, by decide, (trace_of_run started ran acts).2.2⟩

end Notus.Button
