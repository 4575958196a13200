import Notus.Button.Phase

/-! Press cycles: one callback for every press whose release does not bounce. -/

namespace Notus.Button

variable {Callback : Type*}

/-- An odd number of edges, all less than one delay after the first of them. -/
structure Burst (delay : Nat) where
  first : Nat
  bounces : List Nat
  odd : bounces.length % 2 = 0
  ordered : (first :: bounces).Pairwise (· ≤ ·)
  within : ∀ edge ∈ first :: bounces, edge < first + delay

/-- All edges of a burst, in time order. -/
def Burst.edges {delay : Nat} (burst : Burst delay) : List Nat :=
  burst.first :: burst.bounces

/-- A press held until its window is over, and then a release. -/
structure Cycle (delay : Nat) where
  press : Burst delay
  release : Burst delay
  held : press.first + delay < release.first

/-- The edges of a press cycle, those of its press and then those of its release. -/
def Cycle.edges {delay : Nat} (cycle : Cycle delay) : List Nat :=
  -- The press is over before the release begins, so this is the order in time.
  cycle.press.edges ++ cycle.release.edges

/-- Every cycle is followed by quiet until more than one delay after its release began. -/
def Quiet {delay : Nat} : List (Cycle delay) → Prop
  | [] => True
  | cycle :: rest =>
    (∀ next ∈ rest.head?, cycle.release.first + delay < next.press.first) ∧ Quiet rest

/-- No edge of a burst comes before its first. -/
theorem Burst.first_le {delay : Nat} {burst : Burst delay} {edge : Nat}
    (member : edge ∈ burst.edges) : burst.first ≤ edge := by
  -- The edges are sorted, so the first is the least.
  rcases List.mem_cons.mp member with rfl | bounce
  · exact Nat.le_refl _
  · exact List.rel_of_pairwise_cons burst.ordered bounce

/-- The release comes after every edge of the press. -/
theorem Cycle.ordered {delay : Nat} (cycle : Cycle delay) : cycle.edges.Pairwise (· ≤ ·) := by
  refine List.pairwise_append.mpr ⟨cycle.press.ordered, cycle.release.ordered, ?_⟩
  intro early pressed late released
  -- A press edge comes within the delay, which is over before the release begins.
  have within := cycle.press.within early pressed
  have held := cycle.held
  have begun := Burst.first_le released
  omega

/-- Every edge of a cycle comes less than one delay after its release began. -/
theorem Cycle.edge_lt {delay : Nat} {cycle : Cycle delay} {edge : Nat}
    (member : edge ∈ cycle.edges) : edge < cycle.release.first + delay := by
  -- A press edge is even earlier, for its window is over when the release begins.
  have held := cycle.held
  rcases List.mem_append.mp member with pressed | released
  · have within := cycle.press.within edge pressed
    omega
  · exact cycle.release.within edge released

/-- With quiet between them, the edges of all cycles are in time order. -/
theorem Quiet.ordered {delay : Nat} {cycles : List (Cycle delay)} (quiet : Quiet cycles) :
    (cycles.flatMap Cycle.edges).Pairwise (· ≤ ·) := by
  -- Each cycle is in order by itself, and over before the next one begins.
  induction cycles with
  | nil => exact .nil
  | cons cycle rest ih =>
    have later := ih quiet.2
    refine List.pairwise_append.mpr ⟨cycle.ordered, later, ?_⟩
    intro early earlyIn late lateIn
    cases rest with
    | nil => cases lateIn
    | cons next others =>
      -- The first edge of the next cycle lies between the two.
      have between := quiet.1 next rfl
      have ended := Cycle.edge_lt earlyIn
      have begun : next.press.first ≤ late := by
        rcases List.mem_cons.mp lateIn with rfl | further
        · exact Nat.le_refl _
        · exact List.rel_of_pairwise_cons later further
      omega

/-- The instants of the edges among a sequence of events. -/
def edgesOf (events : List (Event Callback)) : List Nat :=
  -- Expiries contribute nothing.
  events.filterMap fun event =>
    match event.happening with
    | .edge => some event.now
    | _ => none

/-- Only the pin and the timer act. -/
def PinAndTimer (events : List (Event Callback)) : Prop :=
  ∀ event ∈ events, event.happening = .edge ∨ event.happening = .expiry

namespace World

/-- The pin raises the given edges, the timer expires where it is due, and in the end nothing is. -/
inductive Settles : World Callback → List Nat → World Callback → Prop where
  /-- All edges are over and no timer is running. -/
  | done {world : World Callback} (settled : world.deadline = none) : Settles world [] world
  /-- The next edge comes. -/
  | edge {world next last : World Callback} {now : Nat} {rest : List Nat}
      (stepped : step world ⟨now, .edge⟩ = some next) (later : Settles next rest last) :
      Settles world (now :: rest) last
  /-- The timer expires before the next edge. -/
  | expiry {world next last : World Callback} {now : Nat} {edges : List Nat}
      (stepped : step world ⟨now, .expiry⟩ = some next) (later : Settles next edges last) :
      Settles world edges last

/-- Every run of pin and timer that ends with nothing due settles its own edges. -/
theorem settles_of_run {events : List (Event Callback)} :
    ∀ {world last : World Callback}, step.run world events = some last → PinAndTimer events →
      last.deadline = none → world.Settles (edgesOf events) last := by
  -- Each event is one of the two kinds, and contributes its instant when it is an edge.
  induction events with
  | nil =>
    intro world last ran _ settled
    cases ran
    exact .done settled
  | cons event rest ih =>
    intro world last ran acts settled
    obtain ⟨next, stepped, ran⟩ := Machine.run_cons.mp ran
    have later := ih ran (fun other member => acts other (List.mem_cons_of_mem _ member)) settled
    obtain ⟨now, happening⟩ := event
    rcases acts _ List.mem_cons_self with same | same
    · replace same : happening = .edge := same
      subst happening
      exact .edge stepped later
    · replace same : happening = .expiry := same
      subst happening
      exact .expiry stepped later

/-- Whatever settles was run by events of the pin and the timer. -/
theorem Settles.exists_run {world last : World Callback} {edges : List Nat}
    (settles : world.Settles edges last) :
    ∃ events, step.run world events = some last ∧ PinAndTimer events ∧ edgesOf events = edges := by
  -- Each rule stands for one event, and the rules are met in the order of the events.
  induction settles with
  | done settled => exact ⟨[], rfl, by simp [PinAndTimer], rfl⟩
  | edge stepped _ ih =>
    obtain ⟨events, ran, acts, same⟩ := ih
    refine ⟨⟨_, .edge⟩ :: events, Machine.run_cons.mpr ⟨_, stepped, ran⟩, ?_, ?_⟩
    · simpa [PinAndTimer] using acts
    · simpa [edgesOf] using same
  | expiry stepped _ ih =>
    obtain ⟨events, ran, acts, same⟩ := ih
    refine ⟨⟨_, .expiry⟩ :: events, Machine.run_cons.mpr ⟨_, stepped, ran⟩, ?_, ?_⟩
    · simpa [PinAndTimer] using acts
    · simpa [edgesOf] using same

/-- What has settled has nothing due. -/
theorem Settles.settled {world last : World Callback} {edges : List Nat}
    (settles : world.Settles edges last) : last.deadline = none := by
  -- The end is the same for every part of a run.
  induction settles with
  | done settled => exact settled
  | edge _ _ ih => exact ih
  | expiry _ _ ih => exact ih

/-- With the timer off, the next thing to happen is the next edge. -/
theorem Settles.armed_edge {delay status now : Nat} {callback : Option Callback}
    {world last : World Callback} {rest : List Nat}
    (settles : world.Settles (now :: rest) last)
    (phase : world.InPhase delay callback (.armed status)) :
    ∃ next, step world ⟨now, .edge⟩ = some next ∧ next.Settles rest last := by
  -- An armed button has no expiry ahead.
  cases settles with
  | edge stepped later => exact ⟨_, stepped, later⟩
  | expiry stepped _ =>
    obtain ⟨since, impossible, _⟩ := phase.expire stepped
    cases impossible

/-- With the timer off and no edge to come, nothing happens any more. -/
theorem Settles.armed_nil {delay status : Nat} {callback : Option Callback}
    {world last : World Callback} (settles : world.Settles [] last)
    (phase : world.InPhase delay callback (.armed status)) : last = world := by
  -- Neither an edge nor an expiry is left.
  cases settles with
  | done _ => rfl
  | expiry stepped _ =>
    obtain ⟨since, impossible, _⟩ := phase.expire stepped
    cases impossible

/-- Callback calls are only ever added. -/
theorem Settles.presses_prefix {delay : Nat} {callback : Option Callback} {edges : List Nat}
    {world last : World Callback} (settles : world.Settles edges last) :
    ∀ {phase : Phase}, world.InPhase delay callback phase → world.presses <+: last.presses := by
  -- An edge adds none, and an expiry adds those of the window it ends.
  induction settles with
  | done _ => intro phase _; exact List.prefix_refl _
  | edge stepped _ ih =>
    intro phase inPhase
    obtain ⟨moved, _, kept⟩ := inPhase.edge stepped
    exact kept ▸ ih moved
  | expiry stepped _ ih =>
    intro phase inPhase
    obtain ⟨_, _, _, moved, _, added⟩ := inPhase.expire stepped
    exact (List.prefix_append _ _).trans (added ▸ ih moved)

/-- Edges inside a window are masked, and it ends before the first edge beyond it. -/
theorem Settles.window {delay : Nat} {callback : Callback} {edges : List Nat}
    {world last : World Callback} (settles : world.Settles edges last) :
    ∀ {since : Nat} {masked rest : List Nat}, edges = masked ++ rest →
      world.InPhase delay callback (.window since) →
      (∀ edge ∈ masked, edge < since + delay) → (∀ edge ∈ rest.head?, since + delay < edge) →
      ∃ next : World Callback, next.InPhase delay callback (.armed 1) ∧ next.Settles rest last ∧
        next.presses = world.presses ++ [(callback, since, since + delay)] := by
  -- The induction is on the run, and shortens the list of masked edges as it meets them.
  induction settles with
  | done settled =>
    -- A run cannot end inside a window, since its timer is still due.
    intro since masked rest _ phase _ _
    rw [phase.deadline_window] at settled
    cases settled
  | @edge world next last now rest stepped later ih =>
    intro since masked beyond split phase inside outside
    obtain ⟨moved, _, kept⟩ := phase.edge stepped
    cases masked with
    | nil =>
      -- An edge beyond the window cannot come before the timer expires.
      obtain rfl : now :: rest = beyond := split
      have late := outside now rfl
      have reached := (step_edge.mp stepped).1.2 _ phase.deadline_window
      omega
    | cons first masked =>
      obtain ⟨rfl, same⟩ := List.cons.inj split
      obtain ⟨ended, armed, settled, pressed⟩ :=
        ih same moved (fun edge member => inside edge (List.mem_cons_of_mem _ member)) outside
      exact ⟨ended, armed, settled, by rw [pressed, kept]⟩
  | @expiry world next last now edges stepped later ih =>
    intro since masked beyond split phase inside outside
    obtain ⟨opened, same, due, armed, clock, pressed⟩ := phase.expire stepped
    obtain rfl := Phase.window.inj same
    cases masked with
    | nil =>
      obtain rfl : edges = beyond := split
      exact ⟨next, armed, later, by simpa [due] using pressed⟩
    | cons first masked =>
      -- A masked edge cannot come after the timer has expired.
      subst split
      obtain ⟨after, edged, _⟩ := later.armed_edge armed
      have reached := (step_edge.mp edged).1.1
      have early := inside first List.mem_cons_self
      omega

/-- The next callback call after a window was opened is the one for the edge that opened it. -/
theorem Settles.window_presses {delay : Nat} {callback : Callback} {edges : List Nat}
    {world last : World Callback} (settles : world.Settles edges last) :
    ∀ {since : Nat}, world.InPhase delay callback (.window since) →
      world.presses ++ [(callback, since, since + delay)] <+: last.presses := by
  -- Whatever edges are masked until then, the next report is that of the expiry.
  induction settles with
  | done settled =>
    intro since phase
    rw [phase.deadline_window] at settled
    cases settled
  | edge stepped _ ih =>
    intro since phase
    obtain ⟨moved, _, kept⟩ := phase.edge stepped
    exact kept ▸ ih moved
  | expiry stepped later _ =>
    intro since phase
    obtain ⟨opened, same, due, armed, _, pressed⟩ := phase.expire stepped
    obtain rfl := Phase.window.inj same
    have more := later.presses_prefix armed
    rw [pressed, due] at more
    exact more

/-- With a cleared status, the next edge is one that is reported. -/
theorem Settles.armed_presses {delay now : Nat} {callback : Callback} {rest : List Nat}
    {world last : World Callback} (settles : world.Settles (now :: rest) last)
    (phase : world.InPhase delay callback (.armed 0)) :
    world.presses ++ [(callback, now, now + delay)] <+: last.presses := by
  obtain ⟨opened, stepped, settles⟩ := settles.armed_edge phase
  -- The edge opens a window, and opening it reports nothing yet.
  obtain ⟨window, _, kept⟩ := phase.edge stepped
  rw [← kept]
  exact settles.window_presses window

/-- A press reports itself once, and the first edge of its release is read away. -/
theorem Settles.press {delay : Nat} {callback : Callback} {world last : World Callback}
    {cycle : Cycle delay} {rest : List Nat} (settles : world.Settles (cycle.edges ++ rest) last)
    (phase : world.InPhase delay callback (.armed 0)) :
    ∃ next : World Callback, next.InPhase delay callback (.armed 0) ∧
      next.Settles (cycle.release.bounces ++ rest) last ∧
      next.presses = world.presses ++
        [(callback, cycle.press.first, cycle.press.first + delay)] := by
  -- The press opens a window, which ends before the release begins.
  obtain ⟨opened, stepped, settles⟩ := settles.armed_edge phase
  obtain ⟨window, _, unpressed⟩ := phase.edge stepped
  have split : cycle.press.bounces ++ cycle.release.edges ++ rest =
      cycle.press.bounces ++ (cycle.release.edges ++ rest) := List.append_assoc _ _ _
  obtain ⟨ended, armed, settles, pressed⟩ := settles.window split window
    (fun edge member => cycle.press.within edge (List.mem_cons_of_mem _ member))
    (by rintro edge ⟨⟩; exact cycle.held)
  -- The expiry is still unread, so the first edge of the release only reads it.
  obtain ⟨released, stepped, settles⟩ := settles.armed_edge armed
  obtain ⟨cleared, _, kept⟩ := armed.edge stepped
  exact ⟨released, cleared, settles, by rw [kept, pressed, unpressed]⟩

/-- From an armed button, press cycles are reported exactly once each if no release bounces. -/
theorem Settles.cycles {delay : Nat} {callback : Callback} {last : World Callback}
    {cycles : List (Cycle delay)} :
    ∀ {world : World Callback}, world.InPhase delay callback (.armed 0) → Quiet cycles →
      world.Settles (cycles.flatMap Cycle.edges) last →
      (last.presses = world.presses ++
          cycles.map (fun cycle => (callback, cycle.press.first, cycle.press.first + delay)) ↔
        ∀ cycle ∈ cycles, cycle.release.edges.length = 1) := by
  -- Every cycle starts from an armed button with a cleared status.
  induction cycles with
  | nil =>
    intro world phase _ settles
    simp [settles.armed_nil phase]
  | cons cycle rest ih =>
    intro world phase quiet settles
    obtain ⟨next, armed, settles, pressed⟩ := settles.press phase
    cases bounces : cycle.release.bounces with
    | nil =>
      -- One edge ends the press, and the remaining cycles start from an armed button again.
      rw [bounces] at settles
      have later := ih armed quiet.2 settles
      rw [pressed, List.append_assoc] at later
      simpa [Burst.edges, bounces] using later
    | cons second others =>
      -- A second edge of the release opens a window of its own, which is reported as well.
      rw [bounces] at settles
      have spurious := settles.armed_presses armed
      rw [pressed] at spurious
      refine iff_of_false (fun exact_ => ?_) fun single => ?_
      · rw [exact_, List.map_cons, List.append_assoc, List.prefix_append_right_inj] at spurious
        have shifted := (List.cons_prefix_cons.mp spurious).2
        cases rest with
        | nil => simp at shifted
        | cons following others =>
          -- The next press comes after the window of the release, so it is not the one reported.
          have same := (List.cons_prefix_cons.mp shifted).1
          have late := quiet.1 following rfl
          have early := cycle.release.within second (by simp [bounces])
          simp only [Prod.mk.injEq] at same
          omega
      · have long := single cycle List.mem_cons_self
        simp [Burst.edges, bounces] at long

end World

namespace World

/-- A successful construction and registration leave the button armed, with nothing reported. -/
theorem armed_of_construct {boot ready address delay : Nat} {callback : Callback} {port : Port}
    {world : World Callback}
    (ran : step.run (initial boot port) [⟨boot, .construct address (.ticks delay) .succeed⟩,
      ⟨ready, .addOnPressCallback callback⟩] = some world) :
    world.InPhase delay callback (.armed 0) ∧ world.presses = [] := by
  obtain ⟨constructed, first, second⟩ := Machine.run_cons.mp ran
  obtain ⟨registered, second, same⟩ := Machine.run_cons.mp second
  cases same
  -- The construction arms the button, and the registration changes neither port nor timer.
  obtain ⟨armed, _, silent⟩ := inPhase_constructed first
  obtain ⟨kept, _, still⟩ := armed.addOnPressCallback second
  exact ⟨kept, still.trans silent⟩

/-- An edge the clock can reach is taken, and leaves nothing overdue. -/
theorem InPhase.exists_edge {delay now : Nat} {callback : Option Callback} {phase : Phase}
    {world : World Callback} (inPhase : world.InPhase delay callback phase)
    (reached : world.Reaches now) :
    ∃ next, step world ⟨now, .edge⟩ = some next ∧
      next.InPhase delay callback (phase.edge now) ∧ next.now = now ∧
        ∀ due ∈ next.deadline, now ≤ due := by
  -- An edge is never refused, and a deadline it leaves lies ahead.
  have stepped := step_edge.mpr ⟨reached, rfl⟩
  obtain ⟨moved, clock, _⟩ := inPhase.edge stepped
  refine ⟨_, stepped, moved, clock, ?_⟩
  intro due member
  cases phase with
  | armed status =>
    cases status with
    | zero =>
      -- The window that opens is due one delay from now.
      rw [moved.deadline_window] at member
      cases member
      exact Nat.le_add_right now delay
    | succ status =>
      rw [moved.deadline_armed] at member
      cases member
  | window since =>
    rw [moved.deadline_window] at member
    exact reached.2 due (inPhase.deadline_window ▸ member)

/-- A window that is not overdue can be ended. -/
theorem InPhase.exists_expiry {delay since : Nat} {callback : Option Callback}
    {world : World Callback} (phase : world.InPhase delay callback (.window since))
    (pending : world.now ≤ since + delay) :
    ∃ next, step world ⟨since + delay, .expiry⟩ = some next ∧
      next.InPhase delay callback (.armed 1) ∧ next.now = since + delay := by
  -- The deadline is that of the window, and the clock has not passed it.
  obtain ⟨self, _, stepped⟩ := exists_step_expiry phase.deadline_window pending
  obtain ⟨_, _, _, armed, clock, _⟩ := phase.expire stepped
  exact ⟨_, stepped, armed, clock⟩

/-- Pin and timer never block each other: any edges in time order can be settled. -/
theorem InPhase.exists_settles {delay : Nat} {callback : Option Callback} {edges : List Nat} :
    ∀ {world : World Callback} {phase : Phase}, world.InPhase delay callback phase →
      (∀ due ∈ world.deadline, world.now ≤ due) → (world.now :: edges).Pairwise (· ≤ ·) →
      ∃ last, world.Settles edges last := by
  -- Before each edge a window that is due ends first, and then the edge is taken.
  induction edges with
  | nil =>
    intro world phase inPhase pending _
    cases phase with
    | armed status => exact ⟨world, .done inPhase.deadline_armed⟩
    | window since =>
      -- With no edge to come, the window only has to end.
      obtain ⟨next, stepped, armed, _⟩ :=
        inPhase.exists_expiry (pending _ inPhase.deadline_window)
      exact ⟨next, .expiry stepped (.done armed.deadline_armed)⟩
  | cons now rest ih =>
    intro world phase inPhase pending ordered
    have forward : world.now ≤ now := List.rel_of_pairwise_cons ordered List.mem_cons_self
    -- Wherever the clock can reach the edge, it is taken and the rest is settled from there.
    have take : ∀ {world : World Callback} {phase : Phase},
        world.InPhase delay callback phase → world.Reaches now →
          ∃ last, world.Settles (now :: rest) last := by
      intro world phase inPhase reached
      obtain ⟨next, stepped, moved, clock, fresh⟩ := inPhase.exists_edge reached
      obtain ⟨last, settles⟩ := ih moved (by rwa [clock]) (by rw [clock]; exact ordered.of_cons)
      exact ⟨last, .edge stepped settles⟩
    by_cases reached : world.Reaches now
    · exact take inPhase reached
    · cases phase with
      | armed status =>
        refine absurd ⟨forward, fun due member => ?_⟩ reached
        rw [inPhase.deadline_armed] at member
        cases member
      | window since =>
        -- The edge lies beyond the window, which therefore ends first.
        have late : since + delay ≤ now := by
          by_contra early
          refine reached ⟨forward, fun due member => ?_⟩
          rw [inPhase.deadline_window] at member
          cases member
          omega
        obtain ⟨next, stepped, armed, clock⟩ :=
          inPhase.exists_expiry (pending _ inPhase.deadline_window)
        obtain ⟨last, settles⟩ := take armed
          ⟨by rw [clock]; exact late, by rw [armed.deadline_armed]; rintro due ⟨⟩⟩
        exact ⟨last, .expiry stepped settles⟩

/-- Construction and registration can be carried out one after the other. -/
theorem exists_started {boot ready : Nat} (address delay : Nat) (callback : Callback) (port : Port)
    (forward : boot ≤ ready) :
    ∃ world, step.run (initial boot port) [⟨boot, .construct address (.ticks delay) .succeed⟩,
      ⟨ready, .addOnPressCallback callback⟩] = some world ∧ world.now = ready := by
  -- The two steps only ask that the clock does not run back.
  have fresh : (initial boot port : World Callback).Reaches boot :=
    ⟨Nat.le_refl boot, by simp [deadline, initial]⟩
  obtain ⟨world, same⟩ : ∃ world : World Callback,
      world = (initial boot port).constructed address (.ticks delay) .succeed := ⟨_, rfl⟩
  have built : step (initial boot port) ⟨boot, .construct address (.ticks delay) .succeed⟩ =
      some world := step_construct.mpr ⟨fresh, rfl, same⟩
  rw [constructed_succeed] at same
  -- The timer of a new button is not running, so the clock can go on.
  have reached : world.Reaches ready := by
    subst same
    exact ⟨forward, by simp [deadline, kTimerInit]⟩
  have registered : step world ⟨ready, .addOnPressCallback callback⟩ = some _ :=
    step_addOnPressCallback.mpr ⟨reached, congrArg life same, _, congrArg World.self same, rfl⟩
  exact ⟨_, Machine.run_cons.mpr ⟨_, built, Machine.run_cons.mpr ⟨_, registered, rfl⟩⟩, rfl⟩

end World

/-- Any press cycles after the registration can happen, and the timer is then off in the end. -/
theorem exists_run_of_cycles {boot ready delay : Nat} (address : Nat) (callback : Callback)
    (port : Port) {cycles : List (Cycle delay)} (quiet : Quiet cycles) (forward : boot ≤ ready)
    (first : ∀ cycle ∈ cycles.head?, ready ≤ cycle.press.first) :
    ∃ events last, World.step.run (.initial boot port)
        (⟨boot, .construct address (.ticks delay) .succeed⟩ ::
          ⟨ready, .addOnPressCallback callback⟩ :: events) = some last ∧
      PinAndTimer events ∧ edgesOf events = cycles.flatMap Cycle.edges ∧
      last.deadline = none := by
  -- The construction leaves an armed button, from which any edges in order can be settled.
  obtain ⟨world, started, clock⟩ :=
    World.exists_started address delay callback port forward
  obtain ⟨armed, _⟩ := World.armed_of_construct started
  have ordered : (world.now :: cycles.flatMap Cycle.edges).Pairwise (· ≤ ·) := by
    refine List.pairwise_cons.mpr ⟨?_, quiet.ordered⟩
    intro edge member
    cases cycles with
    | nil => cases member
    | cons cycle rest =>
      -- The first edge of all comes after the registration, and the others after it.
      have begun := first cycle rfl
      rw [clock]
      rcases List.mem_cons.mp member with rfl | further
      · exact begun
      · exact Nat.le_trans begun (List.rel_of_pairwise_cons quiet.ordered further)
  have pending : ∀ due ∈ world.deadline, world.now ≤ due := by
    rw [armed.deadline_armed]
    rintro due ⟨⟩
  obtain ⟨last, settles⟩ := armed.exists_settles pending ordered
  obtain ⟨events, ran, acts, edges⟩ := settles.exists_run
  exact ⟨events, last, Machine.run_append.mpr ⟨world, started, ran⟩, acts, edges, settles.settled⟩

/--
Every press is reported once, one delay after its first edge, exactly when no release bounces.

The reports are all callback calls of the run, each with the edge that opened its window.
-/
theorem presses_eq_iff {boot ready address delay : Nat} {callback : Callback} {port : Port}
    {events : List (Event Callback)} {last : World Callback} (cycles : List (Cycle delay))
    (quiet : Quiet cycles)
    (ran : World.step.run (.initial boot port)
      (⟨boot, .construct address (.ticks delay) .succeed⟩ ::
        ⟨ready, .addOnPressCallback callback⟩ :: events) = some last)
    (acts : PinAndTimer events) (edges : edgesOf events = cycles.flatMap Cycle.edges)
    (settled : last.deadline = none) :
    last.presses = cycles.map
        (fun cycle => (callback, cycle.press.first, cycle.press.first + delay)) ↔
      ∀ cycle ∈ cycles, cycle.release.edges.length = 1 := by
  -- Each cycle is over before the next one begins, so that its presses are its own.
  rw [show ∀ first second : Event Callback, first :: second :: events =
    [first, second] ++ events from fun _ _ => rfl] at ran
  obtain ⟨world, started, ran⟩ := Machine.run_append.mp ran
  obtain ⟨armed, unpressed⟩ := World.armed_of_construct started
  have settles := World.settles_of_run ran acts settled
  rw [edges] at settles
  simpa [unpressed] using settles.cycles armed quiet

/-- Two presses, the first of them bouncing, each released with a single edge. -/
def steadyCycles : List (Cycle 5) :=
  [{ press := ⟨10, [11, 12], by decide, by decide, by decide⟩
     release := ⟨30, [], by decide, by decide, by decide⟩
     held := by decide },
   { press := ⟨50, [], by decide, by decide, by decide⟩
     release := ⟨70, [], by decide, by decide, by decide⟩
     held := by decide }]

/-- The edges of the steady cycles, and an expiry one delay after either press. -/
def steadyEvents : List (Event Nat) :=
  [⟨10, .edge⟩, ⟨11, .edge⟩, ⟨12, .edge⟩, ⟨15, .expiry⟩, ⟨30, .edge⟩,
    ⟨50, .edge⟩, ⟨55, .expiry⟩, ⟨70, .edge⟩]

/-- Where the steady cycles leave the button. -/
def steadyEnd : World Nat :=
  { now := 70
    port := ⟨true, .edgeBoth, CallbackList.empty.add 1⟩
    life := .alive
    self := some ⟨1, .ticks 5, 50, ⟨0, none⟩, some 7⟩
    log := [.gpioHandler 10, .timerExpiryFunc 15, .onPressCallback 7 10 15, .gpioHandler 30,
      .gpioHandler 50, .timerExpiryFunc 55, .onPressCallback 7 50 55, .gpioHandler 70] }

/-- Both presses are reported, and nothing else is. -/
theorem presses_eq_iff_steady : steadyEnd.presses = [(7, 10, 15), (7, 50, 55)] := by
  have ran : World.step.run (.initial 0 ⟨false, .disable, .empty⟩)
      (⟨0, .construct 1 (.ticks 5) .succeed⟩ :: ⟨2, .addOnPressCallback 7⟩ :: steadyEvents) =
        some steadyEnd := rfl
  have acts : PinAndTimer steadyEvents := by simp [PinAndTimer, steadyEvents]
  -- Every release of the two cycles is a single edge.
  exact (presses_eq_iff steadyCycles ⟨by decide, by decide, trivial⟩ ran acts rfl rfl).mpr
    (by decide)

/-- A press whose release bounces with three edges. -/
def bouncingCycle : Cycle 5 :=
  { press := ⟨10, [], by decide, by decide, by decide⟩
    release := ⟨30, [31, 32], by decide, by decide, by decide⟩
    held := by decide }

/-- The edges of the bouncing cycle, and the two windows they open. -/
def bouncingEvents : List (Event Nat) :=
  [⟨10, .edge⟩, ⟨15, .expiry⟩, ⟨30, .edge⟩, ⟨31, .edge⟩, ⟨32, .edge⟩, ⟨36, .expiry⟩]

/-- One press with a bouncing release is reported twice, the second time for a release edge. -/
theorem presses_bouncing_release :
    ∃ last, World.step.run (.initial 0 ⟨false, .disable, .empty⟩)
        (⟨0, .construct 1 (.ticks 5) .succeed⟩ :: ⟨2, .addOnPressCallback 7⟩ :: bouncingEvents) =
          some last ∧
      Quiet [bouncingCycle] ∧ PinAndTimer bouncingEvents ∧
      edgesOf bouncingEvents = bouncingCycle.edges ∧ last.deadline = none ∧
      last.presses = [(7, 10, 15), (7, 31, 36)] ∧
      last.presses ≠ [bouncingCycle].map
        (fun cycle => (7, cycle.press.first, cycle.press.first + 5)) := by
  -- The edge at 30 reads the expiry away, and the one at 31 opens a window.
  refine ⟨_, rfl, ⟨by simp, trivial⟩, by simp [PinAndTimer, bouncingEvents], rfl, rfl, rfl, ?_⟩
  decide

end Notus.Button
