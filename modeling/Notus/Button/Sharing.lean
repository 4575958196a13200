import Notus.Button.Alone
import Notus.Button.Readiness
import Notus.Core.Simulation

/-! Buttons that share a port: each of them behaves as it would with the port to itself. -/

namespace Notus.Button

variable {Callback : Type*}

/-- A button, when it is constructed, is given a debounce time that ends. -/
def Event.Finite (delay : Nat) (event : Event Callback) : Prop :=
  ∀ address debounceTime verdicts, event.happening = .construct address debounceTime verdicts →
    debounceTime = .ticks delay

namespace World

/-- While a button is alive, it is in a phase that is neither overdue nor has expired twice. -/
def Kept (delay : Nat) (world : World Callback) : Prop :=
  world.life = .alive → ∃ address, world.Alive address delay

/-- No happening at all, from the construction to the destruction and beyond, breaks a phase. -/
theorem Kept.step {delay : Nat} {world next : World Callback} {event : Event Callback}
    (kept : world.Kept delay) (finite : event.Finite delay)
    (stepped : step world event = some next) : next.Kept delay := by
  intro alive
  obtain ⟨now, happening⟩ := event
  -- What does not begin or end a life finds the button alive already.
  have onward (before : world.life = .alive) (leaves : Event.LeavesAlive ⟨now, happening⟩) :
      ∃ address, next.Alive address delay := by
    obtain ⟨address, here⟩ := kept before
    exact ⟨address, here.step leaves stepped⟩
  cases happening with
  | construct address debounceTime verdicts =>
    obtain rfl := finite address debounceTime verdicts rfl
    obtain ⟨_, _, result, built, done⟩ :=
      @construct_local Callback address (.ticks delay) verdicts
    obtain ⟨_, _, rfl⟩ := step_construct.mp stepped
    simp only [constructed, done] at alive
    cases result with
    | error err => cases alive
    | ok self =>
      obtain ⟨rfl, rfl⟩ := built self rfl
      obtain ⟨armed, _, _⟩ := inPhase_constructed stepped
      exact ⟨address, ⟨none, _, armed, Nat.zero_le 1⟩, by simp [constructed_succeed]⟩
  | destroy =>
    obtain ⟨_, _, _, _, rfl⟩ := step_destroy.mp stepped
    -- Nothing is alive after the destructor.
    cases alive
  | edge =>
    -- An edge, an expiry or a callback begins no life.
    obtain ⟨_, rfl⟩ := step_edge.mp stepped
    have before : world.life = .alive := by rwa [(edge_kept _).1] at alive
    exact onward before trivial
  | expiry =>
    obtain ⟨_, _, _, _, rfl⟩ := step_expiry.mp stepped
    exact onward alive trivial
  | addOnPressCallback callback =>
    obtain ⟨_, before, _⟩ := step_addOnPressCallback.mp stepped
    exact onward before trivial

end World

namespace Panel

open Machine

variable {Pin : Type*} [DecidableEq Pin]

/-- Every object lies at the address the panel keeps it under, which is one of the layout's. -/
def Placed (layout : Layout Pin) (panel : Panel Callback Pin) : Prop :=
  ∀ address, ∀ self ∈ panel.self address, self.address = address ∧ address ∈ layout.addresses

/-- What was executed with the button at an address. -/
def logOf (panel : Panel Callback Pin) (address : Nat) : List (Execution Callback) :=
  panel.log.filterMap fun entry => if entry.1 = address then some entry.2 else none

/-- A panel shows, at the address of a button, the world of that button alone. -/
structure Shows (layout : Layout Pin) (address : Nat) (panel : Panel Callback Pin)
    (world : World Callback) : Prop where
  placed : panel.Placed layout
  twin : (panel.focus layout address).Twin address world
  ahead : (panel.focus layout address).Ahead
  log : world.log = panel.logOf address

/-- A button that has the pin to itself is shown what is done to that pin. -/
theorem Shows.own {layout : Layout Pin} {address : Nat} {panel : Panel Callback Pin}
    {world next later : World Callback} (shown : panel.Shows layout address world)
    (known : address ∈ layout.addresses) (twin : next.Twin address later) (ahead : next.Ahead)
    (log : later.log = world.log ++ next.log) :
    (panel.restore layout address next).Shows layout address later := by
  have found : (panel.restore layout address next).focus layout address =
      { next with log := [] } := by simp [restore, focus]
  -- Only the entries at the address are changed, by what the button did.
  refine ⟨?_, ?_, ?_, ?_⟩
  · intro other self held
    by_cases same : other = address
    · subst same
      exact ⟨twin.placed self (by simpa [restore] using held), known⟩
    · exact shown.placed other self (by simpa [restore, same] using held)
  · rw [found]
    exact ⟨twin.behind, twin.port, twin.life, twin.self, twin.placed⟩
  · rw [found]
    exact ahead
  · simp [restore, logOf, log, shown.log, List.filterMap_append, List.filterMap_map]

/-- What another button does to its pin is not shown. -/
theorem Shows.another {layout : Layout Pin} {address other : Nat} {panel : Panel Callback Pin}
    {world next : World Callback} (shown : panel.Shows layout address world)
    (known : address ∈ layout.addresses) (acting : other ∈ layout.addresses)
    (apart : address ≠ other)
    (placed : ∀ self ∈ next.self, self.address = other)
    (spares : (panel.focus layout other).Spares other next) :
    (panel.restore layout other next).Shows layout address world := by
  -- The other pin is not the pin of this button.
  have pins : layout.pin address ≠ layout.pin other := fun same =>
    apart (layout.apart address known other acting same)
  have still : next.now = panel.now := spares.clock
  refine ⟨?_, ?_, ?_, ?_⟩
  · intro lying self held
    by_cases same : lying = other
    · subst same
      exact ⟨placed self (by simpa [restore] using held), acting⟩
    · exact shown.placed lying self (by simpa [restore, same] using held)
  · have twin := shown.twin
    refine ⟨Nat.le_trans twin.behind (Nat.le_of_eq still.symm), ⟨?_, ?_, ?_⟩, ?_, ?_, ?_⟩
    · simpa [restore, focus, GpioPort.onPin_put_ne pins] using twin.port.isInput
    · simpa [restore, focus, GpioPort.onPin_put_ne pins] using twin.port.interrupt
    · have linked := twin.port.linked
      rw [← linked]
      simpa [restore, focus, GpioPort.onPin, GpioPort.put] using
        spares.others address apart
    · simpa [restore, focus, apart] using twin.life
    · simpa [restore, focus, apart] using twin.self
    · simpa [restore, focus, apart] using twin.placed
  · simpa [World.Ahead, World.deadline, restore, focus, apart, still] using shown.ahead
  · -- What was executed with the other button is noted under its address.
    have nothing : (next.log.map fun execution => (other, execution)).filterMap
        (fun entry => if entry.1 = address then some entry.2 else none) = [] := by
      simp [List.filterMap_map, Ne.symm apart]
    simp [restore, logOf, shown.log, List.filterMap_append, nothing]

/-- The driver's call of a callback is the handler of the button it belongs to. -/
theorem zephyrCallback_eq {layout : Layout Pin} {panel : Panel Callback Pin} {address : Nat}
    {self : Button Callback} (held : panel.self address = some self) :
    panel.zephyrCallback layout address =
      panel.restore layout address (panel.focus layout address).called := by
  -- A callback that is linked belongs to a button that is there.
  have found : (panel.focus layout address).self = some self := held
  simp only [zephyrCallback, World.called, held, found]
  rfl

/-- A callback is called without the clock going on. -/
theorem zephyrCallback_now (layout : Layout Pin) (panel : Panel Callback Pin) (address : Nat) :
    (panel.zephyrCallback layout address).now = panel.now := by
  -- The handler answers for the instant it is called at.
  unfold zephyrCallback
  cases panel.self address <;> rfl

/-- However many callbacks an interrupt leads to, they are all called at its instant. -/
theorem foldl_zephyrCallback_now (layout : Layout Pin) (addresses : List Nat) :
    ∀ panel : Panel Callback Pin,
      (addresses.foldl (zephyrCallback layout) panel).now = panel.now := by
  -- The callbacks are called one by one.
  induction addresses with
  | nil => exact fun _ => rfl
  | cons address rest ih =>
    intro panel
    rw [List.foldl_cons, ih, zephyrCallback_now]

/-- Calls of the callbacks of other buttons are not shown. -/
theorem Shows.foldl_others {layout : Layout Pin} {address : Nat} {world : World Callback}
    (known : address ∈ layout.addresses) {addresses : List Nat} (absent : address ∉ addresses) :
    ∀ {panel : Panel Callback Pin}, panel.Shows layout address world →
      (addresses.foldl (zephyrCallback layout) panel).Shows layout address world := by
  -- Each call changes the entries of its own button, and none of them is this one.
  induction addresses with
  | nil => exact id
  | cons other rest ih =>
    intro panel shown
    have apart : address ≠ other := List.ne_of_not_mem_cons absent
    refine ih (List.not_mem_of_not_mem_cons absent) ?_
    -- A callback whose object is gone does nothing.
    cases held : panel.self other with
    | none => simpa [zephyrCallback, held] using shown
    | some self =>
      obtain ⟨_, acting⟩ := shown.placed other self held
      have whole := World.Twin.refl (panel.focus layout other)
        fun self held => (shown.placed other self held).1
      obtain ⟨twin, _, spares⟩ := World.called_twin whole rfl rfl
      rw [zephyrCallback_eq held]
      exact shown.another known acting apart twin.placed spares

/-- The button whose callback is among those that are called runs its handler once. -/
theorem Shows.foldl_own {layout : Layout Pin} {address : Nat} {world : World Callback}
    (known : address ∈ layout.addresses) {addresses : List Nat} (present : address ∈ addresses)
    (once : addresses.Nodup) {panel : Panel Callback Pin}
    (shown : panel.Shows layout address world) (same : world.now = panel.now) :
    (addresses.foldl (zephyrCallback layout) panel).Shows layout address world.called := by
  -- Its own call stands between those of other buttons.
  obtain ⟨before, after, rfl⟩ := List.append_of_mem present
  obtain ⟨_, once, apart⟩ := List.nodup_append.mp once
  have earlier : address ∉ before := fun member => apart _ member _ List.mem_cons_self rfl
  have later : address ∉ after := (List.nodup_cons.mp once).1
  have reached := shown.foldl_others known earlier
  have clock := foldl_zephyrCallback_now layout before panel
  rw [List.foldl_append, List.foldl_cons]
  refine Shows.foldl_others known later ?_
  generalize before.foldl (zephyrCallback layout) panel = middle at reached clock
  obtain ⟨twin, log, _⟩ := World.called_twin reached.twin (same.trans clock.symm) rfl
  cases held : middle.self address with
  | none =>
    have gone : world.self = none := reached.twin.self ▸ held
    simpa [zephyrCallback, held, World.called, gone] using reached
  | some self =>
    rw [zephyrCallback_eq held]
    exact reached.own known twin (World.called_ahead reached.ahead) log

/-- What a button takes part in of an event of its panel. -/
def view (layout : Layout Pin) (address : Nat) (event : PanelEvent Callback Pin) :
    List (Event Callback) :=
  match event.happening with
  | .button acting happening => if acting = address then [⟨event.now, happening⟩] else []
  -- An interrupt of the port is an edge for every button on one of its pins.
  | .edges pins => if layout.pin address ∈ pins then [⟨event.now, .edge⟩] else []

omit [DecidableEq Pin] in
/-- Time that goes on for the panel is noticed by a button with its own next event. -/
theorem Shows.wait {layout : Layout Pin} {address now : Nat} {panel : Panel Callback Pin}
    {world : World Callback} (known : address ∈ layout.addresses)
    (shown : panel.Shows layout address world) (reached : panel.Reaches layout now) :
    ({ panel with now := now } : Panel Callback Pin).Shows layout address world :=
  -- The clock of the panel may be ahead of that of the button, but not behind.
  ⟨shown.placed, ⟨Nat.le_trans shown.twin.behind reached.1, shown.twin.port,
    shown.twin.life, shown.twin.self, shown.twin.placed⟩, reached.2 address known, shown.log⟩

/-- The callbacks called are those of the buttons that watch one of the pins. -/
theorem mem_fired {layout : Layout Pin} {panel : Panel Callback Pin} {pins : List Pin}
    {address : Nat} :
    (address ∈ panel.port.callbacks.addresses.filter fun address =>
        layout.pin address ∈ panel.port.pending pins) ↔
      layout.pin address ∈ pins ∧ (panel.focus layout address).port.Fires address := by
  -- A callback is called when its own pin is pending, whatever the other pins do.
  simp only [List.mem_filter, GpioPort.pending, decide_eq_true_eq, Port.Fires, focus,
    GpioPort.onPin]
  constructor
  · rintro ⟨linked, noticed, on⟩
    exact ⟨noticed, on, linked⟩
  · rintro ⟨noticed, on, linked⟩
    exact ⟨linked, noticed, on⟩

/-- An interrupt is an edge to a button on one of its pins, and nothing to the others. -/
theorem Shows.edges {layout : Layout Pin} {address now : Nat} {panel : Panel Callback Pin}
    {world : World Callback} {pins : List Pin} (known : address ∈ layout.addresses)
    (shown : panel.Shows layout address world) (reached : panel.Reaches layout now) :
    ∃ later, World.step.run world (view layout address ⟨now, .edges pins⟩) = some later ∧
      (({ panel with now := now } : Panel Callback Pin).gpioFireCallbacks layout pins).Shows layout
        address later := by
  have waited := shown.wait known reached
  generalize held : ({ panel with now := now } : Panel Callback Pin) = ready at waited
  have once := ready.port.callbacks.linkedOnce.filter fun address =>
    layout.pin address ∈ ready.port.pending pins
  simp only [view, gpioFireCallbacks]
  split
  case isTrue noticed =>
    have own := shown.twin.reaches ⟨reached.1, reached.2 address known⟩
    refine ⟨_, run_singleton.trans (World.step_edge.mpr ⟨own, rfl⟩), ?_⟩
    -- The clock of the world alone is set to that of the panel.
    have level : ready.Shows layout address { world with now := now } :=
      ⟨waited.placed, ⟨by simp [← held, focus], waited.twin.port, waited.twin.life,
        waited.twin.self, waited.twin.placed⟩, waited.ahead, waited.log⟩
    have same : now = ready.now := by simp [← held]
    have placed : ∀ self ∈ ({ world with now := now } : World Callback).self,
        self.address = address := level.twin.self ▸ level.twin.placed
    have agrees : world.port.Fires address ↔ (ready.focus layout address).port.Fires address := by
      simp only [Port.Fires, ← waited.twin.port.interrupt, ← waited.twin.port.linked]
    rw [World.edge_eq_called placed]
    split
    case isTrue fires =>
      exact level.foldl_own known (mem_fired.mpr ⟨noticed, agrees.mp fires⟩) once same
    case isFalse silent =>
      exact level.foldl_others known fun member => silent (agrees.mpr (mem_fired.mp member).2)
  case isFalse unnoticed =>
    exact ⟨world, rfl, waited.foldl_others known fun member => unnoticed (mem_fired.mp member).1⟩

/-- What a button does itself is shown to it, and hidden from the others. -/
theorem Shows.acting {layout : Layout Pin} {address acting : Nat} {panel : Panel Callback Pin}
    {world next : World Callback} {happening : Happening Callback}
    (known : address ∈ layout.addresses) (member : acting ∈ layout.addresses)
    (here : happening.At acting) (shown : panel.Shows layout address world)
    (stepped : World.step (panel.focus layout acting) ⟨panel.now, happening⟩ = some next) :
    ∃ later, World.step.run world (view layout address ⟨panel.now, .button acting happening⟩) =
        some later ∧ (panel.restore layout acting next).Shows layout address later := by
  simp only [view]
  split
  case isTrue same =>
    -- The button's own step is the same as the one it would take alone.
    subst same
    obtain ⟨later, taken, twin, log, _⟩ := World.step_twin shown.twin here rfl stepped
    have ahead := World.step_ahead here stepped
    exact ⟨later, run_singleton.trans taken, shown.own known twin ahead log⟩
  case isFalse apart =>
    -- Another button takes its step in its own world, and that is not shown here.
    have whole := World.Twin.refl (panel.focus layout acting)
      fun self held => (shown.placed acting self held).1
    obtain ⟨_, _, twin, _, spares⟩ := World.step_twin whole here rfl stepped
    exact ⟨world, rfl, shown.another known member (Ne.symm apart) twin.placed spares⟩

/-- What happens to a panel is shown as what happens to each of its buttons alone. -/
theorem simulates (layout : Layout Pin) {address : Nat} (known : address ∈ layout.addresses) :
    Simulates (step layout) World.step (view layout address)
      (Shows layout address : Panel Callback Pin → World Callback → Prop) := by
  -- An event of the panel is an interrupt of the port, or something one button does.
  intro panel world ⟨now, happening⟩ next shown stepped
  simp only [step] at stepped
  split at stepped
  case isFalse => cases stepped
  case isTrue possible =>
    have reached := possible.2
    cases happening with
    | edges pins =>
      cases stepped
      exact shown.edges known reached
    | button acting happening =>
      simp only at stepped
      split at stepped
      case isFalse => cases stepped
      case isTrue allowed =>
        obtain ⟨after, taken, rfl⟩ := Option.map_eq_some_iff.mp stepped
        exact (shown.wait known reached).acting known allowed.1 allowed.2 taken

omit [DecidableEq Pin] in
/-- A panel without buttons shows each of them a world without a button. -/
theorem shows_initial (layout : Layout Pin) (address now : Nat) (port : GpioPort Pin) :
    (initial now port : Panel Callback Pin).Shows layout address
      (.initial now (port.onPin (layout.pin address))) :=
  -- Neither of the two has a button or a log.
  ⟨nofun, ⟨Nat.le_refl now, ⟨rfl, rfl, Iff.rfl⟩, rfl, rfl, nofun⟩, nofun, rfl⟩

/--
Every run of buttons that share a port is, to each of them, a run with the port to itself.

Its life, its members, its pin and everything executed with it come out the same, as long as the
calls of the handlers succeed. A run goes no further than the destruction of a button whose timer is
running.
-/
theorem alone_of_run {layout : Layout Pin} {address boot : Nat} {port : GpioPort Pin}
    {events : List (PanelEvent Callback Pin)} {last : Panel Callback Pin}
    (known : address ∈ layout.addresses)
    (ran : (step layout).run (initial boot port) events = some last) :
    ∃ world : World Callback,
      World.step.run (.initial boot (port.onPin (layout.pin address)))
        (events.flatMap (view layout address)) = some world ∧
      last.life address = world.life ∧ last.self address = world.self ∧
      (last.port.onPin (layout.pin address)).Agree address world.port ∧
      last.logOf address = world.log := by
  -- At the beginning nothing is constructed anywhere.
  have begun := @shows_initial Callback Pin layout address boot port
  obtain ⟨world, alone, shown⟩ := (simulates layout known).run begun ran
  exact ⟨world, alone, shown.twin.life, shown.twin.self, shown.twin.port, shown.log.symm⟩

/-- Two buttons, at the addresses 1 and 2, on two pins of a port. -/
def pairLayout : Layout Bool where
  addresses := [1, 2]
  pin address := address == 1
  apart := by decide

/-- An interrupt for both pins, after which the first button is destroyed before the second. -/
def pairEvents : List (PanelEvent Nat Bool) :=
  [⟨0, .button 1 (.construct 1 (.ticks 5) .succeed)⟩,
    ⟨1, .button 2 (.construct 2 (.ticks 9) .succeed)⟩, ⟨2, .button 2 (.addOnPressCallback 7)⟩,
    ⟨10, .edges [true, false]⟩, ⟨15, .button 1 .expiry⟩, ⟨17, .button 1 .destroy⟩,
    ⟨19, .button 2 .expiry⟩]

/-- Nothing is configured, and no callback is linked. -/
def idlePort : GpioPort Bool :=
  { isInput := fun _ => false, interrupt := fun _ => .disable, callbacks := .empty }

/-- The second button reports its press as if the first one were not there. -/
theorem alone_of_run_pair :
    ∃ last : Panel Nat Bool, (step pairLayout).run (initial 0 idlePort) pairEvents = some last ∧
      ∃ world : World Nat,
        World.step.run (.initial 0 (idlePort.onPin (pairLayout.pin 2)))
          (pairEvents.flatMap (view pairLayout 2)) = some world ∧
        last.logOf 2 = world.log := by
  -- The first button is destroyed once its own window has ended.
  have completes : ((step pairLayout).run (initial 0 idlePort) pairEvents).isSome := by decide
  have ran := (Option.some_get completes).symm
  obtain ⟨world, alone, _, _, _, log⟩ :=
    alone_of_run (show 2 ∈ pairLayout.addresses by decide) ran
  exact ⟨_, ran, world, alone, log⟩

/-- The button at an address, when it is constructed, is given a debounce time that ends. -/
def BuildsFinite (address delay : Nat) (event : PanelEvent Callback Pin) : Prop :=
  ∀ lies debounceTime verdicts,
    event.happening = .button address (.construct lies debounceTime verdicts) →
      debounceTime = .ticks delay

/-- What a button is shown gives it the debounce time that the panel's events give it. -/
theorem finite_of_view {layout : Layout Pin} {address delay : Nat}
    {events : List (PanelEvent Callback Pin)}
    (finite : ∀ event ∈ events, BuildsFinite address delay event) :
    ∀ event ∈ events.flatMap (view layout address), event.Finite delay := by
  intro event member
  obtain ⟨source, belongs, seen⟩ := List.mem_flatMap.mp member
  obtain ⟨now, happening⟩ := source
  -- What is shown is an edge, or the button's own happening.
  cases happening with
  | edges pins =>
    simp only [view] at seen
    split at seen
    · obtain rfl := List.mem_singleton.mp seen
      exact nofun
    · cases seen
  | button acting happening =>
    simp only [view] at seen
    split at seen
    next same =>
      obtain rfl := List.mem_singleton.mp seen
      rintro lies debounceTime verdicts rfl
      exact finite _ belongs lies debounceTime verdicts (by rw [same])
    next => cases seen

/--
However the other buttons of a port come and go, a button that is alive is never deaf for good.

It either watches its pin, or is in a window whose timer is running and will restore it. The calls
of the handlers succeed, and no button is destroyed while its timer is running.
-/
theorem ready_of_panel_run {layout : Layout Pin} {address boot delay : Nat} {port : GpioPort Pin}
    {events : List (PanelEvent Callback Pin)} {last : Panel Callback Pin}
    (known : address ∈ layout.addresses)
    (finite : ∀ event ∈ events, BuildsFinite address delay event)
    (ran : (step layout).run (initial boot port) events = some last)
    (alive : last.life address = .alive) :
    ∃ self, last.self address = some self ∧ self.address = address ∧
      Xor (self.Armed (last.port.onPin (layout.pin address)))
        (self.Debouncing (last.port.onPin (layout.pin address)) last.now delay) := by
  have begun := @shows_initial Callback Pin layout address boot port
  obtain ⟨world, alone, shown⟩ := (simulates layout known).run begun ran
  let pinned := port.onPin (layout.pin address)
  have unborn : (World.initial boot pinned : World Callback).Kept delay := nofun
  have met : World.step.Meets (fun _ event => event.Finite delay) (World.initial boot pinned)
      (events.flatMap (view layout address)) := meets_of_forall (finite_of_view finite)
  -- Alone, the button is in one of its phases, whatever has happened.
  have kept := run_invariant_of_meets
    (fun _ _ _ kept finite stepped => World.Kept.step kept finite stepped) unborn met alone
  obtain ⟨lies, here⟩ := kept (shown.twin.life ▸ alive)
  obtain ⟨self, held, _, ready⟩ := here.ready
  have found : last.self address = some self := shown.twin.self.trans held
  have placed := (shown.placed address self found).1
  have agree := shown.twin.port
  refine ⟨self, found, placed, ?_⟩
  rcases ready with armed | debouncing
  · -- It is linked in the shared list as well, which links nobody twice.
    have linked : address ∈ world.port.callbacks.addresses :=
      List.count_pos_iff.mp (by rw [← placed, armed.linkedOnce]; exact Nat.zero_lt_one)
    have once := List.count_eq_one_of_mem last.port.callbacks.linkedOnce (agree.linked.mpr linked)
    have watching : self.Armed (last.port.onPin (layout.pin address)) :=
      ⟨agree.interrupt.trans armed.enabled, placed.symm ▸ once, armed.stopped, armed.status⟩
    exact .inl ⟨watching, watching.not_debouncing⟩
  · -- The window ends ahead of the clock of the panel, which may be past that of the button.
    obtain ⟨due, running, _, near⟩ := debouncing.running
    have pending : (last.focus layout address).deadline = some due := by
      simp [World.deadline, focus, found, running]
    have released : self.Debouncing (last.port.onPin (layout.pin address)) last.now delay :=
      ⟨agree.interrupt.trans debouncing.masked,
        fun linked => debouncing.unlinked (placed ▸ agree.linked.mp (placed ▸ linked)),
        debouncing.status, due, running, shown.ahead due pending,
        Nat.le_trans near (Nat.add_le_add_right shown.twin.behind delay)⟩
    exact .inr ⟨released, fun armed => armed.not_debouncing released⟩

/-- The second button is ready again, whatever became of the first. -/
theorem ready_of_panel_run_pair :
    ∃ last : Panel Nat Bool, (step pairLayout).run (initial 0 idlePort) pairEvents = some last ∧
      ∃ self, last.self 2 = some self ∧ self.address = 2 ∧
        Xor (self.Armed (last.port.onPin (pairLayout.pin 2)))
          (self.Debouncing (last.port.onPin (pairLayout.pin 2)) last.now 9) := by
  -- Only the second button needs a debounce time that ends.
  have completes : ((step pairLayout).run (initial 0 idlePort) pairEvents).isSome := by decide
  have ran := (Option.some_get completes).symm
  have finite : ∀ event ∈ pairEvents, BuildsFinite 2 9 event := by
    simp [pairEvents, BuildsFinite]
  have alive : (((step pairLayout).run (initial 0 idlePort) pairEvents).get completes).life 2 =
      .alive := rfl
  exact ⟨_, ran, ready_of_panel_run (show 2 ∈ pairLayout.addresses by decide) finite ran alive⟩

end Panel
end Notus.Button
