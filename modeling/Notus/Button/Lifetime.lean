import Notus.Button

/-! The end of a button: what a throwing constructor and the destructor leave behind. -/

namespace Notus.Button

variable {Callback : Type*}

/-- The last driver call of a constructor fails, with the interrupt of the pin already on. -/
def Verdicts.FailsLate (verdicts : Verdicts) : Prop :=
  -- The calls before the last one have already changed the port.
  verdicts.isReady ∧ verdicts.pinConfigure = 0 ∧ verdicts.interruptConfigure = 0 ∧
    verdicts.addCallback ≠ 0

instance (verdicts : Verdicts) : Decidable verdicts.FailsLate :=
  inferInstanceAs (Decidable (_ ∧ _ ∧ _ ∧ _))

/-- A constructor that throws links nothing, and enables the interrupt only when it fails late. -/
theorem construct_error {address : Nat} {debounceTime : KTimeout} {verdicts : Verdicts}
    {port left : Port} {error : MajorError}
    (thrown : construct address debounceTime verdicts port =
      ((left, .error error) : Port × Except MajorError (Button Callback))) :
    left.callbacks = port.callbacks ∧
      left.interrupt = if verdicts.FailsLate then .edgeBoth else port.interrupt := by
  -- Each driver call either fails, and the constructor throws there, or it has its effect.
  unfold construct at thrown
  obtain ⟨isReady, pinConfigure, interruptConfigure, addCallback⟩ := verdicts
  cases isReady with
  | false =>
    simp at thrown
    obtain ⟨rfl, rfl⟩ := thrown
    simp [Verdicts.FailsLate]
  | true =>
    by_cases pin : pinConfigure = 0
    · by_cases interrupt : interruptConfigure = 0
      · by_cases added : addCallback = 0 <;>
          simp [Port.pinConfigureInput, Port.interruptConfigure, Port.addCallback, Port.answer,
            pin, interrupt, added] at thrown
        obtain ⟨rfl, rfl⟩ := thrown
        simp [Verdicts.FailsLate, pin, interrupt, added]
      · simp [Port.pinConfigureInput, Port.interruptConfigure, Port.answer, pin, interrupt]
          at thrown
        obtain ⟨rfl, rfl⟩ := thrown
        simp [Verdicts.FailsLate, interrupt]
    · simp [Port.pinConfigureInput, Port.answer, pin] at thrown
      obtain ⟨rfl, rfl⟩ := thrown
      simp [Verdicts.FailsLate, pin]

/-- A constructor that returns has built the object at its own address. -/
theorem construct_ok {address : Nat} {debounceTime : KTimeout} {verdicts : Verdicts}
    {port left : Port} {self : Button Callback}
    (returned : construct address debounceTime verdicts port = (left, .ok self)) :
    self.address = address := by
  -- Every test that fails ends in a throw.
  unfold construct at returned
  split at returned
  · cases returned
  · -- Past the first test, the object is the same wherever the constructor returns.
    simp only at returned
    split at returned
    · cases returned
    · split at returned
      · cases returned
      · split at returned
        · cases returned
        · cases returned
          rfl

namespace World

/-- The deadline of a world is that of its object's timer. -/
theorem deadline_of_self {world : World Callback} {self : Button Callback}
    (held : world.self = some self) : world.deadline = self.debounceTimer.expiresAt := by
  -- There is one timer, and it belongs to the object.
  simp [deadline, held]

/-- A dead object that neither the pin nor the kernel can reach any more. -/
structure Gone (address : Nat) (log : List (Execution Callback)) (world : World Callback) :
    Prop where
  dead : world.life = .dead
  stopped : world.deadline = none
  masked : world.port.interrupt = .disable
  unlinked : address ∉ world.port.callbacks.addresses
  silent : world.log = log

/-- What is gone stays gone, whatever happens. -/
theorem Gone.step {address : Nat} {log : List (Execution Callback)} {world next : World Callback}
    {event : Event Callback} (gone : world.Gone address log)
    (stepped : step world event = some next) : next.Gone address log := by
  -- Every function of the object needs a live object, an enabled pin or a running timer.
  obtain ⟨now, happening⟩ := event
  cases happening with
  | construct =>
    obtain ⟨_, unborn, _⟩ := step_construct.mp stepped
    rw [gone.dead] at unborn
    cases unborn
  | addOnPressCallback callback =>
    obtain ⟨_, alive, _⟩ := step_addOnPressCallback.mp stepped
    rw [gone.dead] at alive
    cases alive
  | destroy =>
    obtain ⟨_, alive, _⟩ := step_destroy.mp stepped
    rw [gone.dead] at alive
    cases alive
  | edge =>
    obtain rfl := step_edge_masked gone.masked stepped
    exact ⟨gone.dead, gone.stopped, gone.masked, gone.unlinked, gone.silent⟩
  | expiry =>
    -- Nothing is due, so no timer can expire.
    obtain ⟨_, self, held, due, _⟩ := step_expiry.mp stepped
    have stopped := gone.stopped
    rw [deadline_of_self held, due] at stopped
    cases stopped

/-- No button leaves the pin enabled, its callback linked or its functions to run later. -/
def LeavesNothing (address : Nat) (dead : World Callback) : Prop :=
  -- The log records every execution with the object as `self`, so it must not grow.
  ∀ later last, step.run dead later = some last →
    last.port.interrupt = .disable ∧ address ∉ last.port.callbacks.addresses ∧
      last.log = dead.log

/-- A button that is gone leaves nothing behind. -/
theorem Gone.leavesNothing {address : Nat} {dead : World Callback}
    (gone : dead.Gone address dead.log) : dead.LeavesNothing address := by
  intro later last ran
  -- The invariant is carried along the rest of the run.
  have stays := Machine.run_invariant (fun _ _ _ => Gone.step) gone ran
  exact ⟨stays.masked, stays.unlinked, stays.silent⟩

/-- Until it is constructed an object has not touched its pin, and then it lies at its address. -/
structure BuiltAt (address : Nat) (world : World Callback) : Prop where
  untouched : world.life = .unborn → world.self = none ∧ world.port.interrupt = .disable ∧
    address ∉ world.port.callbacks.addresses
  placed : ∀ place ∈ world.self.map Button.address, place = address

end World

/-- A construction is one of the object at the given address. -/
def Event.BuildsAt (address : Nat) (event : Event Callback) : Prop :=
  match event.happening with
  | .construct place _ _ => place = address
  | _ => True

namespace World

/-- Every event keeps an object off its pin until it is constructed, and at its address then. -/
theorem BuiltAt.step {address : Nat} {world next : World Callback} {event : Event Callback}
    (built : world.BuiltAt address) (builds : event.BuildsAt address)
    (stepped : step world event = some next) : next.BuiltAt address := by
  -- Only a construction changes anything before there is an object.
  obtain ⟨now, happening⟩ := event
  cases happening with
  | construct place debounceTime verdicts =>
    obtain ⟨_, _, rfl⟩ := step_construct.mp stepped
    replace builds : place = address := builds
    unfold constructed
    split
    · -- The constructor returned, so there is an object, at the place it was built.
      rename_i left self returned
      exact ⟨by simp, by simpa [construct_ok returned] using builds⟩
    · exact ⟨by simp, built.placed⟩
  | addOnPressCallback callback =>
    obtain ⟨_, alive, self, held, rfl⟩ := step_addOnPressCallback.mp stepped
    have placed := built.placed
    rw [held] at placed
    exact ⟨by simp [alive], placed⟩
  | destroy =>
    obtain ⟨_, _, self, held, rfl⟩ := step_destroy.mp stepped
    exact ⟨by simp, built.placed⟩
  | edge =>
    obtain ⟨_, moved⟩ := step_edge.mp stepped
    obtain ⟨life, self⟩ := edge_kept { world with now := now }
    rw [← moved] at life self
    refine ⟨fun unborn => ?_, by rw [self]; exact built.placed⟩
    -- Before the construction the pin is masked, so the edge changes nothing.
    have untouched := built.untouched (life.symm.trans unborn)
    obtain rfl := step_edge_masked untouched.2.1 stepped
    exact untouched
  | expiry =>
    obtain ⟨_, self, held, _, rfl⟩ := step_expiry.mp stepped
    have placed := built.placed
    rw [held] at placed
    refine ⟨fun unborn => ?_, placed⟩
    -- No object is there to have a timer before the construction.
    have untouched := built.untouched unborn
    rw [held] at untouched
    cases untouched.1

/-- The end of a button finds its resources released, or about to be. -/
def Releases (world : World Callback) (ending : Event Callback) : Prop :=
  -- A constructor may throw, and a destructor may run inside a window.
  match ending.happening with
  | .construct _ _ verdicts => ¬ verdicts.FailsLate
  | .destroy => world.deadline = none
  | _ => True

/-- A constructor that throws before it links its callback leaves a button that is gone. -/
theorem constructed_gone {address : Nat} {debounceTime : KTimeout} {verdicts : Verdicts}
    {world : World Callback} (unborn : world.life = .unborn) (built : world.BuiltAt address)
    (died : (world.constructed address debounceTime verdicts).life = .dead) :
    let dead := world.constructed address debounceTime verdicts
    (dead.port.interrupt = .disable ↔ ¬ verdicts.FailsLate) ∧
      (¬ verdicts.FailsLate → dead.Gone address dead.log) := by
  -- A constructor that returns leaves a live object, so this one has thrown.
  obtain ⟨absent, masked, unlinked⟩ := built.untouched unborn
  unfold constructed at died ⊢
  split at died
  · cases died
  · rename_i left error thrown
    obtain ⟨callbacks, interrupt⟩ := construct_error thrown
    by_cases late : verdicts.FailsLate
    · simp [interrupt, late]
    · rw [if_neg late] at interrupt
      simp only [interrupt, masked, late]
      exact ⟨by simp, fun _ => ⟨rfl, by simp [deadline, absent], interrupt.trans masked,
        by simpa [callbacks] using unlinked, rfl⟩⟩

end World

/-- A destroyed button is gone once its timer does not run, and else its timer function runs. -/
theorem World.destroyed_leavesNothing {address now : Nat} {world dead : World Callback}
    (built : world.BuiltAt address) (ended : World.step world ⟨now, .destroy⟩ = some dead) :
    dead.LeavesNothing address ↔ world.deadline = none := by
  -- The destructor masks the pin and unlinks the callback, so only the timer is left to ask about.
  obtain ⟨reached, _, self, held, rfl⟩ := step_destroy.mp ended
  have placed : self.address = address := built.placed _ (by simp [held])
  constructor
  · intro leaves
    cases pending : world.deadline with
    | none => rfl
    | some due =>
      -- The timer is due after the destruction, and its function is called then.
      have left : ({ world with now := now, port := self.destruct world.port, life := .dead } :
          World Callback).deadline = some due := pending
      obtain ⟨owner, _, stepped⟩ := exists_step_expiry left (reached.2 due pending)
      have silent := (leaves _ _ (Machine.run_cons.mpr ⟨_, stepped, Machine.run_nil _ _⟩)).2.2
      simp [expire] at silent
  · intro stopped
    have gone : ({ world with now := now, port := self.destruct world.port, life := .dead } :
        World Callback).Gone address world.log :=
      ⟨rfl, stopped, by simp [destruct_eq], by simp [destruct_eq, placed], rfl⟩
    exact gone.leavesNothing

/--
A button leaves nothing behind exactly when it ends with nothing of it still to come.

A constructor that fails late leaves the interrupt on, and a running timer outlives its object.
-/
theorem leavesNothing_iff {boot address : Nat} {port : Port} {before : List (Event Callback)}
    {ending : Event Callback} {world dead : World Callback}
    (masked : port.interrupt = .disable) (unlinked : address ∉ port.callbacks.addresses)
    (builds : ∀ event ∈ before ++ [ending], event.BuildsAt address)
    (ran : World.step.run (.initial boot port) before = some world)
    (ended : World.step world ending = some dead)
    (living : world.life ≠ .dead) (died : dead.life = .dead) :
    dead.LeavesNothing address ↔ world.Releases ending := by
  -- Until its end nothing is known of the object but where it was built.
  have built : world.BuiltAt address := by
    have fresh : (World.initial boot port : World Callback).BuiltAt address :=
      ⟨fun _ => ⟨rfl, masked, unlinked⟩, by simp [World.initial]⟩
    have meets : World.step.Meets (fun _ event => event.BuildsAt address)
        (.initial boot port) before :=
      Machine.meets_of_forall fun event member => builds event (by simp [member])
    exact Machine.run_invariant_of_meets (fun _ _ _ => World.BuiltAt.step) fresh meets ran
  obtain ⟨now, happening⟩ := ending
  cases happening with
  | construct place debounceTime verdicts =>
    obtain ⟨_, unborn, rfl⟩ := World.step_construct.mp ended
    have unborn : ({ world with now := now } : World Callback).life = .unborn := unborn
    have untouched : ({ world with now := now } : World Callback).BuiltAt address :=
      ⟨built.untouched, built.placed⟩
    have same : place = address :=
      builds ⟨now, .construct place debounceTime verdicts⟩ (by simp)
    subst same
    obtain ⟨disabled, gone⟩ := World.constructed_gone unborn untouched died
    show _ ↔ ¬ verdicts.FailsLate
    -- Looking at once is enough to see an interrupt that was left on.
    exact ⟨fun leaves => disabled.mp (leaves [] _ rfl).1, fun early => (gone early).leavesNothing⟩
  | addOnPressCallback callback =>
    obtain ⟨_, alive, self, held, rfl⟩ := World.step_addOnPressCallback.mp ended
    exact absurd died living
  | destroy =>
    show dead.LeavesNothing address ↔ world.deadline = none
    exact World.destroyed_leavesNothing built ended
  | edge =>
    obtain ⟨_, rfl⟩ := World.step_edge.mp ended
    exact absurd ((World.edge_kept _).1.symm.trans died) living
  | expiry =>
    obtain ⟨_, self, held, _, rfl⟩ := World.step_expiry.mp ended
    exact absurd died living

/-- A button whose first window is over, fifteen ticks after it was built. -/
def settledButton : World Nat :=
  { now := 15
    port := ⟨true, .edgeBoth, CallbackList.empty.add 1⟩
    life := .alive
    self := some ⟨1, .ticks 5, 10, ⟨1, none⟩, none⟩
    log := [.gpioHandler 10, .timerExpiryFunc 15] }

/-- The same button, destroyed later. -/
def destroyedButton : World Nat :=
  { settledButton with
    now := 30
    port := ⟨true, .disable, .empty⟩
    life := .dead }

/-- A button that is destroyed after its first window is gone, whatever comes later. -/
theorem leavesNothing_iff_settled : destroyedButton.LeavesNothing 1 := by
  have ran : World.step.run (.initial 0 ⟨false, .disable, .empty⟩)
      [⟨0, .construct 1 (.ticks 5) .succeed⟩, ⟨10, .edge⟩, ⟨15, .expiry⟩] =
        some settledButton := rfl
  have ended : World.step settledButton ⟨30, .destroy⟩ = some destroyedButton := rfl
  -- No window is open when the destructor runs.
  exact (leavesNothing_iff rfl (by decide) (by simp [Event.BuildsAt]) ran ended (by decide)
    rfl).mpr rfl

/-- A button destroyed inside a window comes back when the window ends. -/
theorem leavesNothing_open_window :
    ∃ dead last : World Nat,
      World.step.run (.initial 0 ⟨false, .disable, .empty⟩)
          [⟨0, .construct 1 (.ticks 5) .succeed⟩, ⟨10, .edge⟩, ⟨12, .destroy⟩] = some dead ∧
        dead.life = .dead ∧ World.step.run dead [⟨15, .expiry⟩] = some last ∧
        last.port.interrupt = .edgeBoth ∧ 1 ∈ last.port.callbacks.addresses ∧
        last.log = dead.log ++ [.timerExpiryFunc 15] ∧ ¬ dead.LeavesNothing 1 := by
  -- The timer was started at 10 for 15, and nobody stops it at 12.
  refine ⟨_, _, rfl, rfl, rfl, rfl, by decide, rfl, fun leaves => ?_⟩
  have masked := (leaves [⟨15, .expiry⟩] _ rfl).1
  exact absurd masked (by decide)

end Notus.Button
