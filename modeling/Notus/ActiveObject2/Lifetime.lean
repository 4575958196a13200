import Mathlib.Data.Fintype.Basic
import Notus.ActiveObject2.Timeout

/-! Function calls that are destroyed, and what the server still writes to their memory. -/

namespace Notus.ActiveObject2

open ActiveObject (Word)

variable {Client : Type*}

/-- The client that an action is one of, if it is not one of the server. -/
def Action.caller : Action Client → Option Client
  | .runSub client _ | .runPrint client | .takeSem client | .timeOut client
  | .getReturn client => some client
  | .serverGet | .serverExecute | .serverGive => none

/-- What happens to function calls: an action, or the end of a lifetime. -/
inductive Use (Client : Type*) where
  | act (action : Action Client)
  | destroy (client : Client)
  deriving DecidableEq

/-- The clients and the server, and the clients whose function call has been destroyed. -/
structure Memory (Client : Type*) where
  world : World Client
  gone : Client → Bool

namespace World

variable [DecidableEq Client] {world next : World Client} {client : Client}

/-- The server has the address of a client's future, in a message or for its semaphore. -/
def Holds (world : World Client) (client : Client) : Prop :=
  (world.exchange client).queued ≠ [] ∨ (world.exchange client).computed = true

instance (world : World Client) (client : Client) : Decidable (world.Holds client) :=
  inferInstanceAs (Decidable (_ ∨ _))

/-- A step of the server writes to a client's future: its value, or its semaphore. -/
def Writes (world : World Client) (client : Client) : Action Client → Prop
  | .serverExecute => ∃ msg, world.server = .got msg ∧ argsFor client msg ≠ none
  | .serverGive => world.server = .executed client
  | .runSub .. | .runPrint _ | .takeSem _ | .timeOut _ | .getReturn _ | .serverGet => False

/-- The server writes to no future whose address it does not have. -/
theorem Writes.holds {action : Action Client} (writes : world.Writes client action) :
    world.Holds client := by
  cases action with
  | runSub | runPrint | takeSem | timeOut | getReturn | serverGet => exact writes.elim
  | serverExecute =>
    obtain ⟨msg, got, asks⟩ := writes
    refine .inl ?_
    show world.pending.filterMap (argsFor client) ≠ []
    rw [pending_of_got got]
    cases asked : argsFor client msg with
    | none => exact absurd asked asks
    | some args => exact List.cons_ne_nil _ _
  | serverGive =>
    -- A semaphore is given by the address that the server kept.
    have executed : world.server = .executed client := writes
    exact .inr (by simp [exchange, executed, Server.owes])

/-- What another client does leaves the exchange of a client as it is. -/
theorem exchange_of_caller {action : Action Client} {caller : Client}
    (own : action.caller = some caller) (apart : client ≠ caller)
    (stepped : step world action = some next) : next.exchange client = world.exchange client := by
  cases action with
  | serverGet | serverExecute | serverGive => cases own
  | runSub other args =>
    obtain rfl := Option.some.inj own
    obtain ⟨_, rfl⟩ := step_runSub.mp stepped
    -- The message asks for the result of its own client only.
    have asks : argsFor client (.sub (.ofRun false other args)) = none := by
      simp [argsFor, Package.ofRun, Ne.symm apart]
    have put := (world.modify other fun call =>
      { call with events := call.events ++ [.ran args] }).exchange_put
        (.sub (.ofRun false other args)) client
    rw [asks, exchange_modify_ne apart] at put
    unfold runSub
    rcases put with sent | lost
    · rw [sent]
      simp
    · exact lost
  | runPrint other =>
    -- Printing asks nothing of any future, not even of its own client's.
    cases stepped
    exact runPrint_keeps world other client
  | takeSem other =>
    obtain rfl := Option.some.inj own
    obtain ⟨_, sem, _, rfl⟩ := step_takeSem.mp stepped
    exact exchange_modify_ne apart _
  | timeOut other =>
    obtain ⟨waits, _, rfl⟩ := step_timeOut.mp stepped
    exact timeOut_keeps waits client
  | getReturn other =>
    obtain rfl := Option.some.inj own
    obtain ⟨_, _, rfl⟩ := step_getReturn.mp stepped
    exact exchange_modify_ne apart _

/-- The server gets the address of a future from nobody but its client. -/
theorem holds_of_server {action : Action Client} (serves : action.caller = none)
    (stepped : step world action = some next) (holds : next.Holds client) :
    world.Holds client := by
  cases action with
  | runSub | runPrint | takeSem | timeOut | getReturn => cases serves
  | serverGet =>
    obtain ⟨waiting, msg, rest, got, rfl⟩ := step_serverGet.mp stepped
    -- A message that is got has been pending before.
    rwa [Holds, serverGet_keeps waiting got] at holds
  | serverExecute =>
    obtain ⟨msg, got, rfl⟩ := step_serverExecute.mp stepped
    -- Executing for a client turns its message into a semaphore to give.
    by_cases asks : argsFor client msg = none
    · obtain ⟨free, _⟩ := visit_foreign world asks
      refine .inl ?_
      show world.pending.filterMap (argsFor client) ≠ []
      rw [pending_of_got got, asks]
      rcases holds with queued | computed
      · simpa [exchange, pending_visit] using queued
      · exact absurd computed (by simp [exchange, free])
    · exact Writes.holds (show world.Writes client .serverExecute from ⟨msg, got, asks⟩)
  | serverGive =>
    obtain ⟨fut, executed, rfl⟩ := step_serverGive.mp stepped
    -- After the semaphore was given, only messages are left.
    rcases holds with queued | computed
    · exact .inl (by simpa [exchange, give, pending, executed, Server.inHand] using queued)
    · exact absurd computed (by simp [exchange, give, Server.owes])

/-- A step of the server that does not write to a future keeps its address. -/
theorem Holds.server {action : Action Client} (holds : world.Holds client)
    (serves : action.caller = none) (spares : ¬ world.Writes client action)
    (stepped : step world action = some next) : next.Holds client := by
  cases action with
  | runSub | runPrint | takeSem | timeOut | getReturn => cases serves
  | serverGet =>
    obtain ⟨waiting, msg, rest, got, rfl⟩ := step_serverGet.mp stepped
    rwa [Holds, serverGet_keeps waiting got]
  | serverExecute =>
    obtain ⟨msg, got, rfl⟩ := step_serverExecute.mp stepped
    have foreign : argsFor client msg = none := by
      by_contra asks
      exact spares ⟨msg, got, asks⟩
    -- A server with a message in its hand owes no semaphore.
    rcases holds with queued | computed
    · have first := pending_of_got got client
      rw [foreign] at first
      rw [exchange, first] at queued
      exact .inl (by simpa [exchange, pending_visit] using queued)
    · exact absurd computed (by simp [exchange, got, Server.owes])
  | serverGive =>
    obtain ⟨fut, executed, rfl⟩ := step_serverGive.mp stepped
    have other : fut ≠ client := by
      rintro rfl
      exact spares executed
    rcases holds with queued | computed
    · exact .inl (by simpa [exchange, give, pending, executed, Server.inHand] using queued)
    · exact absurd computed (by simp [exchange, executed, Server.owes, other])

/-- The steps that the server takes without a client's help. -/
def left (world : World Client) : Nat :=
  -- A message is got, executed, and answered.
  3 * world.msgq.items.length + match world.server with
    | .waiting => 0
    | .got _ => 2
    | .executed _ => 1

/-- Executing a message takes nothing from the queue, and the hand is empty afterwards. -/
theorem visit_done (world : World Client) (msg : MsgVar Client) :
    (world.visit msg).msgq = world.msgq ∧
      ((world.visit msg).server = .waiting ∨ ∃ fut, (world.visit msg).server = .executed fut) := by
  -- Only a message with a future leaves a semaphore to give.
  cases msg with
  | sub package =>
    rw [visit_sub]
    exact ⟨rfl, .inr ⟨package.future, rfl⟩⟩
  | monostate => exact ⟨rfl, .inl rfl⟩
  | print package =>
    rw [visit_print]
    exact ⟨rfl, .inl rfl⟩

/-- Every step of the server leaves it fewer. -/
theorem left_decreases {action : Action Client} (serves : action.caller = none)
    (stepped : step world action = some next) : next.left < world.left := by
  -- A message costs the server a step to get it, one to execute it and one to signal it.
  cases action with
  | runSub | runPrint | takeSem | timeOut | getReturn => cases serves
  | serverGet =>
    obtain ⟨waiting, msg, rest, got, rfl⟩ := step_serverGet.mp stepped
    have items := congrArg List.length (Bounded.get_eq_some.mp got)
    simp only [left, waiting, List.length_cons] at items ⊢
    omega
  | serverExecute =>
    obtain ⟨msg, got, rfl⟩ := step_serverExecute.mp stepped
    obtain ⟨same, server | ⟨fut, server⟩⟩ := world.visit_done msg
    · simp [left, same, server, got]
    · simp [left, same, server, got]
  | serverGive =>
    obtain ⟨fut, executed, rfl⟩ := step_serverGive.mp stepped
    simp [left, give, executed]

/-- A server that holds an address has something to do. -/
theorem Holds.exists_step (holds : world.Holds client) :
    ∃ action, action.caller = none ∧ ∃ next, step world action = some next := by
  cases server : world.server with
  | got msg => exact ⟨.serverExecute, rfl, _, step_serverExecute.mpr ⟨msg, server, rfl⟩⟩
  | executed fut => exact ⟨.serverGive, rfl, _, step_serverGive.mpr ⟨fut, server, rfl⟩⟩
  | waiting =>
    -- The address can only be in the queue.
    have queued : world.msgq.items ≠ [] := by
      rintro empty
      rcases holds with queued | computed
      · exact queued (by simp [exchange, pending, server, Server.inHand, empty])
      · exact absurd computed (by simp [exchange, server, Server.owes])
    obtain ⟨msg, more, items⟩ := List.exists_cons_of_ne_nil queued
    obtain ⟨rest, got⟩ := Bounded.exists_get items
    exact ⟨.serverGet, rfl, _, step_serverGet.mpr ⟨server, msg, rest, got, rfl⟩⟩

/-- An address that the server holds is written to, if the server is only given the time. -/
theorem Holds.reaches_write :
    ∀ {world : World Client}, world.Holds client →
      ∃ later, step.Reaches (fun _ action => action.caller = none) world later ∧
        ∃ action, action.caller = none ∧ later.Writes client action ∧
          ∃ next, step later action = some next := by
  intro world
  -- The induction is on the steps that are left to the server.
  induction steps : world.left using Nat.strongRecOn generalizing world with
  | ind steps ih =>
    intro holds
    obtain ⟨action, serves, next, stepped⟩ := holds.exists_step
    by_cases writes : world.Writes client action
    · exact ⟨world, .refl world, action, serves, writes, next, stepped⟩
    · obtain ⟨later, reached, last⟩ := ih next.left (steps ▸ left_decreases serves stepped) rfl
        (holds.server serves writes stepped)
      exact ⟨later, .head serves stepped reached, last⟩

/-- A client that waits until it has its result, and calls only after that. -/
structure Patient (client : Client) (world : World Client) (action : Action Client) : Prop where
  alternates : world.Alternates client action
  waits : action ≠ .timeOut client

instance (client : Client) (world : World Client) (action : Action Client) :
    Decidable (world.Patient client action) :=
  decidable_of_iff (world.Alternates client action ∧ action ≠ .timeOut client)
    ⟨fun ⟨alternates, waits⟩ => ⟨alternates, waits⟩, fun patient => ⟨patient.1, patient.2⟩⟩

/-- All that is on its way belongs to the latest call, and no wait has failed. -/
structure Answered (client : Client) (world : World Client) : Prop where
  sound : (world.exchange client).Sound SubArgs.result
  took : (world.calls client).waited ≠ some false

/-- A change that does not end a wait leaves all waits as they are. -/
theorem modify_waited (world : World Client) (caller client : Client)
    {change : FunctionCall → FunctionCall}
    (keeps : (change (world.calls caller)).waited = (world.calls caller).waited) :
    ((world.modify caller change).calls client).waited = (world.calls client).waited := by
  -- Nothing is changed in the function calls of the others.
  by_cases own : client = caller
  · subst own
    rw [modify_calls_self, keeps]
  · rw [modify_calls_ne world own]

/-- A patient client's wait never ends without its semaphore. -/
theorem Patient.waited {action : Action Client} (patient : world.Patient client action)
    (took : (world.calls client).waited ≠ some false)
    (stepped : step world action = some next) : (next.calls client).waited ≠ some false := by
  cases action with
  | runSub caller args =>
    obtain ⟨_, rfl⟩ := step_runSub.mp stepped
    rwa [runSub_calls, modify_waited world caller client rfl]
  | runPrint caller =>
    cases stepped
    exact took
  | takeSem caller =>
    obtain ⟨_, sem, _, rfl⟩ := step_takeSem.mp stepped
    -- The wait that ends here has its semaphore, or is that of another client.
    by_cases own : client = caller
    · simp [endWait, own]
    · rwa [endWait, modify_calls_ne world own]
  | timeOut caller =>
    obtain ⟨_, _, rfl⟩ := step_timeOut.mp stepped
    have apart : client ≠ caller := by
      rintro rfl
      exact patient.waits rfl
    rwa [endWait, modify_calls_ne world apart]
  | getReturn caller =>
    obtain ⟨_, _, rfl⟩ := step_getReturn.mp stepped
    by_cases own : client = caller
    · simp [getReturn, own]
    · rwa [getReturn, modify_calls_ne world own]
  | serverGet =>
    obtain ⟨_, msg, rest, _, rfl⟩ := step_serverGet.mp stepped
    exact took
  | serverExecute =>
    obtain ⟨msg, _, rfl⟩ := step_serverExecute.mp stepped
    -- The server never ends a wait.
    cases asks : argsFor client msg with
    | none => rwa [(visit_foreign world asks).2]
    | some args => rwa [(visit_own world asks).2]
  | serverGive =>
    obtain ⟨fut, _, rfl⟩ := step_serverGive.mp stepped
    rwa [give_calls, modify_waited world fut client rfl]

/-- A call of a client is over before a step, or the step returns its result. -/
theorem asked_of_step {action : Action Client} (took : (world.calls client).waited ≠ some false)
    (stepped : step world action = some next) (idle : (next.calls client).asked = none) :
    (world.calls client).asked = none ∨ (world.calls client).waited = some true := by
  have changed := step_changed stepped client
  -- Of all changes, only a return ends what was asked.
  generalize next.calls client = after at changed idle
  cases changed with
  | same | waited | written | given => exact .inl idle
  | ran args =>
    rw [FunctionCall.asked_ran] at idle
    cases idle
  | @returned taken waited =>
    cases taken with
    | false => exact absurd waited took
    | true => exact .inr waited

/-- Nothing that a patient client does leaves anything behind. -/
theorem Answered.step {action : Action Client} (answered : world.Answered client)
    (patient : world.Patient client action) (stepped : World.step world action = some next) :
    next.Answered client := by
  refine ⟨?_, patient.waited answered.took stepped⟩
  have idle {caller : Client} {args : SubArgs} (runs : action = .runSub caller args)
      (own : caller = client) : (world.calls client).asked = none := by
    subst runs
    exact patient.alternates own
  -- With nothing outstanding nothing is left on its way.
  have settled : world.Settled client action := by
    cases action with
    | runSub caller args => exact fun own => (answered.sound.clear_of_idle (idle rfl own)).1
    | runPrint | takeSem | timeOut | getReturn | serverGet | serverExecute | serverGive => trivial
  have moved := step_moves patient.alternates settled stepped
  have ended := asked_of_step answered.took stepped
  have same : (next.exchange client).asked = (next.calls client).asked := rfl
  rw [← same] at ended
  generalize next.exchange client = after at moved ended
  cases moved with
  | move moved => exact answered.sound.move moved
  | giveUp untaken =>
    -- Only a wait that has failed is given up, so here nothing was outstanding.
    rcases ended rfl with idle | waited
    · have unchanged : { world.exchange client with asked := none } = world.exchange client := by
        rw [← idle]
        rfl
      rw [unchanged]
      exact answered.sound
    · have took : (world.exchange client).taken = true := by simp [exchange, waited]
      rw [untaken] at took
      cases took

/-- Between two calls the server does not have the address of a patient client's future. -/
theorem Answered.not_holds (answered : world.Answered client)
    (idle : (world.calls client).asked = none) : ¬ world.Holds client := by
  -- Whoever is answered in turn has nothing on its way when it is idle.
  obtain ⟨clear, _⟩ := answered.sound.clear_of_idle idle
  rintro (queued | computed)
  · exact queued clear.queued
  · rw [clear.computed] at computed
    cases computed

/-- Before the first call nothing is on its way. -/
theorem answered_initial (memory : Client → Word) (client : Client) :
    (initial memory).Answered client :=
  -- Nobody has called, and nobody has given up.
  ⟨.idle (memory client), nofun⟩

end World

namespace Memory

variable [DecidableEq Client] {memory next last : Memory Client} {client : Client}

/-- Before the first call nothing is destroyed. -/
def initial (memory : Client → Word) : Memory Client :=
  { world := .initial memory, gone := fun _ => false }

/-- One use of a function call, refused after it was destroyed. -/
def step : Machine (Memory Client) (Use Client) := fun memory use =>
  match use with
  | .act action =>
    if ∀ client ∈ action.caller, memory.gone client = false then
      (World.step memory.world action).map fun world => { memory with world := world }
    else none
  -- No client destroys its function call while it waits for the result.
  | .destroy client =>
    if memory.gone client = false ∧ (memory.world.calls client).waited = none then
      some { memory with gone := Function.update memory.gone client true }
    else none

/-- An action changes the world, and needs the function call of its client. -/
theorem step_act {action : Action Client} :
    step memory (.act action) = some next ↔
      (∀ client ∈ action.caller, memory.gone client = false) ∧
        World.step memory.world action = some next.world ∧ next.gone = memory.gone := by
  -- The function call of the client must not be gone, if the action has a client.
  obtain ⟨world, gone⟩ := next
  simp only [step, Option.ite_none_right_eq_some, Option.map_eq_some_iff, Memory.mk.injEq]
  refine and_congr_right fun _ => ?_
  constructor
  · rintro ⟨_, stepped, rfl, rfl⟩
    exact ⟨stepped, rfl⟩
  · rintro ⟨stepped, rfl⟩
    exact ⟨world, stepped, rfl, rfl⟩

/-- A function call is destroyed once, and outside of its own calls. -/
theorem step_destroy :
    step memory (.destroy client) = some next ↔
      (memory.gone client = false ∧ (memory.world.calls client).waited = none) ∧
        next = { memory with gone := Function.update memory.gone client true } := by
  -- The guard of the step is what is asked of the use.
  simp only [step, Option.ite_none_right_eq_some, Option.some.injEq]
  exact and_congr_right fun _ => eq_comm

/-- A use in which the server writes to the memory of a destroyed function call. -/
def Corrupts (memory : Memory Client) : Use Client → Prop
  | .act action => ∃ client, memory.gone client = true ∧ memory.world.Writes client action
  | .destroy _ => False

/-- The server has the address of no destroyed function call. -/
def Safe (memory : Memory Client) : Prop :=
  ∀ client, memory.gone client = true → ¬ memory.world.Holds client

/-- Nothing is written to destroyed memory by a server that has no address of it. -/
theorem Safe.not_corrupts (safe : memory.Safe) (use : Use Client) : ¬ memory.Corrupts use := by
  -- Whoever writes to memory holds its address.
  cases use with
  | destroy client => exact id
  | act action =>
    rintro ⟨client, gone, writes⟩
    exact safe client gone writes.holds

/-- No action hands the address of a destroyed function call to the server. -/
theorem Safe.act {action : Action Client} (safe : memory.Safe)
    (stepped : step memory (.act action) = some next) : next.Safe := by
  obtain ⟨there, stepped, same⟩ := step_act.mp stepped
  intro client gone holds
  rw [same] at gone
  apply safe client gone
  -- The server alone learns no address, and a client tells only its own.
  cases own : action.caller with
  | none => exact World.holds_of_server own stepped holds
  | some caller =>
    have apart : client ≠ caller := by
      rintro rfl
      rw [there client own] at gone
      cases gone
    rwa [World.Holds, World.exchange_of_caller own apart stepped] at holds

/-- With actions of some kind, and nothing else destroyed, destroyed memory can be written to. -/
def Endangered (kind : Action Client → Prop) (memory : Memory Client) : Prop :=
  ∃ later, step.Reaches (fun _ use => ∃ action, use = .act action ∧ kind action) memory later ∧
    ∃ action next, kind action ∧ step later (.act action) = some next ∧
      later.Corrupts (.act action)

/-- What the server does in the world it can do whatever is destroyed. -/
theorem reaches_act {kind : Action Client → Prop} {later : World Client}
    (server : ∀ action, action.caller = none → kind action)
    (reached : World.step.Reaches (fun _ action => action.caller = none) memory.world later) :
    step.Reaches (fun _ use => ∃ action, use = .act action ∧ kind action) memory
      { memory with world := later } := by
  obtain ⟨actions, ran, met⟩ := reached
  -- The run is copied action by action, and what is destroyed stays the same.
  induction actions generalizing memory with
  | nil =>
    cases ran
    exact .refl memory
  | cons action rest ih =>
    obtain ⟨next, stepped, ran⟩ := Machine.run_cons.mp ran
    have serves : action.caller = none := met.1
    have used : step memory (.act action) = some { memory with world := next } :=
      step_act.mpr ⟨by simp [serves], stepped, rfl⟩
    exact .head ⟨action, rfl, server action serves⟩ used
      (@ih { memory with world := next } ran (met.2 next stepped))

/-- Destroyed memory is in danger exactly if the server has an address of it. -/
theorem endangered_iff {kind : Action Client → Prop}
    (server : ∀ action, action.caller = none → kind action) :
    memory.Endangered kind ↔ ∃ client, memory.gone client = true ∧ memory.world.Holds client := by
  -- Without an address the server gets no new one, and with one it goes on to the write.
  constructor
  · rintro ⟨later, reached, action, next, _, _, client, gone, writes⟩
    by_contra none_
    have safe : memory.Safe := fun client gone holds => none_ ⟨client, gone, holds⟩
    have kept : later.Safe := by
      refine reached.invariant ?_ safe
      rintro state _ after safe ⟨action, rfl, _⟩ stepped
      exact safe.act stepped
    exact kept client gone writes.holds
  · rintro ⟨client, gone, holds⟩
    obtain ⟨later, reached, action, serves, writes, next, stepped⟩ := holds.reaches_write
    refine ⟨_, reaches_act server reached, action, { memory with world := next },
      server action serves, step_act.mpr ⟨by simp [serves], stepped, rfl⟩, client, gone, writes⟩

/-- Those who destroy their function calls use them patiently, and destroy them between calls. -/
def Orderly (patient : Client → Prop) (memory : Memory Client) : Use Client → Prop
  | .act action => ∀ client, patient client → memory.world.Patient client action
  | .destroy client => patient client ∧ (memory.world.calls client).asked = none

instance [Fintype Client] (patient : Client → Prop) [DecidablePred patient]
    (memory : Memory Client) : (use : Use Client) → Decidable (memory.Orderly patient use)
  | .act action =>
    inferInstanceAs (Decidable (∀ client, patient client → memory.world.Patient client action))
  | .destroy _ => inferInstanceAs (Decidable (_ ∧ _))

/-- What orderly use keeps: patient clients have their answers, and no one else is destroyed. -/
structure Kept (patient : Client → Prop) (memory : Memory Client) : Prop where
  answered : ∀ client, patient client → memory.world.Answered client
  safe : memory.Safe

/-- Orderly use leaves the server no address of a destroyed function call. -/
theorem Kept.step {patient : Client → Prop} {use : Use Client} (kept : memory.Kept patient)
    (orderly : memory.Orderly patient use) (stepped : Memory.step memory use = some next) :
    next.Kept patient := by
  -- An action keeps the patient ones answered, and what is destroyed was idle.
  cases use with
  | act action =>
    refine ⟨fun client waits => ?_, kept.safe.act stepped⟩
    exact (kept.answered client waits).step (orderly client waits) (step_act.mp stepped).2.1
  | destroy ended =>
    obtain ⟨_, rfl⟩ := step_destroy.mp stepped
    refine ⟨kept.answered, fun client gone => ?_⟩
    by_cases own : client = ended
    · subst own
      exact (kept.answered client orderly.1).not_holds orderly.2
    · exact kept.safe client (by simpa [own] using gone)

/--
The memory of a destroyed function call is in danger exactly while the server has its address.

The server then needs nobody else to write to it; and it never has such an address where everybody
who destroys a function call has called and waited in turn, without a timeout, and is between calls.
-/
theorem endangered_of_run {values : Client → Word} {uses : List (Use Client)}
    (ran : step.run (initial values) uses = some last) :
    (∀ kind : Action Client → Prop, (∀ action, action.caller = none → kind action) →
      (last.Endangered kind ↔ ∃ client, last.gone client = true ∧ last.world.Holds client)) ∧
    ∀ patient : Client → Prop, step.Meets (Orderly patient) (initial values) uses →
      (∀ client, last.gone client = true → ¬ last.world.Holds client) ∧
        ∀ use, ¬ last.Corrupts use := by
  -- Orderly use is kept along the run, and the rest holds of any state.
  refine ⟨fun kind server => endangered_iff server, fun patient met => ?_⟩
  have begun : (initial values).Kept patient :=
    ⟨fun client _ => World.answered_initial values client, nofun⟩
  have kept := Machine.run_invariant_of_meets (fun _ _ _ kept orderly stepped =>
    Kept.step kept orderly stepped) begun met ran
  exact ⟨kept.safe, kept.safe.not_corrupts⟩

/-- Two clients call, and the one whose call was executed is destroyed with its result. -/
def orderlyUses : List (Use Bool) :=
  [.act (.runSub true ⟨5, 6⟩), .act (.runSub false ⟨8, 1⟩), .act .serverGet, .act .serverExecute,
    .act .serverGive, .act (.takeSem true), .act (.getReturn true), .destroy true]

/-- So far all is in order. -/
def orderly : Memory Bool :=
  (step.run (initial fun _ => 0) orderlyUses).get (by decide)

/-- The other client waits in vain, and is destroyed then. -/
def hasty : Memory Bool :=
  (step.run orderly [.act (.timeOut false), .act (.getReturn false), .destroy false]).get
    (by decide)

/-- Its message is still in the queue when it is destroyed, and will be executed. -/
theorem endangered_of_run_hasty :
    (∀ use, ¬ orderly.Corrupts use) ∧ hasty.Endangered fun action => action.caller = none := by
  -- The hasty uses go on where the orderly ones end.
  have ran : step.run (initial fun _ : Bool => 0) orderlyUses = some orderly :=
    (Option.some_get _).symm
  have continued : step.run orderly
      [.act (.timeOut false), .act (.getReturn false), .destroy false] = some hasty :=
    (Option.some_get _).symm
  have hurried := Machine.run_append.mpr ⟨orderly, ran, continued⟩
  obtain ⟨_, kept⟩ := (endangered_of_run ran).2 (fun client => client = true) (by decide)
  exact ⟨kept, ((endangered_of_run hurried).1 _ fun _ => id).mpr ⟨false, by decide, by decide⟩⟩

end Memory
end Notus.ActiveObject2
