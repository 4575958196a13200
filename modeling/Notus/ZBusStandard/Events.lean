import Mathlib.Data.List.Range
import Notus.Core.Lossy
import Notus.ZBusStandard

/-! The main thread processes the events in the order of their publication. -/

namespace Notus.ZBusStandard

/-- The events of the publishing task, counted from zero: the kinds take turns. -/
def event (number : Nat) : EventHolder :=
  if number % 2 = 0 then .dataA ⟨(number / 2 : Nat)⟩ else .dataB ⟨10000000 - (number / 2 : Nat)⟩

/-- The value of an event of the first kind. -/
def EventHolder.valueA : EventHolder → Option Int
  | dataA event => some event.value
  | dataB _ => none

/-- The value of an event of the second kind. -/
def EventHolder.valueB : EventHolder → Option Int
  | dataA _ => none
  | dataB event => some event.value

/-- Later events of the first kind have greater values. -/
theorem valueA_lt {first second : Nat} (before : first < second) {value other : Int}
    (one : value ∈ (event first).valueA) (two : other ∈ (event second).valueA) : value < other := by
  -- Events of the first kind have even numbers, and their values are half of these.
  unfold event at one two
  split at one <;> split at two <;> simp_all [EventHolder.valueA]
  omega

/-- Later events of the second kind have smaller values. -/
theorem valueB_gt {first second : Nat} (before : first < second) {value other : Int}
    (one : value ∈ (event first).valueB) (two : other ∈ (event second).valueB) : value > other := by
  -- Events of the second kind have odd numbers, and count down with them.
  unfold event at one two
  split at one <;> split at two <;> simp_all [EventHolder.valueB]
  omega

/-- Whether the first event of the round has been published. -/
def Position.half : Position → Nat
  | .beforeA | .insideA => 0
  | .beforeB | .insideB => 1

namespace World

/-- After some rounds and maybe half of one, the events and the counters are those of that time. -/
structure Scheduled (world : World) (rounds : Nat) : Prop where
  published : world.published = (List.range (2 * rounds + world.position.half)).map event
  counted : world.msgA.value = rounds + world.position.half
  countedDown : world.msgB.value = 10000000 - rounds
  insideA : world.position = .insideA → world.dataAEventChan = world.msgA
  insideB : world.position = .insideB → world.dataBEventChan = world.msgB

/-- The first event of a round is the next one before it was published. -/
theorem Scheduled.published_dataA {world : World} {rounds : Nat}
    (scheduled : world.Scheduled rounds) (half : world.position.half = 0) :
    world.published ++ [.dataA world.msgA] = (List.range (2 * rounds + 1)).map event := by
  -- The message holds the number of the round that begins.
  have value := scheduled.counted
  rw [half] at value
  have next : event (2 * rounds) = .dataA ⟨world.msgA.value⟩ := by
    simp [event, value]
  rw [scheduled.published, half, List.range_succ, List.map_append, List.map_singleton, next]
  rfl

/-- The second event of a round is the next one after the first. -/
theorem Scheduled.published_dataB {world : World} {rounds : Nat}
    (scheduled : world.Scheduled rounds) (half : world.position.half = 1) :
    world.published ++ [.dataB world.msgB] = (List.range (2 * (rounds + 1))).map event := by
  -- The message has been counted down once in each of the rounds before.
  have value := scheduled.countedDown
  have middle : (2 * rounds + 1) / 2 = rounds := by omega
  have next : event (2 * rounds + 1) = .dataB ⟨world.msgB.value⟩ := by
    simp [event, value, middle]
  rw [scheduled.published, half, show 2 * (rounds + 1) = 2 * rounds + 1 + 1 by omega,
    @List.range_succ (2 * rounds + 1), List.map_append, List.map_singleton, next]

/-- Every step of the publishing task is the next one of its rounds. -/
theorem Scheduled.step {world next : World} {action : Action} {rounds : Nat}
    (scheduled : world.Scheduled rounds) (stepped : World.step world action = some next) :
    ∃ later, next.Scheduled later := by
  have counted := scheduled.counted
  have countedDown := scheduled.countedDown
  -- A round ends with the second event, so only that step counts one.
  cases step_sound stepped with
  | claimA turn =>
    rw [turn] at counted
    have before := scheduled.published
    rw [turn] at before
    exact ⟨rounds, before, counted, countedDown, fun _ => rfl, nofun⟩
  | claimB turn =>
    rw [turn] at counted
    have before := scheduled.published
    rw [turn] at before
    exact ⟨rounds, before, counted, countedDown, nofun, fun _ => rfl⟩
  | skipA turn | listenA turn =>
    have half : world.position.half = 0 := by rw [turn]; rfl
    refine ⟨rounds, scheduled.published_dataA half, ?_, countedDown, nofun, nofun⟩
    show world.msgA.value + 1 = _
    rw [counted, half]
    simp [Position.half]
  | skipB turn | listenB turn =>
    have half : world.position.half = 1 := by rw [turn]; rfl
    refine ⟨rounds + 1, scheduled.published_dataB half, ?_, ?_, nofun, nofun⟩
    · show world.msgA.value = _
      rw [counted, half]
      simp [Position.half]
    · show world.msgB.value - 1 = _
      rw [countedDown]
      omega
  | main first =>
    exact ⟨rounds, scheduled.published, counted, countedDown, scheduled.insideA, scheduled.insideB⟩

/-- The event is not put into the queue: its channel was busy, or the queue is full. -/
def Loses (world : World) : Action → Prop
  | .claimFails => True
  | .listen => world.eventQueue.items.length = 10
  | _ => False

/-- The events that were processed, and then those that wait. -/
def taken (world : World) : List EventHolder :=
  world.processed ++ world.eventQueue.items

/-- The main thread is dealt one published event at a time. -/
theorem deals : World.step.Deals (fun world => ∃ rounds, world.Scheduled rounds) World.published
    taken Loses := by
  rintro world action next ⟨rounds, scheduled⟩ stepped
  refine ⟨scheduled.step stepped, ?_⟩
  -- A listener puts the event into the queue, which may have no room for it.
  cases step_sound stepped with
  | claimA turn | claimB turn => exact .nothing id rfl rfl
  | skipA turn | skipB turn => exact .loses _ trivial rfl rfl
  | listenA turn =>
    rcases kMsgqPut_cases world.eventQueue (.dataA world.dataAEventChan) with
      ⟨room, _, stored⟩ | ⟨full, _, same⟩
    · refine .keeps _ (Nat.ne_of_lt room) rfl ?_
      simp only [taken, stored]
      rw [List.append_assoc, scheduled.insideA turn]
    · exact .loses _ full rfl (by simp [taken, same])
  | listenB turn =>
    rcases kMsgqPut_cases world.eventQueue (.dataB world.dataBEventChan) with
      ⟨room, _, stored⟩ | ⟨full, _, same⟩
    · refine .keeps _ (Nat.ne_of_lt room) rfl ?_
      simp only [taken, stored]
      rw [List.append_assoc, scheduled.insideB turn]
    · exact .loses _ full rfl (by simp [taken, same])
  | main first => exact .nothing id rfl (by simp [taken, first])

/--
The processed events are a part of the schedule of the publishing task, in its order.

None is missing exactly when no channel was ever busy and no listener ever met a full queue, and the
values of each kind go in one direction even where some are.
-/
theorem events_in_order {actions : List Action} {last : World}
    (ran : World.step.run .initial actions = some last) :
    (∃ number, last.published = (List.range number).map event) ∧
      last.taken.Sublist last.published ∧
      (last.taken = last.published ↔
        World.step.Meets (fun world action => ¬ world.Loses action) .initial actions) ∧
      (last.processed.filterMap EventHolder.valueA).Pairwise (· < ·) ∧
      (last.processed.filterMap EventHolder.valueB).Pairwise (· > ·) := by
  have begun : ∃ rounds, World.initial.Scheduled rounds := ⟨0, rfl, rfl, rfl, nofun, nofun⟩
  have kept : ∀ world action next, (∃ rounds, Scheduled world rounds) →
      World.step world action = some next → ∃ rounds, Scheduled next rounds :=
    fun _ _ _ ⟨_, scheduled⟩ stepped => scheduled.step stepped
  obtain ⟨rounds, scheduled⟩ := Machine.run_invariant kept begun ran
  -- What was processed is at the front of what was taken.
  have part := deals.sublist begun (List.Sublist.refl _) ran
  have front : last.processed.Sublist last.published :=
    (List.sublist_append_left _ _).trans part
  rw [scheduled.published] at front
  refine ⟨⟨_, scheduled.published⟩, part, deals.complete_iff begun rfl ran, ?_, ?_⟩
  · refine List.Pairwise.sublist (front.filterMap EventHolder.valueA) ?_
    rw [List.pairwise_filterMap, List.pairwise_map]
    exact List.pairwise_lt_range.imp fun before value one other two => valueA_lt before one two
  · refine List.Pairwise.sublist (front.filterMap EventHolder.valueB) ?_
    rw [List.pairwise_filterMap, List.pairwise_map]
    exact List.pairwise_lt_range.imp fun before value one other two => valueB_gt before one two

/-- Eleven events before the main thread runs, and two more after it has taken one. -/
def busy : List Action :=
  (List.range 11).flatMap (fun _ => [.claim, .listen]) ++
    [.main, .claim, .listen, .main, .claimFails]

/-- The queue refuses the eleventh event, and a busy channel keeps back the thirteenth. -/
theorem events_in_order_busy :
    ∃ last, World.step.run .initial busy = some last ∧
      last.taken = (List.range 10).map event ++ [event 11] ∧
      last.published = (List.range 13).map event ∧ last.taken.Sublist last.published := by
  -- Eleven events meet a queue of ten, and a claim fails at the end.
  have completes : (World.step.run .initial busy).isSome := by decide
  have ran := (Option.some_get completes).symm
  exact ⟨_, ran, rfl, rfl, (events_in_order ran).2.1⟩

end World
end Notus.ZBusStandard
