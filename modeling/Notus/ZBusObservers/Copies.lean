import Notus.Core.Lossy
import Notus.ZBusObservers

/-! The observers that get copies: what their tasks see of the messages that were published. -/

namespace Notus.ZBusObservers.World

variable {Message : Type*} {order : List Observer}

/-- The messages that it was an observer's turn for, or would have been. -/
def offered (observer : Observer) (world : World Message) : List Message :=
  -- The newest message is not offered before the turn has come.
  if world.Awaits observer then world.published.dropLast else world.published

/-- The copies that the task of an observer has seen, and then those that wait for it. -/
def copies : Observer → World Message → List Message
  | .listener, world => world.fromQueue ++ world.accMsgq.items
  | .msgSubscriber, world => world.fromMsgSubscriber ++ world.msgFifo
  -- The subscriber gets no copies.
  | .subscriber, _ => []

/-- The step is a turn of the observer, or ends the publication before its turn, for nothing. -/
def Loses (observer : Observer) (world : World Message) : Action Message → Prop
  | .cutShort => world.Awaits observer
  | .notify =>
    -- Only the listener has a queue that may be full.
    observer = .listener ∧ (world.publishing.getD []).head? = some .listener ∧
      world.accMsgq.items.length = 10
  | _ => False

/-- A turn offers the newest message to the observer whose turn it is. -/
theorem offered_turn {world : World Message} {observer : Observer} {observers : List Observer}
    (turned : world.Turned) (turn : world.publishing = some (observer :: observers))
    {next : World Message} (published : next.published = world.published)
    (rest : next.publishing = some observers) :
    next.offered observer = world.offered observer ++ [world.chan] := by
  -- Who was awaited was not offered the newest message, and afterwards it is.
  have awaited : world.Awaits observer := ⟨_, turn, List.mem_cons_self⟩
  have passed : ¬ next.Awaits observer := by
    rintro ⟨others, same, member⟩
    rw [rest] at same
    cases same
    exact (List.nodup_cons.mp (turned.once _ turn)).1 member
  simp only [offered, if_pos awaited, if_neg passed, published]
  exact (List.dropLast_append_getLast? _ (turned.held (turned.begun _ turn))).symm

/-- What is offered depends on what was published, and on whether the observer is awaited. -/
theorem offered_same {world next : World Message} {observer : Observer}
    (published : next.published = world.published)
    (awaits : next.Awaits observer ↔ world.Awaits observer) :
    next.offered observer = world.offered observer := by
  -- Nothing else decides it.
  simp only [offered, published, awaits]

/-- The turn of one observer leaves another one awaited as before. -/
theorem awaits_other {world next : World Message} {observer other : Observer}
    {observers : List Observer} (apart : observer ≠ other)
    (turn : world.publishing = some (other :: observers))
    (rest : next.publishing = some observers) :
    next.Awaits observer ↔ world.Awaits observer := by
  -- One observer less is left, and it is not this one.
  rw [← awaits_iff, ← awaits_iff, turn, rest]
  simp [apart]

/-- An observer that gets copies is dealt with one message at a time. -/
theorem deals (once : order.Nodup) {observer : Observer} (observed : observer ∈ order)
    (copied : observer ≠ .subscriber) :
    (World.step order : Machine (World Message) (Action Message)).Deals Turned (offered observer)
      (copies observer) (Loses observer) := by
  intro world action next turned stepped
  refine ⟨turned.step once stepped, ?_⟩
  -- Only a turn of this observer, or the end of a publication, changes what it was offered.
  cases step_sound stepped with
  | claim message free =>
    have idle : ¬ world.Awaits observer := by rintro ⟨_, turn, _⟩; simp [free] at turn
    have awaited : Awaits { world with
        chan := message, publishing := some order, published := world.published ++ [message] }
        observer := ⟨order, rfl, observed⟩
    refine .nothing id ?_ (by cases observer <;> rfl)
    simp only [offered, if_pos awaited, if_neg idle, List.dropLast_concat]
  | callListener turn =>
    cases observer with
    | listener =>
      -- The copy is put into the queue, or refused by it.
      rcases kMsgqPut_cases world.accMsgq world.chan with ⟨room, _, stored⟩ | ⟨full, _, same⟩
      · refine .keeps world.chan ?_ (offered_turn turned turn rfl rfl) (by simp [copies, stored])
        rintro ⟨_, _, full⟩
        omega
      · exact .loses world.chan ⟨rfl, by simp [turn], full⟩ (offered_turn turned turn rfl rfl)
          (by simp [copies, same])
    | msgSubscriber =>
      exact .nothing (by simp [Loses]) (offered_same rfl (awaits_other (by decide) turn rfl)) rfl
    | subscriber => exact absurd rfl copied
  | handMsgSubscriber turn =>
    cases observer with
    | listener =>
      exact .nothing (by simp [Loses, turn])
        (offered_same rfl (awaits_other (by decide) turn rfl)) rfl
    | msgSubscriber =>
      exact .keeps world.chan (by simp [Loses]) (offered_turn turned turn rfl rfl)
        (by simp [copies])
    | subscriber => exact absurd rfl copied
  | tellSubscriber turn room =>
    exact .nothing (by simp [Loses, turn]) (offered_same rfl (awaits_other copied turn rfl))
      (by cases observer <;> rfl)
  | giveUp turn full =>
    exact .nothing id (offered_same rfl (awaits_other copied turn rfl))
      (by cases observer <;> rfl)
  | cutShort turn =>
    have passed : ¬ Awaits { world with publishing := none } observer := by rintro ⟨_, ⟨⟩, _⟩
    have same : copies observer { world with publishing := none } = copies observer world := by
      cases observer <;> rfl
    by_cases awaited : world.Awaits observer
    · refine .loses world.chan awaited ?_ same
      simp only [offered, if_pos awaited, if_neg passed]
      exact (List.dropLast_append_getLast? _ (turned.held (turned.begun _ turn))).symm
    · exact .nothing awaited (offered_same rfl (iff_of_false passed awaited)) same
  | release turn =>
    have passed : ¬ Awaits { world with publishing := none } observer := by rintro ⟨_, ⟨⟩, _⟩
    have idle : ¬ world.Awaits observer := by rintro ⟨_, same, member⟩; simp_all
    exact .nothing id (offered_same rfl (iff_of_false passed idle)) (by cases observer <;> rfl)
  | listenerTask first =>
    exact .nothing id (offered_same rfl Iff.rfl) (by cases observer <;> simp [copies, first])
  | msgSubTask first =>
    exact .nothing id (offered_same rfl Iff.rfl) (by cases observer <;> simp [copies, first])
  | subWait idle first | subRead wants free | subReadTimesOut wants turn =>
    exact .nothing id (offered_same rfl Iff.rfl) (by cases observer <;> rfl)

/--
The listener and the message subscriber see the published messages in order, some of them maybe not.

Nothing is missing exactly when no publication was cut short before their turn, and the queue of the
listener was never full at its turn.
-/
theorem copies_handed {observer : Observer} {actions : List (Action Message)} {message : Message}
    {last : World Message} (once : order.Nodup) (observed : observer ∈ order)
    (copied : observer ≠ .subscriber)
    (ran : (World.step order).run (.initial message) actions = some last) :
    (last.copies observer).Sublist (last.offered observer) ∧
      (last.offered observer).Sublist last.published ∧
      (last.copies observer = last.offered observer ↔
        (World.step order).Meets (fun world action => ¬ world.Loses observer action)
          (.initial message) actions) := by
  have begun : (World.initial message : World Message).copies observer =
      (World.initial message : World Message).offered observer := by
    cases observer <;> simp [copies, offered, initial]
  have dealt := @deals Message order once observer observed copied
  have part : ((World.initial message).copies observer).Sublist
      ((World.initial message).offered observer) := begun ▸ List.Sublist.refl _
  -- What is offered is all that was published, or all but the newest.
  refine ⟨dealt.sublist (turned_initial message) part ran, ?_,
    dealt.complete_iff (turned_initial message) begun ran⟩
  unfold offered
  split
  · exact List.dropLast_sublist _
  · exact List.Sublist.refl _

/-- Eleven publications to a listener whose task does not run meanwhile. -/
def flood : List (Action Nat) :=
  (List.range 11).flatMap fun message => [.claim message, .notify, .release]

/-- The world after them. -/
def flooded : World Nat :=
  ((World.step [.listener]).run (.initial 0) flood).get (by decide)

/-- The queue takes ten messages, and the eleventh is lost to the task. -/
theorem copies_handed_flood :
    flooded.copies .listener = List.range 10 ∧
      ¬ (World.step [.listener]).Meets (fun world action => ¬ world.Loses .listener action)
        (.initial 0) flood := by
  -- The listener keeps ten of eleven messages, so it has met a full queue.
  have ran : (World.step [.listener]).run (.initial 0) flood = some flooded := rfl
  have observed : Observer.listener ∈ [Observer.listener] := List.mem_cons_self
  obtain ⟨_, _, exactly⟩ := copies_handed (by decide) observed (by decide) ran
  refine ⟨by decide, fun spares => ?_⟩
  have whole : flooded.copies .listener = flooded.offered .listener := exactly.mpr spares
  exact absurd whole (by decide)

end Notus.ZBusObservers.World
