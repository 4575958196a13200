import Notus.ZBusObservers

/-! A subscriber that is only told of messages reads them in order, and ends up with the newest. -/

namespace Notus.ZBusObservers.World

variable {Message : Type*} {order : List Observer}

/-- The publication is not cut short before the subscriber was notified of it. -/
def Informs (world : World Message) (action : Action Message) : Prop :=
  action = .cutShort → ¬ world.Awaits .subscriber

instance [DecidableEq Message] (world : World Message) (action : Action Message) :
    Decidable (world.Informs action) :=
  inferInstanceAs (Decidable (action = .cutShort → ¬ world.Awaits .subscriber))

/-- The last line is of the message that the channel holds, if it is of any. -/
def ReadLast (world : World Message) : Prop :=
  ∃ line, world.fromSubscriber.getLast? = some line ∧
    (line.outcome = .timedOut ∨ line.outcome = .read world.chan world.published.length)

/-- Something will make the subscriber read the newest message, or it has read it. -/
structure Informed (world : World Message) : Prop where
  held : world.published ≠ [] → world.published.getLast? = some world.chan
  led : world.published ≠ [] → world.Awaits .subscriber ∨ world.subQueue.items ≠ [] ∨
    world.wanted ≠ none ∨ world.ReadLast

/-- No step of a publication or a task leaves the subscriber without the newest message. -/
theorem Informed.step {world next : World Message} {action : Action Message}
    (observed : .subscriber ∈ order) (informed : world.Informed)
    (informs : world.Informs action) (stepped : World.step order world action = some next) :
    next.Informed := by
  -- A notification that is dropped is one for which the queue holds older ones.
  obtain ⟨held, led⟩ := informed
  cases step_sound stepped with
  | claim message free =>
    exact ⟨fun _ => List.getLast?_concat, fun _ => .inl ⟨order, rfl, observed⟩⟩
  | callListener turn | handMsgSubscriber turn =>
    refine ⟨held, fun nonempty => (led nonempty).imp_left ?_⟩
    rintro ⟨others, same, member⟩
    -- Another observer had its turn.
    rw [turn] at same
    cases same
    exact ⟨_, rfl, by simpa using member⟩
  | tellSubscriber turn room =>
    refine ⟨held, fun _ => .inr (.inl fun empty => ?_)⟩
    have told := room.symm.trans empty
    simp at told
  | giveUp turn full =>
    -- A full queue still has notifications that lead to the channel.
    refine ⟨held, fun _ => .inr (.inl fun empty => ?_)⟩
    have noneLeft : world.subQueue.items = [] := empty
    simp [noneLeft] at full
  | cutShort turn =>
    exact ⟨held, fun nonempty => .inr ((led nonempty).resolve_left (informs rfl))⟩
  | release turn =>
    refine ⟨held, fun nonempty => .inr ((led nonempty).resolve_left ?_)⟩
    rintro ⟨others, same, member⟩
    rw [turn] at same
    cases same
    cases member
  | listenerTask first => exact ⟨held, led⟩
  | msgSubTask first => exact ⟨held, led⟩
  | subWait idle first => exact ⟨held, fun _ => .inr (.inr (.inl nofun))⟩
  | subRead wants free =>
    exact ⟨held, fun _ => .inr (.inr (.inr ⟨_, List.getLast?_concat, .inr rfl⟩))⟩
  | subReadTimesOut wants turn =>
    exact ⟨held, fun _ => .inr (.inr (.inr ⟨_, List.getLast?_concat, .inl rfl⟩))⟩

/--
Whenever everything has settled, the last line of the subscriber is of the newest message.

Notifications that found no room do not matter; only a read that timed out leaves an older line.
-/
theorem newest_read {actions : List (Action Message)} {message : Message} {last : World Message}
    (observed : .subscriber ∈ order)
    (ran : (World.step order).run (.initial message) actions = some last)
    (informs : (World.step order).Meets Informs (.initial message) actions)
    (free : last.publishing = none) (drained : last.subQueue.items = [])
    (idle : last.wanted = none) (some_published : last.published ≠ []) :
    ∃ line newest, last.fromSubscriber.getLast? = some line ∧
      last.published.getLast? = some newest ∧
      (line.outcome = .timedOut ∨ line.outcome = .read newest last.published.length) := by
  have begun : (World.initial message : World Message).Informed :=
    ⟨fun nonempty => absurd rfl nonempty, fun nonempty => absurd rfl nonempty⟩
  have kept : ∀ (world : World Message) action next, world.Informed → world.Informs action →
      World.step order world action = some next → next.Informed :=
    fun _ _ _ informed informs stepped => informed.step observed informs stepped
  obtain ⟨held, led⟩ := Machine.run_invariant_of_meets kept begun informs ran
  -- Three of the four ways to the newest message are closed, and the line is left.
  rcases led some_published with ⟨_, claimed, _⟩ | waiting | wants | ⟨line, final, outcome⟩
  · rw [free] at claimed
    cases claimed
  · exact absurd drained waiting
  · exact absurd idle wants
  · exact ⟨line, last.chan, final, held some_published, outcome⟩

/-- The order in which the observers of the sample are notified. -/
def sampleOrder : List Observer :=
  [.listener, .msgSubscriber, .subscriber]

/-- One publication of a message to the three observers, which all have room for it. -/
def publication (message : Nat) : List (Action Nat) :=
  [.claim message, .notify, .notify, .notify, .release]

/-- Six publications in a row, for the last two of which the subscriber has no room. -/
def burst : List (Action Nat) :=
  publication 1 ++ publication 2 ++ publication 3 ++ publication 4 ++
    [.claim 5, .notify, .notify, .giveUp, .release, .claim 6, .notify, .notify, .giveUp, .release,
      .subWait, .subRead, .subWait, .subRead, .subWait, .subRead, .subWait, .subRead]

/-- The subscriber was never told of the sixth message, and reads it all the same. -/
theorem newest_read_burst :
    ∃ last, (World.step sampleOrder).run (.initial 0) burst = some last ∧
      ∃ line newest, last.fromSubscriber.getLast? = some line ∧
        last.published.getLast? = some newest ∧
        (line.outcome = .timedOut ∨ line.outcome = .read newest last.published.length) := by
  -- The queue of the subscriber is full at the fifth publication and at the sixth.
  have completes : ((World.step sampleOrder).run (.initial 0) burst).isSome := by decide
  have ran := (Option.some_get completes).symm
  have informs : (World.step sampleOrder).Meets Informs (.initial 0) burst := by decide
  exact ⟨_, ran, newest_read (by decide) ran informs rfl rfl rfl nofun⟩

/-- The number of the publication that a line is of, if the message could be read. -/
def readNumber : Line Message → Option Nat
  | ⟨_, .read _ number⟩ => some number
  | ⟨_, .timedOut⟩ => none

/-- The publications that the subscriber was told of, from its first line to its queue's last. -/
def tellings (world : World Message) : List Nat :=
  ((world.fromSubscriber.map Line.notification ++ world.wanted.toList) ++
    world.subQueue.items).map Notification.told

/-- The tellings are in order, and each line is of a message not older than it was told of. -/
structure Ordered (world : World Message) : Prop where
  ascending : world.tellings.Pairwise (· < ·)
  past : ∀ told ∈ world.tellings, 1 ≤ told ∧ told ≤ world.published.length ∧
    (world.Awaits .subscriber → told < world.published.length)
  written : ∀ line ∈ world.fromSubscriber, ∀ message number, line.outcome = .read message number →
    line.notification.told ≤ number ∧ world.published[number - 1]? = some message
  numbers : (world.fromSubscriber.filterMap readNumber).Pairwise (· ≤ ·)
  bounded : ∀ number ∈ world.fromSubscriber.filterMap readNumber,
    number ≤ world.published.length

/-- What matters to the subscriber is its lines, its tellings, and whether it is awaited. -/
theorem Ordered.same {world next : World Message} (ordered : world.Ordered)
    (published : next.published = world.published)
    (lines : next.fromSubscriber = world.fromSubscriber)
    (tellings : next.tellings = world.tellings)
    (turns : ∀ observers, next.publishing = some observers →
      ∃ all, world.publishing = some all ∧ observers <:+ all) : next.Ordered := by
  -- Each part of the order speaks of these only.
  have awaits : next.Awaits .subscriber → world.Awaits .subscriber := by
    rintro ⟨observers, turn, member⟩
    obtain ⟨all, before, rest⟩ := turns observers turn
    exact ⟨all, before, rest.subset member⟩
  refine ⟨?_, ?_, ?_, ?_, ?_⟩
  · exact tellings ▸ ordered.ascending
  · intro told member
    obtain ⟨first, last, still⟩ := ordered.past told (tellings ▸ member)
    rw [published]
    exact ⟨first, last, fun pending => still (awaits pending)⟩
  · rw [lines, published]
    exact ordered.written
  · exact lines ▸ ordered.numbers
  · rw [lines, published]
    exact ordered.bounded

/-- Another publication has a higher number than all that the subscriber was told of. -/
theorem Ordered.claim {world : World Message} (ordered : world.Ordered) (message : Message) :
    Ordered { world with
      chan := message, publishing := some order, published := world.published ++ [message] } where
  -- Nothing is told yet, so only the bounds move up.
  ascending := ordered.ascending
  past told member := by
    obtain ⟨first, last, _⟩ := ordered.past told member
    simp only [List.length_append, List.length_singleton]
    exact ⟨first, Nat.le_succ_of_le last, fun _ => Nat.lt_succ_of_le last⟩
  written line member read number outcome := by
    obtain ⟨later, here⟩ := ordered.written line member read number outcome
    exact ⟨later, List.getElem?_append_left (List.getElem?_eq_some_iff.mp here).1 ▸ here⟩
  numbers := ordered.numbers
  bounded number member := by
    have before := ordered.bounded number member
    simp only [List.length_append, List.length_singleton]
    exact Nat.le_succ_of_le before

/-- The subscriber is told of a publication once, when its turn comes. -/
theorem Ordered.tell {world : World Message} (ordered : world.Ordered) (turned : world.Turned)
    {observers : List Observer} (turn : world.publishing = some (.subscriber :: observers))
    {subQueue : KMsgq Notification 4}
    (room : subQueue.items = world.subQueue.items ++ [⟨world.published.length⟩]) :
    Ordered { world with publishing := some observers, subQueue := subQueue } := by
  have told : tellings { world with publishing := some observers, subQueue := subQueue } =
      world.tellings ++ [world.published.length] := by
    simp [tellings, room]
  have distinct := List.nodup_cons.mp (turned.once _ turn)
  have awaited : world.Awaits .subscriber := ⟨_, turn, List.mem_cons_self⟩
  refine ⟨?_, ?_, ordered.written, ordered.numbers, ordered.bounded⟩
  · -- All tellings before are of earlier publications.
    rw [told, List.pairwise_append]
    refine ⟨ordered.ascending, List.pairwise_singleton _ _, fun before member last here => ?_⟩
    rw [List.mem_singleton.mp here]
    exact (ordered.past before member).2.2 awaited
  · intro number member
    have passed : ¬ Awaits { world with publishing := some observers, subQueue := subQueue }
        .subscriber := by
      rintro ⟨others, same, member⟩
      cases same
      exact distinct.1 member
    rw [told, List.mem_append, List.mem_singleton] at member
    refine ⟨?_, ?_, fun pending => absurd pending passed⟩
    · rcases member with before | rfl
      · exact (ordered.past number before).1
      · exact List.length_pos_iff.mpr (turned.begun _ turn)
    · rcases member with before | rfl
      · exact (ordered.past number before).2.1
      · exact Nat.le_refl _

/-- A line leaves the tellings as they are, and comes from the notification that was followed. -/
theorem tellings_line {world : World Message} {notification : Notification}
    (wants : world.wanted = some notification) (outcome : Outcome Message) :
    tellings { world with
      wanted := none, fromSubscriber := world.fromSubscriber ++ [⟨notification, outcome⟩] } =
      world.tellings := by
  -- The notification goes from the hand into the line.
  simp [tellings, wants]

/-- What is read is the newest message, which is not older than the one that was told of. -/
theorem Ordered.read {world : World Message} (ordered : world.Ordered) (turned : world.Turned)
    {notification : Notification} (wants : world.wanted = some notification)
    (free : world.publishing = none) :
    Ordered { world with
      wanted := none
      fromSubscriber := world.fromSubscriber ++
        [⟨notification, .read world.chan world.published.length⟩] } := by
  have told := tellings_line wants (.read world.chan world.published.length)
  have known : notification.told ∈ world.tellings := by simp [tellings, wants]
  obtain ⟨first, last, _⟩ := ordered.past notification.told known
  -- Who was told of something finds that something was published.
  have nonempty : world.published ≠ [] := List.length_pos_iff.mp (by omega)
  refine ⟨told ▸ ordered.ascending, ?_, ?_, ?_, ?_⟩
  · intro number member
    rw [told] at member
    obtain ⟨first, last, _⟩ := ordered.past number member
    exact ⟨first, last, fun ⟨_, claimed, _⟩ => by simp [free] at claimed⟩
  · intro line member message number outcome
    rcases List.mem_append.mp member with before | here
    · exact ordered.written line before message number outcome
    · rw [List.mem_singleton] at here
      subst here
      cases outcome
      refine ⟨last, ?_⟩
      rw [← turned.held nonempty, List.getLast?_eq_getElem?]
  · rw [List.filterMap_append, List.pairwise_append]
    refine ⟨ordered.numbers, List.pairwise_singleton _ _, fun before member newest here => ?_⟩
    have same : newest = world.published.length := by simpa [readNumber] using here
    exact same ▸ ordered.bounded before member
  · intro number member
    rw [List.filterMap_append, List.mem_append] at member
    rcases member with before | here
    · exact ordered.bounded number before
    · have same : number = world.published.length := by simpa [readNumber] using here
      exact Nat.le_of_eq same

/-- A read that times out is of no message. -/
theorem Ordered.timeOut {world : World Message} (ordered : world.Ordered)
    {notification : Notification} (wants : world.wanted = some notification) :
    Ordered { world with
      wanted := none, fromSubscriber := world.fromSubscriber ++ [⟨notification, .timedOut⟩] } := by
  -- A line is added that shows no number.
  have told := tellings_line wants (.timedOut)
  have numbers : (world.fromSubscriber ++
      [(⟨notification, .timedOut⟩ : Line Message)]).filterMap readNumber =
        world.fromSubscriber.filterMap readNumber := by simp [readNumber]
  refine ⟨told ▸ ordered.ascending, told ▸ ordered.past, ?_, numbers ▸ ordered.numbers,
    numbers ▸ ordered.bounded⟩
  intro line member message number outcome
  rcases List.mem_append.mp member with before | here
  · exact ordered.written line before message number outcome
  · rw [List.mem_singleton] at here
    subst here
    cases outcome

/-- Every step keeps the lines of the subscriber in order. -/
theorem Ordered.step {world next : World Message} {action : Action Message}
    (ordered : world.Ordered) (turned : world.Turned)
    (stepped : World.step order world action = some next) : next.Ordered := by
  -- Four steps concern the subscriber's lines, and the others change none of them.
  cases step_sound stepped with
  | claim message free => exact ordered.claim message
  | tellSubscriber turn room => exact ordered.tell turned turn room
  | subRead wants free => exact ordered.read turned wants free
  | subReadTimesOut wants turn => exact ordered.timeOut wants
  | callListener turn | handMsgSubscriber turn | giveUp turn full =>
    refine ordered.same rfl rfl rfl fun observers same => ?_
    cases same
    exact ⟨_, turn, List.suffix_cons _ _⟩
  | cutShort turn | release turn => exact ordered.same rfl rfl rfl nofun
  | listenerTask first | msgSubTask first =>
    exact ordered.same rfl rfl rfl fun observers turn => ⟨observers, turn, List.suffix_rfl⟩
  | subWait idle first =>
    refine ordered.same rfl rfl ?_ fun observers turn => ⟨observers, turn, List.suffix_rfl⟩
    simp [tellings, idle, first]

/--
The subscriber never goes back to an older message, and never reads one older than it was told of.

Each publication leads to at most one line, and a line that was read is of a published message.
-/
theorem reads_ordered {actions : List (Action Message)} {message : Message}
    {last : World Message} (once : order.Nodup)
    (ran : (World.step order).run (.initial message) actions = some last) :
    (last.fromSubscriber.map fun line => line.notification.told).Pairwise (· < ·) ∧
      (last.fromSubscriber.filterMap readNumber).Pairwise (· ≤ ·) ∧
      ∀ line ∈ last.fromSubscriber, ∀ message number, line.outcome = .read message number →
        line.notification.told ≤ number ∧ last.published[number - 1]? = some message := by
  have begun : (World.initial message : World Message).Ordered :=
    ⟨.nil, nofun, nofun, .nil, nofun⟩
  have kept : ∀ (world : World Message) action next, world.Turned ∧ world.Ordered →
      World.step order world action = some next → next.Turned ∧ next.Ordered := by
    rintro world action next ⟨turned, ordered⟩ stepped
    exact ⟨turned.step once stepped, ordered.step turned stepped⟩
  obtain ⟨_, ordered⟩ := Machine.run_invariant kept ⟨turned_initial message, begun⟩ ran
  refine ⟨?_, ordered.numbers, ordered.written⟩
  -- The lines are the first of the tellings.
  have whole := ordered.ascending
  simp only [tellings, List.map_append, List.map_map, List.append_assoc] at whole
  exact (List.pairwise_append.mp whole).1

/-- The notification of the third message leads to the sixth, and so does that of the fourth. -/
theorem reads_ordered_burst :
    ∃ last, (World.step sampleOrder).run (.initial 0) burst = some last ∧
      last.fromSubscriber.filterMap readNumber = [6, 6, 6, 6] ∧
      (last.fromSubscriber.map fun line => line.notification.told).Pairwise (· < ·) := by
  -- All of its lines are read after the last publication.
  have completes : ((World.step sampleOrder).run (.initial 0) burst).isSome := by decide
  have ran := (Option.some_get completes).symm
  have once : sampleOrder.Nodup := by decide
  exact ⟨_, ran, rfl, (reads_ordered once ran).1⟩

end Notus.ZBusObservers.World
