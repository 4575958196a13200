import Mathlib.Data.List.Basic

/-! One caller's exchange with a server: a request, a computed result, a signal, and its return. -/

/-- What is on its way between a caller and the server that computes for it. -/
structure Exchange (Args Ret : Type*) where
  /-- The latest request, until its result has been returned. -/
  asked : Option Args
  /-- Requests that the server has not computed yet. -/
  queued : List Args
  /-- The server has computed a result and not signalled it. -/
  computed : Bool
  signals : Nat
  /-- The caller has taken a signal and not yet read the result. -/
  taken : Bool
  /-- The place where the server leaves its results. -/
  ret : Ret

namespace Exchange

variable {Args Ret : Type*}

/-- One move of the caller or of the server, which computes the given function. -/
inductive Move (compute : Args → Ret) : Exchange Args Ret → Exchange Args Ret → Prop where
  /-- Nothing of this exchange is touched. -/
  | stay (exchange : Exchange Args Ret) : Move compute exchange exchange
  /-- A caller with nothing outstanding sends a request. -/
  | ask {exchange : Exchange Args Ret} (args : Args) (idle : exchange.asked = none) :
      Move compute exchange
        { exchange with asked := some args, queued := exchange.queued ++ [args] }
  /-- The request is lost on its way. -/
  | lose {exchange : Exchange Args Ret} (args : Args) (idle : exchange.asked = none) :
      Move compute exchange { exchange with asked := some args }
  /-- The server computes the oldest request. -/
  | compute {exchange : Exchange Args Ret} {args : Args} {rest : List Args}
      (oldest : exchange.queued = args :: rest) :
      Move compute exchange
        { exchange with queued := rest, computed := true, ret := compute args }
  /-- The server signals, which adds at most one. -/
  | signal {exchange : Exchange Args Ret} (signals : Nat) (done : exchange.computed = true)
      (atMost : signals ≤ exchange.signals + 1) :
      Move compute exchange { exchange with computed := false, signals := signals }
  /-- The caller takes a signal. -/
  | take {exchange : Exchange Args Ret} (signalled : exchange.signals ≠ 0) :
      Move compute exchange { exchange with signals := exchange.signals - 1, taken := true }
  /-- The caller returns with the result. -/
  | back {exchange : Exchange Args Ret} (took : exchange.taken = true) :
      Move compute exchange { exchange with asked := none, taken := false }

/-- An exchange that looks the same afterwards was not touched. -/
theorem Move.of_eq {compute : Args → Ret} {before after : Exchange Args Ret}
    (same : after = before) : Move compute before after := by
  -- To stay is a move.
  subst same
  exact .stay after

/-- The stages of a request, each with all that is on its way in it. -/
inductive Sound (compute : Args → Ret) : Exchange Args Ret → Prop where
  /-- Nothing is outstanding, and the place for the result holds anything. -/
  | idle (ret : Ret) : Sound compute ⟨none, [], false, 0, false, ret⟩
  /-- The request will never be answered. -/
  | lost (args : Args) (ret : Ret) : Sound compute ⟨some args, [], false, 0, false, ret⟩
  | sent (args : Args) (ret : Ret) : Sound compute ⟨some args, [args], false, 0, false, ret⟩
  | computed (args : Args) : Sound compute ⟨some args, [], true, 0, false, compute args⟩
  | signalled (args : Args) : Sound compute ⟨some args, [], false, 1, false, compute args⟩
  | taken (args : Args) : Sound compute ⟨some args, [], false, 0, true, compute args⟩

/-- Every move leads from one stage to another. -/
theorem Sound.move {compute : Args → Ret} {before after : Exchange Args Ret}
    (sound : before.Sound compute) (moved : Move compute before after) : after.Sound compute := by
  -- A stage says all that is on its way, so few moves are possible in each of them.
  cases moved with
  | stay => exact sound
  | ask args idle =>
    -- Only an idle exchange has nothing outstanding.
    cases sound <;> simp only [reduceCtorEq] at idle
    exact .sent args _
  | lose args idle =>
    cases sound <;> simp only [reduceCtorEq] at idle
    -- Nothing is queued, so nothing will ever be computed for this request.
    exact .lost args _
  | compute oldest =>
    -- The only request that can be queued is the latest one.
    cases sound <;> simp only [reduceCtorEq, List.cons.injEq] at oldest
    obtain ⟨rfl, rfl⟩ := oldest
    exact .computed _
  | signal signals done atMost =>
    cases sound <;> simp only [Bool.false_eq_true] at done
    -- The signal arrives, or it is lost and the caller waits for ever.
    rcases Nat.le_one_iff_eq_zero_or_eq_one.mp atMost with rfl | rfl
    · exact .lost _ _
    · exact .signalled _
  | take signalled =>
    -- A signal is only there once the result is.
    cases sound <;> simp only [ne_eq, not_true_eq_false] at signalled
    exact .taken _
  | back took =>
    -- What the place holds from now on is the result of a request that is over.
    cases sound <;> simp only [Bool.false_eq_true] at took
    exact .idle _

/-- A caller that has taken a signal reads the result of its latest request. -/
theorem Sound.result {compute : Args → Ret} {exchange : Exchange Args Ret}
    (sound : exchange.Sound compute) (took : exchange.taken = true) :
    ∃ args, exchange.asked = some args ∧ exchange.ret = compute args := by
  -- There is one stage with a signal taken, and in it the result is already in its place.
  cases sound <;> simp only [Bool.false_eq_true] at took
  exact ⟨_, rfl, rfl⟩

/-- Nothing is on its way to the caller. -/
structure Clear (exchange : Exchange Args Ret) : Prop where
  queued : exchange.queued = []
  computed : exchange.computed = false
  signals : exchange.signals = 0

instance [DecidableEq Args] (exchange : Exchange Args Ret) : Decidable exchange.Clear :=
  decidable_of_iff (exchange.queued = [] ∧ exchange.computed = false ∧ exchange.signals = 0)
    ⟨fun ⟨queued, computed, signals⟩ => ⟨queued, computed, signals⟩,
      fun clear => ⟨clear.queued, clear.computed, clear.signals⟩⟩

/-- Between two requests nothing is on its way, and nothing has been taken. -/
theorem Sound.clear_of_idle {compute : Args → Ret} {exchange : Exchange Args Ret}
    (sound : exchange.Sound compute) (idle : exchange.asked = none) :
    exchange.Clear ∧ exchange.taken = false := by
  -- Every stage but the first has a request outstanding.
  cases sound <;> simp only [reduceCtorEq] at idle
  exact ⟨⟨rfl, rfl, rfl⟩, rfl⟩

/-- With a request outstanding and nothing on its way, no move changes anything any more. -/
theorem Move.stuck {compute : Args → Ret} {before after : Exchange Args Ret}
    (moved : Move compute before after) (clear : before.Clear) (untaken : before.taken = false)
    (asked : before.asked ≠ none) : after = before := by
  -- Every move but one needs an idle caller, a queued request, a result or a signal.
  cases moved with
  | stay => rfl
  | ask args idle | lose args idle => exact absurd idle asked
  | compute oldest =>
    rw [clear.queued] at oldest
    cases oldest
  | signal signals done atMost =>
    rw [clear.computed] at done
    cases done
  | take signalled => exact absurd clear.signals signalled
  | back took =>
    rw [untaken] at took
    cases took

/-- One move of an exchange whose caller may give up, and asks again only when it is clear. -/
inductive TimedMove (compute : Args → Ret) : Exchange Args Ret → Exchange Args Ret → Prop where
  /-- With nothing outstanding and nothing taken, a caller does nothing before it asks. -/
  | move {before after : Exchange Args Ret} (moved : Move compute before after)
      (asking : before.asked = none → before.taken = false →
        after.asked = none ∧ after.taken = false ∨ before.Clear) :
      TimedMove compute before after
  /-- The caller returns without having taken a signal. -/
  | giveUp {exchange : Exchange Args Ret} (untaken : exchange.taken = false) :
      TimedMove compute exchange { exchange with asked := none }

/-- An exchange that looks the same afterwards was not touched. -/
theorem TimedMove.of_eq {compute : Args → Ret} {before after : Exchange Args Ret}
    (same : after = before) : TimedMove compute before after := by
  -- To stay is a move, and gives nothing up.
  subst same
  exact .move (.stay after) fun idle untaken => .inl ⟨idle, untaken⟩

/-- An exchange is in one of the stages of a request, or its caller has given up. -/
def TimedSound (compute : Args → Ret) (exchange : Exchange Args Ret) : Prop :=
  -- What was given up may still be answered, at any time.
  exchange.Sound compute ∨ exchange.asked = none ∧ exchange.taken = false

/-- Giving up and asking again when nothing is on its way keeps the stages apart. -/
theorem TimedSound.move {compute : Args → Ret} {before after : Exchange Args Ret}
    (sound : before.TimedSound compute) (moved : TimedMove compute before after) :
    after.TimedSound compute := by
  cases moved with
  | giveUp untaken => exact .inr ⟨rfl, untaken⟩
  | move moved asking =>
    rcases sound with sound | ⟨idle, untaken⟩
    · exact .inl (sound.move moved)
    · rcases asking idle untaken with still | clear
      · exact .inr still
      · -- A caller that has given up is idle again once nothing is on its way.
        obtain ⟨asked, queued, computed, signals, taken, ret⟩ := before
        obtain ⟨rfl, rfl, rfl⟩ := clear
        subst idle untaken
        exact .inl ((Sound.idle ret).move moved)

/-- A caller that has taken a signal did not give up, and reads the result of its request. -/
theorem TimedSound.result {compute : Args → Ret} {exchange : Exchange Args Ret}
    (sound : exchange.TimedSound compute) (took : exchange.taken = true) :
    ∃ args, exchange.asked = some args ∧ exchange.ret = compute args := by
  -- Whoever gave up has not taken the signal.
  rcases sound with sound | ⟨_, untaken⟩
  · exact sound.result took
  · rw [untaken] at took
    cases took

/-- Entries that are right for what came before them stay so when the next one is. -/
theorem history_append {Entry : Type*} {good : List Entry → Entry → Prop} {history : List Entry}
    (each : ∀ before entry after, history = before ++ entry :: after → good before entry)
    (next : Entry) (right : good history next) :
    ∀ before entry after, history ++ [next] = before ++ entry :: after → good before entry := by
  intro before entry after split
  -- Either the entry is the new one, or it was there before.
  rcases List.eq_nil_or_concat after with rfl | ⟨rest, final, rfl⟩
  · obtain ⟨same, new⟩ := List.append_inj' split rfl
    subst same
    exact (List.cons.inj new).1 ▸ right
  · rw [List.concat_eq_append, ← List.cons_append, ← List.append_assoc] at split
    exact each before entry rest (List.append_inj' split rfl).1

end Exchange
