import SumplusTrader.Core.LiveTick
import SumplusTrader.Live.Loop
import SumplusTrader.Transition.WriteAhead

/-!
# What an iteration can do

This file relates one iteration of the live loop to the log of write-ahead intents. The snapshot
on disk carries the durable part of the log, and `intentEvent` shows what an effect of the loop
is to it.

`follows_iteration` says that the effects of an iteration of a loop that reconciles are, one
after the other, moves of the log, and that the state of the loop agrees with the log at the
end. A crash anywhere in between leaves a log that the moves so far have produced.
-/

namespace SumplusTrader

namespace Live

/-- The pending intent stands for an order under a number. -/
structure Stages (pending : PendingIntent) (number : ℤ) (order : Decision × ℚ) : Prop where
  seq : pending.seq = number
  side : pending.side = order.1.side
  fromToken : pending.fromToken = order.1.fromToken
  toToken : pending.toToken = order.1.toToken
  amountUsd : pending.amountUsd = order.2

abbrev IntentLog := WriteAhead.Log PendingIntent

/-- What an effect of the loop is to the log of intents. -/
def intentEvent : LiveEvent → Option (WriteAhead.Event PendingIntent (Decision × ℚ))
  | .reconciled _ => some .reconciled
  | .ticked => none
  | .wrote state => some (.wrote state.pendingIntent state.intentSeq)
  | .sent decision amount _ => some (.sent (decision, amount))

/-- A state carries the durable part of a log. -/
structure Agrees (state : State) (log : IntentLog) : Prop where
  pending : state.pendingIntent = log.pending
  number : state.intentSeq = log.number

/-- An effect is a move of the log, or does not concern it. -/
def Shows (log : IntentLog) (event : LiveEvent) (next : IntentLog) : Prop :=
  match intentEvent event with
  | none => next = log
  | some shown => WriteAhead.Step Stages log [shown] next

/-- Effects that are moves of the log one after the other, up to a state that agrees with it. -/
def Follows (log : IntentLog) : List LiveEvent → Except PyError State → Prop
  | [], outcome => ∀ state, outcome = .ok state → Agrees state log
  | event :: todo, outcome => ∃ next, Shows log event next ∧ Follows next todo outcome

section

variable {setup : LoopSetup} {input : IterationInput} {state next : State}
  {log next' : IntentLog}

theorem follows_error (e : PyError) : Follows log [] (.error e) := by
  intro state done
  simp at done

theorem shows_wrote_iff : Shows log (.wrote state) next' ↔
    WriteAhead.Step Stages log [.wrote state.pendingIntent state.intentSeq] next' := Iff.rfl

theorem shows_keep (agrees : Agrees state log) : Shows log (.wrote state) log := by
  rw [shows_wrote_iff, agrees.pending, agrees.number]
  exact .keep log

theorem follows_keep (agrees : Agrees state log) : Follows log [.wrote state] (.ok state) := by
  refine ⟨log, shows_keep agrees, ?_⟩
  rintro _ ⟨rfl⟩
  exact agrees

theorem follows_clear (reconciled : log.reconciled = true) (cleared : state.pendingIntent = none)
    (number : state.intentSeq = log.number) : Follows log [.wrote state] (.ok state) := by
  refine ⟨{ log with pending := none, staged := false }, ?_, ?_⟩
  · rw [shows_wrote_iff, cleared, number]
    exact .clear log reconciled
  · rintro _ ⟨rfl⟩
    exact ⟨cleared, number⟩

theorem intents_applyBuy (state : State) (sym : String) (amount px nowTs : ℚ) :
    (applyBuy state sym amount px nowTs).pendingIntent = state.pendingIntent ∧
      (applyBuy state sym amount px nowTs).intentSeq = state.intentSeq := by
  unfold applyBuy
  split <;> exact ⟨rfl, rfl⟩

theorem intents_applySell (state : State) (sym : String) (amount px : ℚ) :
    (applySell state sym amount px).pendingIntent = state.pendingIntent ∧
      (applySell state sym amount px).intentSeq = state.intentSeq := by
  unfold applySell
  split
  · exact ⟨rfl, rfl⟩
  · split <;> exact ⟨rfl, rfl⟩

/-- Booking a fill leaves the intents alone. -/
theorem intents_applyFill (state : State) (decision : Decision) (amount : ℚ)
    (price : Dict String ℚ) (nowTs : ℚ) :
    (applyFill state decision amount price nowTs).pendingIntent = state.pendingIntent ∧
      (applyFill state decision amount price nowTs).intentSeq = state.intentSeq := by
  unfold applyFill
  split
  · exact intents_applyBuy _ _ _ _ _
  · exact intents_applySell _ _ _ _
  · exact ⟨rfl, rfl⟩

theorem intents_settledState (state : State) (j : Judgement) (executed : Bool) :
    (Core.settledState state j executed).pendingIntent = none ∧
      (Core.settledState state j executed).intentSeq = state.intentSeq + 1 := by
  unfold Core.settledState Core.settle
  split
  · exact intents_applyFill _ _ _ _ _
  · exact ⟨rfl, rfl⟩

/-- A read of the balances reconciles the state and leaves its intents alone. -/
theorem reconcile_cases {price : Dict String ℚ} {reads : List LiveEvent}
    (reconciles : setup.reconciler.isSome = true)
    (done : reconcile setup input price state = some (reads, next)) :
    reads = [.reconciled next] ∧ next.pendingIntent = state.pendingIntent ∧
      next.intentSeq = state.intentSeq := by
  rcases Option.isSome_iff_exists.1 reconciles with ⟨reconciler, configured⟩
  simp only [reconcile, configured, Option.map_eq_some_iff, Prod.mk.injEq] at done
  rcases done with ⟨_, read, rfl, rfl⟩
  refine ⟨rfl, ?_⟩
  cases reconciler with
  | subaccount backend => exact intents_syncState read
  | wallet address => exact intents_syncState read

theorem not_simulates_of_live (live : setup.mode = "live") :
    ¬(executor setup input).simulates := by
  simp [Executor.simulates, executor, live]

theorem tickEvents_of_quiet {fx : Effects} (quiet : fx.outward = []) : tickEvents state fx = [] := by
  simp [tickEvents, quiet]

theorem tickEvents_of_sent {fx : Effects} {j : Judgement} {cid : String}
    (outward : fx.outward = [.intentPersisted (Core.pendingIntent state j j.verdict.finalAmountUsd),
      .orderSent j.decision j.verdict.finalAmountUsd cid]) :
    tickEvents state fx = [.wrote (Core.stagedState state j),
      .sent j.decision j.verdict.finalAmountUsd cid] := by
  simp [tickEvents, outward, Core.stagedState, Core.pendingIntent]

/-- Staging an intent and sending its order. -/
theorem follows_staged {j : Judgement} {cid : String} {todo : List LiveEvent}
    {outcome : Except PyError State} (agrees : Agrees state log)
    (nothing : log.pending = none) (reconciled : log.reconciled = true)
    (after : Follows { log with
      pending := some (Core.pendingIntent state j j.verdict.finalAmountUsd)
      number := log.number + 1
      staged := false } todo outcome) :
    Follows log (.wrote (Core.stagedState state j) ::
      .sent j.decision j.verdict.finalAmountUsd cid :: todo) outcome := by
  have number : (Core.stagedState state j).intentSeq = log.number + 1 := by
    rw [← agrees.number]
    rfl
  refine ⟨{ log with
    pending := some (Core.pendingIntent state j j.verdict.finalAmountUsd)
    number := log.number + 1
    staged := true }, ?_, _, ?_, after⟩
  · rw [shows_wrote_iff, number]
    exact .stage log _ nothing reconciled
  · refine .send _ (Core.pendingIntent state j j.verdict.finalAmountUsd) _ rfl rfl ?_
    exact ⟨number, rfl, rfl, rfl, rfl⟩

/-- The decision tick on a state without a pending intent. -/
theorem follows_decideOn (live : setup.mode = "live") (market : List TokenView × ℚ)
    (agrees : Agrees state log) (nothing : log.pending = none)
    (reconciled : log.reconciled = true) :
    Follows log (decideOn setup input market state).1 (decideOn setup input market state).2 := by
  have ended : Core.LiveTick input.world state (tickInput setup input market)
      (executor setup input) _ _ :=
    Core.liveTick input.world state rfl (not_simulates_of_live live) rfl
  unfold decideOn
  dsimp only
  generalize (Core.tick input.world state (tickInput setup input market)).1 = fx at ended ⊢
  generalize (Core.tick input.world state (tickInput setup input market)).2 = result at ended ⊢
  cases ended with
  | early e idle snapshot outward =>
      rw [afterTick, tickEvents_of_quiet outward]
      exact ⟨log, rfl, follows_error e⟩
  | held result idle snapshot outward =>
      rw [afterTick, tickEvents_of_quiet outward]
      exact ⟨log, rfl, follows_keep ⟨nothing.symm, agrees.number⟩⟩
  | failed j cid e orders snapshot outward answer =>
      rw [afterTick, tickEvents_of_sent outward]
      exact ⟨log, rfl, follows_staged agrees nothing reconciled (follows_error e)⟩
  | settled j cid executed result orders snapshot outward answer =>
      have intents := intents_settledState state j executed
      rw [afterTick, tickEvents_of_sent outward]
      refine ⟨log, rfl, follows_staged agrees nothing reconciled ?_⟩
      refine follows_clear reconciled intents.1 ?_
      exact intents.2.trans (congrArg (· + 1) agrees.number)

/-- **An iteration of a loop that reconciles moves the log of intents.** -/
theorem follows_iteration (reconciles : setup.reconciler.isSome = true)
    (live : setup.mode = "live") (agrees : Agrees state log) :
    Follows log (iteration setup input state).1 (iteration setup input state).2 := by
  unfold iteration
  split
  · next e _ => exact follows_error e
  · next market _ =>
    split
    · exact follows_keep agrees
    · next reads next read =>
      rcases reconcile_cases reconciles read with ⟨rfl, pending, number⟩
      have agreesAfter : Agrees (markNav next (priceMap market.1)).2
          { log with reconciled := true } :=
        ⟨pending.trans agrees.pending, number.trans agrees.number⟩
      dsimp only
      split
      · refine ⟨{ log with reconciled := true }, .reconcile log, ?_⟩
        exact follows_clear rfl rfl agreesAfter.number
      · next clear =>
        refine ⟨{ log with reconciled := true }, .reconcile log, ?_⟩
        refine follows_decideOn live market agreesAfter ?_ rfl
        rw [← agreesAfter.pending]
        simpa using clear

end

end Live

end SumplusTrader
