import SumplusTrader.Brain.Pause

/-!
# Proposals of the brain

This file says once what a proposal of the brain does: which entries it appends to the ledger, and
when it calls the executor. A call of the executor has passed every check of the guardrail, and its
decision and its verdict are in the ledger before it. What the executor answers is recorded only when it
answers.

`effects_induct` carries a property over everything that an event does, be it a message of the chat
or an iteration of the loop.
-/

namespace SumplusTrader

namespace Guardrail

variable {guard : Guardrail} {decision : Decision} {portfolioValueUsd drawdownPct : ℚ}
  {tradesLastHour : ℕ} {verdict : GuardrailVerdict}

theorem circuitBreaker_eq_none (closed : guard.circuitBreaker drawdownPct = .ok none) :
    ∃ cap, riskNumber guard.risk "max_drawdown_pct" = .ok cap ∧ drawdownPct < cap.value := by
  rcases bind_eq_ok_iff.1 closed with ⟨cap, read, closed⟩
  refine ⟨cap, read, ?_⟩
  by_contra reached
  rw [if_pos (not_lt.1 reached)] at closed
  cases closed

theorem rateLimit_eq_none (free : guard.rateLimit tradesLastHour = .ok none) :
    ∃ cap, riskNumber guard.risk "max_trades_per_hour" = .ok cap ∧
      (tradesLastHour : ℚ) < cap.value := by
  rcases bind_eq_ok_iff.1 free with ⟨cap, read, free⟩
  refine ⟨cap, read, ?_⟩
  by_contra reached
  rw [if_pos (not_lt.1 reached)] at free
  cases free

/-- A trade that is allowed has passed the whitelist, the circuit breaker and the rate limit. -/
theorem check_passed
    (checked : guard.check decision portfolioValueUsd drawdownPct tradesLastHour = .ok verdict)
    (trade : decision.isTrade) (allowed : verdict.allowed = true) :
    guard.whitelist decision = none ∧ guard.circuitBreaker drawdownPct = .ok none ∧
      guard.rateLimit tradesLastHour = .ok none := by
  simp only [check, trade, not_true_eq_false, if_false] at checked
  rcases listed : guard.whitelist decision with _ | declined
  · rw [listed] at checked
    rcases bind_eq_ok_iff.1 checked with ⟨tripped, breaker, checked⟩
    rcases tripped with _ | declined
    · rcases bind_eq_ok_iff.1 checked with ⟨limited, rate, checked⟩
      rcases limited with _ | declined
      · exact ⟨rfl, breaker, rate⟩
      · rw [← Except.ok.inj checked, rateLimit_not_allowed rate] at allowed
        exact absurd allowed (by decide)
    · rw [← Except.ok.inj checked, circuitBreaker_not_allowed breaker] at allowed
      exact absurd allowed (by decide)
  · rw [listed] at checked
    rw [← Except.ok.inj checked, whitelist_not_allowed listed] at allowed
    exact absurd allowed (by decide)

end Guardrail

namespace Loop

def decisionEntry (outside : Outside) (decision : Decision) : LedgerEntry :=
  ⟨Ledger.stamp outside.decidedAt, "decision", [("decision", decision.toJson)]⟩

def guardrailEntry (outside : Outside) (decision : Decision) (verdict : GuardrailVerdict) :
    LedgerEntry :=
  ⟨Ledger.stamp outside.judgedAt, "guardrail", [("decision", decision.toJson),
    ("allowed", .bool verdict.allowed), ("reason", .str verdict.reason)]⟩

def executionEntry (outside : Outside) (amountUsd : ℚ) (result : ExecutionResult) : LedgerEntry :=
  ⟨Ledger.stamp outside.executedAt, if result.executed then "executed" else "execute_attempt",
    [("amount_usd", Py.floatJson amountUsd), ("result", result.detail.tree),
      ("error", (result.error.map Json.str).getD .null)]⟩

/-- What holds of a decision that goes to the executor; the ledger is the one that the trades of
the last hour are counted in. -/
structure Approved (ctx : TickContext) (ledger : List LedgerEntry) (outside : Outside)
    (decision : Decision) (verdict : GuardrailVerdict) : Prop where
  trade : decision.isTrade
  allowed : verdict.allowed = true
  whitelisted : ctx.guard.whitelist decision = none
  unbroken : ∃ cap, Guardrail.riskNumber ctx.guard.risk "max_drawdown_pct" = .ok cap ∧
    ctx.drawdownPct < cap.value
  admitted : ∃ cap, Guardrail.riskNumber ctx.guard.risk "max_trades_per_hour" = .ok cap ∧
    (Ledger.tradesLastHour ledger outside.checkedAt ctx.utcOffset : ℚ) < cap.value

/-- The entries and the calls of a proposal, by how far it comes. -/
inductive Proposal (ctx : TickContext) (ledger : List LedgerEntry) (outside : Outside)
    (decision : Decision) : List LedgerEntry → List (Decision × ℚ) → Prop where
  | unchecked : Proposal ctx ledger outside decision [decisionEntry outside decision] []
  | declined (verdict : GuardrailVerdict)
      (declines : ¬(verdict.allowed = true ∧ decision.isTrade)) :
      Proposal ctx ledger outside decision
        [decisionEntry outside decision, guardrailEntry outside decision verdict] []
  | unanswered (verdict : GuardrailVerdict)
      (approved : Approved ctx (ledger ++ [decisionEntry outside decision]) outside decision
        verdict) :
      Proposal ctx ledger outside decision
        [decisionEntry outside decision, guardrailEntry outside decision verdict]
        [(decision, executedAmount verdict decision)]
  | answered (verdict : GuardrailVerdict) (result : ExecutionResult)
      (approved : Approved ctx (ledger ++ [decisionEntry outside decision]) outside decision
        verdict) :
      Proposal ctx ledger outside decision
        [decisionEntry outside decision, guardrailEntry outside decision verdict,
          executionEntry outside (executedAmount verdict decision) result]
        [(decision, executedAmount verdict decision)]

/-- The effects after some more entries and calls. -/
structure Extends (before after : BrainEffects) (entries : List LedgerEntry)
    (calls : List (Decision × ℚ)) : Prop where
  runtime : after.world.runtime = before.world.runtime
  portfolio : after.world.portfolio = before.world.portfolio
  ledger : after.world.ledger = before.world.ledger ++ entries
  calls : after.calls = before.calls ++ calls

/-- What a decision of the brain does. -/
theorem judge_extends (ctx : TickContext) (fx : BrainEffects) (outside : Outside)
    (decision : Decision) : ∃ entries calls,
    Extends fx (judge ctx fx outside decision).1 entries calls ∧
      Proposal ctx fx.world.ledger outside decision entries calls := by
  dsimp only [judge]
  split
  · exact ⟨_, _, ⟨rfl, rfl, rfl, by simp [BrainEffects.record]⟩, .unchecked⟩
  · next verdict checked =>
    dsimp only [carryOut]
    split
    · next passed =>
      have approved : Approved ctx (fx.world.ledger ++ [decisionEntry outside decision]) outside
          decision verdict := by
        rcases Guardrail.check_passed checked passed.2 passed.1 with ⟨listed, closed, free⟩
        exact ⟨passed.2, passed.1, listed, Guardrail.circuitBreaker_eq_none closed,
          Guardrail.rateLimit_eq_none free⟩
      split
      · refine ⟨_, _, ⟨rfl, rfl, ?_, rfl⟩, .unanswered verdict approved⟩
        simp [BrainEffects.record, Ledger.record, decisionEntry, guardrailEntry]
      · next result _ =>
        refine ⟨_, _, ⟨rfl, rfl, ?_, rfl⟩, .answered verdict result approved⟩
        simp [BrainEffects.record, Ledger.record, decisionEntry, guardrailEntry, executionEntry]
    · next declines =>
      refine ⟨_, _, ⟨rfl, rfl, ?_, by simp [BrainEffects.record]⟩, .declined verdict declines⟩
      simp [BrainEffects.record, Ledger.record, decisionEntry, guardrailEntry]

/-- A property that every proposal keeps is kept by all of them. -/
theorem processPairs_induct {P : BrainEffects → Prop} (ctx : TickContext) (enabled : List String)
    (outside : ℕ → Outside) (pairs : List Json) {fx : BrainEffects}
    (judged : ∀ before n decision, P before → P (judge ctx before (outside n) decision).1)
    (start : P fx) : P (processPairs ctx enabled fx outside pairs).1 := by
  induction pairs generalizing fx outside with
  | nil => exact start
  | cons pair pairs ih =>
      have first : P (processPair ctx enabled fx (outside 0) pair).1 := by
        unfold processPair
        split
        · exact start
        · exact start
        · split
          · exact start
          · exact judged fx 0 _ start
      unfold processPairs
      split
      · next raised =>
        rw [raised] at first
        exact first
      · next done =>
        rw [done] at first
        exact ih _ (fun before n decision => judged before (n + 1) decision) first

/-- The context of a tick in a world. -/
structure Ticks (base : Json) (utcOffset : ℤ) (world : BrainWorld) (ctx : TickContext) : Prop where
  ready : setUp base world.runtime.overrides = .ok (ctx.cfg, ctx.guard)
  value : ctx.portfolioValueUsd = world.runtime.portfolioValueUsd
  drawdown : ctx.drawdownPct =
    (world.portfolio.updateAndDrawdown world.runtime.portfolioValueUsd).2
  offset : ctx.utcOffset = utcOffset

/-- The world after the portfolio is valued. -/
def valued (world : BrainWorld) : BrainWorld :=
  { world with
    portfolio := (world.portfolio.updateAndDrawdown world.runtime.portfolioValueUsd).1 }

theorem tick_induct {P : BrainEffects → Prop} {base : Json} {utcOffset : ℤ}
    {outside : ℕ → Outside} {world : BrainWorld}
    (judged : ∀ ctx before n decision, Ticks base utcOffset world ctx → P before →
      P (judge ctx before (outside n) decision).1)
    (untouched : P (Chat.idle world)) (marked : P (Chat.idle (valued world))) :
    P (tick base utcOffset outside world.runtime.portfolioValueUsd world).1 := by
  dsimp only [tick]
  split
  · exact untouched
  · next cfg guard ready =>
    split
    · exact marked
    · next enabled pairs _ =>
      apply processPairs_induct
      · intro before n decision held
        exact judged ⟨cfg, guard, _, _, _⟩ before n decision ⟨ready, rfl, rfl, rfl⟩ held
      · exact marked

end Loop

namespace Supervision

open Loop (valued)

variable {setting : Setting} {world : BrainWorld} {event : Event}

/-- The outside answers a proposal during an event. -/
inductive Answers : Event → Outside → Prop where
  | chat {outside : ChatOutside} {mode : Json} {pairs : ℕ → Outside} (text : String)
      (made : outside.make mode = .ok pairs) (n : ℕ) : Answers (.message outside text) (pairs n)
  | loop (outside : ℕ → Outside) (now : ℚ) (n : ℕ) : Answers (.iteration outside now) (outside n)

/-- A world that differs by what the chat may write: the runtime state, but not the value in it,
and the mark of the portfolio. -/
structure Tended (world next : BrainWorld) : Prop where
  value : next.runtime.portfolioValueUsd = world.runtime.portfolioValueUsd
  portfolio : next.portfolio = world.portfolio ∨ next.portfolio = (valued world).portfolio
  ledger : next.ledger = world.ledger

theorem tended_refl (world : BrainWorld) : Tended world world := ⟨rfl, Or.inl rfl, rfl⟩

theorem tended_valued (world : BrainWorld) : Tended world (valued world) := ⟨rfl, Or.inr rfl, rfl⟩

theorem value_setCap {cfg : Json} {state next : RuntimeState} {message : String}
    (stored : Chat.setCap cfg state message = .ok next) :
    next.portfolioValueUsd = state.portfolioValueUsd := by
  unfold Chat.setCap at stored
  split at stored
  · cases stored
    rfl
  · rcases bind_eq_ok_iff.1 stored with ⟨value, -, stored⟩
    rcases bind_eq_ok_iff.1 stored with ⟨risk, -, stored⟩
    split at stored
    · dsimp only at stored
      split at stored
      · cases stored
        rfl
      · cases stored
        rfl
    · cases stored

theorem tended_storeCap (cfg : Json) (world : BrainWorld) (msg : String)
    (field value : List Char) : ∃ next, Tended world next ∧
      (Chat.storeCap cfg world msg field value).1 = Chat.idle next := by
  unfold Chat.storeCap
  split
  · exact ⟨world, tended_refl world, rfl⟩
  · next stored =>
    refine ⟨_, ?_, rfl⟩
    exact ⟨value_setCap stored, Or.inl rfl, rfl⟩

theorem tended_freeform (cfg : Json) (outside : ChatOutside) (world : BrainWorld) :
    ∃ next, Tended world next ∧ (Chat.freeform cfg outside world).1 = Chat.idle next := by
  unfold Chat.freeform
  split
  · exact ⟨world, tended_refl world, rfl⟩
  · exact ⟨valued world, tended_valued world, rfl⟩

theorem tended_paused (world : BrainWorld) (paused : Bool) : ∃ next, Tended world next ∧
    Chat.idle { world with runtime := { world.runtime with paused := paused } } =
      Chat.idle next := by
  refine ⟨_, ?_, rfl⟩
  exact ⟨rfl, Or.inl rfl, rfl⟩

/-- A message runs one cycle, or tends the world. -/
theorem handle_tends (cfg base : Json) (utcOffset : ℤ) (outside : ChatOutside)
    (world : BrainWorld) (text : String) :
    (Chat.handle cfg base utcOffset outside world text).1 =
        (Chat.runCycle base utcOffset outside world).1 ∨
      ∃ next, Tended world next ∧
        (Chat.handle cfg base utcOffset outside world text).1 = Chat.idle next := by
  dsimp only [Chat.handle]
  split
  · exact Or.inr ⟨valued world, tended_valued world, rfl⟩
  · split
    · exact Or.inr ⟨world, tended_refl world, rfl⟩
    · split
      · exact Or.inr ⟨world, tended_refl world, rfl⟩
      · split
        · exact Or.inr ⟨world, tended_refl world, rfl⟩
        · split
          · exact Or.inr (tended_paused world true)
          · split
            · exact Or.inr (tended_paused world false)
            · split
              · exact Or.inl rfl
              · split
                · exact Or.inr (tended_storeCap cfg world _ _ _)
                · exact Or.inr (tended_freeform cfg outside world)

/-- **What an event does.** A property of the effects that holds without any, and that every
proposal and every note of the loop keeps, holds after the event. -/
theorem effects_induct {P : BrainEffects → Prop}
    (tended : ∀ next, Tended world next → P (Chat.idle next))
    (judged : ∀ ctx fx outside decision, Loop.Ticks setting.base setting.utcOffset world ctx →
      Answers event outside → P fx → P (Loop.judge ctx fx outside decision).1)
    (noted : ∀ fx now name payload, name = "paused" ∨ name = "tick_error" → P fx →
      P (fx.record now name payload)) : P (effects setting world event) := by
  cases event with
  | message outside text =>
      rcases handle_tends setting.cfg setting.base setting.utcOffset outside world text with
        cycle | ⟨next, tends, idle⟩
      · simp only [effects, cycle]
        dsimp only [Chat.runCycle]
        split
        · exact tended world (tended_refl world)
        · next pairs made =>
          rcases bind_eq_ok_iff.1 made with ⟨cfg, -, made⟩
          apply Loop.tick_induct
          · intro ctx before n decision ticks held
            exact judged ctx before _ decision ticks (.chat text made n) held
          · exact tended world (tended_refl world)
          · exact tended _ (tended_valued world)
      · simp only [effects, idle]
        exact tended next tends
  | iteration outside now =>
      have ticked : P (Loop.tick setting.base setting.utcOffset outside
          world.runtime.portfolioValueUsd world).1 := by
        apply Loop.tick_induct
        · intro ctx before n decision ticks held
          exact judged ctx before _ decision ticks (.loop outside now n) held
        · exact tended world (tended_refl world)
        · exact tended _ (tended_valued world)
      simp only [effects, Loop.iterate]
      split
      · exact noted _ _ _ _ (Or.inl rfl) (tended world (tended_refl world))
      · split
        · next done =>
          rw [done] at ticked
          exact ticked
        · next raised =>
          rw [raised] at ticked
          exact noted _ _ _ _ (Or.inr rfl) ticked

end Supervision

end SumplusTrader
