import SumplusTrader.Brain.Chat
import SumplusTrader.Brain.Loop

/-!
# The size cap of the brain loop

This file shows when the amounts that a tick hands to the executor respect the smaller
one of the two caps on a single trade. The guardrail carries the clamped amount in an
optional field, and the loop takes the proposed amount when this field is empty or zero.

`Loop.executed_within_cap_iff` says that a call respects the cap exactly when the cap is
not zero. A cap of zero can be set through the chat, and the loop then executes the
proposed amount in full.
-/

namespace SumplusTrader

namespace Loop

/-- The call is that of a trade which has reached the size caps of the guardrail. -/
def Clamped (guard : Guardrail) (portfolioValueUsd : ℚ) (call : Decision × ℚ) : Prop :=
  ∃ verdict, call.1.isTrade ∧ guard.clamp call.1 portfolioValueUsd = .ok verdict ∧
    call.2 = executedAmount verdict call.1

/-- All calls so far are clamped by the guardrail of the tick. -/
def AllClamped (ctx : TickContext) (fx : BrainEffects) : Prop :=
  ∀ call ∈ fx.calls, Clamped ctx.guard ctx.portfolioValueUsd call

section Calls

variable {ctx : TickContext}

theorem carryOut_allClamped {fx : BrainEffects} (clamped : AllClamped ctx fx)
    (outside : Outside) {decision : Decision} {verdict : GuardrailVerdict}
    (passed : decision.isTrade → verdict.allowed = true →
      ctx.guard.clamp decision ctx.portfolioValueUsd = .ok verdict) :
    AllClamped ctx (carryOut fx outside decision verdict).1 := by
  dsimp only [carryOut]
  split
  · next approved =>
    have extended : ∀ call ∈ fx.calls ++ [(decision, executedAmount verdict decision)],
        Clamped ctx.guard ctx.portfolioValueUsd call := by
      intro call mem
      rcases List.mem_append.1 mem with earlier | last
      · exact clamped call earlier
      · rw [List.mem_singleton] at last
        subst last
        exact ⟨verdict, approved.2, passed approved.2 approved.1, rfl⟩
    split
    · exact extended
    · exact extended
  · exact clamped

theorem judge_allClamped {fx : BrainEffects} (clamped : AllClamped ctx fx) (outside : Outside)
    (decision : Decision) : AllClamped ctx (judge ctx fx outside decision).1 := by
  dsimp only [judge]
  split
  · exact clamped
  · next verdict checked =>
    apply carryOut_allClamped
    · exact clamped
    · intro trade allowed
      exact Guardrail.check_allowed checked trade allowed

theorem processPair_allClamped (enabled : List String) {fx : BrainEffects}
    (clamped : AllClamped ctx fx) (outside : Outside) (pair : Json) :
    AllClamped ctx (processPair ctx enabled fx outside pair).1 := by
  unfold processPair
  split
  · exact clamped
  · exact clamped
  · split
    · exact clamped
    · exact judge_allClamped clamped outside _

theorem processPairs_allClamped (enabled : List String) {fx : BrainEffects}
    (clamped : AllClamped ctx fx) (outside : ℕ → Outside) (pairs : List Json) :
    AllClamped ctx (processPairs ctx enabled fx outside pairs).1 := by
  induction pairs generalizing fx outside with
  | nil => exact clamped
  | cons pair pairs ih =>
      have first := processPair_allClamped enabled clamped (outside 0) pair
      unfold processPairs
      split
      · next raised =>
        rw [raised] at first
        exact first
      · next done =>
        rw [done] at first
        exact ih first _

end Calls

/-- The guardrail of a tick, and its calls. -/
theorem calls_of_tick {base : Json} {utcOffset : ℤ} {outside : ℕ → Outside}
    {portfolioValueUsd : ℚ} {world : BrainWorld} {call : Decision × ℚ}
    (mem : call ∈ (tick base utcOffset outside portfolioValueUsd world).1.calls) :
    ∃ cfg guard, effectiveCfg base world.runtime.overrides = .ok cfg ∧
      Guardrail.ofCfg cfg = .ok guard ∧ Clamped guard portfolioValueUsd call := by
  dsimp only [tick] at mem
  split at mem
  · simp at mem
  · next cfg guard ready =>
    rcases bind_eq_ok_iff.1 ready with ⟨cfg', effective, ready⟩
    rcases bind_eq_ok_iff.1 ready with ⟨guard', guarded, ready⟩
    simp only [pure, Except.pure, Except.ok.injEq, Prod.mk.injEq] at ready
    rcases ready with ⟨rfl, rfl⟩
    refine ⟨cfg', guard', effective, guarded, ?_⟩
    split at mem
    · simp at mem
    · next enabled pairs _ =>
      refine processPairs_allClamped enabled ?_ outside pairs call mem
      intro other none
      simp at none

/-- The smaller one of the two caps of a configuration. -/
def tradeCap (cfg : Json) (portfolioValueUsd : ℚ) : Except PyError ℚ := do
  let risk ← index cfg "risk"
  let maxSingle ← Guardrail.riskNumber risk "max_single_trade_usd"
  let maxPosition ← Guardrail.riskNumber risk "max_position_pct"
  return min maxSingle.value (portfolioValueUsd * maxPosition.value)

theorem tradeCap_of_sizeCap {cfg : Json} {guard : Guardrail} {portfolioValueUsd cap : ℚ}
    (guarded : Guardrail.ofCfg cfg = .ok guard)
    (capped : guard.sizeCap portfolioValueUsd = .ok cap) :
    tradeCap cfg portfolioValueUsd = .ok cap := by
  rcases bind_eq_ok_iff.1 guarded with ⟨risk, read, guarded⟩
  rcases bind_eq_ok_iff.1 guarded with ⟨tokens, -, guarded⟩
  rcases bind_eq_ok_iff.1 guarded with ⟨pairs, -, guarded⟩
  rw [← Except.ok.inj guarded] at capped
  exact bind_eq_ok_iff.2 ⟨risk, read, capped⟩

/-- A clamped call respects the cap unless the cap is zero. -/
theorem Clamped.le_iff {guard : Guardrail} {portfolioValueUsd : ℚ} {call : Decision × ℚ}
    (clamped : Clamped guard portfolioValueUsd call) :
    ∃ cap, guard.sizeCap portfolioValueUsd = .ok cap ∧ (call.2 ≤ cap ↔ cap ≠ 0) := by
  rcases clamped with ⟨verdict, trade, clamped, amount⟩
  rcases Guardrail.clamp_eq_ok clamped with ⟨cap, capped, carried⟩
  refine ⟨cap, capped, ?_⟩
  have positive : 0 < call.1.amountUsd := trade.2
  rw [amount, executedAmount, carried]
  by_cases exceeds : cap < call.1.amountUsd
  · rw [if_pos exceeds]
    by_cases zero : cap = 0
    · simp [zero, positive]
    · simp [zero]
  · rw [if_neg exceeds]
    have nonzero : cap ≠ 0 := by
      rintro rfl
      exact exceeds positive
    exact iff_of_true (not_lt.1 exceeds) nonzero

/-- **The size cap.** A call of the executor respects the smaller one of the two caps of
the effective configuration exactly when that cap is not zero. -/
theorem executed_within_cap_iff (base : Json) (utcOffset : ℤ) (outside : ℕ → Outside)
    (portfolioValueUsd : ℚ) (world : BrainWorld) (decision : Decision) (amountUsd : ℚ)
    (called : (decision, amountUsd) ∈
      (tick base utcOffset outside portfolioValueUsd world).1.calls) :
    ∃ cfg cap, effectiveCfg base world.runtime.overrides = .ok cfg ∧
      tradeCap cfg portfolioValueUsd = .ok cap ∧ (amountUsd ≤ cap ↔ cap ≠ 0) := by
  rcases calls_of_tick called with ⟨cfg, guard, effective, guarded, clamped⟩
  rcases clamped.le_iff with ⟨cap, capped, within⟩
  exact ⟨cfg, cap, effective, tradeCap_of_sizeCap guarded capped, within⟩

/-- A profile with one pair and the caps of the committed configuration. -/
def pairProfile : Json :=
  .obj [("chains", .obj [("bsc", .obj [("chain_id", .num (.int 56)), ("enabled", .bool true)])]),
    ("allowed_tokens", .arr [.str "USDT", .str "WBNB"]),
    ("allowed_pairs", .arr [.obj [("chain", .str "bsc"), ("from", .str "USDT"),
      ("to", .str "WBNB")]]),
    ("risk", .obj [("max_single_trade_usd", .num (.int 100)),
      ("max_position_pct", Py.floatJson 0.4), ("max_trades_per_hour", .num (.int 4)),
      ("max_drawdown_pct", Py.floatJson 6)])]

def dipBuy : Decision where
  side := .buy
  chain := "bsc"
  fromToken := "USDT"
  toToken := "WBNB"
  amountUsd := 25
  confidence := 0.6
  rationale := "WBNB down -4.2% in 24h, small mean-reversion buy"

def mockDetail : JsonValue :=
  ⟨.obj [("mode", .str "mock")], by simp [Json.DistinctKeys, Json.DistinctKeysFields]⟩

/-- A brain that buys the dip, and a backend that fills every order. -/
def dipOutside : Outside where
  snapshot := fun pair => .ok (.obj [("pair", pair)])
  brain := fun _ _ => .ok dipBuy
  executor := {
    backend := {
      acceptsCid := false
      getQuote := fun _ => .ok mockDetail
      executeSwap := fun _ => .ok ⟨true, true, mockDetail, none⟩ }
    mode := "mock"
    slippageBps := 50 }
  decidedAt := 0
  checkedAt := 0
  judgedAt := 0
  executedAt := 0

/-- A world without a ledger. -/
def initialWorld (runtime : RuntimeState) : BrainWorld where
  runtime := runtime
  portfolio := ⟨0, none⟩
  ledger := []

theorem executed_within_cap_iff_default :
    ∃ cfg cap, effectiveCfg pairProfile RuntimeState.default.overrides = .ok cfg ∧
      tradeCap cfg 1000 = .ok cap ∧ ((25 : ℚ) ≤ cap ↔ cap ≠ 0) :=
  executed_within_cap_iff pairProfile 0 (fun _ => dipOutside) 1000
    (initialWorld RuntimeState.default) dipBuy 25 (by decide +kernel)

/-- The cap that the chat sets to zero does not hold back the trade. -/
theorem zero_cap_executes_amount :
    ∃ runtime cfg cap, Chat.setCap pairProfile RuntimeState.default
        "set cap max_single_trade_usd 0" = .ok runtime ∧
      effectiveCfg pairProfile runtime.overrides = .ok cfg ∧
      tradeCap cfg 1000 = .ok cap ∧
      (dipBuy, 25) ∈ (tick pairProfile 0 (fun _ => dipOutside) 1000
        (initialWorld runtime)).1.calls ∧
      cap < 25 := by
  refine ⟨_, _, 0, rfl, rfl, ?_, ?_, by norm_num⟩
  · decide +kernel
  · decide +kernel

end Loop

end SumplusTrader
