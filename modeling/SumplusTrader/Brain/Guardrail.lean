import SumplusTrader.Config
import SumplusTrader.Python.Text

/-!
# The local guardrail

This file models `agent/guardrail/policy.py`, the checks that the brain loop applies
to a decision. The caps are read from the `risk` dictionary when a check needs them,
so a missing cap raises only on the decisions that come so far. A cap is a number.

A decision that passes the first four checks is never rejected: the guardrail clamps
it, and carries the clamped amount in an optional field.
-/

namespace SumplusTrader

structure Guardrail where
  risk : Json
  allowedTokens : List String
  allowedPairs : List (String × String × String)

namespace Guardrail

/-- A value that was read, or the error of a value of another type. -/
def expect {α : Type} : Option α → Except PyError α
  | none => .error .typeError
  | some a => .ok a

/-- `Guardrail.__init__`. -/
def ofCfg (cfg : Json) : Except PyError Guardrail := do
  let risk ← index cfg "risk"
  let tokens ← expect (Read.itemD (Read.asList Read.asString) cfg "allowed_tokens" [])
  let pairs ← expect (Read.itemD (Read.asList Pair.ofJson) cfg "allowed_pairs" [])
  return {
    risk := risk
    allowedTokens := tokens
    allowedPairs := pairs.map fun p => (p.chain, Py.upper p.fromToken, Py.upper p.toToken) }

/-- `self.risk[key]`, a number. -/
def riskNumber (risk : Json) (key : String) : Except PyError Json.Number := do
  expect (Read.asNumber (← index risk key))

variable (guard : Guardrail)

def rejected (reason : String) : GuardrailVerdict := ⟨false, "rejected: " ++ reason, none⟩

/-- 1 and 2. Both tokens and the pair are on the whitelist. -/
def whitelist (decision : Decision) : Option GuardrailVerdict :=
  let ft := Py.upper decision.fromToken
  let tt := Py.upper decision.toToken
  if ft ∉ guard.allowedTokens ∨ tt ∉ guard.allowedTokens then
    let bad := if ft ∉ guard.allowedTokens then ft else tt
    some (rejected ("token " ++ bad ++ " is not on the whitelist"))
  else if (decision.chain, ft, tt) ∉ guard.allowedPairs then
    some (rejected ("pair " ++ ft ++ "->" ++ tt ++ " on " ++ decision.chain ++
      " is not allowed"))
  else none

/-- 3. The drawdown circuit breaker. -/
def circuitBreaker (drawdownPct : ℚ) : Except PyError (Option GuardrailVerdict) := do
  let cap ← riskNumber guard.risk "max_drawdown_pct"
  return if cap.value ≤ drawdownPct then
    some (rejected ("drawdown " ++ Py.fixedText 1 drawdownPct ++ "% >= cap " ++
      numberText cap ++ "%"))
  else none

/-- 4. The rate limit. -/
def rateLimit (tradesLastHour : ℕ) : Except PyError (Option GuardrailVerdict) := do
  let cap ← riskNumber guard.risk "max_trades_per_hour"
  return if cap.value ≤ tradesLastHour then
    some (rejected (String.ofList (Json.natText tradesLastHour) ++ " trades this hour >= cap " ++
      numberText cap))
  else none

/-- The smaller one of the two caps on a single trade. -/
def sizeCap (portfolioValueUsd : ℚ) : Except PyError ℚ := do
  let maxSingle ← riskNumber guard.risk "max_single_trade_usd"
  let maxPosition ← riskNumber guard.risk "max_position_pct"
  return min maxSingle.value (portfolioValueUsd * maxPosition.value)

/-- 5. The caps on the size, which clamp rather than reject. -/
def clamp (decision : Decision) (portfolioValueUsd : ℚ) : Except PyError GuardrailVerdict := do
  let cap ← guard.sizeCap portfolioValueUsd
  return if cap < decision.amountUsd then
    ⟨true, "allowed (clamped " ++ Py.fixedText 2 decision.amountUsd ++ "->" ++
      Py.fixedText 2 cap ++ " to respect caps)", some cap⟩
  else ⟨true, "allowed — within policy", none⟩

def check (decision : Decision) (portfolioValueUsd drawdownPct : ℚ) (tradesLastHour : ℕ) :
    Except PyError GuardrailVerdict := do
  if ¬decision.isTrade then
    return ⟨true, "hold — no action", none⟩
  if let some verdict := guard.whitelist decision then
    return verdict
  if let some verdict ← guard.circuitBreaker drawdownPct then
    return verdict
  if let some verdict ← guard.rateLimit tradesLastHour then
    return verdict
  guard.clamp decision portfolioValueUsd

variable {guard} {decision : Decision} {portfolioValueUsd drawdownPct : ℚ} {tradesLastHour : ℕ}
  {verdict : GuardrailVerdict}

theorem whitelist_not_allowed (found : guard.whitelist decision = some verdict) :
    verdict.allowed = false := by
  simp only [whitelist] at found
  split_ifs at found
  · rw [← Option.some.inj found, rejected]
  · rw [← Option.some.inj found, rejected]
  · rw [← Option.some.inj found, rejected]

theorem circuitBreaker_not_allowed (found : guard.circuitBreaker drawdownPct = .ok (some verdict)) :
    verdict.allowed = false := by
  rcases bind_eq_ok_iff.1 found with ⟨cap, -, found⟩
  simp only [pure, Except.pure, Except.ok.injEq, Option.ite_none_right_eq_some,
    Option.some.injEq] at found
  rw [← found.2, rejected]

theorem rateLimit_not_allowed (found : guard.rateLimit tradesLastHour = .ok (some verdict)) :
    verdict.allowed = false := by
  rcases bind_eq_ok_iff.1 found with ⟨cap, -, found⟩
  simp only [pure, Except.pure, Except.ok.injEq, Option.ite_none_right_eq_some,
    Option.some.injEq] at found
  rw [← found.2, rejected]

/-- A trade that is allowed has reached the size caps. -/
theorem check_allowed
    (checked : guard.check decision portfolioValueUsd drawdownPct tradesLastHour = .ok verdict)
    (trade : decision.isTrade) (allowed : verdict.allowed = true) :
    guard.clamp decision portfolioValueUsd = .ok verdict := by
  simp only [check, trade, not_true_eq_false, if_false] at checked
  split at checked
  · next found =>
    rw [← Except.ok.inj checked, whitelist_not_allowed found] at allowed
    exact absurd allowed (by decide)
  · rcases bind_eq_ok_iff.1 checked with ⟨tripped, breaker, checked⟩
    split at checked
    · rw [← Except.ok.inj checked, circuitBreaker_not_allowed breaker] at allowed
      exact absurd allowed (by decide)
    · rcases bind_eq_ok_iff.1 checked with ⟨limited, rate, checked⟩
      split at checked
      · rw [← Except.ok.inj checked, rateLimit_not_allowed rate] at allowed
        exact absurd allowed (by decide)
      · exact checked

/-- The clamped amount is the cap, and it is there when the amount exceeds the cap. -/
theorem clamp_eq_ok (clamped : guard.clamp decision portfolioValueUsd = .ok verdict) :
    ∃ cap, guard.sizeCap portfolioValueUsd = .ok cap ∧ verdict.clampedAmountUsd =
      if cap < decision.amountUsd then some cap else none := by
  rcases bind_eq_ok_iff.1 clamped with ⟨cap, capped, clamped⟩
  refine ⟨cap, capped, ?_⟩
  rw [← Except.ok.inj clamped]
  split_ifs <;> rfl

end Guardrail

end SumplusTrader
