import SumplusTrader.Execution.Executor
import SumplusTrader.Policy.EngineSafety
import SumplusTrader.Python.Decimal

/-!
# The amount of an order

The policy engine approves whole cents, and the executor prints the approved amount with six
significant digits for the backend. This file says which amounts survive: those whose cents
have at most six digits once the zeros at their end are dropped. That holds below ten thousand
dollars; above, the backend can be asked for more than was approved.
-/

namespace SumplusTrader

namespace PolicyEngine

/-- The engine approves whole cents. -/
theorem finalAmountUsd_cents (engine : PolicyEngine) (decision : Decision)
    (portfolio : PortfolioView) (market : MarketView) :
    ∃ cents : ℤ, (engine.check decision portfolio market).finalAmountUsd = cents / 100 := by
  have rounded : ∀ amount : ℚ, ∃ cents : ℤ, Py.roundTo 2 amount = cents / 100 := by
    intro amount
    refine ⟨Py.roundHalfEven (amount * 10 ^ 2), ?_⟩
    rw [Py.roundTo]
    norm_num
  by_cases trade : decision.isTrade
  · rcases check_cases engine portfolio market trade with
      ⟨reason, rung, verdict⟩ | ⟨-, -, verdict⟩ | ⟨-, -, -, verdict⟩
    · rw [verdict]
      exact ⟨0, by simp [rejected]⟩
    · rw [verdict, exposureClamp, finalise_finalAmountUsd]
      exact rounded _
    · rw [verdict, finalise_finalAmountUsd]
      exact rounded _
  · rw [check_of_not_isTrade trade]
    exact ⟨0, by simp⟩

end PolicyEngine

namespace Executor

/-- The request that an execution hands to the backend; a quote comes without a cid. -/
def handed (executor : Executor) (decision : Decision) (amountUsd : ℚ) (cid : String) :
    SwapRequest :=
  if executor.mode = "paper" then { executor.request decision amountUsd cid with cid := none }
  else executor.request decision amountUsd cid

/-- Executing is asking the backend for a quote on this request, or for the swap. -/
theorem execute_eq (executor : Executor) (decision : Decision) (amountUsd : ℚ) (cid : String) :
    executor.execute decision amountUsd cid =
      if executor.mode = "paper" then
        (executor.backend.getQuote (executor.handed decision amountUsd cid)).map fun quote =>
          ⟨false, true, paperDetail quote, none⟩
      else executor.backend.executeSwap (executor.handed decision amountUsd cid) := by
  by_cases paper : executor.mode = "paper"
  · simp only [execute, handed, paper, if_true]
    rfl
  · rw [if_neg paper, execute_of_not_paper paper, handed, if_neg paper]

theorem amount_handed (executor : Executor) (decision : Decision) (amountUsd : ℚ) (cid : String) :
    (executor.handed decision amountUsd cid).amount = Py.generalText amountUsd := by
  unfold handed
  split
  · rfl
  · rfl

/-- The number of cents has at most six digits, not counting the zeros at its end. -/
def FitsSixDigits (cents : ℕ) : Prop :=
  ∃ digits zeros : ℕ, digits < 10 ^ 6 ∧ cents = digits * 10 ^ zeros

theorem fitsSixDigits_of_lt {cents : ℕ} (small : cents < 10 ^ 6) : FitsSixDigits cents :=
  ⟨cents, 0, small, by simp⟩

/-- Six significant digits of dollars are six digits of cents. -/
theorem roundSignificant_cents_iff (cents : ℕ) :
    Py.roundSignificant 6 (cents / 100) = cents / 100 ↔ FitsSixDigits cents := by
  have scale : (0 : ℚ) < 10 ^ (-2 : ℤ) := by positivity
  have dollars : (cents : ℚ) / 100 = cents * 10 ^ (-2 : ℤ) := by norm_num [div_eq_mul_inv]
  rw [dollars, Py.roundSignificant_mul_zpow, mul_left_inj' scale.ne']
  exact Py.roundSignificant_natCast_iff 6 cents

/-- **The backend gets the approved amount** exactly when its cents fit into six digits. -/
theorem amount_handed_iff (executor : Executor) (decision : Decision) (cents : ℕ) (cid : String) :
    executor.execute decision (cents / 100) cid =
        (if executor.mode = "paper" then
          (executor.backend.getQuote (executor.handed decision (cents / 100) cid)).map fun quote =>
            ⟨false, true, paperDetail quote, none⟩
        else executor.backend.executeSwap (executor.handed decision (cents / 100) cid)) ∧
      (Py.decimal (executor.handed decision (cents / 100) cid).amount =
        some ((cents : ℚ) / 100) ↔ FitsSixDigits cents) := by
  refine ⟨executor.execute_eq decision _ cid, ?_⟩
  rw [amount_handed, Py.decimal_generalText, Option.some.injEq]
  exact roundSignificant_cents_iff cents

/-- The shipped profile with a cap of 20000 dollars on a trade. -/
def wideConfig : Config :=
  { injectiveConfig with risk := { injectiveConfig.risk with maxSingleTradeUsd := 20000 } }

def wideExit : Decision := ⟨.sell, "injective", "INJ", "USDT", 12345.67, 0.9, "exit INJ"⟩

/-- A live executor over a backend that cannot be reached. -/
def unreachableExecutor : Executor :=
  ⟨⟨false, fun _ => .error .osError, fun _ => .error .osError⟩, "live", 50⟩

/-- The engine approves 12345.67 dollars, and the backend is asked for 12345.7. -/
theorem wideExit_sent_over_approval :
    ((PolicyEngine.ofConfig wideConfig).check wideExit ⟨100000, 0, 0.2, 0, 1000000000⟩
        ⟨0, "risk_off"⟩).allowed ∧
      ((PolicyEngine.ofConfig wideConfig).check wideExit ⟨100000, 0, 0.2, 0, 1000000000⟩
        ⟨0, "risk_off"⟩).finalAmountUsd = (1234567 : ℕ) / 100 ∧
      Py.decimal (unreachableExecutor.handed wideExit ((1234567 : ℕ) / 100) "").amount =
        some 12345.7 ∧
      ((1234567 : ℕ) : ℚ) / 100 < 12345.7 := by
  refine ⟨by decide +kernel, by decide +kernel, ?_, by norm_num⟩
  rw [amount_handed]
  decide +kernel

end Executor

end SumplusTrader
