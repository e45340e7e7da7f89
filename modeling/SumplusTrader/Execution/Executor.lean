import SumplusTrader.Types

/-!
# The executor

This file models `agent/execution/executor.py` over an arbitrary backend. A
backend is outside of this development: it answers a quote and a swap request with
any result, or raises.
-/

namespace SumplusTrader

structure SwapRequest where
  chain : String
  fromToken : String
  toToken : String
  amount : String
  slippageBps : ℤ
  cid : Option String

structure ExecutionBackend where
  acceptsCid : Bool
  getQuote : SwapRequest → Except PyError JsonValue
  executeSwap : SwapRequest → Except PyError ExecutionResult

structure Executor where
  backend : ExecutionBackend
  mode : String
  slippageBps : ℤ

namespace Executor

/-- A fill in this mode is simulated. -/
def simulates (executor : Executor) : Prop := executor.mode = "mock" ∨ executor.mode = "paper"

instance (executor : Executor) : Decidable executor.simulates :=
  inferInstanceAs (Decidable (_ ∨ _))

/-- The detail of a paper fill. -/
def paperDetail (quote : JsonValue) : JsonValue :=
  ⟨.obj [("mode", .str "paper"), ("quote", quote.tree)], by
    simp [Json.DistinctKeys, Json.DistinctKeysFields, quote.distinctKeys]⟩

def execute (executor : Executor) (decision : Decision) (amountUsd : ℚ) (cid : String) :
    Except PyError ExecutionResult :=
  let request : SwapRequest := {
    chain := decision.chain
    fromToken := decision.fromToken
    toToken := decision.toToken
    amount := Py.generalText amountUsd
    slippageBps := executor.slippageBps
    cid := none }
  if executor.mode = "paper" then do
    let quote ← executor.backend.getQuote request
    return ⟨false, true, paperDetail quote, none⟩
  else
    let extra := if cid ≠ "" ∧ executor.backend.acceptsCid then some cid else none
    executor.backend.executeSwap { request with cid := extra }

/-- The request for an order of an amount, with the cid when the backend takes one. -/
def request (executor : Executor) (decision : Decision) (amountUsd : ℚ) (cid : String) :
    SwapRequest where
  chain := decision.chain
  fromToken := decision.fromToken
  toToken := decision.toToken
  amount := Py.generalText amountUsd
  slippageBps := executor.slippageBps
  cid := if cid ≠ "" ∧ executor.backend.acceptsCid then some cid else none

theorem execute_of_not_paper {executor : Executor} (notPaper : executor.mode ≠ "paper")
    (decision : Decision) (amountUsd : ℚ) (cid : String) :
    executor.execute decision amountUsd cid =
      executor.backend.executeSwap (executor.request decision amountUsd cid) := by
  simp only [execute, notPaper, if_false]
  rfl

end Executor

end SumplusTrader
