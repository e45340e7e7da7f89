import SumplusTrader.Python.Numeric
import SumplusTrader.Python.Raise

/-!
# Shared types of the agent

This file models `agent/types.py`: the decision proposed by a strategy or a
brain, the verdict of the local guardrail, and the result of an execution, with
the exceptions the modelled functions can raise.

Floating-point numbers are exact rationals throughout, and a decision is written
to the logs as the object `Decision.toJson`.
-/

namespace SumplusTrader

/-- The exceptions raised by the modelled functions. -/
inductive PyError where
  | keyError (key : String)
  | indexError
  | typeError
  | attributeError
  | zeroDivision
  | jsonDecode
  | osError
  | raised (message : String)
deriving DecidableEq

/-- The message of an exception. -/
def PyError.text : PyError → String
  | .keyError key => "'" ++ key ++ "'"
  | .indexError => "list index out of range"
  | .typeError => "unsupported operand type(s)"
  | .attributeError => "object has no such attribute"
  | .zeroDivision => "division by zero"
  | .jsonDecode => "Expecting value"
  | .osError => "input/output error"
  | .raised message => message

/-- `value[key]`. -/
def index (value : Json) (key : String) : Except PyError Json :=
  match value with
  | .obj fields =>
      match fields.lookup key with
      | none => .error (.keyError key)
      | some found => .ok found
  | _ => .error .typeError

theorem index_eq_ok_iff {record found : Json} {key : String} :
    index record key = .ok found ↔ record.get? key = some found := by
  cases record with
  | obj fields =>
      simp only [index, Json.get?]
      cases fields.lookup key <;> simp
  | _ => simp [index, Json.get?]

inductive Side where
  | buy
  | sell
  | hold
deriving DecidableEq

def Side.text : Side → String
  | .buy => "buy"
  | .sell => "sell"
  | .hold => "hold"

/-- A single trade decision. -/
structure Decision where
  side : Side
  chain : String
  fromToken : String
  toToken : String
  amountUsd : ℚ
  confidence : ℚ
  rationale : String
deriving DecidableEq

/-- `Decision.is_trade`. -/
def Decision.isTrade (decision : Decision) : Prop :=
  (decision.side = .buy ∨ decision.side = .sell) ∧ 0 < decision.amountUsd

instance (decision : Decision) : Decidable decision.isTrade :=
  inferInstanceAs (Decidable (_ ∧ _))

/-- `Decision.to_dict`. -/
def Decision.toJson (decision : Decision) : Json :=
  .obj [("side", .str decision.side.text), ("chain", .str decision.chain),
    ("from_token", .str decision.fromToken), ("to_token", .str decision.toToken),
    ("amount_usd", Py.floatJson decision.amountUsd),
    ("confidence", Py.floatJson decision.confidence), ("rationale", .str decision.rationale)]

theorem Decision.distinctKeys_toJson (decision : Decision) : decision.toJson.DistinctKeys := by
  simp [Decision.toJson, Json.DistinctKeys, Json.DistinctKeysFields, Py.floatJson]

structure GuardrailVerdict where
  allowed : Bool
  reason : String
  clampedAmountUsd : Option ℚ
deriving DecidableEq

/-- The result of handing a decision to the execution layer; `detail` is a
dictionary supplied by the backend. -/
structure ExecutionResult where
  executed : Bool
  dryRun : Bool
  detail : JsonValue
  error : Option String

end SumplusTrader
