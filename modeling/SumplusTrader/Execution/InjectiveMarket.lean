import SumplusTrader.Execution.Environ
import Mathlib.Data.Nat.Digits.Defs

/-!
# The spot markets of Injective

This file models `agent/ops/injective_market.py`: the registry of tokens and markets with
its overrides in the environment, the two number formats of the exchange, the snapping of
prices and quantities to the ticks of a market, and the classification of a swap as a buy or
a sell.

The indexer is outside of this development: it answers a request with any tick sizes or
raises, and the ticks that are already cached are an input.

An order rounds its quantity down twice, to the quantity tick and to a whole number of
units. `snapped_quantity_le_iff` says when the result still exceeds a given quantity.
-/

namespace SumplusTrader

namespace InjectiveMarket

section Registry

variable (env : Environ)

def chainId : Except PyError ℤ := env.int "INJ_CHAIN_ID" "1776"

def minNotionalUsd : Except PyError ℚ := env.float "INJ_MIN_NOTIONAL_USD" "1.0"

/-- The denomination and the decimals of each symbol. -/
def injTokens : List (String × String × ℕ) :=
  [("INJ", env.text "INJ_DENOM_INJ" "inj", 18),
    ("USDT", env.text "INJ_DENOM_USDT" "peggy0xdAC17F958D2ee523a2206206994597C13D831ec7", 6)]

def riskySymbols : List String := ["INJ"]

def quoteSymbols : List String := ["USDT"]

def spotMarkets : List (String × String) :=
  [("INJ/USDT", env.text "INJ_SPOT_MARKET_INJ_USDT"
    "0xa508cb32923323679f29a032c70342c147c17d0145625922b0ef22e955c844c0")]

def token (symbol : String) : Except PyError (String × ℕ) :=
  match (injTokens env).lookup (Py.upper symbol) with
  | some found => .ok found
  | none => .error (.keyError ("unknown Injective token symbol: '" ++ symbol ++ "'"))

def marketId (base quote : String) : Except PyError String :=
  let pair := Py.upper base ++ "/" ++ Py.upper quote
  let mid := ((spotMarkets env).lookup pair).getD ""
  if mid = "" then
    .error (.keyError ("no spot market id for " ++ pair ++ "; set INJ_SPOT_MARKET_" ++
      Py.upper base ++ "_" ++ Py.upper quote ++
      " (find it via `injectived q exchange spot-markets`)"))
  else .ok mid

end Registry

/-- The text without the marks of hexadecimal numbers. -/
def removeMarks : List Char → List Char
  | '0' :: 'x' :: cs => removeMarks cs
  | c :: cs => c :: removeMarks cs
  | [] => []

/-- The subaccount of a contract: its address and an index of 24 hexadecimal digits. -/
def subaccountId (contractAddress : String) (index : ℤ) : Except PyError String :=
  let addr := removeMarks (Py.lower contractAddress).toList
  if addr.length ≠ 40 then
    .error (.raised ("bad contract address: '" ++ contractAddress ++ "'"))
  else
    let sign := if index < 0 then ['-'] else []
    let digits := (Nat.digits 16 index.natAbs).reverse.map ("0123456789abcdef".toList.getD · '0')
    let zeros := List.replicate (24 - (sign.length + digits.length)) '0'
    .ok (String.ofList ('0' :: 'x' :: (addr ++ (sign ++ (zeros ++ digits)))))

/-- The integer part: `int(value)`. -/
def truncate (value : ℚ) : ℤ := if value < 0 then ⌈value⌉ else ⌊value⌋

def toUfixed (value : ℚ) : ℤ := truncate (value * 10 ^ 18)

def fromUfixed (raw : ℤ) : ℚ := raw / 10 ^ 18

def fromChainAmount (raw : ℤ) (decimals : ℕ) : ℚ := raw / 10 ^ decimals

inductive SnapMode where
  | down
  | up
deriving DecidableEq

def snapToTick (value tick : ℚ) (mode : SnapMode) : ℚ :=
  if tick ≤ 0 then value
  else
    match mode with
    | .down => ⌊value / tick⌋ * tick
    | .up => ⌈value / tick⌉ * tick

/-- The answers about tick sizes: the cached ticks of each pair, and the sizes that the
indexer reports for a market, by the version of its interface. -/
structure TickSource where
  cache : String → Option (ℚ × ℚ)
  fetch : String → String → Except PyError (String × String)

/-- The sizes of one answer in human units. -/
def ticksOfAnswer (baseDec quoteDec : ℕ) (answer : String × String) : Except PyError (ℚ × ℚ) := do
  let priceTick ← decimalOfText answer.1
  let qtyTick ← decimalOfText answer.2
  return (priceTick * (10 : ℚ) ^ ((baseDec : ℤ) - quoteDec), qtyTick / 10 ^ baseDec)

/-- The price tick and the quantity tick of a market. -/
def marketTicks (env : Environ) (source : TickSource) (base quote : String) :
    Except PyError (ℚ × ℚ) :=
  let suffix := Py.upper base ++ "_" ++ Py.upper quote
  let set : Option String → Bool := fun value => value.any fun text => text ≠ ""
  let envP := env ("INJ_PRICE_TICK_" ++ suffix)
  let envQ := env ("INJ_QTY_TICK_" ++ suffix)
  let number : Option String → Except PyError ℚ := fun value =>
    decimalOfText (if set value then value.getD "0" else "0")
  let overridden : Except PyError (ℚ × ℚ) := do
    return (← number envP, ← number envQ)
  let pair := Py.upper base ++ "/" ++ Py.upper quote
  if set envP ∧ set envQ then overridden
  else
    match source.cache pair with
    | some ticks => .ok ticks
    | none => do
        let (_, baseDec) ← token env base
        let (_, quoteDec) ← token env quote
        let mid ← marketId env base quote
        let answer := fun version => do
          ticksOfAnswer baseDec quoteDec (← source.fetch version mid)
        match answer "v2" with
        | .ok ticks => return ticks
        | .error _ =>
            match answer "v1" with
            | .ok ticks => return ticks
            | .error e =>
                if set envP ∨ set envQ then overridden
                else .error (.keyError ("could not resolve tick sizes for " ++ pair ++ ": " ++
                  e.text))

/-- A spot order that stands for a swap. -/
structure SwapPlan where
  side : Side
  base : String
  quote : String
  orderType : String

def classifySwap (fromToken toToken : String) : Except PyError SwapPlan :=
  let f := Py.upper fromToken
  let t := Py.upper toToken
  if f ∈ quoteSymbols ∧ t ∈ riskySymbols then .ok ⟨.buy, t, f, "buy"⟩
  else if f ∈ riskySymbols ∧ t ∈ quoteSymbols then .ok ⟨.sell, f, t, "sell"⟩
  else
    .error (.raised ("unsupported Injective pair " ++ fromToken ++ "->" ++ toToken ++
      "; one leg must be quote ['USDT'], the other risky ['INJ']"))

section Grid

variable {tick value held : ℚ}

/-- The least quantity above another one that the exchange can represent. -/
def nextUfixed (held : ℚ) : ℚ := (⌊held * 10 ^ 18⌋ + 1) / 10 ^ 18

/-- The least multiple of the tick that reaches a quantity above another one. -/
def nextQuantity (tick held : ℚ) : ℚ :=
  if tick ≤ 0 then nextUfixed held else ⌈nextUfixed held / tick⌉ * tick

/-- A quantity in the format of the exchange stays within another one. -/
theorem fromUfixed_toUfixed_le_iff (nonneg : 0 ≤ held) :
    fromUfixed (toUfixed value) ≤ held ↔ value < nextUfixed held := by
  have scale : (0 : ℚ) < 10 ^ 18 := by norm_num
  rw [fromUfixed, div_le_iff₀ scale, nextUfixed, lt_div_iff₀ scale, toUfixed, truncate]
  split
  · next negative =>
    have small : ⌈value * 10 ^ 18⌉ ≤ 0 := Int.ceil_le.2 (by simpa using negative.le)
    have floor : 0 ≤ ⌊held * 10 ^ 18⌋ := Int.floor_nonneg.2 (by positivity)
    constructor
    · intro _
      refine negative.trans ?_
      exact_mod_cast Int.lt_add_one_of_le floor
    · intro _
      refine le_trans ?_ (mul_nonneg nonneg scale.le)
      exact_mod_cast small
  · rw [← Int.le_floor, ← Int.lt_add_one_iff, Int.floor_lt]
    push_cast
    exact Iff.rfl

/-- A quantity that is snapped down to the tick and brought into the format of the exchange
stays within another one exactly when it is below the next quantity of both grids. -/
theorem snapped_quantity_le_iff (nonneg : 0 ≤ held) :
    fromUfixed (toUfixed (snapToTick value tick .down)) ≤ held ↔
      value < nextQuantity tick held := by
  rw [fromUfixed_toUfixed_le_iff nonneg, snapToTick, nextQuantity]
  split
  · exact Iff.rfl
  · next positive =>
    rw [not_le] at positive
    rw [← lt_div_iff₀ positive, ← Int.lt_ceil, Int.floor_lt, div_lt_iff₀ positive]

end Grid

end InjectiveMarket

end SumplusTrader
