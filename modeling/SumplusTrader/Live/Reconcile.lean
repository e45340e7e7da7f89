import Mathlib.Data.List.Dedup
import SumplusTrader.Core.Portfolio
import SumplusTrader.Execution.Factory

/-!
# Reconciling with the chain

This file models the two functions of `agent/run_live.py` that overwrite the positions and the
cash of the agent with the balances on a chain, and the reader of `agent/ops/onchain.py` that one
of them uses. They differ in where the balances come from and in the quote tokens they assume.
-/

namespace SumplusTrader

/-- `BSC_TOKENS`; all of them have 18 decimals. -/
def bscTokens : List (String × String) :=
  [("USDT", "0x55d398326f99059fF775485246999027B3197955"),
    ("USDC", "0x8AC76a51cc950d9822D68b83fE1Ad97B32Cd580d"),
    ("WBNB", "0xbb4CdB9CBd36B01bD1cBaEBF2De08d9173bc095c"),
    ("BTCB", "0x7130d2A12B9BCbFAe4f2634d864A1Ee1Ce3Ead9c"),
    ("ETH", "0x2170Ed0880ac9A755fd29B2688956BD959F933F8"),
    ("CAKE", "0x0E09FaBB73Bd3Ade0a17ECC321fD13a19e81cE82")]

/-- `read_token_balances`; `balanceOf` is the answer of the pool for a token and a wallet. -/
def readTokenBalances (balanceOf : String → String → Except PyError ℤ) (wallet : String)
    (symbols : List String) : Except PyError (Dict String ℚ) :=
  symbols.foldlM (fun out sym =>
    match bscTokens.lookup (Py.upper sym) with
    | none => return out
    | some addr => do
        let raw ← balanceOf addr wallet
        return out.set (Py.upper sym) (raw / 10 ^ 18)) Dict.empty

namespace Live

/-- `DUST_USD`. -/
def dustUsd : ℚ := 1

/-- `price.get(sym) or fallback`. -/
def priceOr (fallback : ℚ) (price : Dict String ℚ) (sym : String) : ℚ :=
  let px := (price.get? sym).getD 0
  if px = 0 then fallback else px

/-- The position of a balance, which keeps the entry of an old one. -/
def syncedPosition (old : Dict String HeldPosition) (price : Dict String ℚ) (wall : ℚ)
    (sym : String) (qty : ℚ) : HeldPosition :=
  match old.get? sym with
  | some pos => { pos with qty := qty }
  | none => ⟨qty, priceOr 0 price sym, wall⟩

/-- The state with its positions and cash overwritten by balances. -/
def synced (state : State) (stables : List String) (price : Dict String ℚ) (wall : ℚ)
    (balances : Dict String ℚ) : State :=
  let risky := balances.entries.filter fun entry =>
    entry.1 ∉ stables ∧ dustUsd ≤ entry.2 * priceOr 0 price entry.1
  { state with
    positions := Dict.ofList (risky.map fun entry =>
      (entry.1, syncedPosition state.positions price wall entry.1 entry.2))
    stableUsd := some ((stables.map fun sym =>
      (balances.get? sym).getD 0 * priceOr 1 price sym).sum) }

/-- The state after a read of the balances, unless it has raised. -/
def syncState (state : State) (quotes : Option (List String)) (defaultQuotes : List String)
    (price : Dict String ℚ) (wall : ℚ) (read : Except PyError (Dict String ℚ)) : Option State :=
  match read with
  | .error _ => none
  | .ok balances =>
      some (synced state ((quotes.getD defaultQuotes).map Py.upper).dedup price wall balances)

/-- The symbols whose balances are read. -/
def syncSymbols (universeTokens : List String) (quotes : Option (List String)) : List String :=
  universeTokens ++ quotes.getD []

/-- `sync_state_from_injective`. -/
def syncStateFromInjective (state : State) (backend : InjectiveBackend) (env : Environ)
    (chain : InjectiveChain) (price : Dict String ℚ) (universeTokens : List String)
    (quotes : Option (List String)) (wall : ℚ) : Option State :=
  syncState state quotes ["USDT"] price wall
    (backend.readSubaccountBalances env chain (syncSymbols universeTokens quotes))

/-- `sync_state_from_chain`. -/
def syncStateFromChain (state : State) (balanceOf : String → String → Except PyError ℤ)
    (wallet : String) (price : Dict String ℚ) (universeTokens : List String)
    (quotes : Option (List String)) (wall : ℚ) : Option State :=
  syncState state quotes ["USDT", "USDC"] price wall
    (readTokenBalances balanceOf wallet (syncSymbols universeTokens quotes))

/-- A read leaves the intents of a state alone. -/
theorem intents_syncState {state next : State} {quotes : Option (List String)}
    {defaultQuotes : List String} {price : Dict String ℚ} {wall : ℚ}
    {read : Except PyError (Dict String ℚ)}
    (done : syncState state quotes defaultQuotes price wall read = some next) :
    next.pendingIntent = state.pendingIntent ∧ next.intentSeq = state.intentSeq := by
  unfold syncState at done
  split at done
  · simp at done
  · rw [Option.some.injEq] at done
    subst done
    exact ⟨rfl, rfl⟩

end Live

end SumplusTrader
