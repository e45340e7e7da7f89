import SumplusTrader.Brain.Ledger
import SumplusTrader.Python.Dict

/-!
# The shared state of loop and chat

This file models `agent/runtime.py` and the part of `agent/portfolio.py` that the loop
uses: the runtime state, which the chat writes and the loop reads, and the record of the
portfolio from which the drawdown is computed. Both are files, and together with the
ledger they make up what the loop finds on disk.
-/

namespace SumplusTrader

structure RuntimeState where
  paused : Bool
  portfolioValueUsd : ℚ
  overrides : Dict String Json

namespace RuntimeState

/-- `_DEFAULT`. -/
def default : RuntimeState where
  paused := false
  portfolioValueUsd := 1000
  overrides := Dict.empty

end RuntimeState

/-- The file of the portfolio, whose default has a high-water mark of `0`. -/
structure PortfolioFile where
  hwm : ℚ
  lastValue : Option ℚ

namespace PortfolioFile

/-- `update_and_drawdown`: the new file and the drawdown in percent. -/
def updateAndDrawdown (file : PortfolioFile) (valueUsd : ℚ) : PortfolioFile × ℚ :=
  let hwm := max file.hwm valueUsd
  (⟨hwm, some valueUsd⟩,
    if hwm ≤ 0 then 0 else max 0 ((hwm - valueUsd) / hwm * 100))

end PortfolioFile

/-- What the loop finds on disk. -/
structure BrainWorld where
  runtime : RuntimeState
  portfolio : PortfolioFile
  ledger : List LedgerEntry

end SumplusTrader
