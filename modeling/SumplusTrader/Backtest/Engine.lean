import SumplusTrader.Backtest.Champion
import SumplusTrader.Backtest.Invariants

/-!
# The engine of the backtest

This file models `_execute` and `_run_strategy` of `backtest/run.py`. In every hour
the strategy is asked up to four times and each intent is executed at the prices of
the hour; the hour ends with a mark. The strategy may change the portfolio when it
is asked, as the champion does.

The portfolio of every hour has the invariants of `Sound`.
-/

namespace SumplusTrader

namespace Backtest

def initialNav : ℚ := 10000

/-- `MAX_TRADES_PER_HOUR`. -/
def maxTradesPerHour : ℕ := 4

/-- Applies an intent; whether a trade was executed is returned. -/
def execute (intent : Intent) (p : Portfolio) (prices : Dict String ℚ) (hour : ℤ) :
    Except PyError (Portfolio × Bool) :=
  match intent.action with
  | .buy =>
      match prices.get? intent.asset with
      | none => .error (.keyError intent.asset)
      | some price =>
          (p.buy intent.asset intent.size price hour .default).map fun bought =>
            (bought.1, 0 < bought.2)
  | .sell =>
      match prices.get? intent.asset with
      | none => .error (.keyError intent.asset)
      | some price =>
          let sold := p.sell intent.asset intent.size price .default
          .ok (sold.1, 0 < sold.2)
  | .flatten =>
      let flattened := p.flatten prices .default
      flattened.2.map fun fills => (flattened.1, 0 < fills)
  | .hold => .ok (p, false)

/-- A strategy, with what it changes of the portfolio when it is asked. -/
abbrev DecideFn := MarketState → Portfolio → Except PyError (Portfolio × Intent)

/-- A line of the ledger. -/
structure LedgerLine where
  hour : ℕ
  drawdown : ℚ
  intent : Intent

namespace LedgerLine

def padLeft (width : ℕ) (text : String) : List Char :=
  List.replicate (width - text.toList.length) ' ' ++ text.toList

def padRight (width : ℕ) (text : String) : List Char :=
  text.toList ++ List.replicate (width - text.toList.length) ' '

def text (line : LedgerLine) : String :=
  String.ofList ("h=".toList ++ Py.paddedText 4 line.hour ++ " dd=".toList ++
    padLeft 4 (Py.fixedText 2 line.drawdown) ++ "% ".toList ++
    padRight 7 line.intent.action.text ++ ' ' :: padRight 5 line.intent.asset ++
    ' ' :: padLeft 8 (Py.fixedText 2 line.intent.size) ++ " | ".toList ++
    line.intent.reason.toList)

end LedgerLine

/-- Asks and executes until the strategy holds, an intent is not executed, or the
trades of the hour are used up. -/
def rounds (decideFn : DecideFn) (market : MarketState) (hour : ℕ) :
    ℕ → Portfolio → List LedgerLine → Except PyError (Portfolio × List LedgerLine)
  | 0, p, ledger => .ok (p, ledger)
  | left + 1, p, ledger => do
      let (asked, intent) ← decideFn market p
      if intent.action = .hold then
        return (asked, ledger)
      let (next, executed) ← execute intent asked market.prices hour
      if executed then
        rounds decideFn market hour left next (ledger ++ [⟨hour, p.currentDrawdown, intent⟩])
      else return (next, ledger)

/-- The prices of an hour, and the history up to it. -/
def marketAt (pricesPerAsset : Dict String (List ℚ)) (hour : ℕ) : Except PyError MarketState := do
  let prices ← pricesPerAsset.entries.mapM fun entry =>
    match entry.2[hour]? with
    | none => .error .indexError
    | some price => .ok (entry.1, price)
  return {
    t := hour
    prices := Dict.ofList prices
    history := Dict.ofList (pricesPerAsset.entries.map fun entry =>
      (entry.1, entry.2.take (hour + 1))) }

/-- One hour: the rounds and the mark. -/
def runHour (decideFn : DecideFn) (pricesPerAsset : Dict String (List ℚ))
    (state : Portfolio × List LedgerLine) (hour : ℕ) :
    Except PyError (Portfolio × List LedgerLine) := do
  let market ← marketAt pricesPerAsset hour
  let (p, ledger) ← rounds decideFn market hour maxTradesPerHour state.1 state.2
  return ((p.mark market.prices).1, ledger)

def runStrategy (decideFn : DecideFn) (pricesPerAsset : Dict String (List ℚ)) (hours : List ℕ) :
    Except PyError (Portfolio × List LedgerLine) :=
  hours.foldlM (runHour decideFn pricesPerAsset) (newPortfolio initialNav, [])

theorem sound_execute {intent : Intent} {p next : Portfolio} {prices : Dict String ℚ} {hour : ℤ}
    {executed : Bool} (sound : Sound p)
    (applied : execute intent p prices hour = .ok (next, executed)) : Sound next := by
  unfold execute at applied
  split at applied
  · split at applied
    · cases applied
    · rename_i price _
      cases bought : p.buy intent.asset intent.size price hour .default with
      | error e =>
          rw [bought] at applied
          cases applied
      | ok filled =>
          rw [bought] at applied
          cases applied
          exact sound_buy sound fair_default bought
  · split at applied
    · cases applied
    · cases applied
      exact sound_sell sound fair_default _ _ _
  · dsimp only at applied
    cases flattened : (p.flatten prices .default).2 with
    | error e =>
        rw [flattened] at applied
        cases applied
    | ok fills =>
        rw [flattened] at applied
        cases applied
        exact sound_sellAll sound fair_default prices 0 p.positions.keys
  · cases applied
    exact sound

/-- A strategy that keeps a portfolio sound when it is asked. -/
def KeepsSound (decideFn : DecideFn) : Prop :=
  ∀ market p asked intent, Sound p → decideFn market p = .ok (asked, intent) → Sound asked

theorem sound_rounds {decideFn : DecideFn} (keeps : KeepsSound decideFn) {market : MarketState}
    {hour left : ℕ} {p last : Portfolio} {ledger ledger' : List LedgerLine} (sound : Sound p)
    (ran : rounds decideFn market hour left p ledger = .ok (last, ledger')) : Sound last := by
  induction left generalizing p ledger with
  | zero =>
      cases ran
      exact sound
  | succ left ih =>
      rw [rounds] at ran
      rcases bind_eq_ok_iff.1 ran with ⟨⟨asked, intent⟩, decided, ran⟩
      have soundAsked := keeps market p asked intent sound decided
      dsimp only at ran
      split at ran
      · cases ran
        exact soundAsked
      · rcases bind_eq_ok_iff.1 ran with ⟨⟨next, executed⟩, applied, ran⟩
        have soundNext := sound_execute soundAsked applied
        dsimp only at ran
        split at ran
        · exact ih soundNext ran
        · cases ran
          exact soundNext

theorem sound_runHour {decideFn : DecideFn} (keeps : KeepsSound decideFn)
    {pricesPerAsset : Dict String (List ℚ)} {state last : Portfolio × List LedgerLine} {hour : ℕ}
    (sound : Sound state.1) (ran : runHour decideFn pricesPerAsset state hour = .ok last) :
    Sound last.1 := by
  rw [runHour] at ran
  rcases bind_eq_ok_iff.1 ran with ⟨market, -, ran⟩
  rcases bind_eq_ok_iff.1 ran with ⟨⟨p, ledger⟩, rounded, ran⟩
  cases ran
  have soundRounds := sound_rounds keeps sound rounded
  exact ⟨soundRounds.cash, soundRounds.positive, soundRounds.entryPrice, soundRounds.entryHour⟩

/-- Every portfolio that a backtest reaches is sound. -/
theorem sound_runStrategy {decideFn : DecideFn} (keeps : KeepsSound decideFn)
    {pricesPerAsset : Dict String (List ℚ)} {hours : List ℕ}
    {last : Portfolio × List LedgerLine}
    (ran : runStrategy decideFn pricesPerAsset hours = .ok last) : Sound last.1 := by
  apply foldlM_invariant (fun state : Portfolio × List LedgerLine => Sound state.1) _ _ ran
  · intro state hour next sound stepped
    exact sound_runHour keeps sound stepped
  · exact sound_newPortfolio (by norm_num [initialNav])

end Backtest

end SumplusTrader
