import SumplusTrader.Config
import SumplusTrader.Python.Text
import SumplusTrader.Python.Dict

/-!
# Signals

This file models `agent/strategy/signals.py`: the regime of a token, read from
its momentum and its volatility, and the ranking of the tokens that may be
entered.
-/

namespace SumplusTrader

structure TokenView where
  symbol : String
  price : ℚ
  pct1h : Option ℚ
  pct4h : Option ℚ
  vol24hPct : Option ℚ
  liquidityUsd : ℚ
  spreadBps : ℚ
  ts : ℚ
  extra : Json

inductive RegimeState where
  | riskOn
  | neutral
  | riskOff
deriving DecidableEq

structure Regime where
  symbol : String
  state : RegimeState
  momentumAgree : Bool
  direction : ℤ
  volPct : Option ℚ
  reason : String

/-- The sign of a percentage: `(p > 0) - (p < 0)`. -/
def signOf (p : ℚ) : ℤ := if 0 < p then 1 else if p < 0 then -1 else 0

/-- `view.__dict__`, as it enters the digest of the inputs. -/
def TokenView.toJson (view : TokenView) : Json :=
  let optional : Option ℚ → Json := fun value => (value.map Py.floatJson).getD .null
  .obj [("symbol", .str view.symbol), ("price", Py.floatJson view.price),
    ("pct_1h", optional view.pct1h), ("pct_4h", optional view.pct4h),
    ("vol_24h_pct", optional view.vol24hPct),
    ("liquidity_usd", Py.floatJson view.liquidityUsd),
    ("spread_bps", Py.floatJson view.spreadBps), ("ts", Py.floatJson view.ts),
    ("extra", view.extra)]

def classify (view : TokenView) (volEnterMaxPct : ℚ) : Regime :=
  match view.pct1h, view.pct4h with
  | some p1, some p4 =>
      let s1 := signOf p1
      let s4 := signOf p4
      let agree := s1 = s4 ∧ s1 ≠ 0
      match view.vol24hPct.filter fun vol => volEnterMaxPct ≤ vol with
      | some vol =>
          ⟨view.symbol, .riskOff, agree, if agree then s1 else 0, view.vol24hPct,
            "volatility " ++ Py.fixedText 1 vol ++ "% >= " ++ Py.fixedText 1 volEnterMaxPct ++
              "% ceiling"⟩
      | none =>
          let readings := "(1h " ++ Py.signedText 1 p1 ++ "%, 4h " ++ Py.signedText 1 p4 ++ "%)"
          if ¬agree then
            ⟨view.symbol, .neutral, false, 0, view.vol24hPct, "momentum disagree " ++ readings⟩
          else if 0 < s1 then
            ⟨view.symbol, .riskOn, true, 1, view.vol24hPct,
              "uptrend agrees " ++ readings ++ ", vol ok"⟩
          else
            ⟨view.symbol, .riskOff, true, -1, view.vol24hPct, "downtrend agrees " ++ readings⟩
  | _, _ => ⟨view.symbol, .neutral, false, 0, view.vol24hPct, "missing momentum data"⟩

/-- The momentum of a token less its volatility. -/
def TokenView.score (view : TokenView) : ℚ :=
  |view.pct4h.getD 0| + |view.pct1h.getD 0| - view.vol24hPct.getD 0

/-- The tokens with regime `riskOn`, the highest score first. -/
def rankEntries (views : List TokenView) (volEnterMaxPct : ℚ) : List (TokenView × Regime) :=
  ((views.map fun view => (view, classify view volEnterMaxPct)).filter
    fun scored => scored.2.state = .riskOn).insertionSort
      fun scored other => other.1.score ≤ scored.1.score

/-- The price of each symbol; the last view of a symbol counts. -/
def priceMap (views : List TokenView) : Dict String ℚ :=
  Dict.ofList (views.map fun view => (Py.upper view.symbol, view.price))

theorem mem_rankEntries {views : List TokenView} {volEnterMaxPct : ℚ}
    {entry : TokenView × Regime} (mem : entry ∈ rankEntries views volEnterMaxPct) :
    entry.1 ∈ views ∧ entry.2 = classify entry.1 volEnterMaxPct ∧ entry.2.state = .riskOn := by
  rw [rankEntries, List.mem_insertionSort, List.mem_filter, List.mem_map] at mem
  rcases mem with ⟨⟨view, viewMem, rfl⟩, riskOn⟩
  exact ⟨viewMem, rfl, by simpa using riskOn⟩

end SumplusTrader
