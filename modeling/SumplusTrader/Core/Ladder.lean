import SumplusTrader.Core.Booking
import SumplusTrader.Core.TickCases
import SumplusTrader.Policy.EngineSafety
import SumplusTrader.Strategy.Intents

/-!
# The drawdown ladder, end to end

This file follows the rungs `no_new_risk` and `stablecoin_mode` through a whole tick.
When the quote tokens are cash, the strategy proposes nothing but sales and holds on
these rungs, so no buy order reaches the executor, whatever the caps are.

A sale is booked with the amount of the verdict. With caps that are not negative that
amount is not negative either, and no quantity rises above its old value or zero
(`ladder_stops_new_risk`). A negative cap makes the amount negative, and the sale then
adds to the position.
-/

namespace SumplusTrader

/-- A rung on which no new risk is taken. -/
def RestrictedRung (rung : String) : Prop := rung = "no_new_risk" ∨ rung = "stablecoin_mode"

/-- The rung of a state: that of the drawdown the strategy sees. -/
def stateRung (cfg : Config) (state : State) : String :=
  Survival.ladderRung (drawdownPct state.navOrDefault state.highWater) cfg

namespace Survival

variable {views : List TokenView} {portfolio : PortfolioState} {cfg : Config} {nowTs : ℚ}
  {quote chain : String} {intent : Intent}

theorem not_canTakeRisk_of_restricted
    (restricted : RestrictedRung (ladderRung portfolio.drawdownPct cfg)) :
    ¬canTakeRisk cfg portfolio := by
  rintro ⟨permitted, -⟩
  rcases restricted with rung | rung
  · simp [rung] at permitted
  · simp [rung] at permitted

theorem side_ne_buy_of_restricted (decided : Decided views portfolio cfg nowTs quote chain intent)
    (restricted : RestrictedRung (ladderRung portfolio.drawdownPct cfg)) (cash : isCash quote) :
    (intentToDecision intent).side ≠ .buy := by
  cases decided with
  | exit => simp [intentToDecision, intentSide]
  | enter _ permitted => exact absurd permitted (not_canTakeRisk_of_restricted restricted)
  | rebalanceUp _ _ _ permitted => exact absurd permitted (not_canTakeRisk_of_restricted restricted)
  | rebalanceDown => simp [intentToDecision, intentSide, cash]
  | hold => simp [intentToDecision, intentSide, hold]

end Survival

namespace PolicyEngine

theorem sizeCap_nonneg {engine : PolicyEngine} (usd : 0 ≤ engine.risk.maxSingleTradeUsd)
    (pct : 0 ≤ engine.risk.maxSingleTradePct) (portfolio : PortfolioView) (rung : String) :
    0 ≤ engine.sizeCap portfolio rung := by
  have cap : 0 ≤ if 0 < portfolio.navUsd then
      min engine.risk.maxSingleTradeUsd (portfolio.navUsd * engine.risk.maxSingleTradePct)
      else engine.risk.maxSingleTradeUsd := by
    split
    · next nav => exact le_min usd (mul_nonneg nav.le pct)
    · exact usd
  unfold sizeCap
  dsimp only
  split
  · exact div_nonneg cap (by norm_num)
  · exact cap

/-- With caps that are not negative, the amount of a verdict is not negative. -/
theorem finalAmountUsd_nonneg {engine : PolicyEngine} (usd : 0 ≤ engine.risk.maxSingleTradeUsd)
    (pct : 0 ≤ engine.risk.maxSingleTradePct) {decision : Decision} (trade : decision.isTrade)
    (portfolio : PortfolioView) (market : MarketView) :
    0 ≤ (engine.check decision portfolio market).finalAmountUsd := by
  have cap := sizeCap_nonneg usd pct portfolio
  rcases check_cases engine portfolio market trade with
    ⟨reason, rung, verdict⟩ | ⟨-, exceeds, verdict⟩ | ⟨-, -, -, verdict⟩
  · rw [verdict]
    exact le_refl 0
  · rw [verdict, exposureClamp, finalise_finalAmountUsd]
    apply Py.roundTo_nonneg
    exact le_min (mul_nonneg (le_max_left 0 _) exceeds.nav_pos.le) (cap _)
  · rw [verdict, finalise_finalAmountUsd]
    apply Py.roundTo_nonneg
    exact le_min trade.2.le (cap _)

end PolicyEngine

namespace Core

/-- The configuration that a tick enforces, once it is read. -/
def Enforces (world : World) (input : TickInput) (cfg : Config) : Prop :=
  ∃ json, enforcedConfig world.configFile input.cfg = .ok json ∧ Config.ofJson json = some cfg

variable {world : World} {state : State} {input : TickInput} {cfg : Config}

/-- The judgement of a tick comes from a branch of the strategy and is checked under the
enforced configuration. -/
theorem judgement_of_prepare (enforces : Enforces world input cfg) {ph : String} {j : Judgement}
    (prepared : prepare world.configFile state input = .ok (ph, j)) :
    ∃ views dataTs chain quote intent, marketData cfg input = .ok (views, dataTs) ∧
      firstQuote cfg = .ok quote ∧ Survival.Decided views (buildPortfolioState state views input.stateClock) cfg
        (enforcedNow input.nowTs input.clock) quote chain intent ∧
      j = judgement cfg state views dataTs (enforcedNow input.nowTs input.clock)
        input.stateClock intent := by
  rcases enforces with ⟨json, enforced, read⟩
  rcases prepare_eq_ok_iff.1 prepared with
    ⟨json', cfg', views, dataTs, enforced', -, read', market, judged⟩
  rw [enforced, Except.ok.injEq] at enforced'
  subst enforced'
  rw [read, Option.some.injEq] at read'
  subst read'
  rcases judge_eq_ok_iff.1 judged with ⟨chain, quote, intent, -, quoted, decided, rfl⟩
  exact ⟨views, dataTs, chain, quote, intent, market, quoted, Survival.decided_of_decide decided,
    rfl⟩

theorem firstQuote_mem {quote : String} (quoted : firstQuote cfg = .ok quote) :
    quote ∈ cfg.quoteTokens.getD ["USDT"] := by
  unfold firstQuote at quoted
  split at quoted
  · simp at quoted
  · next first rest tokens =>
    rw [Except.ok.injEq] at quoted
    rw [tokens, ← quoted]
    exact List.mem_cons_self

/-- On a restricted rung the strategy proposes no buy. -/
theorem side_ne_buy_of_prepare (enforces : Enforces world input cfg)
    (cash : ∀ quote ∈ cfg.quoteTokens.getD ["USDT"], isCash quote)
    (restricted : RestrictedRung (stateRung cfg state)) {ph : String} {j : Judgement}
    (prepared : prepare world.configFile state input = .ok (ph, j)) :
    j.decision.side ≠ .buy := by
  rcases judgement_of_prepare enforces prepared with
    ⟨views, dataTs, chain, quote, intent, -, quoted, decided, rfl⟩
  exact Survival.side_ne_buy_of_restricted decided restricted (cash quote (firstQuote_mem quoted))

theorem finalAmountUsd_nonneg_of_prepare (enforces : Enforces world input cfg)
    (usd : 0 ≤ cfg.risk.maxSingleTradeUsd) (pct : 0 ≤ cfg.risk.maxSingleTradePct) {ph : String}
    {j : Judgement} (prepared : prepare world.configFile state input = .ok (ph, j))
    (approved : j.approved) : 0 ≤ j.verdict.finalAmountUsd := by
  rcases judgement_of_prepare enforces prepared with
    ⟨views, dataTs, chain, quote, intent, -, -, -, rfl⟩
  exact PolicyEngine.finalAmountUsd_nonneg usd pct approved.2 _ _

/-- An order that a tick sends carries the decision and the amount of its judgement. -/
theorem order_of_tick {decision : Decision} {amount : ℚ} {cid : String}
    (mem : Event.orderSent decision amount cid ∈ (tick world state input).1.events) :
    ∃ ph j, prepare world.configFile state input = .ok (ph, j) ∧ decision = j.decision ∧
      amount = j.verdict.finalAmountUsd := by
  rcases mem_events_of_tick mem with ⟨ph, j, log, receipt, prepared, -, same | permitted⟩
  · cases same
  · rcases permitted with ⟨-, decision, amount, -⟩
    exact ⟨ph, j, prepared, decision, amount⟩

theorem qtyOf_settle_le {j : Judgement} {amount : ℚ} {executed : Bool} (noBuy : j.decision.side ≠ .buy)
    (nonneg : executed = true → 0 ≤ amount) (state : State) (sym : String) :
    (settle state j amount executed).qtyOf sym ≤ max (state.qtyOf sym) 0 := by
  unfold settle
  split
  · next done =>
    have booked : (applyFill state j.decision amount (priceMap j.views) j.nowTs).qtyOf sym ≤
        max (state.qtyOf sym) 0 := by
      unfold applyFill
      split
      · next buys => exact absurd buys noBuy
      · exact qtyOf_applySell_le state _ (nonneg done) _ sym
      · exact le_max_left _ _
    exact booked
  · exact le_max_left _ _

/-- On the rungs `no_new_risk` and `stablecoin_mode` no buy order is sent, and with caps
that are not negative no quantity rises above its old value or zero. -/
theorem ladder_stops_new_risk (world : World) (state : State) (input : TickInput) (cfg : Config)
    (enforces : Enforces world input cfg)
    (cash : ∀ quote ∈ cfg.quoteTokens.getD ["USDT"], isCash quote)
    (restricted : RestrictedRung (stateRung cfg state)) :
    (∀ decision amount cid,
        Event.orderSent decision amount cid ∈ (tick world state input).1.events →
          decision.side ≠ .buy) ∧
      (0 ≤ cfg.risk.maxSingleTradeUsd → 0 ≤ cfg.risk.maxSingleTradePct →
        ∀ result newState, (tick world state input).2 = .ok (result, newState) →
          ∀ sym, newState.qtyOf sym ≤ max (state.qtyOf sym) 0) := by
  constructor
  · intro decision amount cid mem
    rcases order_of_tick mem with ⟨ph, j, prepared, rfl, -⟩
    exact side_ne_buy_of_prepare enforces cash restricted prepared
  · intro usd pct result newState ended sym
    rcases tick_state (Prod.ext rfl ended) with ⟨ph, j, seq, prepared, -, rfl, approved⟩
    apply qtyOf_settle_le (side_ne_buy_of_prepare enforces cash restricted prepared)
    intro done
    exact finalAmountUsd_nonneg_of_prepare enforces usd pct prepared (approved done)

/-- A profile that flattens the book from one percent of drawdown on. -/
def flatteningProfile (cap : ℤ) : Json :=
  let number := fun n : ℤ => Json.num (.int n)
  .obj [("chains", .obj [("injective", .obj [("enabled", .bool true)])]),
    ("universe", .arr [.str "INJ"]), ("quote_tokens", .arr [.str "USDT"]),
    ("allowed_tokens", .arr [.str "USDT", .str "INJ"]),
    ("allowed_pairs", .arr [.obj [("chain", .str "injective"), ("from", .str "INJ"),
      ("to", .str "USDT")]]),
    ("drawdown_ladder", .arr [.obj [("at_pct", number 1), ("action", .str "stablecoin_mode")]]),
    ("risk", .obj [("max_single_trade_usd", number cap), ("max_trades_per_hour", number 4),
      ("min_trade_interval_seconds", number 900), ("stop_loss_pct", number 2),
      ("take_profit_pct", number 4), ("max_hold_hours", number 48)])]

/-- A book at half of its high-water mark. -/
def drawnDownState (positions : Dict String HeldPosition) : State where
  positions := positions
  nav := some 100
  portfolioValueUsd := none
  highWaterMark := some 200
  stableUsd := some 80
  lastTradeTs := 0
  tradesThisWeek := 0
  tradesLastHour := 0
  intentSeq := 0
  pendingIntent := none

/-- A long position. -/
def longBook : Dict String HeldPosition := ⟨[("INJ", ⟨1, 20, 0⟩)], by decide⟩

/-- A short position beside a long one of the same token in lower case. -/
def shortBook : Dict String HeldPosition := ⟨[("INJ", ⟨-1, 20, 0⟩), ("inj", ⟨5, 20, 0⟩)], by decide⟩

def flatteningInput (cap : ℤ) : TickInput where
  executor := none
  cfg := some (flatteningProfile cap)
  nowTs := some 1
  market := some ([⟨"INJ", 20, none, none, none, 0, 0, 1, .obj []⟩], 1)
  fetch := fun _ => .error .osError
  persist := none
  clock := 1
  stateClock := 1
  execLogFails := false

/-- A world with an empty configuration file and no log. -/
def bareWorld : World := ⟨some "\x7b\x7d", [], [], [], none⟩

/-- The profile is enforced, and the book is on a restricted rung. -/
theorem flatteningProfile_restricted (cap : ℤ) (positions : Dict String HeldPosition) :
    ∃ cfg, Enforces bareWorld (flatteningInput cap) cfg ∧ cfg.quoteTokens = some ["USDT"] ∧
      RestrictedRung (stateRung cfg (drawnDownState positions)) ∧
      cfg.risk.maxSingleTradeUsd = cap ∧ cfg.risk.maxSingleTradePct = 0.03 := by
  have read : (Config.ofJson (flatteningProfile cap)).isSome := rfl
  rcases Option.isSome_iff_exists.1 read with ⟨cfg, found⟩
  have values : (Config.ofJson (flatteningProfile cap)).map (fun cfg =>
      (cfg.quoteTokens, cfg.drawdownLadder, cfg.risk.maxSingleTradeUsd,
        cfg.risk.maxSingleTradePct)) =
      some (some ["USDT"], [⟨((1 : ℤ) : ℚ), "stablecoin_mode"⟩], (cap : ℚ), 0.03) := rfl
  rw [found, Option.map_some, Option.some.injEq] at values
  simp only [Prod.mk.injEq] at values
  rcases values with ⟨quotes, ladder, usd, pct⟩
  refine ⟨cfg, ⟨flatteningProfile cap, rfl, found⟩, quotes, .inr ?_, usd, pct⟩
  have rung : reachedRung (sortedLadder [⟨((1 : ℤ) : ℚ), "stablecoin_mode"⟩])
      (drawdownPct 100 200) = "stablecoin_mode" := by decide +kernel
  rw [stateRung, Survival.ladderRung, ladder]
  exact rung

/-- The quantity of the token after a tick. -/
def qtyAfter (cap : ℤ) (positions : Dict String HeldPosition) : Option ℚ :=
  (tick bareWorld (drawnDownState positions) (flatteningInput cap)).2.toOption.map fun ended =>
    ended.2.qtyOf "INJ"

theorem ladder_stops_new_risk_longBook :
    (∀ decision amount cid, Event.orderSent decision amount cid ∈
        (tick bareWorld (drawnDownState longBook) (flatteningInput 5)).1.events →
          decision.side ≠ .buy) ∧
      ∀ result newState, (tick bareWorld (drawnDownState longBook) (flatteningInput 5)).2 =
        .ok (result, newState) →
          ∀ sym, newState.qtyOf sym ≤ max ((drawnDownState longBook).qtyOf sym) 0 := by
  rcases flatteningProfile_restricted 5 longBook with
    ⟨cfg, enforces, quotes, restricted, usd, pct⟩
  have cash : ∀ quote ∈ cfg.quoteTokens.getD ["USDT"], isCash quote := by
    simp [quotes, isCash]
  have stops := ladder_stops_new_risk bareWorld (drawnDownState longBook) (flatteningInput 5) cfg
    enforces cash restricted
  exact ⟨stops.1, stops.2 (by norm_num [usd]) (by norm_num [pct])⟩

/-- A negative cap makes a sale add to the position, and the sale of a long position
closes a short one of the same token. -/
theorem restricted_rung_grows_position :
    (∃ cfg, Enforces bareWorld (flatteningInput (-5)) cfg ∧ cfg.quoteTokens = some ["USDT"] ∧
        RestrictedRung (stateRung cfg (drawnDownState longBook))) ∧
      (drawnDownState longBook).qtyOf "INJ" = 1 ∧ qtyAfter (-5) longBook = some (5 / 4) ∧
      (∃ cfg, Enforces bareWorld (flatteningInput 5) cfg ∧ cfg.quoteTokens = some ["USDT"] ∧
        RestrictedRung (stateRung cfg (drawnDownState shortBook))) ∧
      (drawnDownState shortBook).qtyOf "INJ" = -1 ∧ qtyAfter 5 shortBook = some 0 := by
  have profile : ∀ cap positions, ∃ cfg, Enforces bareWorld (flatteningInput cap) cfg ∧
      cfg.quoteTokens = some ["USDT"] ∧
      RestrictedRung (stateRung cfg (drawnDownState positions)) := by
    intro cap positions
    rcases flatteningProfile_restricted cap positions with ⟨cfg, enforces, quotes, rung, -⟩
    exact ⟨cfg, enforces, quotes, rung⟩
  refine ⟨profile _ _, ?_, ?_, profile _ _, ?_, ?_⟩
  · decide +kernel
  · decide +kernel
  · decide +kernel
  · decide +kernel

end Core

end SumplusTrader
