import SumplusTrader.Core.Ladder

/-!
# The exposure cap over a tick

This file bounds the marked value of the book after a tick that books a buy. The
strategy and the policy engine keep a buy within the exposure room, up to half a cent
of rounding, and booking it adds exactly what was paid.

Three inputs escape. The portfolio values a position with a quote of zero at nothing,
while marking values it at its entry price. A downward rebalance into a quote token
other than USDT and USDC becomes a buy that the engine does not see as one. And an
upward rebalance into a token that is also a quote token is not constrained either.
`booked_buy_within_cap` holds on all other inputs, and on all inputs with a due exit.
-/

namespace SumplusTrader

/-- What marking adds for positions whose quote is zero. -/
def unquotedUsd (state : State) (price : Dict String ℚ) : ℚ :=
  state.positions.total fun sym pos =>
    if price.get? (Py.upper sym) = some 0 then pos.qty * pos.entryPrice else 0

theorem Dict.total_add {κ β M : Type} [DecidableEq κ] [AddCommGroup M] (f g : κ → β → M)
    (d : Dict κ β) : d.total (fun key value => f key value + g key value) = d.total f + d.total g :=
  List.sum_map_add

/-- Marking values the book as the portfolio does, plus the unquoted positions. -/
theorem markedUsd_eq (state : State) (price : Dict String ℚ) :
    markedUsd state price = riskyUsd state price + unquotedUsd state price := by
  rw [markedUsd, riskyUsd, unquotedUsd, ← Dict.total_add]
  congr 1
  funext sym pos
  unfold markPrice
  cases quote : price.get? (Py.upper sym) with
  | none => simp
  | some px =>
      by_cases zero : px = 0
      · simp [zero]
      · simp [zero]

namespace Survival

variable {views : List TokenView} {portfolio : PortfolioState} {cfg : Config} {nowTs : ℚ}
  {quote chain : String} {intent : Intent}

/-- Some ranked token that is not held sizes to a dollar, and risk may be taken. -/
def EntryQualifies (views : List TokenView) (portfolio : PortfolioState) (cfg : Config) : Prop :=
  canTakeRisk cfg portfolio ∧
    ∃ entry ∈ rankEntries (entryViews views cfg) cfg.volEnterMaxPct,
      portfolio.positions.get? (Py.upper entry.1.symbol) = none ∧
        ∃ size, volScaledSize portfolio.navUsd entry.1.vol24hPct cfg
          (ladderRung portfolio.drawdownPct cfg = "halve_size") = .ok size ∧
          1 ≤ min size (room cfg portfolio * portfolio.navUsd)

theorem unqualified_of_firstEntry {ranked : List (TokenView × Regime)}
    (none : firstEntry cfg portfolio quote chain ranked = .ok none) {entry : TokenView × Regime}
    (mem : entry ∈ ranked) (unheld : portfolio.positions.get? (Py.upper entry.1.symbol) = Option.none)
    {size : ℚ} (sized : volScaledSize portfolio.navUsd entry.1.vol24hPct cfg
      (ladderRung portfolio.drawdownPct cfg = "halve_size") = .ok size) :
    ¬1 ≤ min size (room cfg portfolio * portfolio.navUsd) := by
  induction ranked with
  | nil => simp at mem
  | cons first ranked ih =>
      simp only [firstEntry] at none
      split_ifs at none with held
      · rcases List.mem_cons.1 mem with rfl | later
        · simp [unheld] at held
        · exact ih none later
      · rcases firstSized : volScaledSize portfolio.navUsd first.1.vol24hPct cfg
          (ladderRung portfolio.drawdownPct cfg = "halve_size") with e | firstSize
        · simp [firstSized, bind, Except.bind] at none
        · simp only [firstSized, bind, Except.bind] at none
          split_ifs at none with large
          · simp [pure, Except.pure] at none
          · rcases List.mem_cons.1 mem with rfl | later
            · rw [firstSized, Except.ok.injEq] at sized
              rwa [← sized]
            · exact ih none later

/-- No exit is due and no entry qualifies, so the strategy comes to rebalance. -/
def ReachesRebalance (views : List TokenView) (portfolio : PortfolioState) (cfg : Config)
    (nowTs : ℚ) : Prop :=
  firstDue cfg (priceMap views) portfolio nowTs = none ∧ ¬EntryQualifies views portfolio cfg ∧
    canRebalance cfg portfolio

/-- The book is below the band, and risk may be taken. -/
def BelowBand (portfolio : PortfolioState) (cfg : Config) : Prop :=
  portfolio.riskyExposurePct < cfg.minTrades.targetRiskyRatio - cfg.minTrades.rebalanceBand ∧
    canTakeRisk cfg portfolio

/-- A rebalance down that counts as a buy, because the quote token is not cash. -/
def DownIntoToken (views : List TokenView) (portfolio : PortfolioState) (cfg : Config)
    (nowTs : ℚ) (quote : String) : Prop :=
  ReachesRebalance views portfolio cfg nowTs ∧ ¬BelowBand portfolio cfg ∧
    cfg.minTrades.targetRiskyRatio + cfg.minTrades.rebalanceBand < portfolio.riskyExposurePct ∧
    portfolio.positions.entries ≠ [] ∧ ¬isCash quote

/-- A rebalance up that buys a token which is also a quote token. -/
def UpIntoQuote (views : List TokenView) (portfolio : PortfolioState) (cfg : Config)
    (nowTs : ℚ) : Prop :=
  ReachesRebalance views portfolio cfg nowTs ∧ BelowBand portfolio cfg ∧
    ∃ tok, rebalanceToken views cfg portfolio = some tok ∧ ¬isCash tok ∧
      (PolicyEngine.ofConfig cfg).isStable tok

theorem firstDue_eq_none_of_noExit
    (noExit : firstExit cfg (priceMap views) portfolio nowTs quote chain = none) :
    firstDue cfg (priceMap views) portfolio nowTs = none := by
  rcases due : firstDue cfg (priceMap views) portfolio nowTs with _ | entry
  · rfl
  · rcases firstExit_of_firstDue quote chain due with ⟨reason, found⟩
    simp [noExit] at found

theorem reachesRebalance
    (noExit : firstExit cfg (priceMap views) portfolio nowTs quote chain = none)
    (noEntry : canTakeRisk cfg portfolio → firstEntry cfg portfolio quote chain
      (rankEntries (entryViews views cfg) cfg.volEnterMaxPct) = .ok none)
    (ready : canRebalance cfg portfolio) : ReachesRebalance views portfolio cfg nowTs := by
  refine ⟨firstDue_eq_none_of_noExit noExit, ?_, ready⟩
  rintro ⟨permitted, entry, mem, unheld, size, sized, large⟩
  exact unqualified_of_firstEntry (noEntry permitted) mem unheld sized large

theorem entries_ne_nil_of_largestHolding {price : Dict String ℚ} {sym : String}
    (largest : largestHolding price portfolio = some sym) : portfolio.positions.entries ≠ [] := by
  intro empty
  simp [largestHolding, empty] at largest

/-- A proposed buy is bounded by the room of the strategy, or it is a purchase of a token
for a quote token, unless it comes from one of the two odd rebalances. -/
theorem buy_cases (decided : Decided views portfolio cfg nowTs quote chain intent)
    (buys : (intentToDecision intent).side = .buy) :
    firstDue cfg (priceMap views) portfolio nowTs = none ∧
      (Py.roundTo 2 intent.amountUsd ≤ room cfg portfolio * portfolio.navUsd + 1 / 200 ∨
        (intent.fromToken = quote ∧ ¬(PolicyEngine.ofConfig cfg).isStable intent.toToken) ∨
        DownIntoToken views portfolio cfg nowTs quote ∨ UpIntoQuote views portfolio cfg nowTs) := by
  cases decided with
  | exit => simp [intentToDecision, intentSide] at buys
  | hold => simp [intentToDecision, intentSide, hold] at buys
  | enter noExit permitted view regime ranked unheld size sized large =>
      refine ⟨firstDue_eq_none_of_noExit noExit, .inl ?_⟩
      rw [Py.roundTo_roundTo]
      refine le_trans (PolicyEngine.roundTo_cents_le _) ?_
      exact add_le_add (min_le_right _ _) le_rfl
  | rebalanceUp noExit noEntry ready permitted below tok chosen =>
      refine ⟨firstDue_eq_none_of_noExit noExit, ?_⟩
      by_cases stable : (PolicyEngine.ofConfig cfg).isStable tok
      · have notCash : ¬isCash tok := by
          intro cash
          simp [intentToDecision, intentSide, cash] at buys
        exact .inr (.inr (.inr ⟨reachesRebalance noExit noEntry ready, ⟨below, permitted⟩, tok,
          chosen, notCash, stable⟩))
      · exact .inr (.inl ⟨rfl, stable⟩)
  | rebalanceDown noExit noEntry ready notBelow above sym largest =>
      have notCash : ¬isCash quote := by
        intro cash
        simp [intentToDecision, intentSide, cash] at buys
      refine ⟨firstDue_eq_none_of_noExit noExit, .inr (.inr (.inl ?_))⟩
      exact ⟨reachesRebalance noExit noEntry ready, notBelow, above,
        entries_ne_nil_of_largestHolding largest, notCash⟩

end Survival

namespace Core

/-- The tick executed a buy that changed the book. -/
def BooksBuy (state newState : State) (result : TickResult) : Prop :=
  result.executed = true ∧ result.decision.side = .buy ∧ newState.positions ≠ state.positions

/-- An exit is due; or unquoted positions are worth nothing at their entry prices and the
strategy comes to neither of the two odd rebalances. -/
def KeepsCap (cfg : Config) (state : State) (views : List TokenView) (nowTs wall : ℚ) : Prop :=
  (Survival.firstDue cfg (priceMap views) (buildPortfolioState state views wall) nowTs).isSome ∨
    unquotedUsd state (priceMap views) ≤ 0 ∧
      (∀ quote, firstQuote cfg = .ok quote →
        ¬Survival.DownIntoToken views (buildPortfolioState state views wall) cfg nowTs quote) ∧
      ¬Survival.UpIntoQuote views (buildPortfolioState state views wall) cfg nowTs

theorem isStable_firstQuote {cfg : Config} {quote : String} (quoted : firstQuote cfg = .ok quote) :
    (PolicyEngine.ofConfig cfg).isStable quote := by
  have mem := firstQuote_mem quoted
  unfold PolicyEngine.isStable PolicyEngine.ofConfig
  apply List.mem_map_of_mem
  cases tokens : cfg.quoteTokens with
  | none =>
      simp only [tokens, Option.getD_none, List.mem_singleton] at mem
      simp [mem]
  | some quotes => simpa [tokens] using mem

/-- An approved buy of a tick fits into the room that the portfolio shows. -/
theorem finalAmountUsd_le_of_keepsCap {cfg : Config} {state : State} {views : List TokenView}
    {dataTs nowTs wall : ℚ} {quote chain : String} {intent : Intent}
    (quoted : firstQuote cfg = .ok quote) (nav : 0 < state.navOrDefault)
    (decided : Survival.Decided views (buildPortfolioState state views wall) cfg nowTs quote chain
      intent)
    (buys : (intentToDecision intent).side = .buy)
    (keeps : KeepsCap cfg state views nowTs wall)
    (approved : (judgement cfg state views dataTs nowTs wall intent).approved) :
    unquotedUsd state (priceMap views) ≤ 0 ∧
      (judgement cfg state views dataTs nowTs wall intent).verdict.finalAmountUsd ≤
        cfg.risk.maxRiskyExposurePct * state.navOrDefault - riskyUsd state (priceMap views) +
          1 / 200 := by
  rcases Survival.buy_cases decided buys with ⟨noneDue, bounded⟩
  rcases keeps with due | ⟨unquoted, notDown, notUp⟩
  · simp [noneDue] at due
  refine ⟨unquoted, ?_⟩
  have exposure : (buildPortfolioState state views wall).riskyExposurePct =
      riskyUsd state (priceMap views) / state.navOrDefault := if_pos nav
  have room : (cfg.risk.maxRiskyExposurePct - riskyUsd state (priceMap views) /
      state.navOrDefault) * state.navOrDefault =
      cfg.risk.maxRiskyExposurePct * state.navOrDefault - riskyUsd state (priceMap views) := by
    rw [sub_mul, div_mul_cancel₀ _ nav.ne']
  rcases bounded with small | ⟨fromQuote, notStable⟩ | down | up
  · refine le_trans (PolicyEngine.finalAmountUsd_le_roundTo approved.2 approved.1) ?_
    rw [Survival.room, exposure] at small
    rw [← room]
    exact small
  · have increasing : (PolicyEngine.ofConfig cfg).riskIncreasing (intentToDecision intent) := by
      refine ⟨buys, ?_, notStable⟩
      rw [intentToDecision, fromQuote]
      exact isStable_firstQuote quoted
    have bound := PolicyEngine.finalAmountUsd_le_room approved.2 approved.1 increasing nav
    rw [← room, ← exposure]
    exact bound
  · exact absurd down (notDown quote quoted)
  · exact absurd up notUp

theorem markedUsd_of_positions_eq {state other : State} (same : state.positions = other.positions)
    (price : Dict String ℚ) : markedUsd state price = markedUsd other price := by
  simp [markedUsd, same]

/-- After a buy that changed the book, the marked value has grown by its amount. -/
theorem markedUsd_settle {state : State} {j : Judgement} {amount : ℚ} {executed : Bool}
    (buys : j.decision.side = .buy)
    (changed : (settle state j amount executed).positions ≠ state.positions) :
    markedUsd (settle state j amount executed) (priceMap j.views) =
      markedUsd state (priceMap j.views) + amount := by
  cases executed with
  | false => exact absurd rfl changed
  | true =>
      have booked : (settle state j amount true).positions =
          (applyBuy state (Py.upper j.decision.toToken) amount
            (priceOrZero (priceMap j.views) (Py.upper j.decision.toToken)) j.nowTs).positions := by
        simp [settle, applyFill, buys]
      rw [markedUsd_of_positions_eq booked]
      rw [booked] at changed
      by_cases bought : 0 < priceOrZero (priceMap j.views) (Py.upper j.decision.toToken) ∧
          amount ≤ state.stable + 1 / 1000000000
      · exact markedUsd_applyBuy state (Py.upper_upper _) amount j.nowTs bought.1 bought.2
      · rw [applyBuy, if_neg bought] at changed
        exact absurd rfl changed

theorem markedUsd_le_of_books {world : World} {state newState : State} {input : TickInput}
    {cfg : Config} {views : List TokenView} {dataTs : ℚ} {result : TickResult}
    (enforces : Enforces world input cfg) (market : marketData cfg input = .ok (views, dataTs))
    (nav : 0 < state.navOrDefault)
    (keeps : KeepsCap cfg state views (enforcedNow input.nowTs input.clock) input.stateClock)
    (ended : (tick world state input).2 = .ok (result, newState))
    (books : BooksBuy state newState result) :
    markedUsd newState (priceMap views) ≤
      cfg.risk.maxRiskyExposurePct * state.navOrDefault + 1 / 200 := by
  rcases tick_state (Prod.ext rfl ended) with ⟨ph, j, seq, prepared, decision, settled, approved⟩
  rcases judgement_of_prepare enforces prepared with
    ⟨views', dataTs', chain, quote, intent, market', quoted, decided, rfl⟩
  rw [market, Except.ok.injEq, Prod.mk.injEq] at market'
  rcases market' with ⟨rfl, rfl⟩
  rcases books with ⟨executed, buys, changed⟩
  rw [decision] at buys
  rw [settled] at changed
  have grown := markedUsd_settle buys changed
  have bound := finalAmountUsd_le_of_keepsCap quoted nav decided buys keeps (approved executed)
  have valued := markedUsd_eq state (priceMap views)
  rw [settled]
  refine le_trans (le_of_eq (grown.trans (congrArg (· + _) valued))) ?_
  linarith [bound.1, bound.2]

/-- On inputs that keep the cap, a tick that books a buy on a marked state leaves the
marked value of the book within the exposure cap, up to half a cent. -/
theorem booked_buy_within_cap (world : World) (book : State) (input : TickInput) (cfg : Config)
    (views : List TokenView) (dataTs : ℚ) (enforces : Enforces world input cfg)
    (market : marketData cfg input = .ok (views, dataTs))
    (nav : 0 < (markNav book (priceMap views)).1)
    (keeps : KeepsCap cfg (markNav book (priceMap views)).2 views
      (enforcedNow input.nowTs input.clock) input.stateClock)
    (result : TickResult) (newState : State)
    (ended : (tick world (markNav book (priceMap views)).2 input).2 = .ok (result, newState))
    (books : BooksBuy (markNav book (priceMap views)).2 newState result) :
    markedUsd newState (priceMap views) ≤
      cfg.risk.maxRiskyExposurePct * (markNav book (priceMap views)).1 + 0.005 := by
  have navEq : (markNav book (priceMap views)).1 =
      (markNav book (priceMap views)).2.navOrDefault := rfl
  have half : (0.005 : ℚ) = 1 / 200 := by norm_num
  rw [navEq] at nav
  rw [navEq, half]
  exact markedUsd_le_of_books enforces market nav keeps ended books

/-- A profile that rebalances down as soon as anything is held. -/
def rebalanceProfile (quote : String) : Json :=
  let number := fun n : ℤ => Json.num (.int n)
  let pair := fun fromToken toToken => Json.obj [("chain", .str "injective"),
    ("from", .str fromToken), ("to", .str toToken)]
  .obj [("chains", .obj [("injective", .obj [("enabled", .bool true)])]),
    ("universe", .arr [.str "INJ"]), ("quote_tokens", .arr [.str quote]),
    ("allowed_tokens", .arr [.str quote, .str "INJ"]),
    ("allowed_pairs", .arr [pair quote "INJ", pair "INJ" quote]),
    ("min_trades", .obj [("target_risky_ratio", number 0), ("rebalance_band", number 0)]),
    ("risk", .obj [("max_single_trade_usd", number 50), ("max_single_trade_pct", number 1),
      ("max_trades_per_hour", number 4), ("min_trade_interval_seconds", number 900),
      ("stop_loss_pct", number 2), ("take_profit_pct", number 4),
      ("max_hold_hours", number 48)])]

def rebalanceViews (quote : String) : List TokenView :=
  [⟨"INJ", 20, some 0.9, some 1.7, some 2.5, 0, 0, 1, .obj []⟩,
    ⟨quote, 1, none, none, none, 0, 0, 1, .obj []⟩]

def rebalanceInput (quote : String) : TickInput :=
  { flatteningInput 0 with
    cfg := some (rebalanceProfile quote)
    market := some (rebalanceViews quote, 1) }

/-- A book of a hundred dollars. -/
def hundredBook (positions : Dict String HeldPosition) (stable : ℚ) : State :=
  { drawnDownState positions with stableUsd := some stable, highWaterMark := none }

/-- A fresh quantity below the cap. -/
def smallBook : Dict String HeldPosition := ⟨[("INJ", ⟨3 / 4, 20, 0⟩)], by decide⟩

/-- The marked value of the book after a tick, with the side that was booked. -/
def bookedAfter (quote : String) (book : State) : Option (Side × Bool × ℕ × ℚ) :=
  let price := priceMap (rebalanceViews quote)
  (tick bareWorld (markNav book price).2 (rebalanceInput quote)).2.toOption.map fun ended =>
    (ended.1.decision.side, ended.1.executed, ended.2.positions.entries.length,
      markedUsd ended.2 price)

theorem rebalanceProfile_enforced (quote : String) :
    ∃ cfg, Enforces bareWorld (rebalanceInput quote) cfg ∧ cfg.quoteTokens = some [quote] ∧
      cfg.universeTokens = ["INJ"] ∧ cfg.risk.maxRiskyExposurePct = 0.20 := by
  have read : (Config.ofJson (rebalanceProfile quote)).isSome := rfl
  rcases Option.isSome_iff_exists.1 read with ⟨cfg, found⟩
  have values : (Config.ofJson (rebalanceProfile quote)).map (fun cfg =>
      (cfg.quoteTokens, cfg.universeTokens, cfg.risk.maxRiskyExposurePct)) =
      some (some [quote], ["INJ"], 0.20) := rfl
  rw [found, Option.map_some, Option.some.injEq] at values
  simp only [Prod.mk.injEq] at values
  exact ⟨cfg, ⟨rebalanceProfile quote, rfl, found⟩, values⟩

theorem keepsCap_empty {cfg : Config} (quotes : cfg.quoteTokens = some ["USDT"])
    (tokens : cfg.universeTokens = ["INJ"]) {state : State} (empty : state.positions = Dict.empty)
    (views : List TokenView) (nowTs wall : ℚ) : KeepsCap cfg state views nowTs wall := by
  refine .inr ⟨?_, ?_, ?_⟩
  · simp [unquotedUsd, empty, Dict.total, Dict.empty]
  · rintro quote quoted ⟨-, -, -, -, notCash⟩
    have mem := firstQuote_mem quoted
    simp only [quotes, Option.getD_some, List.mem_singleton] at mem
    exact notCash (.inl mem)
  · rintro ⟨-, -, tok, chosen, -, stable⟩
    have member := Survival.mem_universeSet_of_rebalanceToken chosen
    simp only [Survival.universeSet, tokens, List.map_cons, List.map_nil,
      List.mem_singleton] at member
    simp only [PolicyEngine.isStable, PolicyEngine.ofConfig, quotes, Option.getD_some,
      List.map_cons, List.map_nil, List.mem_singleton, member] at stable
    exact absurd stable (by decide +kernel)

theorem booked_buy_within_cap_entry : ∃ cfg result newState,
    Enforces bareWorld (rebalanceInput "USDT") cfg ∧
      BooksBuy (markNav (hundredBook Dict.empty 100) (priceMap (rebalanceViews "USDT"))).2
        newState result ∧
      markedUsd newState (priceMap (rebalanceViews "USDT")) ≤ cfg.risk.maxRiskyExposurePct *
        (markNav (hundredBook Dict.empty 100) (priceMap (rebalanceViews "USDT"))).1 + 0.005 := by
  rcases rebalanceProfile_enforced "USDT" with ⟨cfg, enforces, quotes, tokens, -⟩
  have booked : bookedAfter "USDT" (hundredBook Dict.empty 100) = some (.buy, true, 1, 20) := by
    decide +kernel
  rw [bookedAfter, Option.map_eq_some_iff] at booked
  rcases booked with ⟨⟨result, newState⟩, ended, values⟩
  rw [toOption_eq_some_iff] at ended
  simp only [Prod.mk.injEq] at values
  rcases values with ⟨side, executed, positions, -⟩
  have books : BooksBuy (markNav (hundredBook Dict.empty 100)
      (priceMap (rebalanceViews "USDT"))).2 newState result := by
    refine ⟨executed, side, ?_⟩
    intro same
    rw [same] at positions
    exact absurd positions (by decide)
  refine ⟨cfg, result, newState, enforces, books, ?_⟩
  exact booked_buy_within_cap bareWorld (hundredBook Dict.empty 100) (rebalanceInput "USDT") cfg
    (rebalanceViews "USDT") 1 enforces rfl (by decide +kernel)
    (keepsCap_empty quotes tokens rfl _ _ _) result newState ended books

/-- A rebalance down into a quote token that is not cash is booked as a buy over the cap. -/
theorem down_rebalance_buys_over_cap :
    (∃ cfg, Enforces bareWorld (rebalanceInput "BUSD") cfg ∧
        cfg.risk.maxRiskyExposurePct = 0.20) ∧
      (markNav (hundredBook smallBook 85) (priceMap (rebalanceViews "BUSD"))).1 = 100 ∧
      bookedAfter "BUSD" (hundredBook smallBook 85) = some (.buy, true, 2, 27) ∧
      (0.20 : ℚ) * 100 + 0.005 < 27 := by
  rcases rebalanceProfile_enforced "BUSD" with ⟨cfg, enforces, -, -, cap⟩
  refine ⟨⟨cfg, enforces, cap⟩, ?_, ?_, ?_⟩
  · decide +kernel
  · decide +kernel
  · norm_num

end Core

end SumplusTrader
