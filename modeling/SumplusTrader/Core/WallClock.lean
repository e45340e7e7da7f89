import SumplusTrader.Core.Commitment
import SumplusTrader.Core.ExposureCap

/-!
# What a tick sees of the wall clock

A tick measures the time since the last trade with the system clock, also when its caller
injects the time. This file compares two ticks that differ in the readings of the system
clock alone. The reading matters at two gates: the strategy rebalances only when the
interval has elapsed, and the policy engine rejects a trade before that and prints the
seconds that have passed.

`wall_clock_irrelevant_iff` says that the decision, the verdict and the next state agree
exactly when both gates are met with the same outcome, or not met at all.
-/

namespace SumplusTrader

/-- The portfolio, with another time since the last trade. -/
def PortfolioState.withSince (portfolio : PortfolioState) (since : ℚ) : PortfolioState :=
  { portfolio with secondsSinceLastTrade := since }

def PortfolioView.withSince (portfolio : PortfolioView) (since : ℚ) : PortfolioView :=
  { portfolio with secondsSinceLastTrade := since }

namespace Survival

variable {views : List TokenView} {portfolio : PortfolioState} {cfg : Config} {nowTs : ℚ}
  {quote chain : String} {since since' : ℚ}

def interval (cfg : Config) : ℚ := cfg.risk.minTradeIntervalSeconds.value

/-- The rebalance that the strategy proposes once the interval has elapsed. -/
def elapsedRebalance (views : List TokenView) (cfg : Config) (portfolio : PortfolioState)
    (quote chain : String) : Option Intent :=
  rebalance views cfg (portfolio.withSince (interval cfg)) quote chain

/-- What the strategy decides before it comes to rebalance. -/
def beforeRebalance (views : List TokenView) (portfolio : PortfolioState) (cfg : Config)
    (nowTs : ℚ) (quote chain : String) : Except PyError (Option Intent) :=
  match firstExit cfg (priceMap views) portfolio nowTs quote chain with
  | some intent => .ok (some intent)
  | none =>
      if canTakeRisk cfg portfolio then
        firstEntry cfg portfolio quote chain
          (rankEntries (entryViews views cfg) cfg.volEnterMaxPct)
      else .ok none

/-- No exit is due and nothing is entered, and there is something to rebalance. -/
def MeetsRebalanceGate (views : List TokenView) (portfolio : PortfolioState) (cfg : Config)
    (nowTs : ℚ) (quote chain : String) : Prop :=
  beforeRebalance views portfolio cfg nowTs quote chain = .ok none ∧
    (elapsedRebalance views cfg portfolio quote chain).isSome

theorem firstEntry_withSince (ranked : List (TokenView × Regime)) :
    firstEntry cfg (portfolio.withSince since) quote chain ranked =
      firstEntry cfg portfolio quote chain ranked := by
  induction ranked with
  | nil => rfl
  | cons scored ranked ih =>
      simp only [firstEntry, ih]
      rfl

theorem beforeRebalance_withSince :
    beforeRebalance views (portfolio.withSince since) cfg nowTs quote chain =
      beforeRebalance views portfolio cfg nowTs quote chain := by
  simp only [beforeRebalance, firstEntry_withSince]
  rfl

theorem rebalance_withSince :
    rebalance views cfg (portfolio.withSince since) quote chain =
      if interval cfg ≤ since then elapsedRebalance views cfg portfolio quote chain else none := by
  have elapsed : canRebalance cfg (portfolio.withSince (interval cfg)) ↔
      ladderRung portfolio.drawdownPct cfg ≠ "stablecoin_mode" := by
    simp [canRebalance, interval, PortfolioState.withSince]
  have ready : canRebalance cfg (portfolio.withSince since) ↔
      interval cfg ≤ since ∧ ladderRung portfolio.drawdownPct cfg ≠ "stablecoin_mode" := Iff.rfl
  unfold elapsedRebalance rebalance
  by_cases passed : interval cfg ≤ since
  · simp only [ready, elapsed, passed, true_and, if_true]
    rfl
  · simp [ready, passed]

theorem decide_eq_beforeRebalance :
    decide views portfolio cfg nowTs quote chain =
      beforeRebalance views portfolio cfg nowTs quote chain >>= fun taken =>
        .ok ((taken.or (rebalance views cfg portfolio quote chain)).getD
          (hold views cfg portfolio quote chain)) := by
  unfold decide beforeRebalance
  cases firstExit cfg (priceMap views) portfolio nowTs quote chain with
  | some intent => rfl
  | none =>
      by_cases permitted : canTakeRisk cfg portfolio
      · simp only [permitted, if_true]
        rfl
      · simp only [permitted, if_false]
        rfl

theorem decide_withSince :
    decide views (portfolio.withSince since) cfg nowTs quote chain =
      beforeRebalance views portfolio cfg nowTs quote chain >>= fun taken =>
        .ok ((taken.or (if interval cfg ≤ since then
          elapsedRebalance views cfg portfolio quote chain else none)).getD
            (hold views cfg portfolio quote chain)) := by
  rw [decide_eq_beforeRebalance, beforeRebalance_withSince, rebalance_withSince]
  rfl

/-- The strategy agrees when its gate is met with one outcome, or not met. -/
theorem decide_withSince_congr
    (agree : MeetsRebalanceGate views portfolio cfg nowTs quote chain →
      (interval cfg ≤ since ↔ interval cfg ≤ since')) :
    decide views (portfolio.withSince since) cfg nowTs quote chain =
      decide views (portfolio.withSince since') cfg nowTs quote chain := by
  rw [decide_withSince, decide_withSince]
  rcases before : beforeRebalance views portfolio cfg nowTs quote chain with e | taken
  · rfl
  · cases taken with
    | some intent => rfl
    | none =>
        cases elapsed : elapsedRebalance views cfg portfolio quote chain with
        | none => simp
        | some intent =>
            have gates := agree ⟨before, by simp [elapsed]⟩
            simp only [gates]

theorem side_of_elapsedRebalance {intent : Intent}
    (found : elapsedRebalance views cfg portfolio quote chain = some intent) :
    (intentToDecision intent).side ≠ .hold := by
  simp only [elapsedRebalance, rebalance] at found
  split_ifs at found
  · rcases Option.map_eq_some_iff.1 found with ⟨tok, -, rfl⟩
    simp only [intentToDecision, intentSide]
    split <;> simp
  · rcases Option.map_eq_some_iff.1 found with ⟨sym, -, rfl⟩
    simp only [intentToDecision, intentSide]
    split <;> simp

/-- At a gate that is met, an open gate and a closed one lead to different decisions. -/
theorem elapsed_of_same_decision {intent intent' : Intent}
    (meets : MeetsRebalanceGate views portfolio cfg nowTs quote chain)
    (decided : decide views (portfolio.withSince since) cfg nowTs quote chain = .ok intent)
    (decided' : decide views (portfolio.withSince since') cfg nowTs quote chain = .ok intent')
    (same : intentToDecision intent = intentToDecision intent')
    (passed : interval cfg ≤ since) : interval cfg ≤ since' := by
  rcases Option.isSome_iff_exists.1 meets.2 with ⟨rebalancing, elapsed⟩
  by_contra early
  rw [decide_withSince, meets.1] at decided decided'
  simp only [elapsed, passed, early, if_true, if_false, Option.or_none, Option.none_or,
    Option.getD_some, Option.getD_none, bind, Except.bind, Except.ok.injEq] at decided decided'
  subst decided decided'
  apply side_of_elapsedRebalance elapsed
  rw [same]
  rfl

end Survival

namespace PolicyEngine

variable {engine : PolicyEngine} {decision : Decision} {portfolio : PortfolioView}
  {market : MarketView} {since since' : ℚ}

/-- The engine comes to test the interval: a trade passes everything before. -/
def MeetsIntervalGate (engine : PolicyEngine) (decision : Decision) (portfolio : PortfolioView)
    (market : MarketView) : Prop :=
  decision.isTrade ∧ engine.Passed decision portfolio market ∧
    engine.riskyExposure decision portfolio = none ∧
      (portfolio.tradesLastHour : ℚ) < engine.risk.maxTradesPerHour.value

/-- Both times pass the interval, or both fall short of it and print the same seconds. -/
def SameGate (interval since since' : ℚ) : Prop :=
  interval ≤ since ∧ interval ≤ since' ∨
    since < interval ∧ since' < interval ∧ Py.fixedText 0 since = Py.fixedText 0 since'

/-- What the engine answers at the interval. -/
def intervalVerdict (engine : PolicyEngine) (decision : Decision) (portfolio : PortfolioView)
    (since : ℚ) : PolicyVerdict :=
  if since < engine.risk.minTradeIntervalSeconds.value then
    rejected ("rate limit: " ++ Py.fixedText 0 since ++ "s since last < " ++
      numberText engine.risk.minTradeIntervalSeconds ++ "s")
      (engine.ladderRung portfolio.drawdownPct)
  else engine.finalise portfolio decision.amountUsd (engine.ladderRung portfolio.drawdownPct)
    "within policy"

theorem check_of_meets (meets : engine.MeetsIntervalGate decision portfolio market) :
    engine.check decision (portfolio.withSince since) market =
      engine.intervalVerdict decision portfolio since := by
  rcases meets with ⟨trade, passed, fits, room⟩
  have passed' : engine.Passed decision (portfolio.withSince since) market :=
    ⟨passed.fresh, passed.fromCommitted, passed.toCommitted, passed.pairCommitted,
      passed.lockdown, passed.noNewRisk⟩
  have fits' : engine.riskyExposure decision (portfolio.withSince since) = none := fits
  have room' : ¬engine.risk.maxTradesPerHour.value ≤ (portfolio.tradesLastHour : ℚ) := not_le.2 room
  rw [check_of_passed trade passed', fits', Option.none_or]
  simp only [rateLimit, PortfolioView.withSince, room', if_false, intervalVerdict]
  by_cases early : since < engine.risk.minTradeIntervalSeconds.value
  · simp only [early, if_true]
    rfl
  · simp only [early, if_false]
    rfl

theorem check_withSince_of_not_meets
    (unmet : ¬engine.MeetsIntervalGate decision portfolio market) :
    engine.check decision (portfolio.withSince since) market =
      engine.check decision (portfolio.withSince since') market := by
  by_cases trade : decision.isTrade
  · have checked : ∀ since, engine.check decision (portfolio.withSince since) market =
        ((engine.staleData portfolio market |>.or (engine.ruleAdherence decision portfolio)
          |>.or (engine.drawdownLadder decision portfolio)
          |>.or (engine.riskyExposure decision portfolio)).or
            (engine.rateLimit (portfolio.withSince since))).getD
              (engine.finalise portfolio decision.amountUsd
                (engine.ladderRung portfolio.drawdownPct) "within policy") := by
      intro since
      rw [check, if_neg (not_not.2 trade)]
      rfl
    rw [checked, checked]
    rcases front : (engine.staleData portfolio market |>.or
      (engine.ruleAdherence decision portfolio) |>.or (engine.drawdownLadder decision portfolio)
      |>.or (engine.riskyExposure decision portfolio)) with _ | verdict
    · simp only [Option.or_eq_none_iff] at front
      have passed := passed_iff.2 ⟨front.1.1.1, front.1.1.2, front.1.2⟩
      have full : engine.risk.maxTradesPerHour.value ≤ (portfolio.tradesLastHour : ℚ) := by
        by_contra room
        exact unmet ⟨trade, passed, front.2, not_le.1 room⟩
      have full' : ∀ since, engine.rateLimit (portfolio.withSince since) =
          engine.rateLimit portfolio := by
        intro since
        simp only [rateLimit, PortfolioView.withSince, full, if_true]
      rw [full', full']
    · rfl
  · rw [check_of_not_isTrade trade, check_of_not_isTrade trade]

theorem not_rejected_eq_finalise {reason rung rung' base : String} {amount : ℚ} :
    rejected reason rung ≠ engine.finalise portfolio amount rung' base := by
  intro same
  apply not_allowed_rejected reason rung
  rw [same]
  exact finalise_allowed amount rung' base

/-- At the interval, the verdicts agree exactly when the gate has one outcome. -/
theorem intervalVerdict_eq_iff :
    engine.intervalVerdict decision portfolio since =
        engine.intervalVerdict decision portfolio since' ↔
      SameGate engine.risk.minTradeIntervalSeconds.value since since' := by
  unfold intervalVerdict SameGate
  by_cases early : since < engine.risk.minTradeIntervalSeconds.value
  · by_cases early' : since' < engine.risk.minTradeIntervalSeconds.value
    · simp only [early, early', if_true, not_le.2 early, false_and, false_or, true_and]
      constructor
      · intro same
        have reasons := congrArg (fun verdict => verdict.reason.toList) same
        have texts : (Py.fixedText 0 since).toList = (Py.fixedText 0 since').toList := by
          simpa [rejected] using reasons
        exact String.toList_inj.1 texts
      · intro seconds
        rw [seconds]
    · simp only [early, early', if_true, if_false, not_le.2 early, false_and, and_false, or_self,
        iff_false]
      exact not_rejected_eq_finalise
  · by_cases early' : since' < engine.risk.minTradeIntervalSeconds.value
    · simp only [early, early', if_true, if_false, not_le.2 early', false_and, and_false, or_self,
        iff_false]
      exact fun same => not_rejected_eq_finalise same.symm
    · simp [early, early', not_lt.1 early, not_lt.1 early']

/-- The verdicts agree exactly when the gate is met with one outcome, or not met. -/
theorem check_withSince_eq_iff (decision : Decision) (market : MarketView) :
    engine.check decision (portfolio.withSince since) market =
        engine.check decision (portfolio.withSince since') market ↔
      (engine.MeetsIntervalGate decision portfolio market →
        SameGate engine.risk.minTradeIntervalSeconds.value since since') := by
  by_cases meets : engine.MeetsIntervalGate decision portfolio market
  · rw [check_of_meets meets, check_of_meets meets, intervalVerdict_eq_iff]
    exact ⟨fun same _ => same, fun same => same meets⟩
  · exact ⟨fun _ met => absurd met meets, fun _ => check_withSince_of_not_meets meets⟩

end PolicyEngine

namespace Core

/-- What a tick reads before it looks at the portfolio. -/
structure ReadsBefore (configFile : Option String) (input : TickInput) (cfg : Config)
    (views : List TokenView) (dataTs : ℚ) (chain quote : String) : Prop where
  committed : ∃ ph, committedPolicyHash configFile = .ok ph
  enforced : ∃ json, enforcedConfig configFile input.cfg = .ok json ∧
    Config.ofJson json = some cfg
  market : marketData cfg input = .ok (views, dataTs)
  chain : tradeChain cfg.chains = .ok chain
  quote : firstQuote cfg = .ok quote

/-- The seconds since the last trade, at a reading of the system clock. -/
def sinceTrade (state : State) (wall : ℚ) : ℚ :=
  if state.lastTradeTs ≠ 0 then wall - state.lastTradeTs else 1000000000

/-- The two readings meet both gates with the same outcome, where they are met. -/
structure GatesAgree (cfg : Config) (state : State) (views : List TokenView) (dataTs nowTs : ℚ)
    (quote chain : String) (wall wall' : ℚ) : Prop where
  rebalance : Survival.MeetsRebalanceGate views (buildPortfolioState state views wall) cfg nowTs
      quote chain →
    (Survival.interval cfg ≤ sinceTrade state wall ↔
      Survival.interval cfg ≤ sinceTrade state wall')
  trade : ∀ intent, Survival.decide views (buildPortfolioState state views wall) cfg nowTs quote
      chain = .ok intent →
    (PolicyEngine.ofConfig cfg).MeetsIntervalGate (intentToDecision intent)
      (portfolioView (buildPortfolioState state views wall) state)
      (marketView cfg views dataTs nowTs) →
    PolicyEngine.SameGate (Survival.interval cfg) (sinceTrade state wall) (sinceTrade state wall')

/-- The input with an injected time and other readings of the system clock. -/
def replayed (input : TickInput) (nowTs clock stateClock : ℚ) : TickInput :=
  { input with nowTs := some nowTs, clock := clock, stateClock := stateClock }

/-- The decision, the verdict and the next state are the same. -/
def SameOutcome (world : World) (state : State) (input other : TickInput) : Prop :=
  tickVerdict world.configFile state input = tickVerdict world.configFile state other ∧
    (tick world state input).2.toOption.map Prod.snd =
      (tick world state other).2.toOption.map Prod.snd

section Clock

variable {cfg : Config} {state : State} {views : List TokenView} {dataTs nowTs wall wall' : ℚ}
  {quote chain : String} {input : TickInput}

theorem buildPortfolioState_wall (state : State) (views : List TokenView) (wall wall' : ℚ) :
    buildPortfolioState state views wall' =
      (buildPortfolioState state views wall).withSince (sinceTrade state wall') := rfl

theorem decide_wall_congr (agree : GatesAgree cfg state views dataTs nowTs quote chain wall wall') :
    Survival.decide views (buildPortfolioState state views wall) cfg nowTs quote chain =
      Survival.decide views (buildPortfolioState state views wall') cfg nowTs quote chain := by
  have same := Survival.decide_withSince_congr agree.rebalance
  rwa [← buildPortfolioState_wall, ← buildPortfolioState_wall] at same

theorem judgement_verdict_wall (intent : Intent) (wall wall' : ℚ) :
    (judgement cfg state views dataTs nowTs wall' intent).verdict =
      (PolicyEngine.ofConfig cfg).check (intentToDecision intent)
        ((portfolioView (buildPortfolioState state views wall) state).withSince
          (sinceTrade state wall')) (marketView cfg views dataTs nowTs) := rfl

/-- The verdict on an intent that both readings lead to. -/
theorem verdict_wall_eq_iff (intent : Intent) :
    (judgement cfg state views dataTs nowTs wall intent).verdict =
        (judgement cfg state views dataTs nowTs wall' intent).verdict ↔
      ((PolicyEngine.ofConfig cfg).MeetsIntervalGate (intentToDecision intent)
          (portfolioView (buildPortfolioState state views wall) state)
          (marketView cfg views dataTs nowTs) →
        PolicyEngine.SameGate (Survival.interval cfg) (sinceTrade state wall)
          (sinceTrade state wall')) := by
  rw [judgement_verdict_wall intent wall wall, judgement_verdict_wall intent wall wall']
  exact PolicyEngine.check_withSince_eq_iff _ _

theorem judgement_wall_congr {intent : Intent}
    (same : (judgement cfg state views dataTs nowTs wall intent).verdict =
      (judgement cfg state views dataTs nowTs wall' intent).verdict) :
    judgement cfg state views dataTs nowTs wall intent =
      judgement cfg state views dataTs nowTs wall' intent := by
  simp only [judgement] at same ⊢
  rw [same]
  rfl

theorem judge_eq_decide (quoted : firstQuote cfg = .ok quote)
    (named : tradeChain cfg.chains = .ok chain) (wall : ℚ) :
    judge cfg state views dataTs nowTs wall =
      (Survival.decide views (buildPortfolioState state views wall) cfg nowTs quote chain).map
        (judgement cfg state views dataTs nowTs wall) := by
  simp only [judge, named, quoted, bind, Except.bind]
  cases Survival.decide views (buildPortfolioState state views wall) cfg nowTs quote chain with
  | error e => rfl
  | ok intent => rfl

theorem judge_congr_of_gatesAgree (quoted : firstQuote cfg = .ok quote)
    (named : tradeChain cfg.chains = .ok chain)
    (agree : GatesAgree cfg state views dataTs nowTs quote chain wall wall') :
    judge cfg state views dataTs nowTs wall = judge cfg state views dataTs nowTs wall' := by
  rw [judge_eq_decide quoted named, judge_eq_decide quoted named, ← decide_wall_congr agree]
  cases decided : Survival.decide views (buildPortfolioState state views wall) cfg nowTs quote
      chain with
  | error e => rfl
  | ok intent =>
      have same := (verdict_wall_eq_iff intent).2 (agree.trade intent decided)
      exact congrArg Except.ok (judgement_wall_congr same)

/-- The decision and the verdict of a judgement, if there is one. -/
def verdictOf (judged : Except PyError Judgement) : Option (Decision × PolicyVerdict) :=
  judged.toOption.map fun j => (j.decision, j.verdict)

theorem exists_decide_of_meets
    (meets : Survival.MeetsRebalanceGate views (buildPortfolioState state views wall) cfg nowTs
      quote chain) (wall' : ℚ) :
    ∃ intent, Survival.decide views (buildPortfolioState state views wall') cfg nowTs quote chain =
      .ok intent := by
  rw [buildPortfolioState_wall state views wall wall', Survival.decide_withSince, meets.1]
  exact ⟨_, rfl⟩

theorem gatesAgree_of_verdictOf_eq (quoted : firstQuote cfg = .ok quote)
    (named : tradeChain cfg.chains = .ok chain)
    (same : verdictOf (judge cfg state views dataTs nowTs wall) =
      verdictOf (judge cfg state views dataTs nowTs wall')) :
    GatesAgree cfg state views dataTs nowTs quote chain wall wall' := by
  rw [judge_eq_decide quoted named, judge_eq_decide quoted named] at same
  have rebalance : Survival.MeetsRebalanceGate views (buildPortfolioState state views wall) cfg
      nowTs quote chain → (Survival.interval cfg ≤ sinceTrade state wall ↔
        Survival.interval cfg ≤ sinceTrade state wall') := by
    intro meets
    rcases exists_decide_of_meets meets wall with ⟨intent, decided⟩
    rcases exists_decide_of_meets meets wall' with ⟨intent', decided'⟩
    simp only [decided, decided', verdictOf, Except.map, Except.toOption, Option.map_some,
      Option.some.injEq, Prod.mk.injEq] at same
    constructor
    · exact Survival.elapsed_of_same_decision meets decided decided' same.1
    · exact Survival.elapsed_of_same_decision meets decided' decided same.1.symm
  refine ⟨rebalance, ?_⟩
  intro intent decided
  have agreed := Survival.decide_withSince_congr rebalance
  rw [← buildPortfolioState_wall, ← buildPortfolioState_wall] at agreed
  have decided' := agreed.symm.trans decided
  simp only [decided, decided', verdictOf, Except.map, Except.toOption, Option.map_some,
    Option.some.injEq, Prod.mk.injEq] at same
  exact (verdict_wall_eq_iff intent).1 same.2

end Clock

section Tick

variable {configFile : Option String} {state : State} {input : TickInput} {nowTs : ℚ}

theorem enforcedNow_injected (nonzero : nowTs ≠ 0) (clock : ℚ) :
    enforcedNow (some nowTs) clock = nowTs :=
  if_neg nonzero

theorem tickVerdict_of_readsBefore {cfg : Config} {views : List TokenView} {dataTs : ℚ}
    {quote chain : String} (nonzero : nowTs ≠ 0)
    (reads : ReadsBefore configFile input cfg views dataTs chain quote) (clock wall : ℚ) :
    tickVerdict configFile state (replayed input nowTs clock wall) =
      verdictOf (judge cfg state views dataTs nowTs wall) := by
  rcases reads.committed with ⟨ph, committed⟩
  rcases reads.enforced with ⟨json, enforced, read⟩
  have market : marketData cfg (replayed input nowTs clock wall) = .ok (views, dataTs) :=
    reads.market
  simp only [tickVerdict, verdictOf, prepare, replayed, enforced, committed,
    readConfig_eq_ok_iff.2 read, enforcedNow_injected nonzero, bind, Except.bind] at market ⊢
  rw [market]
  dsimp only
  cases judge cfg state views dataTs nowTs wall with
  | error e => rfl
  | ok j => rfl

/-- The gates of a tick agree at two readings, whatever it reads before. -/
def ReadingsAgree (configFile : Option String) (state : State) (input : TickInput)
    (nowTs wall wall' : ℚ) : Prop :=
  ∀ cfg views dataTs chain quote, ReadsBefore configFile input cfg views dataTs chain quote →
    GatesAgree cfg state views dataTs nowTs quote chain wall wall'

theorem judge_congr_of_readingsAgree {wall wall' : ℚ}
    (agree : ReadingsAgree configFile state input nowTs wall wall') {ph : String} {json : Json}
    {cfg : Config} {views : List TokenView} {dataTs : ℚ}
    (enforced : enforcedConfig configFile input.cfg = .ok json)
    (committed : committedPolicyHash configFile = .ok ph)
    (read : Config.ofJson json = some cfg) (market : marketData cfg input = .ok (views, dataTs)) :
    judge cfg state views dataTs nowTs wall = judge cfg state views dataTs nowTs wall' := by
  rcases named : tradeChain cfg.chains with e | chain
  · simp only [judge, named, bind, Except.bind]
  · rcases quoted : firstQuote cfg with e | quote
    · simp only [judge, named, quoted, bind, Except.bind]
    · have reads : ReadsBefore configFile input cfg views dataTs chain quote :=
        ⟨⟨ph, committed⟩, ⟨json, enforced, read⟩, market, named, quoted⟩
      exact judge_congr_of_gatesAgree quoted named (agree cfg views dataTs chain quote reads)

/-- A tick whose gates agree prepares the same judgement at both readings. -/
theorem prepare_eq_ok_iff_of_readingsAgree (nonzero : nowTs ≠ 0) {wall wall' : ℚ}
    (agree : ReadingsAgree configFile state input nowTs wall wall') (clock clock' : ℚ)
    (prepared : String × Judgement) :
    prepare configFile state (replayed input nowTs clock wall) = .ok prepared ↔
      prepare configFile state (replayed input nowTs clock' wall') = .ok prepared := by
  rcases prepared with ⟨ph, j⟩
  rw [prepare_eq_ok_iff, prepare_eq_ok_iff]
  simp only [replayed, enforcedNow_injected nonzero]
  constructor
  · rintro ⟨json, cfg, views, dataTs, enforced, committed, read, market, judged⟩
    rw [judge_congr_of_readingsAgree agree enforced committed read market] at judged
    exact ⟨json, cfg, views, dataTs, enforced, committed, read, market, judged⟩
  · rintro ⟨json, cfg, views, dataTs, enforced, committed, read, market, judged⟩
    rw [← judge_congr_of_readingsAgree agree enforced committed read market] at judged
    exact ⟨json, cfg, views, dataTs, enforced, committed, read, market, judged⟩

theorem sameOutcome_of_readingsAgree {world : World} (nonzero : nowTs ≠ 0) {wall wall' : ℚ}
    (agree : ReadingsAgree world.configFile state input nowTs wall wall') (clock clock' : ℚ) :
    SameOutcome world state (replayed input nowTs clock wall)
      (replayed input nowTs clock' wall') := by
  have prepares := prepare_eq_ok_iff_of_readingsAgree nonzero agree clock clock'
  unfold SameOutcome tickVerdict
  rcases first : prepare world.configFile state (replayed input nowTs clock wall) with e | prepared
  · rcases second : prepare world.configFile state (replayed input nowTs clock' wall') with
      e' | prepared
    · simp only [tick, first, second, Except.toOption, Option.map_none, and_self]
    · have impossible := (prepares prepared).2 second
      simp [first] at impossible
  · have second := (prepares prepared).1 first
    simp only [tick, first, second]
    exact ⟨trivial, rfl⟩

end Tick

/-- **The wall clock is irrelevant** to the decision, the verdict and the next state of a
tick with an injected time exactly when its two gates agree at the two readings. -/
theorem wall_clock_irrelevant_iff (world : World) (state : State) (input : TickInput) (nowTs : ℚ)
    (nonzero : nowTs ≠ 0) (clock clock' wall wall' : ℚ) :
    SameOutcome world state (replayed input nowTs clock wall)
        (replayed input nowTs clock' wall') ↔
      ReadingsAgree world.configFile state input nowTs wall wall' := by
  constructor
  · intro same cfg views dataTs chain quote reads
    have verdicts := same.1
    rw [tickVerdict_of_readsBefore nonzero reads, tickVerdict_of_readsBefore nonzero reads]
      at verdicts
    exact gatesAgree_of_verdictOf_eq reads.quote reads.chain verdicts
  · intro agree
    exact sameOutcome_of_readingsAgree nonzero agree clock clock'

/-- A state whose last trade was one second into the epoch. -/
def tradedState : State := { hundredBook Dict.empty 100 with nav := some 100, lastTradeTs := 1 }

theorem wall_clock_irrelevant_iff_tradedState :
    SameOutcome bareWorld tradedState (replayed (rebalanceInput "USDT") 1 1 1)
        (replayed (rebalanceInput "USDT") 1 1000 1000) ↔
      ReadingsAgree bareWorld.configFile tradedState (rebalanceInput "USDT") 1 1 1000 :=
  wall_clock_irrelevant_iff bareWorld tradedState (rebalanceInput "USDT") 1 one_ne_zero 1 1000 1 1000

/-- The same tick, replayed a second after the trade and a quarter of an hour later. -/
theorem replay_depends_on_wall_clock :
    ¬SameOutcome bareWorld tradedState (replayed (rebalanceInput "USDT") 1 1 1)
      (replayed (rebalanceInput "USDT") 1 1000 1000) := by
  intro same
  have verdicts := congrArg (Option.map fun verdict => verdict.2.action) same.1
  exact absurd verdicts (by decide +kernel)

end Core

end SumplusTrader
