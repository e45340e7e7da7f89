import Mathlib.Data.List.Find
import SumplusTrader.Core.NextBuy
import SumplusTrader.Policy.DeRisking

/-!
# The risk on the first rung

This file compares the risk that the strategy and the policy engine take on together on the rung
`halve_size` with what they take on off it, everything else being equal. The strategy halves the
share of the net asset value that an entry may take, and the engine halves its cap. Neither
halves the exposure room or the size of a micro-rebalance, and a smaller size can pass an entry
over for another one.

`halves_new_risk` gives conditions on the configuration, the views and the portfolio under which
the halving reaches the amount: every entry that sizes to a dollar off the rung does so on it, the
room does not bind before the share or the cap, and a micro-rebalance is bound by the cap.
-/

namespace SumplusTrader

theorem roundTo_half_le (q : ℚ) : Py.roundTo 2 (q / 2) ≤ Py.roundTo 2 q / 2 + 1 / 100 := by
  have above := Py.roundTo_le 2 (q / 2)
  have below := Py.le_roundTo 2 q
  norm_num at above below ⊢
  linarith

theorem le_half_min_iff (a b c slack : ℚ) :
    c ≤ min a b / 2 + slack ↔ c ≤ a / 2 + slack ∧ c ≤ b / 2 + slack := by
  rw [← min_div_div_right zero_le_two, ← min_add_add_right, le_min_iff]

/-- The portfolio at another drawdown. -/
def PortfolioState.atDrawdown (portfolio : PortfolioState) (drawdownPct : ℚ) : PortfolioState :=
  { portfolio with drawdownPct := drawdownPct }

namespace PolicyEngine

/-- The exposure room in money. -/
def roomUsd (engine : PolicyEngine) (portfolio : PortfolioView) : ℚ :=
  (engine.risk.maxRiskyExposurePct - portfolio.riskyExposurePct) * portfolio.navUsd

variable {engine : PolicyEngine} {decision : Decision} {portfolio : PortfolioView}
  {market : MarketView}

theorem approvedUsd_plain (engine : PolicyEngine) (decision : Decision)
    (portfolio : PortfolioView) (market : MarketView) :
    approvedUsd (engine.check decision.plain portfolio market) =
      approvedUsd (engine.check decision portfolio market) := rfl

/-- The reference size in cents, for an amount in cents. -/
theorem roundTo_referenceSize (inCents : Py.roundTo 2 decision.amountUsd = decision.amountUsd) :
    Py.roundTo 2 (engine.referenceSize decision portfolio) =
      if engine.Constrained decision portfolio then
        min decision.amountUsd (min (Py.roundTo 2 (referenceCap engine.risk portfolio.navUsd
          (engine.ladderRung portfolio.drawdownPct))) (Py.roundTo 2 (engine.roomUsd portfolio)))
      else min decision.amountUsd (Py.roundTo 2 (referenceCap engine.risk portfolio.navUsd
        (engine.ladderRung portfolio.drawdownPct))) := by
  have mono := Py.roundTo_mono 2
  simp only [referenceSize]
  split
  · rw [mono.map_min, mono.map_min, inCents]
    rfl
  · rw [mono.map_min, inCents]

/-- An amount that fits into half of each limit fits into half of the reference size. -/
theorem le_half_referenceSize (inCents : Py.roundTo 2 decision.amountUsd = decision.amountUsd)
    {usd : ℚ} (fits : usd ≤ Py.roundTo 2 (referenceCap engine.risk portfolio.navUsd
      (engine.ladderRung portfolio.drawdownPct)) / 2 + 1 / 100)
    (amount : usd ≤ decision.amountUsd / 2 + 1 / 100)
    (room : usd ≤ Py.roundTo 2 (engine.roomUsd portfolio) / 2 + 1 / 100) :
    usd ≤ Py.roundTo 2 (engine.referenceSize decision portfolio) / 2 + 1 / 100 := by
  rw [roundTo_referenceSize inCents]
  split
  · rw [le_half_min_iff, le_half_min_iff]
    exact ⟨amount, fits, room⟩
  · rw [le_half_min_iff]
    exact ⟨amount, fits⟩

/-- The reference size of a trade that is let through is not negative, if the cap is not. -/
theorem referenceSize_nonneg (lets : engine.Lets decision portfolio market)
    (cap : 0 ≤ referenceCap engine.risk portfolio.navUsd
      (engine.ladderRung portfolio.drawdownPct)) : 0 ≤ engine.referenceSize decision portfolio := by
  have amount := lets.1.2.le
  unfold referenceSize
  dsimp only
  split
  · next constrained =>
    have space : portfolio.riskyExposurePct < engine.risk.maxRiskyExposurePct :=
      not_le.1 fun closed => lets.2.2.1 ⟨constrained, closed⟩
    exact le_min amount (le_min cap (mul_nonneg (sub_nonneg.2 space.le) constrained.2.le))
  · exact le_min amount cap

/-- What the engine lets through on another rung, it lets through off all rungs at a larger
amount. -/
theorem lets_of_larger {half : Decision} {deep amountUsd : ℚ}
    (lets : engine.Lets half (atDrawdown portfolio deep) market)
    (calm : engine.ladderRung portfolio.drawdownPct = "none")
    (larger : half.amountUsd ≤ amountUsd) :
    engine.Lets { half with amountUsd := amountUsd } portfolio market := by
  rcases lets with ⟨⟨trades, positive⟩, passed, space, either⟩
  refine ⟨⟨trades, positive.trans_le larger⟩, ?_, space, ?_⟩
  · exact ⟨passed.fresh, passed.fromCommitted, passed.toCommitted, passed.pairCommitted,
      fun locked => by simp [calm] at locked, fun locked => by simp [calm] at locked⟩
  · rcases either with exceeds | within
    · left
      refine ⟨exceeds.riskIncreasing, exceeds.nav_pos, exceeds.room_pos, ?_⟩
      exact exceeds.exceeds.trans_le (div_le_div_of_nonneg_right larger exceeds.nav_pos.le)
    · exact .inr within

end PolicyEngine

namespace Core

open PolicyEngine Survival

/-- The risk that the strategy and the policy engine take on together. -/
def approvedRisk (cfg : Config) (views : List TokenView) (portfolio : PortfolioState)
    (state : State) (market : MarketView) (nowTs : ℚ) (quote chain : String) : ℚ :=
  match riskTaken views portfolio cfg nowTs quote chain with
  | none => 0
  | some decision =>
      approvedUsd ((ofConfig cfg).check decision (portfolioView portfolio state) market)

/-- The next buy is one that the engine lets through. -/
def BuyComes (cfg : Config) (views : List TokenView) (portfolio : PortfolioState) (state : State)
    (market : MarketView) (nowTs : ℚ) (quote chain : String) (halve : Bool)
    (buy : Decision) : Prop :=
  nextBuy views portfolio cfg nowTs quote chain halve = some buy ∧
    (ofConfig cfg).Lets buy (portfolioView portfolio state) market

/-- The halving of the first rung reaches the amount of a buy. -/
structure HalvingBinds (cfg : Config) (views : List TokenView) (portfolio : PortfolioState) :
    Prop where
  cap : 0 ≤ wholeCap cfg.risk portfolio.navUsd
  /-- A token whose size off the rung reaches a dollar has a share of two dollars, and the room is
  not less than the share or the cap. -/
  entries : ∀ entry ∈ rankEntries (entryViews views cfg) cfg.volEnterMaxPct,
    EndsScan cfg portfolio false entry → Scales cfg entry.1 →
      2 ≤ scaledShare cfg entry.1.vol24hPct * portfolio.navUsd ∧
        min (scaledShare cfg entry.1.vol24hPct * portfolio.navUsd)
          (wholeCap cfg.risk portfolio.navUsd) ≤ room cfg portfolio * portfolio.navUsd
  /-- A micro-rebalance up is bound by the cap. -/
  micro : (∀ entry ∈ rankEntries (entryViews views cfg) cfg.volEnterMaxPct,
      ¬EndsScan cfg portfolio false entry) →
    cfg.risk.minTradeIntervalSeconds.value ≤ portfolio.secondsSinceLastTrade →
    portfolio.riskyExposurePct < cfg.minTrades.targetRiskyRatio - cfg.minTrades.rebalanceBand →
      wholeCap cfg.risk portfolio.navUsd ≤ Py.roundTo 2 cfg.minTrades.microRebalanceUsd ∧
        (0 < portfolio.navUsd →
          wholeCap cfg.risk portfolio.navUsd ≤ room cfg portfolio * portfolio.navUsd)

/-- The buys of one state on the rung and off it. -/
inductive SameBuy (cfg : Config) (views : List TokenView) (portfolio : PortfolioState)
    (half full : Decision) : Prop where
  | entry (view : TokenView) (same : full = { half with amountUsd := full.amountUsd })
      (sizeHalf : half.amountUsd = Py.roundTo 2 (entrySize cfg portfolio true view))
      (sizeFull : full.amountUsd = Py.roundTo 2 (entrySize cfg portfolio false view))
      (dollar : 1 ≤ entrySize cfg portfolio false view)
      (share : 2 ≤ scaledShare cfg view.vol24hPct * portfolio.navUsd)
      (roomy : min (scaledShare cfg view.vol24hPct * portfolio.navUsd)
        (wholeCap cfg.risk portfolio.navUsd) ≤ room cfg portfolio * portfolio.navUsd)
  | micro (same : full = half)
      (bound : wholeCap cfg.risk portfolio.navUsd ≤ half.amountUsd)
      (roomy : 0 < portfolio.navUsd →
        wholeCap cfg.risk portfolio.navUsd ≤ room cfg portfolio * portfolio.navUsd)

variable {cfg : Config} {views : List TokenView} {portfolio : PortfolioState} {state : State}
  {market : MarketView} {nowTs : ℚ} {quote chain : String} {halve : Bool}

/-- The risk taken on is that of the next buy, when the engine lets it through. -/
theorem approvedRisk_cases (views : List TokenView) (portfolio : PortfolioState) (state : State)
    (market : MarketView) (nowTs : ℚ) (quote chain : String)
    (calm : ladderRung portfolio.drawdownPct cfg = "none" ∨
      ladderRung portfolio.drawdownPct cfg = "halve_size")
    (rung : decide (ladderRung portfolio.drawdownPct cfg = "halve_size") = halve) :
    ((∀ buy, ¬BuyComes cfg views portfolio state market nowTs quote chain halve buy) ∧
        approvedRisk cfg views portfolio state market nowTs quote chain = 0) ∨
      ∃ buy, BuyComes cfg views portfolio state market nowTs quote chain halve buy ∧
        approvedRisk cfg views portfolio state market nowTs quote chain =
          Py.roundTo 2 ((ofConfig cfg).referenceSize buy (portfolioView portfolio state)) := by
  have next := nextBuy_eq views nowTs quote chain calm rung
  unfold approvedRisk
  cases taken : riskTaken views portfolio cfg nowTs quote chain with
  | none =>
      rw [taken, Option.map_none] at next
      refine .inl ⟨?_, rfl⟩
      rintro buy ⟨comes, -⟩
      rw [← next] at comes
      cases comes
  | some decision =>
      rw [taken, Option.map_some] at next
      have plain := approvedUsd_plain (ofConfig cfg) decision (portfolioView portfolio state) market
      dsimp only
      rw [← plain]
      rcases approvedUsd_cases (ofConfig cfg) decision.plain (portfolioView portfolio state) market
        with ⟨refused, nothing⟩ | ⟨lets, amount⟩
      · refine .inl ⟨?_, nothing⟩
        rintro buy ⟨comes, lets⟩
        rw [← next, Option.some.injEq] at comes
        exact refused (comes ▸ lets)
      · exact .inr ⟨decision.plain, ⟨next.symm, lets⟩, amount⟩

/-- An exit is due on both rungs or on neither. -/
theorem firstDue_atDrawdown (price : Dict String ℚ) (portfolio : PortfolioState) (nowTs : ℚ)
    {deep : ℚ} (calm : ladderRung portfolio.drawdownPct cfg = "none")
    (halved : ladderRung deep cfg = "halve_size") :
    firstDue cfg price (portfolio.atDrawdown deep) nowTs = firstDue cfg price portfolio nowTs := by
  have due : ∀ entry, ExitDue cfg price deep nowTs entry ↔
      ExitDue cfg price portfolio.drawdownPct nowTs entry := by
    simp [ExitDue, MeetsRule, calm, halved]
  simp only [firstDue, PortfolioState.atDrawdown, due]

theorem nextBuy_atDrawdown (views : List TokenView) (portfolio : PortfolioState) (nowTs : ℚ)
    (quote chain : String) (halve : Bool) {deep : ℚ}
    (calm : ladderRung portfolio.drawdownPct cfg = "none")
    (halved : ladderRung deep cfg = "halve_size") :
    nextBuy views (portfolio.atDrawdown deep) cfg nowTs quote chain halve =
      nextBuy views portfolio cfg nowTs quote chain halve := by
  simp only [nextBuy, firstDue_atDrawdown _ portfolio nowTs calm halved]
  rfl

/-- Nothing is bought while an exit is due, without room, or on stale data. -/
theorem not_buyComes (idle : firstDue cfg (priceMap views) portfolio nowTs ≠ none ∨
      room cfg portfolio ≤ 1 / 100 ∨ cfg.maxDataAgeSeconds.value < market.dataAgeS)
    (buy : Decision) :
    ¬BuyComes cfg views portfolio state market nowTs quote chain halve buy := by
  rintro ⟨comes, lets⟩
  rcases idle with due | small | stale
  · rw [nextBuy, if_neg fun ready => due ready.1] at comes
    cases comes
  · rw [nextBuy, if_neg fun ready => absurd ready.2 (not_lt.2 small)] at comes
    cases comes
  · exact absurd lets.2.1.fresh (not_le.2 stale)

/-- The scan for entries ends at the same tokens on the rung and off it. -/
theorem HalvingBinds.endsScan_iff (binds : HalvingBinds cfg views portfolio)
    {entry : TokenView × Regime}
    (mem : entry ∈ rankEntries (entryViews views cfg) cfg.volEnterMaxPct) :
    EndsScan cfg portfolio true entry ↔ EndsScan cfg portfolio false entry := by
  constructor
  · rintro ⟨free, dollar⟩
    refine ⟨free, fun scales => ?_⟩
    have large := dollar scales
    simp only [entrySize, if_true, Bool.false_eq_true, if_false, le_min_iff] at large ⊢
    refine ⟨⟨?_, large.1.2⟩, large.2⟩
    have share := large.1.1
    rw [div_mul_eq_mul_div] at share
    linarith
  · rintro ⟨free, dollar⟩
    refine ⟨free, fun scales => ?_⟩
    have large := dollar scales
    have share := (binds.entries entry mem ⟨free, dollar⟩ scales).1
    simp only [entrySize, if_true, Bool.false_eq_true, if_false, le_min_iff] at large ⊢
    refine ⟨⟨?_, large.1.2⟩, large.2⟩
    rw [div_mul_eq_mul_div]
    linarith

theorem HalvingBinds.scanEnd_eq (binds : HalvingBinds cfg views portfolio) :
    scanEnd cfg portfolio true (rankEntries (entryViews views cfg) cfg.volEnterMaxPct) =
      scanEnd cfg portfolio false (rankEntries (entryViews views cfg) cfg.volEnterMaxPct) := by
  have same : ∀ entry ∈ rankEntries (entryViews views cfg) cfg.volEnterMaxPct,
      decide (EndsScan cfg portfolio true entry) = decide (EndsScan cfg portfolio false entry) := by
    intro entry mem
    exact decide_eq_decide.2 (binds.endsScan_iff mem)
  rw [scanEnd, scanEnd, List.find?_congr same]

/-- A buy on the rung comes off it too, into the same token. -/
theorem HalvingBinds.sameBuy (binds : HalvingBinds cfg views portfolio) {half : Decision}
    (next : nextBuy views portfolio cfg nowTs quote chain true = some half) :
    ∃ full, nextBuy views portfolio cfg nowTs quote chain false = some full ∧
      SameBuy cfg views portfolio half full := by
  simp only [nextBuy, binds.scanEnd_eq] at next ⊢
  split at next
  · next ready =>
    rw [if_pos ready]
    rcases ended : scanEnd cfg portfolio false
        (rankEntries (entryViews views cfg) cfg.volEnterMaxPct) with _ | view
    · rw [ended] at next
      refine ⟨half, next, ?_⟩
      have none : ∀ entry ∈ rankEntries (entryViews views cfg) cfg.volEnterMaxPct,
          ¬EndsScan cfg portfolio false entry := by
        simpa [scanEnd] using ended
      simp only [nextRebalance] at next
      split at next
      · next due =>
        rcases Option.map_eq_some_iff.1 next with ⟨tok, -, rfl⟩
        have micro := binds.micro none due.1 due.2
        exact .micro rfl micro.1 micro.2
      · cases next
    · rw [ended] at next
      dsimp only at next ⊢
      split at next
      · next scales =>
        rw [Option.some.injEq] at next
        subst next
        rw [if_pos scales]
        rcases Option.map_eq_some_iff.1 ended with ⟨entry, found, rfl⟩
        have mem := List.mem_of_find?_eq_some found
        have ends : EndsScan cfg portfolio false entry := by
          simpa using List.find?_some found
        have share := binds.entries entry mem ends scales
        exact ⟨_, rfl, .entry entry.1 rfl rfl rfl (ends.2 scales) share.1 share.2⟩
      · cases next
  · cases next

theorem referenceCap_off_rung (state : State)
    (unhalved : ladderRung portfolio.drawdownPct cfg = "none") :
    referenceCap (ofConfig cfg).risk (portfolioView portfolio state).navUsd
        ((ofConfig cfg).ladderRung (portfolioView portfolio state).drawdownPct) =
      wholeCap cfg.risk portfolio.navUsd := by
  have rung : (ofConfig cfg).ladderRung (portfolioView portfolio state).drawdownPct = "none" :=
    unhalved
  rw [rung]
  rfl

/-- On the rung, the buy fits into half of the cap. -/
theorem referenceSize_le_half_cap (portfolio : PortfolioState) (state : State) (half : Decision)
    {deep : ℚ} (halved : ladderRung deep cfg = "halve_size") :
    Py.roundTo 2 ((ofConfig cfg).referenceSize half
        (portfolioView (portfolio.atDrawdown deep) state)) ≤
      Py.roundTo 2 (wholeCap cfg.risk portfolio.navUsd) / 2 + 1 / 100 := by
  have size := referenceSize_le (ofConfig cfg) half
    (portfolioView (portfolio.atDrawdown deep) state)
  have rung : (ofConfig cfg).ladderRung
      (portfolioView (portfolio.atDrawdown deep) state).drawdownPct = "halve_size" := halved
  rw [rung, referenceCap_of_halved, le_min_iff] at size
  exact (Py.roundTo_mono 2 size.2).trans (roundTo_half_le _)

/-- The halving reaches an entry into the same token when the room is at least the share of the
net asset value or the cap off the rung. -/
theorem fits_of_same_entry (state : State) {half full : Decision} {view : TokenView} {deep : ℚ}
    (nav : 0 < portfolio.navUsd) (halved : ladderRung deep cfg = "halve_size")
    (sizeHalf : half.amountUsd = Py.roundTo 2 (entrySize cfg portfolio true view))
    (sizeFull : full.amountUsd = Py.roundTo 2 (entrySize cfg portfolio false view))
    (roomy : min (scaledShare cfg view.vol24hPct * portfolio.navUsd)
        (wholeCap cfg.risk portfolio.navUsd) ≤ room cfg portfolio * portfolio.navUsd) :
    Py.roundTo 2 ((ofConfig cfg).referenceSize half
        (portfolioView (portfolio.atDrawdown deep) state)) ≤ full.amountUsd / 2 + 1 / 100 ∧
      Py.roundTo 2 ((ofConfig cfg).referenceSize half
          (portfolioView (portfolio.atDrawdown deep) state)) ≤
        Py.roundTo 2 ((ofConfig cfg).roomUsd (portfolioView portfolio state)) / 2 + 1 / 100 := by
  have rung : (ofConfig cfg).ladderRung
      (portfolioView (portfolio.atDrawdown deep) state).drawdownPct = "halve_size" := halved
  have size := referenceSize_le (ofConfig cfg) half
    (portfolioView (portfolio.atDrawdown deep) state)
  have capHalf : wholeCap (ofConfig cfg).risk
      (portfolioView (portfolio.atDrawdown deep) state).navUsd =
      wholeCap cfg.risk portfolio.navUsd := rfl
  rw [rung, referenceCap_of_halved, le_min_iff, sizeHalf, capHalf] at size
  have capUsd : wholeCap cfg.risk portfolio.navUsd ≤ cfg.risk.maxSingleTradeUsd := by
    rw [wholeCap, referenceCap, if_neg (by simp), if_pos nav]
    exact min_le_left _ _
  generalize wholeCap cfg.risk portfolio.navUsd = cap at size capUsd roomy
  have mono := Py.roundTo_mono 2
  -- what both of the halved limits leave, and what is left of it at full size
  have halfShare : entrySize cfg portfolio true view ≤
      scaledShare cfg view.vol24hPct * portfolio.navUsd / 2 := by
    rw [mul_div_right_comm]
    exact (min_le_left _ _).trans (min_le_left _ _)
  have fullSize : min (scaledShare cfg view.vol24hPct * portfolio.navUsd) cap ≤
      entrySize cfg portfolio false view :=
    le_min (min_le_min le_rfl capUsd) roomy
  have halves : Py.roundTo 2 ((ofConfig cfg).referenceSize half
      (portfolioView (portfolio.atDrawdown deep) state)) ≤
      Py.roundTo 2 (min (scaledShare cfg view.vol24hPct * portfolio.navUsd) cap) / 2 +
        1 / 100 := by
    refine le_trans ?_ (roundTo_half_le _)
    rw [← min_div_div_right zero_le_two, mono.map_min, le_min_iff]
    constructor
    · have proposed := mono size.1
      rw [Py.roundTo_roundTo] at proposed
      exact proposed.trans (mono halfShare)
    · exact mono size.2
  constructor
  · have within := mono fullSize
    rw [sizeFull]
    linarith
  · have within : Py.roundTo 2 (min (scaledShare cfg view.vol24hPct * portfolio.navUsd)
        cap) ≤ Py.roundTo 2 ((ofConfig cfg).roomUsd (portfolioView portfolio state)) := mono roomy
    linarith

/-- The amount of a buy on the rung is at most half of the amount off it, and a cent. -/
theorem half_le_of_sameBuy {half full : Decision} {deep : ℚ}
    (unhalved : ladderRung portfolio.drawdownPct cfg = "none")
    (halved : ladderRung deep cfg = "halve_size") (space : 1 / 100 < room cfg portfolio)
    (inCents : Py.roundTo 2 full.amountUsd = full.amountUsd)
    (both : SameBuy cfg views portfolio half full) :
    Py.roundTo 2 ((ofConfig cfg).referenceSize half
        (portfolioView (portfolio.atDrawdown deep) state)) ≤
      Py.roundTo 2 ((ofConfig cfg).referenceSize full (portfolioView portfolio state)) / 2 +
        1 / 100 := by
  have fits := referenceSize_le_half_cap portfolio state half halved
  have cap := referenceCap_off_rung state unhalved
  cases both with
  | entry view same sizeHalf sizeFull dollar share roomy =>
      have nav : 0 < portfolio.navUsd := by
        have reached : 1 ≤ room cfg portfolio * portfolio.navUsd := dollar.trans (min_le_right _ _)
        by_contra worthless
        have nothing := mul_nonpos_of_nonneg_of_nonpos (by linarith : 0 ≤ room cfg portfolio)
          (not_lt.1 worthless)
        linarith
      rcases fits_of_same_entry state nav halved sizeHalf sizeFull roomy with ⟨amount, within⟩
      rw [← cap] at fits
      exact le_half_referenceSize inCents fits amount within
  | micro same bound roomy =>
      have size : wholeCap cfg.risk portfolio.navUsd ≤
          (ofConfig cfg).referenceSize full (portfolioView portfolio state) := by
        rw [same]
        unfold referenceSize
        dsimp only
        rw [cap]
        split
        · next constrained => exact le_min bound (le_min le_rfl (roomy constrained.2))
        · exact le_min bound le_rfl
      have mono := Py.roundTo_mono 2 size
      linarith

/-- A buy that is let through on the rung is let through off it. -/
theorem HalvingBinds.buyComes (binds : HalvingBinds cfg views portfolio) {half : Decision}
    {deep : ℚ} (unhalved : ladderRung portfolio.drawdownPct cfg = "none")
    (halved : ladderRung deep cfg = "halve_size")
    (comes : BuyComes cfg views (portfolio.atDrawdown deep) state market nowTs quote chain true
      half) :
    ∃ full, BuyComes cfg views portfolio state market nowTs quote chain false full ∧
      SameBuy cfg views portfolio half full := by
  rcases comes with ⟨next, lets⟩
  rw [nextBuy_atDrawdown views portfolio nowTs quote chain true unhalved halved] at next
  rcases binds.sameBuy next with ⟨full, next', both⟩
  refine ⟨full, ⟨next', ?_⟩, both⟩
  have calm : (ofConfig cfg).ladderRung (portfolioView portfolio state).drawdownPct = "none" :=
    unhalved
  have larger : half.amountUsd ≤ full.amountUsd ∧
      full = { half with amountUsd := full.amountUsd } := by
    cases both with
    | entry view same sizeHalf sizeFull dollar share roomy =>
        refine ⟨?_, same⟩
        rw [sizeHalf, sizeFull]
        apply Py.roundTo_mono 2
        simp only [entrySize, if_true, Bool.false_eq_true, if_false]
        refine min_le_min (min_le_min ?_ le_rfl) le_rfl
        rw [div_mul_eq_mul_div]
        linarith
    | micro same bound roomy =>
        rw [same]
        exact ⟨le_rfl, rfl⟩
  rw [larger.2]
  exact lets_of_larger lets calm larger.1

/-- **The first rung halves new risk** when nothing is bought on either rung, or the halving
reaches the amount of a buy. -/
theorem halves_new_risk (cfg : Config) (views : List TokenView) (portfolio : PortfolioState)
    (state : State) (market : MarketView) (nowTs : ℚ) (quote chain : String) (deep : ℚ)
    (unhalved : ladderRung portfolio.drawdownPct cfg = "none")
    (halved : ladderRung deep cfg = "halve_size")
    (binds : (firstDue cfg (priceMap views) portfolio nowTs ≠ none ∨
        room cfg portfolio ≤ 1 / 100 ∨ cfg.maxDataAgeSeconds.value < market.dataAgeS) ∨
      HalvingBinds cfg views portfolio) :
    approvedRisk cfg views (portfolio.atDrawdown deep) state market nowTs quote chain ≤
      approvedRisk cfg views portfolio state market nowTs quote chain / 2 + 1 / 100 := by
  have whole : ladderRung portfolio.drawdownPct cfg ≠ "halve_size" := by
    rw [unhalved]
    decide
  have onRung := approvedRisk_cases views (portfolio.atDrawdown deep) state market nowTs quote chain
    (.inr halved) (decide_eq_true halved)
  have offRung := approvedRisk_cases views portfolio state market nowTs quote chain (.inl unhalved)
    (decide_eq_false whole)
  rcases onRung with ⟨noHalf, nothing⟩ | ⟨half, halfComes, halfUsd⟩
  · rw [nothing]
    rcases offRung with ⟨-, nothing'⟩ | ⟨full, fullComes, fullUsd⟩
    · rw [nothing']
      norm_num
    · rcases binds with idle | binds
      · exact absurd fullComes (not_buyComes idle full)
      · have nonneg := Py.roundTo_nonneg 2 (referenceSize_nonneg fullComes.2
          (by rw [referenceCap_off_rung state unhalved]; exact binds.cap))
        rw [fullUsd]
        linarith
  · rcases binds with idle | binds
    · rw [← firstDue_atDrawdown _ portfolio nowTs unhalved halved] at idle
      exact absurd halfComes (not_buyComes idle half)
    · rcases binds.buyComes unhalved halved halfComes with ⟨full, fullComes, both⟩
      rcases offRung with ⟨noFull, -⟩ | ⟨full', fullComes', fullUsd⟩
      · exact absurd fullComes (noFull full)
      · have same : full' = full := Option.some.inj (fullComes'.1.symm.trans fullComes.1)
        subst same
        have ready : 1 / 100 < room cfg portfolio := by
          by_contra small
          exact not_buyComes (.inr (.inl (not_lt.1 small))) full' fullComes
        rw [halfUsd, fullUsd]
        exact half_le_of_sameBuy unhalved halved ready
          (roundTo_amountUsd_of_nextBuy fullComes.1) both

theorem halves_new_risk_risingViews :
    approvedRisk injectiveConfig risingViews (cashPortfolio.atDrawdown 1.5)
        (drawnDownState Dict.empty) ⟨0, "risk_on"⟩ 0 "USDT" "injective" ≤
      approvedRisk injectiveConfig risingViews cashPortfolio (drawnDownState Dict.empty)
        ⟨0, "risk_on"⟩ 0 "USDT" "injective" / 2 + 1 / 100 :=
  halves_new_risk injectiveConfig risingViews cashPortfolio (drawnDownState Dict.empty)
    ⟨0, "risk_on"⟩ 0 "USDT" "injective" 1.5 (by decide +kernel) (by decide +kernel)
    (.inr ⟨by decide +kernel, by decide +kernel, by decide +kernel⟩)

example : approvedRisk injectiveConfig risingViews cashPortfolio (drawnDownState Dict.empty)
    ⟨0, "risk_on"⟩ 0 "USDT" "injective" = 2 := by decide +kernel

/-- On the shipped profile a book in cash rebalances up by 1.20 off the first rung and by 1.00 on
it: the cap of two dollars is halved, but off the rung it does not bind. -/
theorem micro_rebalance_unhalved :
    ladderRung cashPortfolio.drawdownPct injectiveConfig = "none" ∧
      ladderRung 1.5 injectiveConfig = "halve_size" ∧
      ¬approvedRisk injectiveConfig flatViews (cashPortfolio.atDrawdown 1.5)
          (drawnDownState Dict.empty) ⟨0, "risk_off"⟩ 0 "USDT" "injective" ≤
        approvedRisk injectiveConfig flatViews cashPortfolio
          (drawnDownState Dict.empty) ⟨0, "risk_off"⟩ 0 "USDT" "injective" / 2 + 1 / 100 := by
  decide +kernel

end Core

end SumplusTrader
