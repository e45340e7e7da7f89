import SumplusTrader.Core.Portfolio

/-!
# The intents of the survival strategy

This file inverts `Survival.decide`: `Decided` has one constructor for each branch,
with the guards that were passed on the way to it, and `decided_of_decide` says
that every returned intent comes from one of them.

The exits are scanned in the order of the book and the first position that meets
a rule ends the scan, whatever it is worth. `decide_sells_iff` characterises when
the scan ends in an order that sells something, and `due_exit_sold_iff` says when
an exit that is due is not blocked by an earlier position.
-/

namespace SumplusTrader

namespace Survival

/-- Where an intent comes from. -/
inductive Decided (views : List TokenView) (portfolio : PortfolioState) (cfg : Config)
    (nowTs : ℚ) (quote chain : String) : Intent → Prop where
  | exit (entry : String × Position) (mem : entry ∈ portfolio.positions.entries) (px : ℚ)
      (priced : (priceMap views).get? (Py.upper entry.1) = some px) (held : 0 < entry.2.qty)
      (reason : String)
      (due : exitReason cfg portfolio.drawdownPct nowTs (Py.upper entry.1) entry.2 px =
        some reason) :
      Decided views portfolio cfg nowTs quote chain
        ⟨.exit, chain, Py.upper entry.1, quote, Py.roundTo 2 (entry.2.qty * px), 0.9, reason, ""⟩
  | enter (noExit : firstExit cfg (priceMap views) portfolio nowTs quote chain = none)
      (permitted : canTakeRisk cfg portfolio) (view : TokenView) (regime : Regime)
      (ranked : (view, regime) ∈ rankEntries (entryViews views cfg) cfg.volEnterMaxPct)
      (unheld : portfolio.positions.get? (Py.upper view.symbol) = none) (size : ℚ)
      (sized : volScaledSize portfolio.navUsd view.vol24hPct cfg
        (ladderRung portfolio.drawdownPct cfg = "halve_size") = .ok size)
      (large : 1 ≤ min size (room cfg portfolio * portfolio.navUsd)) :
      Decided views portfolio cfg nowTs quote chain
        ⟨.enter, chain, quote, Py.upper view.symbol,
          Py.roundTo 2 (min size (room cfg portfolio * portfolio.navUsd)), 0.7,
          "enter " ++ Py.upper view.symbol ++ ": " ++ regime.reason, ""⟩
  | rebalanceUp (noExit : firstExit cfg (priceMap views) portfolio nowTs quote chain = none)
      (noEntry : canTakeRisk cfg portfolio → firstEntry cfg portfolio quote chain
        (rankEntries (entryViews views cfg) cfg.volEnterMaxPct) = .ok none)
      (ready : canRebalance cfg portfolio) (permitted : canTakeRisk cfg portfolio)
      (below : portfolio.riskyExposurePct <
        cfg.minTrades.targetRiskyRatio - cfg.minTrades.rebalanceBand)
      (tok : String) (chosen : rebalanceToken views cfg portfolio = some tok) :
      Decided views portfolio cfg nowTs quote chain
        ⟨.rebalance, chain, quote, tok, Py.roundTo 2 cfg.minTrades.microRebalanceUsd, 0.4,
          "micro-rebalance up toward " ++ targetText cfg ++ "% risky (" ++ tok ++ ")", ""⟩
  | rebalanceDown (noExit : firstExit cfg (priceMap views) portfolio nowTs quote chain = none)
      (noEntry : canTakeRisk cfg portfolio → firstEntry cfg portfolio quote chain
        (rankEntries (entryViews views cfg) cfg.volEnterMaxPct) = .ok none)
      (ready : canRebalance cfg portfolio)
      (notBelow : ¬(portfolio.riskyExposurePct <
        cfg.minTrades.targetRiskyRatio - cfg.minTrades.rebalanceBand ∧ canTakeRisk cfg portfolio))
      (above : cfg.minTrades.targetRiskyRatio + cfg.minTrades.rebalanceBand <
        portfolio.riskyExposurePct)
      (sym : String) (largest : largestHolding (priceMap views) portfolio = some sym) :
      Decided views portfolio cfg nowTs quote chain
        ⟨.rebalance, chain, sym, quote, Py.roundTo 2 cfg.minTrades.microRebalanceUsd, 0.4,
          "micro-rebalance down toward " ++ targetText cfg ++ "% risky (" ++ sym ++ ")", ""⟩
  | hold (noExit : firstExit cfg (priceMap views) portfolio nowTs quote chain = none) :
      Decided views portfolio cfg nowTs quote chain (hold views cfg portfolio quote chain)

variable {views : List TokenView} {portfolio : PortfolioState} {cfg : Config} {nowTs : ℚ}
  {quote chain : String} {intent : Intent}

/-- The rules under which a position is sold. -/
def MeetsRule (cfg : Config) (drawdownPct nowTs : ℚ) (pos : Position) (px : ℚ) : Prop :=
  ladderRung drawdownPct cfg = "stablecoin_mode" ∨ pnlPct pos px ≤ -cfg.risk.stopLossPct ∨
    cfg.risk.takeProfitPct ≤ pnlPct pos px ∨ cfg.risk.maxHoldHours ≤ heldHours pos nowTs

instance (cfg : Config) (drawdownPct nowTs : ℚ) (pos : Position) (px : ℚ) :
    Decidable (MeetsRule cfg drawdownPct nowTs pos px) :=
  inferInstanceAs (Decidable (_ ∨ _))

theorem exitReason_isSome_iff (drawdownPct : ℚ) (sym : String) (pos : Position) (px : ℚ) :
    (exitReason cfg drawdownPct nowTs sym pos px).isSome = true ↔
      MeetsRule cfg drawdownPct nowTs pos px := by
  simp only [exitReason, MeetsRule]
  split_ifs with lockdown stopLoss takeProfit timeStop
  · simp [lockdown]
  · simp [stopLoss]
  · simp [takeProfit]
  · simp [timeStop]
  · simp [lockdown, stopLoss, takeProfit, timeStop]

/-- The value of a position at its view price, `0` without a view. -/
def viewValue (price : Dict String ℚ) (entry : String × Position) : ℚ :=
  entry.2.qty * (price.get? (Py.upper entry.1)).getD 0

/-- A held position with a view that meets a rule. -/
def ExitDue (cfg : Config) (price : Dict String ℚ) (drawdownPct nowTs : ℚ)
    (entry : String × Position) : Prop :=
  0 < entry.2.qty ∧ ∃ px ∈ price.get? (Py.upper entry.1),
    MeetsRule cfg drawdownPct nowTs entry.2 px

instance (cfg : Config) (price : Dict String ℚ) (drawdownPct nowTs : ℚ)
    (entry : String × Position) : Decidable (ExitDue cfg price drawdownPct nowTs entry) :=
  inferInstanceAs (Decidable (_ ∧ _))

theorem exitOf_eq_some {price : Dict String ℚ} {drawdownPct : ℚ} {entry : String × Position}
    (found : exitOf cfg price drawdownPct nowTs quote chain entry = some intent) :
    ∃ px reason, price.get? (Py.upper entry.1) = some px ∧ 0 < entry.2.qty ∧
      exitReason cfg drawdownPct nowTs (Py.upper entry.1) entry.2 px = some reason ∧
      intent = ⟨.exit, chain, Py.upper entry.1, quote, Py.roundTo 2 (entry.2.qty * px), 0.9,
        reason, ""⟩ := by
  simp only [exitOf] at found
  cases priced : price.get? (Py.upper entry.1) with
  | none => simp [priced] at found
  | some px =>
      simp only [priced] at found
      split_ifs at found with empty
      rcases Option.map_eq_some_iff.1 found with ⟨reason, due, rfl⟩
      exact ⟨px, reason, rfl, not_le.1 empty, due, rfl⟩

theorem exitOf_isSome_iff (price : Dict String ℚ) (drawdownPct : ℚ) (quote chain : String)
    (entry : String × Position) :
    (exitOf cfg price drawdownPct nowTs quote chain entry).isSome = true ↔
      ExitDue cfg price drawdownPct nowTs entry := by
  simp only [exitOf, ExitDue]
  cases price.get? (Py.upper entry.1) with
  | none => simp
  | some px =>
      by_cases empty : entry.2.qty ≤ 0
      · simp [empty, not_lt.2 empty]
      · simp [empty, not_le.1 empty, exitReason_isSome_iff]

/-- The first position of the book whose exit is due. -/
def firstDue (cfg : Config) (price : Dict String ℚ) (portfolio : PortfolioState) (nowTs : ℚ) :
    Option (String × Position) :=
  portfolio.positions.entries.find? fun entry =>
    ExitDue cfg price portfolio.drawdownPct nowTs entry

theorem findSome?_eq_find?_bind {α β : Type} (f : α → Option β) (due : α → Bool)
    (agrees : ∀ a, (f a).isSome = due a) (xs : List α) :
    xs.findSome? f = (xs.find? due).bind f := by
  induction xs with
  | nil => rfl
  | cons x xs ih =>
      rw [List.findSome?_cons, List.find?_cons, ← agrees x]
      cases found : f x with
      | none => simpa using ih
      | some y => simp [found]

theorem firstExit_eq_firstDue_bind :
    firstExit cfg (priceMap views) portfolio nowTs quote chain =
      (firstDue cfg (priceMap views) portfolio nowTs).bind
        (exitOf cfg (priceMap views) portfolio.drawdownPct nowTs quote chain) := by
  apply findSome?_eq_find?_bind
  intro entry
  rw [Bool.eq_iff_iff, exitOf_isSome_iff, decide_eq_true_iff]

theorem firstEntry_eq_some {ranked : List (TokenView × Regime)}
    (found : firstEntry cfg portfolio quote chain ranked = .ok (some intent)) :
    ∃ entry ∈ ranked, portfolio.positions.get? (Py.upper entry.1.symbol) = none ∧
      ∃ size, volScaledSize portfolio.navUsd entry.1.vol24hPct cfg
          (ladderRung portfolio.drawdownPct cfg = "halve_size") = .ok size ∧
        1 ≤ min size (room cfg portfolio * portfolio.navUsd) ∧
        intent = ⟨.enter, chain, quote, Py.upper entry.1.symbol,
          Py.roundTo 2 (min size (room cfg portfolio * portfolio.navUsd)), 0.7,
          "enter " ++ Py.upper entry.1.symbol ++ ": " ++ entry.2.reason, ""⟩ := by
  induction ranked with
  | nil => simp [firstEntry] at found
  | cons entry ranked ih =>
      rcases entry with ⟨view, regime⟩
      simp only [firstEntry] at found
      split_ifs at found with heldAlready
      · rcases ih found with ⟨entry, mem, rest⟩
        exact ⟨entry, List.mem_cons_of_mem _ mem, rest⟩
      · cases sized : volScaledSize portfolio.navUsd view.vol24hPct cfg
            (ladderRung portfolio.drawdownPct cfg = "halve_size") with
        | error e => simp [sized, bind, Except.bind] at found
        | ok size =>
            simp only [sized, bind, Except.bind] at found
            split_ifs at found with large
            · have same := Option.some.inj (Except.ok.inj found)
              have unheld : portfolio.positions.get? (Py.upper view.symbol) = none := by
                simpa using heldAlready
              exact ⟨(view, regime), by simp, unheld, size, sized, large, same.symm⟩
            · rcases ih found with ⟨entry, mem, rest⟩
              exact ⟨entry, List.mem_cons_of_mem _ mem, rest⟩

theorem decided_of_rebalance
    (noExit : firstExit cfg (priceMap views) portfolio nowTs quote chain = none)
    (noEntry : canTakeRisk cfg portfolio → firstEntry cfg portfolio quote chain
      (rankEntries (entryViews views cfg) cfg.volEnterMaxPct) = .ok none)
    (found : rebalance views cfg portfolio quote chain = some intent) :
    Decided views portfolio cfg nowTs quote chain intent := by
  simp only [rebalance] at found
  split_ifs at found with ready below above
  · rcases Option.map_eq_some_iff.1 found with ⟨tok, chosen, rfl⟩
    exact .rebalanceUp noExit noEntry ready below.2 below.1 tok chosen
  · rcases Option.map_eq_some_iff.1 found with ⟨sym, largest, rfl⟩
    exact .rebalanceDown noExit noEntry ready below above sym largest

/-- Every intent comes from one of the branches. -/
theorem decided_of_decide (found : decide views portfolio cfg nowTs quote chain = .ok intent) :
    Decided views portfolio cfg nowTs quote chain intent := by
  simp only [decide] at found
  cases exits : firstExit cfg (priceMap views) portfolio nowTs quote chain with
  | some exiting =>
      simp only [exits, Except.ok.injEq] at found
      subst found
      rcases List.exists_of_findSome?_eq_some exits with ⟨entry, mem, exitFound⟩
      rcases exitOf_eq_some exitFound with ⟨px, reason, priced, held, due, rfl⟩
      exact .exit entry mem px priced held reason due
  | none =>
      simp only [exits] at found
      have finish : ∀ entered : Option Intent,
          (canTakeRisk cfg portfolio → firstEntry cfg portfolio quote chain
            (rankEntries (entryViews views cfg) cfg.volEnterMaxPct) = .ok entered) →
          (∀ entering, entered = some entering →
            Decided views portfolio cfg nowTs quote chain entering) →
          Decided views portfolio cfg nowTs quote chain
            ((entered.or (rebalance views cfg portfolio quote chain)).getD
              (hold views cfg portfolio quote chain)) := by
        intro entered scanned enteredDecided
        cases entered with
        | some entering => exact enteredDecided entering rfl
        | none =>
            cases rebalanced : rebalance views cfg portfolio quote chain with
            | some rebalancing =>
                simpa [rebalanced] using decided_of_rebalance exits scanned rebalanced
            | none => simpa [rebalanced] using Decided.hold exits
      split_ifs at found with permitted
      · cases entered : firstEntry cfg portfolio quote chain
            (rankEntries (entryViews views cfg) cfg.volEnterMaxPct) with
        | error e => simp [entered, bind, Except.bind] at found
        | ok entering =>
            simp only [entered, bind, Except.bind, pure, Except.pure, Except.ok.injEq] at found
            subst found
            apply finish entering (fun _ => entered)
            rintro intent rfl
            rcases firstEntry_eq_some entered with
              ⟨⟨view, regime⟩, ranked, unheld, size, sized, large, rfl⟩
            exact .enter exits permitted view regime ranked unheld size sized large
      · simp only [bind, Except.bind, pure, Except.pure, Except.ok.injEq] at found
        subst found
        apply finish none (fun taken => absurd taken permitted)
        simp

theorem mem_entryViews {view : TokenView} (mem : view ∈ entryViews views cfg) :
    view ∈ views ∧ Py.upper view.symbol ∈ universeSet cfg := by
  simpa [entryViews] using mem

/-- The token of an upward rebalance belongs to the universe. -/
theorem mem_universeSet_of_rebalanceToken {tok : String}
    (chosen : rebalanceToken views cfg portfolio = some tok) : tok ∈ universeSet cfg := by
  simp only [rebalanceToken, Option.or_eq_some_iff, Option.filter_eq_some_iff,
    Option.map_eq_some_iff] at chosen
  rcases chosen with ⟨⟨view, ⟨entry, first, rfl⟩, rfl⟩, -⟩ | ⟨-, ⟨view, first, rfl⟩, -⟩
  · have mem := mem_rankEntries (List.mem_of_mem_head? first)
    exact (mem_entryViews mem.1).2
  · have mem := List.mem_of_mem_head? first
    rw [calmViews, List.mem_insertionSort, List.mem_filter] at mem
    exact (mem_entryViews mem.1).2

/-- An exit intent that stands for a trade. -/
def SellsExit (views : List TokenView) (portfolio : PortfolioState) (cfg : Config) (nowTs : ℚ)
    (quote chain : String) : Prop :=
  ∃ intent, decide views portfolio cfg nowTs quote chain = .ok intent ∧ intent.action = .exit ∧
    (intentToDecision intent).isTrade

/-- The scan for exits ends at the first position that is due. -/
theorem firstExit_of_firstDue (quote chain : String) {entry : String × Position}
    (first : firstDue cfg (priceMap views) portfolio nowTs = some entry) :
    ∃ reason, firstExit cfg (priceMap views) portfolio nowTs quote chain =
      some ⟨.exit, chain, Py.upper entry.1, quote,
        Py.roundTo 2 (viewValue (priceMap views) entry), 0.9, reason, ""⟩ := by
  have due : ExitDue cfg (priceMap views) portfolio.drawdownPct nowTs entry := by
    simpa using List.find?_some first
  have isSome := (exitOf_isSome_iff _ _ quote chain _).2 due
  rcases Option.isSome_iff_exists.1 isSome with ⟨exiting, exitFound⟩
  rcases exitOf_eq_some exitFound with ⟨px, reason, priced, -, -, rfl⟩
  refine ⟨reason, ?_⟩
  rw [firstExit_eq_firstDue_bind, first, Option.bind_some, exitFound, viewValue, priced]
  rfl

/-- The scan for exits sells something exactly when the first position that is due
is worth more than half a cent. -/
theorem decide_sells_iff :
    SellsExit views portfolio cfg nowTs quote chain ↔
      ∃ entry, firstDue cfg (priceMap views) portfolio nowTs = some entry ∧
        1 / 200 < viewValue (priceMap views) entry := by
  constructor
  · rintro ⟨intent, decided, exits, trade⟩
    cases first : firstDue cfg (priceMap views) portfolio nowTs with
    | none =>
        exfalso
        have noExit : firstExit cfg (priceMap views) portfolio nowTs quote chain = none := by
          rw [firstExit_eq_firstDue_bind, first]
          rfl
        rcases decided_of_decide decided with ⟨entry, mem, px, priced, held, reason, due⟩ | _ | _ |
          _ | _
        · apply List.find?_eq_none.1 first entry mem
          rw [decide_eq_true_iff]
          exact ⟨held, px, priced, (exitReason_isSome_iff _ _ _ _).1 (by rw [due]; rfl)⟩
        all_goals simp [hold] at exits
    | some entry =>
        refine ⟨entry, rfl, ?_⟩
        rcases firstExit_of_firstDue quote chain first with ⟨reason, scan⟩
        simp only [decide, scan, Except.ok.injEq] at decided
        subst decided
        exact (Py.roundTo_two_pos_iff _).1 trade.2
  · rintro ⟨entry, first, worth⟩
    rcases firstExit_of_firstDue quote chain first with ⟨reason, scan⟩
    refine ⟨⟨.exit, chain, Py.upper entry.1, quote,
      Py.roundTo 2 (viewValue (priceMap views) entry), 0.9, reason, ""⟩, ?_, rfl, Or.inr rfl, ?_⟩
    · simp only [decide, scan]
    · exact (Py.roundTo_two_pos_iff _).2 worth

/-- A held position with a positive view price, worth at least a cent, that meets a
rule. -/
def SizableExitDue (views : List TokenView) (portfolio : PortfolioState) (cfg : Config)
    (nowTs : ℚ) : Prop :=
  ∃ entry ∈ portfolio.positions.entries,
    ExitDue cfg (priceMap views) portfolio.drawdownPct nowTs entry ∧
      (∃ px ∈ (priceMap views).get? (Py.upper entry.1), 0 < px) ∧
      1 / 100 ≤ viewValue (priceMap views) entry

/-- A due exit of a sizable position leads to a sale exactly when the first
position that is due, in the order of the book, is worth more than half a cent. -/
theorem due_exit_sold_iff (views : List TokenView) (portfolio : PortfolioState) (cfg : Config)
    (nowTs : ℚ) (quote chain : String) :
    (SizableExitDue views portfolio cfg nowTs →
        SellsExit views portfolio cfg nowTs quote chain) ↔
      (SizableExitDue views portfolio cfg nowTs →
        ∃ entry, firstDue cfg (priceMap views) portfolio nowTs = some entry ∧
          1 / 200 < viewValue (priceMap views) entry) := by
  rw [decide_sells_iff]

/-- A book whose first token has lost its quote while the second is down by half. -/
def blockedPortfolio : PortfolioState where
  navUsd := 120
  stableUsd := 0
  positions := ⟨[("BTCB", ⟨"BTCB", 1, 20, 0⟩), ("INJ", ⟨"INJ", 10, 20, 0⟩)], by decide⟩
  drawdownPct := 0
  riskyExposurePct := 1
  tradesThisWeek := 0
  secondsSinceLastTrade := 1000000000

/-- The views of that book: no quote for the first token. -/
def blockedViews : List TokenView :=
  [⟨"BTCB", 0, none, none, none, 0, 0, 0, .obj []⟩,
    ⟨"INJ", 10, none, none, none, 0, 0, 0, .obj []⟩]

theorem unquoted_position_blocks_exit :
    SizableExitDue blockedViews blockedPortfolio injectiveConfig 0 ∧
      ¬SellsExit blockedViews blockedPortfolio injectiveConfig 0 "USDT" "injective" := by
  rw [decide_sells_iff]
  constructor
  · refine ⟨("INJ", ⟨"INJ", 10, 20, 0⟩), by simp [blockedPortfolio], ?_, ?_⟩
    · decide +kernel
    · decide +kernel
  · rintro ⟨entry, first, worth⟩
    have blocking : firstDue injectiveConfig (priceMap blockedViews) blockedPortfolio 0 =
        some ("BTCB", ⟨"BTCB", 1, 20, 0⟩) := by decide +kernel
    rw [blocking, Option.some.injEq] at first
    subst first
    revert worth
    decide +kernel

end Survival

end SumplusTrader
