import SumplusTrader.Core.ExposureCap

/-!
# The direction of a decision

This file compares three readings of one trade: the intent of the strategy, which spends the
quote token or raises it; the policy engine, which tells by the side and the quote tokens of the
configuration whether the trade increases or reduces risk; and the booking of its fill, which goes
by the side alone.

The side of a rebalance is read off two token names, whatever the quote tokens are. Together with
holdings that are quote tokens themselves this is the only way in which the readings come apart,
which is what `directed_iff` states.
-/

namespace SumplusTrader

/-- The intent spends the quote token. -/
def Intent.SpendsQuote (intent : Intent) (quote : String) : Prop :=
  intent.action = .enter ∨ intent.action = .rebalance ∧ intent.fromToken = quote

/-- The intent raises the quote token. -/
def Intent.RaisesQuote (intent : Intent) (quote : String) : Prop :=
  intent.action = .exit ∨ intent.action = .rebalance ∧ intent.toToken = quote

/-- Booking a fill of the decision lowers no quantity. -/
def Decision.NeverSells (decision : Decision) : Prop :=
  ∀ (state : State) (amountUsd : ℚ) (price : Dict String ℚ) (nowTs : ℚ) (sym : String),
    0 ≤ amountUsd → state.qtyOf sym ≤ (applyFill state decision amountUsd price nowTs).qtyOf sym

/-- Booking a fill of the decision neither creates nor enlarges a position. -/
def Decision.NeverBuys (decision : Decision) : Prop :=
  ∀ (state : State) (amountUsd : ℚ) (price : Dict String ℚ) (nowTs : ℚ) (sym : String),
    0 ≤ amountUsd →
      (applyFill state decision amountUsd price nowTs).qtyOf sym ≤ max (state.qtyOf sym) 0

/-- The engine and the booking read the decision of an intent as the intent is meant. -/
structure Intent.Directed (intent : Intent) (cfg : Config) (quote : String) : Prop where
  increasing : (PolicyEngine.ofConfig cfg).riskIncreasing (intentToDecision intent) ↔
    intent.SpendsQuote quote
  reducing : (PolicyEngine.ofConfig cfg).riskReducing (intentToDecision intent) ↔
    intent.RaisesQuote quote
  spent : intent.SpendsQuote quote → (intentToDecision intent).NeverSells
  raised : intent.RaisesQuote quote → (intentToDecision intent).NeverBuys

theorem qtyOf_le_applyBuy (state : State) (sym : String) {amountUsd : ℚ} (nonneg : 0 ≤ amountUsd)
    (px nowTs : ℚ) (other : String) :
    state.qtyOf other ≤ (applyBuy state sym amountUsd px nowTs).qtyOf other := by
  unfold applyBuy
  split
  · next bought =>
    have more : 0 ≤ amountUsd / px := div_nonneg nonneg bought.1.le
    by_cases same : other = sym
    · subst same
      cases held : state.positions.get? other with
      | none => simpa [State.qtyOf, held, Dict.get?_set_self] using more
      | some old => simpa [State.qtyOf, held, Dict.get?_set_self, addToPosition] using more
    · apply le_of_eq
      cases state.positions.get? sym with
      | none => simp [State.qtyOf, Dict.get?_set_of_ne _ _ same]
      | some old => simp [State.qtyOf, Dict.get?_set_of_ne _ _ same]
  · exact le_rfl

theorem Decision.neverSells_of_buy {decision : Decision} (buys : decision.side = .buy) :
    decision.NeverSells := by
  intro state amountUsd price nowTs sym nonneg
  simp only [applyFill, buys]
  exact qtyOf_le_applyBuy state _ nonneg _ nowTs sym

theorem Decision.neverBuys_of_sell {decision : Decision} (sells : decision.side = .sell) :
    decision.NeverBuys := by
  intro state amountUsd price nowTs sym nonneg
  simp only [applyFill, sells]
  exact qtyOf_applySell_le state _ nonneg _ sym

namespace Survival

variable {views : List TokenView} {portfolio : PortfolioState} {cfg : Config} {nowTs : ℚ}
  {quote chain : String} {intent : Intent}

/-- Every ranked token that is not held sizes below a dollar. -/
def NothingToEnter (portfolio : PortfolioState) (cfg : Config)
    (ranked : List (TokenView × Regime)) : Prop :=
  ∀ entry ∈ ranked, portfolio.positions.get? (Py.upper entry.1.symbol) = none →
    ∃ size, volScaledSize portfolio.navUsd entry.1.vol24hPct cfg
        (ladderRung portfolio.drawdownPct cfg = "halve_size") = .ok size ∧
      min size (room cfg portfolio * portfolio.navUsd) < 1

/-- No exit is due, nothing is entered, and the strategy may rebalance. -/
structure ComesToRebalance (views : List TokenView) (portfolio : PortfolioState) (cfg : Config)
    (nowTs : ℚ) : Prop where
  noneDue : firstDue cfg (priceMap views) portfolio nowTs = none
  noEntry : canTakeRisk cfg portfolio → NothingToEnter portfolio cfg
    (rankEntries (entryViews views cfg) cfg.volEnterMaxPct)
  ready : canRebalance cfg portfolio

/-- A ranked token that is not held sizes to a dollar, and those before it do not. -/
def Enters (portfolio : PortfolioState) (cfg : Config) (ranked : List (TokenView × Regime))
    (sym : String) : Prop :=
  ∃ before entry after, ranked = before ++ entry :: after ∧ Py.upper entry.1.symbol = sym ∧
    NothingToEnter portfolio cfg before ∧ portfolio.positions.get? sym = none ∧
    ∃ size, volScaledSize portfolio.navUsd entry.1.vol24hPct cfg
        (ladderRung portfolio.drawdownPct cfg = "halve_size") = .ok size ∧
      1 ≤ min size (room cfg portfolio * portfolio.navUsd)

/-- The intents that come apart are avoided: those that trade one quote token for another, a
rebalance up into a token that counts as cash, and a rebalance down into a quote token that does
not. Amounts that round to nothing are no trades. -/
structure KeepsDirection (views : List TokenView) (portfolio : PortfolioState) (cfg : Config)
    (nowTs : ℚ) (quote : String) : Prop where
  exit : ∀ entry, firstDue cfg (priceMap views) portfolio nowTs = some entry →
    1 / 200 < viewValue (priceMap views) entry →
      ¬(PolicyEngine.ofConfig cfg).isStable (Py.upper entry.1)
  enter : firstDue cfg (priceMap views) portfolio nowTs = none → canTakeRisk cfg portfolio →
    ∀ sym, Enters portfolio cfg (rankEntries (entryViews views cfg) cfg.volEnterMaxPct) sym →
      ¬(PolicyEngine.ofConfig cfg).isStable sym
  up : ComesToRebalance views portfolio cfg nowTs → BelowBand portfolio cfg →
    1 / 200 < cfg.minTrades.microRebalanceUsd →
      ∀ tok, rebalanceToken views cfg portfolio = some tok →
        ¬isCash tok ∧ ¬(PolicyEngine.ofConfig cfg).isStable tok
  down : ComesToRebalance views portfolio cfg nowTs → ¬BelowBand portfolio cfg →
    cfg.minTrades.targetRiskyRatio + cfg.minTrades.rebalanceBand < portfolio.riskyExposurePct →
      1 / 200 < cfg.minTrades.microRebalanceUsd →
        ∀ sym, largestHolding (priceMap views) portfolio = some sym →
          isCash quote ∧ ¬(PolicyEngine.ofConfig cfg).isStable sym

theorem firstEntry_eq_none_iff (quote chain : String) {ranked : List (TokenView × Regime)} :
    firstEntry cfg portfolio quote chain ranked = .ok none ↔
      NothingToEnter portfolio cfg ranked := by
  unfold NothingToEnter
  induction ranked with
  | nil => simp [firstEntry]
  | cons entry ranked ih =>
      rw [List.forall_mem_cons, ← ih]
      simp only [firstEntry]
      cases held : portfolio.positions.get? (Py.upper entry.1.symbol) with
      | some position => simp
      | none =>
          cases sized : volScaledSize portfolio.navUsd entry.1.vol24hPct cfg
              (ladderRung portfolio.drawdownPct cfg = "halve_size") with
          | error e => simp [bind, Except.bind]
          | ok size =>
              simp only [Option.isSome_none, Bool.false_eq_true, if_false, bind, Except.bind, pure,
                Except.pure, forall_const, Except.ok.injEq, exists_eq_left']
              by_cases small : min size (room cfg portfolio * portfolio.navUsd) < 1
              · rw [if_neg (not_le.2 small), and_iff_right small]
              · rw [if_pos (not_lt.1 small)]
                simp only [small, false_and, Except.ok.injEq, reduceCtorEq]

/-- The scan for entries ends at the first token that is entered. -/
theorem firstEntry_of_enters (quote chain : String) {ranked : List (TokenView × Regime)}
    {sym : String} (enters : Enters portfolio cfg ranked sym) :
    ∃ amountUsd rationale, 0 < amountUsd ∧ firstEntry cfg portfolio quote chain ranked =
      .ok (some ⟨.enter, chain, quote, sym, amountUsd, 0.7, rationale, ""⟩) := by
  rcases enters with ⟨before, entry, after, rfl, rfl, nothing, unheld, size, sized, large⟩
  have rest : ∃ amountUsd rationale, 0 < amountUsd ∧
      firstEntry cfg portfolio quote chain (entry :: after) = .ok (some
        ⟨.enter, chain, quote, Py.upper entry.1.symbol, amountUsd, 0.7, rationale, ""⟩) := by
    have positive : 0 < Py.roundTo 2 (min size (room cfg portfolio * portfolio.navUsd)) :=
      (Py.roundTo_two_pos_iff _).2 (by linarith)
    refine ⟨_, "enter " ++ Py.upper entry.1.symbol ++ ": " ++ entry.2.reason, positive, ?_⟩
    simp only [firstEntry, unheld, Option.isSome_none, Bool.false_eq_true, if_false, sized, bind,
      Except.bind, if_pos large]
    rfl
  rcases rest with ⟨amountUsd, rationale, positive, found⟩
  refine ⟨amountUsd, rationale, positive, ?_⟩
  induction before with
  | nil => exact found
  | cons skipped before ih =>
      rcases List.forall_mem_cons.1 nothing with ⟨small, nothing⟩
      have later := ih nothing
      rw [List.cons_append, firstEntry]
      dsimp only
      split
      · exact later
      · next unheld' =>
        rcases small (by simpa using unheld') with ⟨size', sized', small⟩
        simp only [sized', bind, Except.bind, if_neg (not_le.2 small)]
        exact later

theorem Enters.cons {ranked : List (TokenView × Regime)} {entry : TokenView × Regime} {sym : String}
    (enters : Enters portfolio cfg ranked sym) (skipped : NothingToEnter portfolio cfg [entry]) :
    Enters portfolio cfg (entry :: ranked) sym := by
  rcases enters with ⟨before, entered, after, rfl, same, nothing, unheld⟩
  refine ⟨entry :: before, entered, after, rfl, same, ?_, unheld⟩
  rw [NothingToEnter, List.forall_mem_cons]
  exact ⟨skipped entry (List.mem_singleton_self entry), nothing⟩

theorem enters_of_firstEntry {ranked : List (TokenView × Regime)}
    (found : firstEntry cfg portfolio quote chain ranked = .ok (some intent)) :
    ∃ sym amountUsd rationale, Enters portfolio cfg ranked sym ∧
      intent = ⟨.enter, chain, quote, sym, amountUsd, 0.7, rationale, ""⟩ := by
  induction ranked with
  | nil => simp [firstEntry] at found
  | cons entry ranked ih =>
      have later : firstEntry cfg portfolio quote chain ranked = .ok (some intent) →
          NothingToEnter portfolio cfg [entry] →
            ∃ sym amountUsd rationale, Enters portfolio cfg (entry :: ranked) sym ∧
              intent = ⟨.enter, chain, quote, sym, amountUsd, 0.7, rationale, ""⟩ := by
        intro found skipped
        rcases ih found with ⟨sym, amountUsd, rationale, enters, shape⟩
        exact ⟨sym, amountUsd, rationale, enters.cons skipped, shape⟩
      rw [firstEntry] at found
      dsimp only at found
      split at found
      · next held =>
        apply later found
        intro other mem unheld
        rw [List.mem_singleton] at mem
        rw [mem] at unheld
        rw [unheld] at held
        cases held
      · next unheld =>
        have free : portfolio.positions.get? (Py.upper entry.1.symbol) = none := by
          simpa using unheld
        cases sized : volScaledSize portfolio.navUsd entry.1.vol24hPct cfg
            (ladderRung portfolio.drawdownPct cfg = "halve_size") with
        | error e => simp [sized, bind, Except.bind] at found
        | ok size =>
            simp only [sized, bind, Except.bind] at found
            split at found
            · next large =>
              have same := Option.some.inj (Except.ok.inj found)
              refine ⟨_, _, _, ⟨[], entry, ranked, rfl, rfl, ?_, free, size, sized, large⟩,
                same.symm⟩
              intro other mem
              cases mem
            · next small =>
              apply later found
              intro other mem _
              rw [List.mem_singleton] at mem
              exact ⟨size, mem ▸ sized, not_le.1 small⟩

theorem firstExit_eq_none_iff (quote chain : String) :
    firstExit cfg (priceMap views) portfolio nowTs quote chain = none ↔
      firstDue cfg (priceMap views) portfolio nowTs = none := by
  constructor
  · exact firstDue_eq_none_of_noExit
  · intro none
    rw [firstExit_eq_firstDue_bind, none]
    rfl

/-- A strategy with no exit and no entry rebalances, or holds. -/
theorem decide_of_noEntry
    (noExit : firstExit cfg (priceMap views) portfolio nowTs quote chain = none)
    (noEntry : canTakeRisk cfg portfolio → firstEntry cfg portfolio quote chain
      (rankEntries (entryViews views cfg) cfg.volEnterMaxPct) = .ok none) :
    decide views portfolio cfg nowTs quote chain =
      .ok ((rebalance views cfg portfolio quote chain).getD
        (hold views cfg portfolio quote chain)) := by
  simp only [decide, noExit]
  by_cases permitted : canTakeRisk cfg portfolio
  · rw [if_pos permitted, noEntry permitted]
    rfl
  · rw [if_neg permitted]
    rfl

theorem comesToRebalance_of_noEntry
    (noExit : firstExit cfg (priceMap views) portfolio nowTs quote chain = none)
    (noEntry : canTakeRisk cfg portfolio → firstEntry cfg portfolio quote chain
      (rankEntries (entryViews views cfg) cfg.volEnterMaxPct) = .ok none)
    (ready : canRebalance cfg portfolio) : ComesToRebalance views portfolio cfg nowTs :=
  ⟨(firstExit_eq_none_iff quote chain).1 noExit,
    fun permitted => (firstEntry_eq_none_iff quote chain).1 (noEntry permitted), ready⟩

/-- A strategy that comes to rebalance does so, or holds. -/
theorem decide_of_comesToRebalance (comes : ComesToRebalance views portfolio cfg nowTs)
    (quote chain : String) :
    decide views portfolio cfg nowTs quote chain =
      .ok ((rebalance views cfg portfolio quote chain).getD
        (hold views cfg portfolio quote chain)) :=
  decide_of_noEntry ((firstExit_eq_none_iff quote chain).2 comes.noneDue)
    fun permitted => (firstEntry_eq_none_iff quote chain).2 (comes.noEntry permitted)

theorem action_of_rebalance (found : rebalance views cfg portfolio quote chain = some intent) :
    intent.action = .rebalance := by
  simp only [rebalance] at found
  split_ifs at found
  · rcases Option.map_eq_some_iff.1 found with ⟨tok, -, rfl⟩
    rfl
  · rcases Option.map_eq_some_iff.1 found with ⟨sym, -, rfl⟩
    rfl

/-- An intent to enter comes from the scan for entries. -/
theorem firstEntry_of_decide
    (noExit : firstExit cfg (priceMap views) portfolio nowTs quote chain = none)
    (permitted : canTakeRisk cfg portfolio)
    (decided : decide views portfolio cfg nowTs quote chain = .ok intent)
    (enters : intent.action = .enter) :
    firstEntry cfg portfolio quote chain
      (rankEntries (entryViews views cfg) cfg.volEnterMaxPct) = .ok (some intent) := by
  simp only [decide, noExit, if_pos permitted] at decided
  cases scanned : firstEntry cfg portfolio quote chain
      (rankEntries (entryViews views cfg) cfg.volEnterMaxPct) with
  | error e => simp [scanned, bind, Except.bind] at decided
  | ok entered =>
      simp only [scanned, bind, Except.bind, pure, Except.pure, Except.ok.injEq] at decided
      cases entered with
      | some entering => simpa using decided
      | none =>
          cases rebalanced : rebalance views cfg portfolio quote chain with
          | none =>
              rw [rebalanced] at decided
              simp [← decided, hold] at enters
          | some rebalancing =>
              have rebalances := action_of_rebalance rebalanced
              simp only [rebalanced, Option.none_or, Option.getD_some] at decided
              rw [decided, enters] at rebalances
              cases rebalances

theorem decide_of_enters (noneDue : firstDue cfg (priceMap views) portfolio nowTs = none)
    (permitted : canTakeRisk cfg portfolio) (quote chain : String) {sym : String}
    (enters : Enters portfolio cfg (rankEntries (entryViews views cfg) cfg.volEnterMaxPct) sym) :
    ∃ amountUsd rationale, 0 < amountUsd ∧ decide views portfolio cfg nowTs quote chain =
      .ok ⟨.enter, chain, quote, sym, amountUsd, 0.7, rationale, ""⟩ := by
  rcases firstEntry_of_enters quote chain enters with ⟨amountUsd, rationale, positive, found⟩
  refine ⟨amountUsd, rationale, positive, ?_⟩
  simp only [decide, (firstExit_eq_none_iff quote chain).2 noneDue, if_pos permitted, found]
  rfl

theorem decide_of_rebalanceUp (comes : ComesToRebalance views portfolio cfg nowTs)
    (below : BelowBand portfolio cfg) (quote chain : String) {tok : String}
    (chosen : rebalanceToken views cfg portfolio = some tok) :
    ∃ rationale, decide views portfolio cfg nowTs quote chain =
      .ok ⟨.rebalance, chain, quote, tok, Py.roundTo 2 cfg.minTrades.microRebalanceUsd, 0.4,
        rationale, ""⟩ := by
  refine ⟨"micro-rebalance up toward " ++ targetText cfg ++ "% risky (" ++ tok ++ ")", ?_⟩
  rw [decide_of_comesToRebalance comes]
  unfold rebalance
  rw [if_neg (not_not.2 comes.ready), if_pos ⟨below.1, below.2⟩, chosen]
  rfl

theorem decide_of_rebalanceDown (comes : ComesToRebalance views portfolio cfg nowTs)
    (notBelow : ¬BelowBand portfolio cfg)
    (above : cfg.minTrades.targetRiskyRatio + cfg.minTrades.rebalanceBand <
      portfolio.riskyExposurePct) (quote chain : String) {sym : String}
    (largest : largestHolding (priceMap views) portfolio = some sym) :
    ∃ rationale, decide views portfolio cfg nowTs quote chain =
      .ok ⟨.rebalance, chain, sym, quote, Py.roundTo 2 cfg.minTrades.microRebalanceUsd, 0.4,
        rationale, ""⟩ := by
  refine ⟨"micro-rebalance down toward " ++ targetText cfg ++ "% risky (" ++ sym ++ ")", ?_⟩
  rw [decide_of_comesToRebalance comes]
  unfold rebalance
  rw [if_neg (not_not.2 comes.ready), if_neg fun below => notBelow ⟨below.1, below.2⟩,
    if_pos above, largest]
  rfl

theorem directed_exit (quoted : Core.firstQuote cfg = .ok quote) (chain sym : String)
    (amountUsd confidence : ℚ) (rationale reason : String) :
    Intent.Directed ⟨.exit, chain, sym, quote, amountUsd, confidence, rationale, reason⟩ cfg quote ↔
      ¬(PolicyEngine.ofConfig cfg).isStable sym := by
  have stable := Core.isStable_firstQuote quoted
  constructor
  · rintro ⟨-, reducing, -, -⟩
    exact (reducing.2 (Or.inl rfl)).2.1
  · intro apart
    refine ⟨?_, ?_, ?_, fun _ => Decision.neverBuys_of_sell rfl⟩
    · simp [PolicyEngine.riskIncreasing, intentToDecision, intentSide, Intent.SpendsQuote]
    · simp [PolicyEngine.riskReducing, intentToDecision, intentSide, Intent.RaisesQuote, apart,
        stable]
    · simp [Intent.SpendsQuote]

theorem directed_enter (quoted : Core.firstQuote cfg = .ok quote) (chain sym : String)
    (amountUsd confidence : ℚ) (rationale reason : String) :
    Intent.Directed ⟨.enter, chain, quote, sym, amountUsd, confidence, rationale, reason⟩ cfg
      quote ↔ ¬(PolicyEngine.ofConfig cfg).isStable sym := by
  have stable := Core.isStable_firstQuote quoted
  constructor
  · rintro ⟨increasing, -, -, -⟩
    exact (increasing.2 (Or.inl rfl)).2.2
  · intro apart
    refine ⟨?_, ?_, fun _ => Decision.neverSells_of_buy rfl, ?_⟩
    · simp [PolicyEngine.riskIncreasing, intentToDecision, intentSide, Intent.SpendsQuote, apart,
        stable]
    · simp [PolicyEngine.riskReducing, intentToDecision, intentSide, Intent.RaisesQuote]
    · simp [Intent.RaisesQuote]

theorem directed_rebalanceUp (quoted : Core.firstQuote cfg = .ok quote) (chain tok : String)
    (amountUsd confidence : ℚ) (rationale reason : String) :
    Intent.Directed ⟨.rebalance, chain, quote, tok, amountUsd, confidence, rationale, reason⟩ cfg
      quote ↔ ¬isCash tok ∧ ¬(PolicyEngine.ofConfig cfg).isStable tok := by
  have stable := Core.isStable_firstQuote quoted
  constructor
  · rintro ⟨increasing, -, -, -⟩
    rcases increasing.2 (Or.inr ⟨rfl, rfl⟩) with ⟨buys, -, apart⟩
    refine ⟨?_, apart⟩
    intro cash
    simp [intentToDecision, intentSide, cash] at buys
  · rintro ⟨notCash, apart⟩
    have buys : (intentToDecision
        ⟨.rebalance, chain, quote, tok, amountUsd, confidence, rationale, reason⟩).side = .buy := by
      simp [intentToDecision, intentSide, notCash]
    have distinct : tok ≠ quote := by
      rintro rfl
      exact apart stable
    refine ⟨⟨fun _ => Or.inr ⟨rfl, rfl⟩, fun _ => ⟨buys, stable, apart⟩⟩, ?_,
      fun _ => Decision.neverSells_of_buy buys, ?_⟩
    · simp [PolicyEngine.riskReducing, buys, Intent.RaisesQuote, distinct]
    · simp [Intent.RaisesQuote, distinct]

theorem directed_rebalanceDown (quoted : Core.firstQuote cfg = .ok quote) (chain sym : String)
    (amountUsd confidence : ℚ) (rationale reason : String) :
    Intent.Directed ⟨.rebalance, chain, sym, quote, amountUsd, confidence, rationale, reason⟩ cfg
      quote ↔ isCash quote ∧ ¬(PolicyEngine.ofConfig cfg).isStable sym := by
  have stable := Core.isStable_firstQuote quoted
  constructor
  · rintro ⟨-, reducing, -, -⟩
    rcases reducing.2 (Or.inr ⟨rfl, rfl⟩) with ⟨sells, apart, -⟩
    refine ⟨?_, apart⟩
    by_contra notCash
    simp [intentToDecision, intentSide, notCash] at sells
  · rintro ⟨cash, apart⟩
    have sells : (intentToDecision
        ⟨.rebalance, chain, sym, quote, amountUsd, confidence, rationale, reason⟩).side =
          .sell := by
      simp [intentToDecision, intentSide, cash]
    have distinct : sym ≠ quote := by
      rintro rfl
      exact apart stable
    refine ⟨?_, ⟨fun _ => Or.inr ⟨rfl, rfl⟩, fun _ => ⟨sells, apart, stable⟩⟩, ?_,
      fun _ => Decision.neverBuys_of_sell sells⟩
    · simp [PolicyEngine.riskIncreasing, sells, Intent.SpendsQuote, distinct]
    · simp [Intent.SpendsQuote, distinct]

/-- Every trade that the strategy proposes is read as it is meant. -/
def AlwaysDirected (views : List TokenView) (portfolio : PortfolioState) (cfg : Config)
    (nowTs : ℚ) (quote chain : String) : Prop :=
  ∀ intent, decide views portfolio cfg nowTs quote chain = .ok intent →
    (intentToDecision intent).isTrade → intent.Directed cfg quote

theorem rebalance_isTrade (chain fromToken toToken rationale : String)
    (worth : 1 / 200 < cfg.minTrades.microRebalanceUsd) :
    (intentToDecision ⟨.rebalance, chain, fromToken, toToken,
      Py.roundTo 2 cfg.minTrades.microRebalanceUsd, 0.4, rationale, ""⟩).isTrade := by
  refine ⟨?_, (Py.roundTo_two_pos_iff _).2 worth⟩
  simp only [intentToDecision, intentSide]
  split
  · exact Or.inr rfl
  · exact Or.inl rfl

theorem keepsDirection_of_alwaysDirected (quoted : Core.firstQuote cfg = .ok quote)
    (always : AlwaysDirected views portfolio cfg nowTs quote chain) :
    KeepsDirection views portfolio cfg nowTs quote := by
  constructor
  · intro entry first worth
    rcases firstExit_of_firstDue quote chain first with ⟨reason, scan⟩
    have decided : decide views portfolio cfg nowTs quote chain =
        .ok ⟨.exit, chain, Py.upper entry.1, quote,
          Py.roundTo 2 (viewValue (priceMap views) entry), 0.9, reason, ""⟩ := by
      simp only [decide, scan]
    have directed := always _ decided ⟨Or.inr rfl, (Py.roundTo_two_pos_iff _).2 worth⟩
    exact (directed_exit quoted chain _ _ _ _ _).1 directed
  · intro noneDue permitted sym enters
    rcases decide_of_enters noneDue permitted quote chain enters with
      ⟨amountUsd, rationale, positive, decided⟩
    have directed := always _ decided ⟨Or.inl rfl, positive⟩
    exact (directed_enter quoted chain _ _ _ _ _).1 directed
  · intro comes below worth tok chosen
    rcases decide_of_rebalanceUp comes below quote chain chosen with ⟨rationale, decided⟩
    have directed := always _ decided (rebalance_isTrade chain quote tok rationale worth)
    exact (directed_rebalanceUp quoted chain _ _ _ _ _).1 directed
  · intro comes notBelow above worth sym largest
    rcases decide_of_rebalanceDown comes notBelow above quote chain largest with
      ⟨rationale, decided⟩
    have directed := always _ decided (rebalance_isTrade chain sym quote rationale worth)
    exact (directed_rebalanceDown quoted chain _ _ _ _ _).1 directed

theorem alwaysDirected_of_keepsDirection (quoted : Core.firstQuote cfg = .ok quote)
    (keeps : KeepsDirection views portfolio cfg nowTs quote) :
    AlwaysDirected views portfolio cfg nowTs quote chain := by
  intro intent decided trade
  cases first : firstDue cfg (priceMap views) portfolio nowTs with
  | some entry =>
      rcases firstExit_of_firstDue quote chain first with ⟨reason, scan⟩
      simp only [decide, scan, Except.ok.injEq] at decided
      subst decided
      rw [directed_exit quoted]
      exact keeps.exit entry first ((Py.roundTo_two_pos_iff _).1 trade.2)
  | none =>
      have noExit := (firstExit_eq_none_iff quote chain).2 first
      cases decided_of_decide decided with
      | exit entry mem px priced held reason due =>
          exfalso
          apply List.find?_eq_none.1 first entry mem
          rw [decide_eq_true_iff]
          exact ⟨held, px, priced, (exitReason_isSome_iff _ _ _ _).1 (by rw [due]; rfl)⟩
      | enter _ permitted view regime ranked unheld size sized large =>
          rw [directed_enter quoted]
          rcases enters_of_firstEntry (firstEntry_of_decide noExit permitted decided rfl) with
            ⟨sym, amountUsd, rationale, enters, shape⟩
          rw [Intent.mk.injEq] at shape
          rw [shape.2.2.2.1]
          exact keeps.enter first permitted sym enters
      | rebalanceUp _ noEntry ready permitted below tok chosen =>
          rw [directed_rebalanceUp quoted]
          have comes := comesToRebalance_of_noEntry noExit noEntry ready
          exact keeps.up comes ⟨below, permitted⟩ ((Py.roundTo_two_pos_iff _).1 trade.2) tok chosen
      | rebalanceDown _ noEntry ready notBelow above sym largest =>
          rw [directed_rebalanceDown quoted]
          have comes := comesToRebalance_of_noEntry noExit noEntry ready
          exact keeps.down comes notBelow above ((Py.roundTo_two_pos_iff _).1 trade.2) sym largest
      | hold => simp [Decision.isTrade, intentToDecision, intentSide, hold] at trade

/-- **The direction of a decision matches its tokens** on exactly the inputs that keep it. -/
theorem directed_iff (cfg : Config) (quote : String) (quoted : Core.firstQuote cfg = .ok quote)
    (views : List TokenView) (portfolio : PortfolioState) (nowTs : ℚ) (chain : String) :
    AlwaysDirected views portfolio cfg nowTs quote chain ↔
      KeepsDirection views portfolio cfg nowTs quote :=
  ⟨keepsDirection_of_alwaysDirected quoted, alwaysDirected_of_keepsDirection quoted⟩

/-- A profile that is quoted in another token, and rebalances down to nothing. -/
def busdConfig : Config :=
  { injectiveConfig with
    quoteTokens := some ["BUSD"]
    minTrades := ⟨0, 0, 1.2⟩ }

/-- A book that is half in INJ, bought at twenty. -/
def halfPortfolio : PortfolioState where
  navUsd := 100
  stableUsd := 50
  positions := ⟨[("INJ", ⟨"INJ", 5 / 2, 20, 0⟩)], by decide⟩
  drawdownPct := 0
  riskyExposurePct := 0.5
  tradesThisWeek := 0
  secondsSinceLastTrade := 1000000000

def flatViews : List TokenView := [⟨"INJ", 20, none, none, none, 0, 0, 0, .obj []⟩]

/-- A rebalance down into a quote token that is not cash becomes a buy. -/
theorem rebalance_into_quote_buys :
    busdConfig.quoteTokens = some ["BUSD"] ∧ "BUSD" ∉ busdConfig.universeTokens ∧
      ¬AlwaysDirected flatViews halfPortfolio busdConfig 0 "BUSD" "injective" := by
  refine ⟨rfl, by decide, ?_⟩
  intro always
  have decided : decide flatViews halfPortfolio busdConfig 0 "BUSD" "injective" =
      .ok ⟨.rebalance, "injective", "INJ", "BUSD", 1.2, 0.4,
        "micro-rebalance down toward 0% risky (INJ)", ""⟩ := by
    decide +kernel
  have directed := always _ decided (by decide +kernel)
  have reducing := directed.reducing.2 (Or.inr ⟨rfl, rfl⟩)
  exact absurd reducing.1 (by decide +kernel)

theorem directed_iff_injective :
    AlwaysDirected flatViews halfPortfolio injectiveConfig 0 "USDT" "injective" ↔
      KeepsDirection flatViews halfPortfolio injectiveConfig 0 "USDT" :=
  directed_iff injectiveConfig "USDT" rfl flatViews halfPortfolio 0 "injective"

end Survival

end SumplusTrader
