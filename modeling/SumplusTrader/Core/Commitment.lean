import SumplusTrader.Core.TickCases
import SumplusTrader.Policy.CommittedReads

/-!
# What the committed hash fixes

This file compares the verdicts that a tick computes under two configurations with
the same canonical bytes. All rules agree, because every read of a rule sees only
the canonical form. The `chains` object is iterated over instead, so the order of
its entries and its comments decide on which chain the tick trades.

`tickVerdict_same_iff` says that this is the only difference between configurations
that can be read: the verdicts agree in every state and market exactly when the first
entry of `chains` that stops the search names the same chain in both, unless there is
no quote token and no verdict is reached.
-/

namespace SumplusTrader

namespace Core

/-- An entry of `chains` that ends the search: an enabled chain, or no object. -/
def endsSearch (entry : String × Json) : Bool :=
  match entry.2 with
  | .obj fields => ((Json.obj fields).get? "enabled").any Json.truthy
  | _ => true

/-- The chain named by the first entry that ends the search; none when it is no object. -/
def namedChain (chains : List (String × Json)) : Option String :=
  match chains.find? endsSearch with
  | none => some "bsc"
  | some (chain, .obj _) => some chain
  | some _ => none

theorem toOption_tradeChain (chains : List (String × Json)) :
    (tradeChain chains).toOption = namedChain chains := by
  induction chains with
  | nil => rfl
  | cons entry chains ih =>
      rcases entry with ⟨chain, value⟩
      cases value with
      | obj fields =>
          by_cases enabled : ((Json.obj fields).get? "enabled").any Json.truthy
          · simp [tradeChain, namedChain, endsSearch, enabled, Except.toOption]
          · simpa [tradeChain, namedChain, List.find?_cons, endsSearch, enabled] using ih
      | _ => rfl

theorem tradeChain_eq_ok_iff (chains : List (String × Json)) (chain : String) :
    tradeChain chains = .ok chain ↔ namedChain chains = some chain := by
  rw [← toOption_tradeChain]
  cases tradeChain chains <;> simp [Except.toOption]

/-- The decision and the verdict that a tick computes, if it does not raise before. -/
def tickVerdict (configFile : Option String) (state : State) (input : TickInput) :
    Option (Decision × PolicyVerdict) :=
  (prepare configFile state input).toOption.map fun prepared =>
    (prepared.2.decision, prepared.2.verdict)

/-- The decision and the verdict under a configuration that has been read. -/
def Reaches (cfg : Config) (state : State) (input : TickInput)
    (verdict : Decision × PolicyVerdict) : Prop :=
  ∃ views dataTs chain quote intent, marketData cfg input = .ok (views, dataTs) ∧
    namedChain cfg.chains = some chain ∧ firstQuote cfg = .ok quote ∧
    Survival.decide views (buildPortfolioState state views input.stateClock) cfg
      (enforcedNow input.nowTs input.clock) quote chain = .ok intent ∧
    (intentToDecision intent, (PolicyEngine.ofConfig cfg).check (intentToDecision intent)
      (portfolioView (buildPortfolioState state views input.stateClock) state)
      (marketView cfg views dataTs (enforcedNow input.nowTs input.clock))) = verdict

theorem tickVerdict_eq_some_iff (configFile : Option String) (state : State) (input : TickInput)
    {cfg : Json} (truthy : cfg.truthy = true) (verdict : Decision × PolicyVerdict) :
    tickVerdict configFile state { input with cfg := some cfg } = some verdict ↔
      ∃ ph config, committedPolicyHash configFile = .ok ph ∧ Config.ofJson cfg = some config ∧
        Reaches config state input verdict := by
  have enforced : ∀ json, enforcedConfig configFile (some cfg) = .ok json ↔ cfg = json := by
    intro json
    rw [enforcedConfig, if_pos truthy, Except.ok.injEq]
  have reached : tickVerdict configFile state { input with cfg := some cfg } = some verdict ↔
      ∃ ph j, prepare configFile state { input with cfg := some cfg } = .ok (ph, j) ∧
        (j.decision, j.verdict) = verdict := by
    unfold tickVerdict
    rcases prepare configFile state { input with cfg := some cfg } with e | ⟨ph, j⟩
    · simp [Except.toOption]
    · simp [Except.toOption]
  rw [reached]
  simp only [prepare_eq_ok_iff, enforced, judge_eq_ok_iff]
  constructor
  · rintro ⟨ph, j, ⟨json, config, views, dataTs, rfl, committed, read, market, chain, quote, intent,
      traded, quoted, decided, rfl⟩, rfl⟩
    exact ⟨ph, config, committed, read, views, dataTs, chain, quote, intent, market,
      (tradeChain_eq_ok_iff _ _).1 traded, quoted, decided, rfl⟩
  · rintro ⟨ph, config, committed, read, views, dataTs, chain, quote, intent, market, named, quoted,
      decided, rfl⟩
    exact ⟨ph, _, ⟨cfg, config, views, dataTs, rfl, committed, read, market, chain, quote, intent,
      (tradeChain_eq_ok_iff _ _).2 named, quoted, decided, rfl⟩, rfl⟩

theorem firstEntry_withChains (cfg : Config) (chains : List (String × Json))
    (portfolio : PortfolioState) (quote chain : String) (ranked : List (TokenView × Regime)) :
    Survival.firstEntry { cfg with chains := chains } portfolio quote chain ranked =
      Survival.firstEntry cfg portfolio quote chain ranked := by
  induction ranked with
  | nil => rfl
  | cons scored ranked ih =>
      simp only [Survival.firstEntry, ih]
      rfl

theorem decide_withChains (cfg : Config) (chains : List (String × Json)) (views : List TokenView)
    (portfolio : PortfolioState) (nowTs : ℚ) (quote chain : String) :
    Survival.decide views portfolio { cfg with chains := chains } nowTs quote chain =
      Survival.decide views portfolio cfg nowTs quote chain := by
  simp only [Survival.decide, firstEntry_withChains]
  rfl

/-- The chains matter only through the chain they name. -/
theorem reaches_withChains {cfg : Config} {chains : List (String × Json)}
    (named : namedChain chains = namedChain cfg.chains) (state : State) (input : TickInput)
    (verdict : Decision × PolicyVerdict) :
    Reaches { cfg with chains := chains } state input verdict ↔
      Reaches cfg state input verdict := by
  simp only [Reaches, decide_withChains, named]
  exact Iff.rfl

/-- An agent that holds nothing. -/
def freshState : State where
  positions := Dict.empty
  nav := none
  portfolioValueUsd := none
  highWaterMark := none
  stableUsd := none
  lastTradeTs := 0
  tradesThisWeek := 0
  tradesLastHour := 0
  intentSeq := 0
  pendingIntent := none

/-- A tick that sees no token. -/
def emptyMarket : TickInput where
  executor := none
  cfg := none
  nowTs := some 1
  market := some ([], 0)
  fetch := fun _ => .error .osError
  persist := none
  clock := 1
  stateClock := 1
  execLogFails := false

/-- A configuration file with the required values alone. -/
def minimalFile : String :=
  "\x7b\"risk\":\x7b\"max_single_trade_usd\":1,\"max_trades_per_hour\":1," ++
    "\"min_trade_interval_seconds\":1,\"stop_loss_pct\":1,\"take_profit_pct\":1," ++
    "\"max_hold_hours\":1\x7d\x7d"

def holdVerdict (quote chain : String) : Decision × PolicyVerdict :=
  (⟨.hold, chain, quote, quote, 0, 0.3, "no qualifying action"⟩,
    ⟨.allow, .hold, 0, "hold — no action", "none"⟩)

theorem decide_nothing (cfg : Config) (nowTs wall : ℚ) (quote chain : String) :
    Survival.decide [] (buildPortfolioState freshState [] wall) cfg nowTs quote chain =
      .ok (Survival.hold [] cfg (buildPortfolioState freshState [] wall) quote chain) := by
  have noExit : Survival.firstExit cfg (priceMap []) (buildPortfolioState freshState [] wall)
      nowTs quote chain = none := rfl
  have noRebalance : Survival.rebalance [] cfg (buildPortfolioState freshState [] wall) quote
      chain = none := by
    dsimp only [Survival.rebalance]
    split_ifs <;> rfl
  simp only [Survival.decide, noExit, noRebalance]
  split_ifs <;> rfl

theorem reaches_nothing_iff {cfg : Config} {quote : String} (quoted : firstQuote cfg = .ok quote)
    (verdict : Decision × PolicyVerdict) : Reaches cfg freshState emptyMarket verdict ↔
      ∃ chain, namedChain cfg.chains = some chain ∧ holdVerdict quote chain = verdict := by
  constructor
  · rintro ⟨views, dataTs, chain, quote', intent, market, named, quoted', decided, rfl⟩
    rw [quoted, Except.ok.injEq] at quoted'
    simp only [marketData, emptyMarket, Except.ok.injEq, Prod.mk.injEq] at market
    rcases market with ⟨rfl, rfl⟩
    rw [decide_nothing, Except.ok.injEq] at decided
    subst quoted' decided
    exact ⟨chain, named, rfl⟩
  · rintro ⟨chain, named, rfl⟩
    exact ⟨[], 0, chain, quote, _, rfl, named, quoted, decide_nothing cfg 1 1 quote chain, rfl⟩

/-- A configuration that can be read is enforced. -/
theorem truthy_of_read {cfg : Json} {config : Config} (read : Config.ofJson cfg = some config) :
    cfg.truthy = true := by
  cases cfg with
  | obj fields =>
      cases fields with
      | nil => cases read
      | cons field fields => rfl
  | _ => cases read

theorem firstQuote_eq_error {cfg : Config} (noQuote : cfg.quoteTokens = some []) (quote : String) :
    firstQuote cfg ≠ .ok quote := by
  simp [firstQuote, noQuote]

theorem exists_firstQuote {cfg : Config} (quotes : cfg.quoteTokens ≠ some []) :
    ∃ quote, firstQuote cfg = .ok quote := by
  unfold firstQuote
  rcases tokens : cfg.quoteTokens with _ | _ | ⟨quote, rest⟩
  · exact ⟨"USDT", rfl⟩
  · exact absurd tokens quotes
  · exact ⟨quote, rfl⟩

theorem minimalFile_reaches :
    (tickVerdict (some minimalFile) freshState emptyMarket).isSome := by decide +kernel

/-- The minimal file is a committed configuration. -/
theorem minimalFile_committed : ∃ ph, committedPolicyHash (some minimalFile) = .ok ph := by
  rcases Option.isSome_iff_exists.1 minimalFile_reaches with ⟨verdict, reached⟩
  rcases prepared : prepare (some minimalFile) freshState emptyMarket with e | ⟨ph, j⟩
  · simp [tickVerdict, prepared, Except.toOption] at reached
  · rcases prepare_eq_ok_iff.1 prepared with ⟨_, _, _, _, _, committed, _⟩
    exact ⟨ph, committed⟩

/-- Two configurations lead to the same verdict, or to none, in every state and market. -/
def SameVerdicts (cfg other : Json) : Prop :=
  ∀ (configFile : Option String) (state : State) (input : TickInput),
    tickVerdict configFile state { input with cfg := some cfg } =
      tickVerdict configFile state { input with cfg := some other }

section Same

variable {cfg other : Json} (same : canonicalForm cfg = canonicalForm other)
  {config config' : Config} (read : Config.ofJson cfg = some config)
  (readOther : Config.ofJson other = some config')

include same read readOther

/-- Two readings of one canonical form differ in the chains alone. -/
theorem rules_of_canonicalForm_eq : ∃ chains, config' = { config with chains := chains } := by
  rcases Config.exists_ofJson_of_canonicalForm_eq same read with ⟨chains, found⟩
  exact ⟨chains, Option.some.inj (readOther.symm.trans found)⟩

/-- A verdict that one of two configurations reaches, the other reaches too. -/
theorem reaches_of_named {configFile : Option String} {state : State} {input : TickInput}
    {verdict : Decision × PolicyVerdict}
    (named : config.quoteTokens = some [] ∨ namedChain config.chains = namedChain config'.chains)
    (reached : tickVerdict configFile state { input with cfg := some cfg } = some verdict) :
    tickVerdict configFile state { input with cfg := some other } = some verdict := by
  rw [tickVerdict_eq_some_iff _ _ _ (truthy_of_read read)] at reached
  rcases reached with ⟨ph, found, committed, read', reaches⟩
  rw [read, Option.some.injEq] at read'
  subst read'
  rcases rules_of_canonicalForm_eq same read readOther with ⟨chains, rfl⟩
  have agree : namedChain chains = namedChain config.chains := by
    rcases named with noQuote | agree
    · rcases reaches with ⟨_, _, _, quote, _, _, _, quoted, _⟩
      exact absurd quoted (firstQuote_eq_error noQuote quote)
    · exact agree.symm
  rw [tickVerdict_eq_some_iff _ _ _ (truthy_of_read readOther)]
  exact ⟨ph, _, committed, readOther, (reaches_withChains agree state input verdict).2 reaches⟩

theorem named_of_sameVerdicts (verdicts : SameVerdicts cfg other)
    (quotes : config.quoteTokens ≠ some []) :
    namedChain config.chains = namedChain config'.chains := by
  rcases exists_firstQuote quotes with ⟨quote, quoted⟩
  rcases minimalFile_committed with ⟨ph, committed⟩
  have quotedOther : firstQuote config' = .ok quote := by
    rcases rules_of_canonicalForm_eq same read readOther with ⟨chains, rfl⟩
    exact quoted
  have reached : ∀ verdict, Reaches config freshState emptyMarket verdict ↔
      Reaches config' freshState emptyMarket verdict := by
    intro verdict
    have verdicts := verdicts (some minimalFile) freshState emptyMarket
    have transfer : tickVerdict (some minimalFile) freshState { emptyMarket with cfg := some cfg } =
        some verdict ↔ tickVerdict (some minimalFile) freshState
          { emptyMarket with cfg := some other } = some verdict := by rw [verdicts]
    simpa [tickVerdict_eq_some_iff _ _ _ (truthy_of_read read),
      tickVerdict_eq_some_iff _ _ _ (truthy_of_read readOther), read, readOther, committed]
      using transfer
  apply Option.ext
  intro chain
  have names : ∀ {config : Config}, firstQuote config = .ok quote →
      (Reaches config freshState emptyMarket (holdVerdict quote chain) ↔
        namedChain config.chains = some chain) := by
    intro config quoted
    rw [reaches_nothing_iff quoted]
    constructor
    · rintro ⟨_, named, verdict⟩
      have chains := congrArg (fun verdict => verdict.1.chain) verdict
      exact named.trans (congrArg some chains)
    · exact fun named => ⟨chain, named, rfl⟩
  rw [← names quoted, reached, names quotedOther]

end Same

/-- Under equal canonical bytes the verdicts of two configurations that can be read agree exactly
when both name the same chain, unless there is no quote token and no verdict is reached. -/
theorem tickVerdict_same_iff {cfg other : Json} {config config' : Config}
    (same : canonicalBytes cfg = canonicalBytes other) (read : Config.ofJson cfg = some config)
    (readOther : Config.ofJson other = some config') :
    SameVerdicts cfg other ↔
      config.quoteTokens = some [] ∨ namedChain config.chains = namedChain config'.chains := by
  have form := canonicalForm_eq_of_bytes_eq same
  constructor
  · intro verdicts
    by_cases noQuote : config.quoteTokens = some []
    · exact .inl noQuote
    · exact .inr (named_of_sameVerdicts form read readOther verdicts noQuote)
  · intro named configFile state input
    have named' : config'.quoteTokens = some [] ∨
        namedChain config'.chains = namedChain config.chains := by
      rcases rules_of_canonicalForm_eq form read readOther with ⟨chains, rfl⟩
      exact named.imp_right Eq.symm
    apply Option.ext
    intro verdict
    exact ⟨reaches_of_named form read readOther named,
      reaches_of_named form.symm readOther read named'⟩

/-- A profile with two enabled chains, whose pairs are committed on one of them. -/
def twoChainProfile (first second : String) : Json :=
  let enabled := Json.obj [("enabled", .bool true)]
  let number := fun n : ℤ => Json.num (.int n)
  .obj [("chains", .obj [(first, enabled), (second, enabled)]),
    ("universe", .arr [.str "INJ"]), ("quote_tokens", .arr [.str "USDT"]),
    ("allowed_tokens", .arr [.str "USDT", .str "INJ"]),
    ("allowed_pairs", .arr [.obj [("chain", .str "injective"), ("from", .str "USDT"),
      ("to", .str "INJ")]]),
    ("risk", .obj [("max_single_trade_usd", number 2), ("max_trades_per_hour", number 4),
      ("min_trade_interval_seconds", number 900), ("stop_loss_pct", number 2),
      ("take_profit_pct", number 4), ("max_hold_hours", number 48)])]

/-- A market in which the token of the profile rises. -/
def risingMarket : TickInput :=
  { emptyMarket with market := some ([⟨"INJ", 20, some 0.9, some 1.7, some 2.5, 0, 0, 1, .obj []⟩], 1) }

theorem canonicalBytes_twoChainProfile :
    canonicalBytes (twoChainProfile "bsc" "injective") =
      canonicalBytes (twoChainProfile "injective" "bsc") := by
  have text : Json.render .compact (canonicalForm (twoChainProfile "bsc" "injective")) =
      Json.render .compact (canonicalForm (twoChainProfile "injective" "bsc")) := by
    decide +kernel
  rw [canonicalBytes, Json.dumps, text, canonicalBytes, Json.dumps]

theorem tickVerdict_same_iff_twoChains : ∃ config config',
    Config.ofJson (twoChainProfile "bsc" "injective") = some config ∧
      Config.ofJson (twoChainProfile "injective" "bsc") = some config' ∧
      (SameVerdicts (twoChainProfile "bsc" "injective") (twoChainProfile "injective" "bsc") ↔
        config.quoteTokens = some [] ∨ namedChain config.chains = namedChain config'.chains) := by
  have readable : (Config.ofJson (twoChainProfile "bsc" "injective")).isSome := by
    decide +kernel
  have readableOther : (Config.ofJson (twoChainProfile "injective" "bsc")).isSome := by
    decide +kernel
  rcases Option.isSome_iff_exists.1 readable with ⟨config, read⟩
  rcases Option.isSome_iff_exists.1 readableOther with ⟨config', readOther⟩
  exact ⟨config, config', read, readOther,
    tickVerdict_same_iff canonicalBytes_twoChainProfile read readOther⟩

/-- The order of the chains, which the canonical bytes drop, decides whether a buy is
allowed. -/
theorem chain_order_changes_verdict :
    canonicalBytes (twoChainProfile "bsc" "injective") =
        canonicalBytes (twoChainProfile "injective" "bsc") ∧
      (tickVerdict (some "\x7b\x7d") freshState
        { risingMarket with cfg := some (twoChainProfile "bsc" "injective") }).map
          (fun verdict => (verdict.1.chain, verdict.2.action)) = some ("bsc", .reject) ∧
      (tickVerdict (some "\x7b\x7d") freshState
        { risingMarket with cfg := some (twoChainProfile "injective" "bsc") }).map
          (fun verdict => (verdict.1.chain, verdict.2.action)) = some ("injective", .allow) :=
  ⟨canonicalBytes_twoChainProfile, by decide +kernel, by decide +kernel⟩

end Core

end SumplusTrader
