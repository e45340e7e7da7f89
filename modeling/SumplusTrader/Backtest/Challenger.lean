import SumplusTrader.Backtest.Journal

/-!
# The challenger of the backtest

This file models `backtest/challenger.py`, which buys a fixed notional of the next asset of its
rotation on a fixed cadence. It looks at the hour and at the cash, and at nothing else.

The engine asks a strategy up to four times an hour, and nothing in the challenger says that it
has bought already. `runStrategy_challenger` follows: whatever the prices, it buys four times in
each hour of its cadence, and it is out of cash for good after 83 buys.
-/

namespace SumplusTrader

namespace Backtest

namespace Challenger

structure Cfg where
  universeAssets : List String
  notionalUsd : ℚ
  cadenceH : ℤ
deriving DecidableEq

/-- `DEFAULT_CFG`. -/
def defaultCfg : Cfg := ⟨["WBNB", "BTCB", "ETH", "CAKE"], 120, 6⟩

/-- An hour at which the challenger acts; nothing is bought in the first hour. -/
def actsAt (cfg : Cfg) (hour : ℤ) : Prop :=
  ¬(hour = 0 ∨ cfg.cadenceH ≤ 0 ∨ hour % cfg.cadenceH ≠ 0)

instance (cfg : Cfg) (hour : ℤ) : Decidable (actsAt cfg hour) :=
  inferInstanceAs (Decidable (¬_))

/-- The asset of an hour, in rotation. -/
def rotated (cfg : Cfg) (hour : ℤ) : Except PyError String :=
  if cfg.universeAssets = [] then .error .zeroDivision
  else
    match cfg.universeAssets[(hour / cfg.cadenceH % cfg.universeAssets.length).toNat]? with
    | none => .error .indexError
    | some asset => .ok asset

def decide (market : MarketState) (p : Portfolio) (cfg : Cfg) : Except PyError Intent :=
  if ¬actsAt cfg market.t then .ok hold
  else do
    let asset ← rotated cfg market.t
    if p.cash < cfg.notionalUsd then
      return hold
    return {
      action := .buy
      asset := asset
      size := cfg.notionalUsd
      reason := "dca:" ++ asset ++ "@$" ++ Py.fixedText 0 cfg.notionalUsd ++ "/" ++
        String.ofList (Json.intText cfg.cadenceH) ++ "h" }

/-- The challenger as the engine asks it. -/
def asks (cfg : Cfg) : DecideFn := fun market p => do
  let intent ← decide market p cfg
  return (p, intent)

/-- The cash and the number of trades after the challenger was asked once, on its cadence. -/
def purse (cfg : Cfg) (kept : ℚ × ℕ) : ℚ × ℕ :=
  if kept.1 < cfg.notionalUsd then kept
  else (max 0 (kept.1 - cfg.notionalUsd * (1 + 25 / 10000)), kept.2 + 1)

/-- A line of the ledger that the challenger planned. -/
structure Planned (cfg : Cfg) (line : LedgerLine) : Prop where
  acts : actsAt cfg line.hour
  buys : line.intent.action = .buy ∧ line.intent.size = cfg.notionalUsd
  rotates : rotated cfg line.hour = .ok line.intent.asset

variable {cfg : Cfg} {market : MarketState} {p next last : Portfolio} {intent : Intent}
  {asset : String} {price usd spent : ℚ} {hour : ℤ}

/-- What the challenger decides: nothing, or the buy of its plan. -/
theorem decide_cases (decided : decide market p cfg = .ok intent) :
    ((¬actsAt cfg market.t ∨ p.cash < cfg.notionalUsd) ∧ intent = hold) ∨
      actsAt cfg market.t ∧ cfg.notionalUsd ≤ p.cash ∧ intent.action = .buy ∧
        intent.size = cfg.notionalUsd ∧ rotated cfg market.t = .ok intent.asset := by
  unfold decide at decided
  split at decided
  · next idle =>
    cases decided
    exact .inl ⟨.inl idle, rfl⟩
  · next acts =>
    rcases bind_eq_ok_iff.1 decided with ⟨asset, rotates, decided⟩
    split at decided
    · next short =>
      cases decided
      exact .inl ⟨.inr short, rfl⟩
    · next funded =>
      cases decided
      exact .inr ⟨not_not.1 acts, not_lt.1 funded, rfl, rfl, rotates⟩

theorem asks_eq_ok {asked : Portfolio} (decided : asks cfg market p = .ok (asked, intent)) :
    asked = p ∧ decide market p cfg = .ok intent := by
  rcases bind_eq_ok_iff.1 decided with ⟨own, decided, ended⟩
  cases ended
  exact ⟨rfl, decided⟩

/-- What a buy of an amount takes out of the cash: the amount and its fee, or all of it. -/
theorem spendOf_default (positive : 0 < usd) {cash : ℚ} (funded : usd ≤ cash) :
    0 < Portfolio.spendOf cash usd (usd * Costs.default.feeBps / 10000) ∧
      cash - (Portfolio.spendOf cash usd (usd * Costs.default.feeBps / 10000) +
        usd * Costs.default.feeBps / 10000) = max 0 (cash - usd * (1 + 25 / 10000)) := by
  have fee : usd * Costs.default.feeBps / 10000 = usd * (25 / 10000) := by
    rw [Costs.default, mul_div_assoc]
  rw [fee, Portfolio.spendOf]
  split
  · next short =>
    have left : 0 < cash - usd * (25 / 10000) := by linarith
    rw [max_eq_right left.le, max_eq_left (by linarith)]
    exact ⟨left, by ring⟩
  · next enough =>
    rw [max_eq_right (by linarith)]
    exact ⟨positive, by ring⟩

/-- A buy that the cash covers is executed. -/
theorem buy_of_funded (positive : 0 < usd) (funded : usd ≤ p.cash) (priced : 0 < price)
    (bought : p.buy asset usd price hour .default = .ok (next, spent)) :
    0 < spent ∧ next.cash = max 0 (p.cash - usd * (1 + 25 / 10000)) ∧
      next.tradeCount = p.tradeCount + 1 := by
  rcases spendOf_default positive funded with ⟨spends, left⟩
  have fee : 0 < usd * Costs.default.feeBps / 10000 := by
    rw [Costs.default]
    positivity
  have filled : 0 < price * (1 + Costs.default.slippageBps / 10000) := by
    rw [Costs.default]
    positivity
  have proceeds : ¬(price ≤ 0 ∨ usd ≤ 0 ∨ usd ≤ 0 ∨
      Portfolio.spendOf p.cash usd (usd * Costs.default.feeBps / 10000) ≤ 0) := by
    push Not
    exact ⟨priced, positive, positive, spends⟩
  dsimp only [Portfolio.buy] at bought
  rw [min_eq_left funded, if_neg proceeds, if_neg filled.ne'] at bought
  split at bought
  · cases bought
  · cases bought
    exact ⟨add_pos spends fee, left, rfl⟩

/-- Off its cadence, and once it is out of cash, the challenger leaves the portfolio alone. -/
theorem rounds_idle (left : ℕ) {hour : ℕ} {ledger ledger' : List LedgerLine}
    (idle : ¬actsAt cfg market.t ∨ p.cash < cfg.notionalUsd)
    (ran : rounds (asks cfg) market hour left p ledger = .ok (last, ledger')) :
    last = p ∧ ledger' = ledger := by
  cases left with
  | zero =>
      cases ran
      exact ⟨rfl, rfl⟩
  | succ left =>
      rw [rounds] at ran
      rcases bind_eq_ok_iff.1 ran with ⟨⟨asked, intent⟩, asks, ran⟩
      rcases asks_eq_ok asks with ⟨rfl, decided⟩
      rcases decide_cases decided with ⟨-, rfl⟩ | ⟨acts, funded, -⟩
      · cases ran
        exact ⟨rfl, rfl⟩
      · rcases idle with off | short
        · exact absurd acts off
        · exact absurd funded (not_le.2 short)

/-- On its cadence the challenger buys in every round, as long as the cash lasts. -/
theorem rounds_acts (positive : 0 < cfg.notionalUsd) (acts : actsAt cfg market.t)
    (priced : ∀ asset price, market.prices.get? asset = some price → 0 < price) (left : ℕ)
    {hour : ℕ} (now : market.t = hour) {ledger ledger' : List LedgerLine}
    (ran : rounds (asks cfg) market hour left p ledger = .ok (last, ledger')) :
    (last.cash, last.tradeCount) = (purse cfg)^[left] (p.cash, p.tradeCount) ∧
      ∃ lines, ledger' = ledger ++ lines ∧ (∀ line ∈ lines, Planned cfg line) ∧
        last.tradeCount = p.tradeCount + lines.length := by
  induction left generalizing p ledger with
  | zero =>
      cases ran
      exact ⟨rfl, [], by simp⟩
  | succ left ih =>
      rcases lt_or_ge p.cash cfg.notionalUsd with short | funded
      · rcases rounds_idle (left + 1) (.inr short) ran with ⟨rfl, rfl⟩
        have fixed : purse cfg (last.cash, last.tradeCount) = (last.cash, last.tradeCount) :=
          if_pos short
        exact ⟨(Function.iterate_fixed fixed _).symm, [], by simp⟩
      · rw [rounds] at ran
        rcases bind_eq_ok_iff.1 ran with ⟨⟨asked, intent⟩, asks, ran⟩
        rcases asks_eq_ok asks with ⟨rfl, decided⟩
        rcases decide_cases decided with ⟨off | short, -⟩ | ⟨-, -, buys, size, rotates⟩
        · exact absurd acts off
        · exact absurd funded (not_le.2 short)
        · dsimp only at ran
          rw [if_neg (by simp [buys])] at ran
          rcases bind_eq_ok_iff.1 ran with ⟨⟨next, executed⟩, applied, ran⟩
          unfold execute at applied
          rw [buys] at applied
          dsimp only at applied
          rcases quoted : market.prices.get? intent.asset with _ | price
          · rw [quoted] at applied
            cases applied
          · rw [quoted, size] at applied
            dsimp only at applied
            rcases bought : asked.buy intent.asset cfg.notionalUsd price hour .default with
              e | ⟨filled, spent⟩
            · rw [bought] at applied
              cases applied
            · rw [bought] at applied
              cases applied
              rcases buy_of_funded positive funded (priced _ _ quoted) bought with
                ⟨spends, cash, count⟩
              dsimp only at ran
              rw [if_pos (by simpa using spends)] at ran
              rcases ih ran with ⟨kept, lines, rfl, planned, counted⟩
              have once : purse cfg (asked.cash, asked.tradeCount) =
                  (filled.cash, filled.tradeCount) := by
                rw [purse, if_neg (not_lt.2 funded), cash, count]
              refine ⟨by rw [Function.iterate_succ_apply, once, kept],
                ⟨hour, asked.currentDrawdown, intent⟩ :: lines, by simp, ?_, ?_⟩
              · rw [List.forall_mem_cons]
                exact ⟨⟨now ▸ acts, ⟨buys, size⟩, now ▸ rotates⟩, planned⟩
              · rw [counted, count, List.length_cons]
                omega

/-- The number of hours on the cadence. -/
def cadences (cfg : Cfg) (hours : List ℕ) : ℕ := hours.countP fun hour : ℕ => actsAt cfg hour

theorem cadences_concat (cfg : Cfg) (hours : List ℕ) (hour : ℕ) :
    cadences cfg (hours ++ [hour]) = cadences cfg hours + if actsAt cfg hour then 1 else 0 := by
  rw [cadences, List.countP_append, List.countP_singleton]
  simp [cadences]

/-- The cash, the trades and the ledger after some hours. -/
structure Bought (cfg : Cfg) (hours : List ℕ) (p : Portfolio) (ledger : List LedgerLine) :
    Prop where
  kept : (p.cash, p.tradeCount) = (purse cfg)^[maxTradesPerHour * cadences cfg hours] (initialNav, 0)
  planned : ∀ line ∈ ledger, Planned cfg line
  count : p.tradeCount = ledger.length

variable {pricesPerAsset : Dict String (List ℚ)} {hours : List ℕ} {ledger : List LedgerLine}

/-- One more hour of the challenger. -/
theorem Bought.runHour (bought : Bought cfg hours p ledger) (positive : 0 < cfg.notionalUsd)
    (priced : PositiveSeries pricesPerAsset) {hour : ℕ} {ledger' : List LedgerLine}
    (ran : Backtest.runHour (asks cfg) pricesPerAsset (p, ledger) hour = .ok (last, ledger')) :
    Bought cfg (hours ++ [hour]) last ledger' := by
  rw [Backtest.runHour] at ran
  rcases bind_eq_ok_iff.1 ran with ⟨market, visited, ran⟩
  rcases bind_eq_ok_iff.1 ran with ⟨⟨next, lines⟩, rounded, marked⟩
  cases marked
  have now := t_marketAt visited
  by_cases acts : actsAt cfg market.t
  · rcases rounds_acts positive acts (priced.marketAt visited) maxTradesPerHour now rounded with
      ⟨kept, more, rfl, planned, counted⟩
    have once : cadences cfg (hours ++ [hour]) = cadences cfg hours + 1 := by
      rw [cadences_concat, if_pos (now ▸ acts)]
    refine ⟨?_, ?_, ?_⟩
    · change (next.cash, next.tradeCount) = _
      rw [kept, bought.kept, once, mul_add, mul_one, add_comm, Function.iterate_add_apply]
    · intro line mem
      rcases List.mem_append.1 mem with old | new
      · exact bought.planned line old
      · exact planned line new
    · change next.tradeCount = _
      rw [counted, bought.count, List.length_append]
  · rcases rounds_idle maxTradesPerHour (.inl acts) rounded with ⟨rfl, rfl⟩
    have same : cadences cfg (hours ++ [hour]) = cadences cfg hours := by
      rw [cadences_concat, if_neg (now ▸ acts), add_zero]
    refine ⟨?_, bought.planned, bought.count⟩
    rw [same]
    exact bought.kept

theorem bought_runStrategy (positive : 0 < cfg.notionalUsd)
    (priced : PositiveSeries pricesPerAsset) (hours : List ℕ)
    (ran : runStrategy (asks cfg) pricesPerAsset hours = .ok (last, ledger)) :
    Bought cfg hours last ledger := by
  induction hours using List.reverseRecOn generalizing last ledger with
  | nil =>
      cases ran
      exact ⟨rfl, by simp, rfl⟩
  | append_singleton hours hour ih =>
      rw [runStrategy, List.foldlM_append] at ran
      rcases bind_eq_ok_iff.1 ran with ⟨⟨p, before⟩, ranBefore, ran⟩
      rw [List.foldlM_cons] at ran
      rcases bind_eq_ok_iff.1 ran with ⟨⟨p', after⟩, stepped, ended⟩
      rw [List.foldlM_nil] at ended
      cases ended
      exact (ih ranBefore).runHour positive priced stepped

/-- The purse of the default challenger: 83 buys, and then too little cash for another. -/
theorem purse_default (n : ℕ) : (purse defaultCfg)^[n] (initialNav, 0) =
    (initialNav - 120.3 * (min n 83 : ℕ), min n 83) := by
  induction n with
  | zero => norm_num
  | succ n ih =>
      rw [Function.iterate_succ_apply', ih, purse]
      rcases lt_or_ge n 83 with more | spent
      · have buys : (n : ℚ) ≤ 82 := by exact_mod_cast Nat.le_of_lt_succ more
        rw [min_eq_left more.le, min_eq_left more, if_neg, max_eq_right]
        · norm_num [defaultCfg, initialNav]
          ring
        · norm_num [defaultCfg, initialNav]
          linarith
        · norm_num [defaultCfg, initialNav]
          linarith
      · rw [min_eq_right spent, min_eq_right (spent.trans (Nat.le_succ n)), if_pos]
        norm_num [defaultCfg, initialNav]

/-- **The challenger buys four times on its cadence, and runs out of cash.** Whatever the prices,
its trades are the buys of its plan: four in each hour of the cadence until there have been 83,
and none after that, when less than a notional is left. -/
theorem runStrategy_challenger (pricesPerAsset : Dict String (List ℚ))
    (priced : PositiveSeries pricesPerAsset) (hours : List ℕ)
    (ran : runStrategy (asks defaultCfg) pricesPerAsset hours = .ok (last, ledger)) :
    last.tradeCount = min (4 * cadences defaultCfg hours) 83 ∧
      last.cash = initialNav - 120.3 * (last.tradeCount : ℚ) ∧
      ledger.length = last.tradeCount ∧ ∀ line ∈ ledger, Planned defaultCfg line := by
  have bought := bought_runStrategy (by norm_num [defaultCfg]) priced hours ran
  have kept := bought.kept
  rw [purse_default, Prod.mk.injEq] at kept
  rcases kept with ⟨cash, count⟩
  refine ⟨count, ?_, bought.count.symm, bought.planned⟩
  rw [cash, count]

/-- Nineteen hours in which no price moves. -/
def flatPrices : Dict String (List ℚ) :=
  Dict.ofList (defaultCfg.universeAssets.map fun asset => (asset, List.replicate 19 1))

theorem positiveSeries_flatPrices : PositiveSeries flatPrices := by
  intro asset path listed price mem
  have entry := (Dict.get?_eq_some_iff _ _ _).1 listed
  rw [flatPrices, Dict.entries_ofList (by decide), List.mem_map] at entry
  rcases entry with ⟨_, -, same⟩
  rw [← (Prod.mk.inj same).2] at mem
  rw [List.eq_of_mem_replicate mem]
  norm_num

theorem runStrategy_challenger_flat : ∃ last ledger,
    runStrategy (asks defaultCfg) flatPrices (List.range 19) = .ok (last, ledger) ∧
      last.tradeCount = min (4 * cadences defaultCfg (List.range 19)) 83 ∧
      last.cash = initialNav - 120.3 * (last.tradeCount : ℚ) ∧
      ledger.length = last.tradeCount ∧ ∀ line ∈ ledger, Planned defaultCfg line := by
  have ends : (runStrategy (asks defaultCfg) flatPrices (List.range 19)).toOption.isSome = true := by
    decide +kernel
  rcases Option.isSome_iff_exists.1 ends with ⟨⟨last, ledger⟩, ended⟩
  rw [toOption_eq_some_iff] at ended
  exact ⟨last, ledger, ended, runStrategy_challenger flatPrices positiveSeries_flatPrices
    (List.range 19) ended⟩

example : cadences defaultCfg (List.range 19) = 3 := by decide +kernel

end Challenger

end Backtest

end SumplusTrader
