import Mathlib.Algebra.BigOperators.Ring.List
import SumplusTrader.Accounting.Journal
import SumplusTrader.Backtest.ExposureCap

/-!
# The journal of a backtest

This file keeps the books of the backtest engine by double entry, for every strategy that
leaves the book alone when it is asked. `Enters` says what one operation does to the value of
the portfolio at every quotation: it adds entries at the prices of the hour, each of which
loses the fee and the slippage, and a closing sale the residue that it drops.

`runStrategy_journal` reads the recorded net asset values off the journal: every value on
record is the initial cash with the gains of all trades until that hour, less their friction.
-/

namespace SumplusTrader

namespace Backtest

open Accounting (Entry)

/-- The prices of an hour as a quotation; what has no price counts as nothing. -/
def quoteOf (prices : Dict String ℚ) (asset : String) : ℚ := (prices.get? asset).getD 0

/-- The value of the positions at a quotation. -/
def Portfolio.holdings (p : Portfolio) (quote : String → ℚ) : ℚ :=
  p.positions.total fun asset qty => if 0 < qty then qty * quote asset else 0

/-- The value of a portfolio at a quotation. -/
def Portfolio.worth (p : Portfolio) (quote : String → ℚ) : ℚ := p.cash + p.holdings quote

theorem nav_eq_worth (p : Portfolio) (prices : Dict String ℚ) :
    p.nav prices = p.worth (quoteOf prices) := rfl

/-- A trade at a positive price that loses at most the costs, and a residue of the asset. -/
structure FairEntry (costs : Costs) (entry : Entry String ℚ) : Prop where
  priced : 0 < entry.price
  loses : 0 ≤ entry.friction
  bounded : entry.friction ≤ (costs.feeBps + costs.slippageBps) / 10000 * entry.notional +
    1 / 10 ^ 12 * entry.price

/-- One portfolio becomes another by some trades at the prices of an hour. -/
structure Enters (prices : Dict String ℚ) (costs : Costs) (p next : Portfolio)
    (entries : List (Entry String ℚ)) : Prop where
  fair : ∀ entry ∈ entries, prices.get? entry.asset = some entry.price ∧ FairEntry costs entry
  worth : ∀ quote, next.worth quote = p.worth quote + Accounting.worth quote entries
  count : next.tradeCount = p.tradeCount + entries.length
  history : next.navHistory = p.navHistory

variable {p next last : Portfolio} {asset : String} {usd price fraction qty fillPrice spent : ℚ}
  {hour : ℤ} {costs : Costs} {prices : Dict String ℚ} {entries more : List (Entry String ℚ)}

theorem Enters.refl (prices : Dict String ℚ) (costs : Costs) (p : Portfolio) :
    Enters prices costs p p [] where
  fair := by simp
  worth := by simp
  count := rfl
  history := rfl

theorem Enters.trans (first : Enters prices costs p next entries)
    (second : Enters prices costs next last more) : Enters prices costs p last (entries ++ more) where
  fair := by
    intro entry mem
    rcases List.mem_append.1 mem with early | late
    · exact first.fair entry early
    · exact second.fair entry late
  worth := by
    intro quote
    rw [second.worth, first.worth, Accounting.worth_append, add_assoc]
  count := by rw [second.count, first.count, List.length_append, add_assoc]
  history := second.history.trans first.history

theorem holdings_addQty (sound : Sound p) (positive : 0 < qty)
    (added : p.addQty asset qty fillPrice hour = .ok next) (quote : String → ℚ) :
    next.holdings quote = p.holdings quote + qty * quote asset := by
  have positions : next.positions = p.positions.set asset (p.qtyOf asset + qty) := by
    rcases Portfolio.addQty_cases added with ⟨-, entry, average, -, rfl⟩ | ⟨-, rfl⟩ <;> rfl
  have held := sound.qtyOf_nonneg asset
  unfold Portfolio.holdings
  rw [positions]
  rcases lt_or_ge 0 (p.qtyOf asset) with open_ | empty
  · rw [Dict.total_set_of_some _ _ (get?_of_qtyOf_pos open_), if_pos open_,
      if_pos (add_pos open_ positive)]
    ring
  · have none : p.qtyOf asset = 0 := le_antisymm empty held
    rw [Dict.total_set_of_none _ _ (sound.get?_eq_none empty), none, zero_add, if_pos positive]

/-- The residue that leaving a quantity drops. -/
def residueOf (qty : ℚ) : ℚ := if qty ≤ 1 / 10 ^ 12 then qty else 0

theorem residueOf_bounds (nonneg : 0 ≤ qty) :
    0 ≤ residueOf qty ∧ residueOf qty ≤ 1 / 10 ^ 12 := by
  unfold residueOf
  split
  · next small => exact ⟨nonneg, small⟩
  · exact ⟨le_refl 0, by norm_num⟩

theorem holdings_setQty (held : 0 < p.qtyOf asset) (qty : ℚ) (quote : String → ℚ) :
    (p.setQty asset qty).holdings quote =
      p.holdings quote + (qty - residueOf qty - p.qtyOf asset) * quote asset := by
  have found := get?_of_qtyOf_pos held
  unfold Portfolio.setQty Portfolio.holdings residueOf
  split
  · rw [Dict.total_pop_of_some _ found, if_pos held]
    ring
  · next more =>
    have positive : 0 < qty := lt_trans (by norm_num) (not_le.1 more)
    rw [Dict.total_set_of_some _ _ found, if_pos held, if_pos positive]
    ring

/-- The entry of a buy. -/
def buyEntry (asset : String) (price spend fee : ℚ) (costs : Costs) : Entry String ℚ where
  asset := asset
  price := price
  quantity := spend / (price * (1 + costs.slippageBps / 10000))
  cash := -(spend + fee)

/-- The entry of a sale: a quantity at the price after slippage and fee, and the residue. -/
def sellEntry (asset : String) (price sold residue : ℚ) (costs : Costs) : Entry String ℚ where
  asset := asset
  price := price
  quantity := -(sold + residue)
  cash := sold * (price * (1 - costs.slippageBps / 10000)) -
    sold * (price * (1 - costs.slippageBps / 10000)) * costs.feeBps / 10000

/-- A buy loses its fee and the slippage. -/
theorem fair_buyEntry {spend fee : ℚ} (fair : costs.Fair) (priced : 0 < price) (paid : 0 < spend)
    (charged : 0 ≤ fee) (atRate : fee ≤ costs.feeBps / 10000 * (spend + fee)) (asset : String) :
    FairEntry costs (buyEntry asset price spend fee costs) := by
  have slip : 0 ≤ costs.slippageBps / 10000 := div_nonneg fair.slippageNonneg (by norm_num)
  have slipped : 0 < 1 + costs.slippageBps / 10000 := by linarith
  have value : spend / (price * (1 + costs.slippageBps / 10000)) * price =
      spend / (1 + costs.slippageBps / 10000) := by
    field_simp
  have received : spend / (1 + costs.slippageBps / 10000) ≤ spend :=
    div_le_self paid.le (by linarith)
  have lost : spend - spend / (1 + costs.slippageBps / 10000) ≤
      costs.slippageBps / 10000 * spend := by
    have share : spend - spend / (1 + costs.slippageBps / 10000) =
        costs.slippageBps / 10000 * (spend / (1 + costs.slippageBps / 10000)) := by
      have whole := div_mul_cancel₀ spend slipped.ne'
      rw [mul_add, mul_one, mul_comm _ (costs.slippageBps / 10000)] at whole
      linarith
    rw [share]
    exact mul_le_mul_of_nonneg_left received slip
  have friction : (buyEntry asset price spend fee costs).friction =
      fee + (spend - spend / (1 + costs.slippageBps / 10000)) := by
    simp only [Entry.friction, buyEntry, value]
    ring
  have notional : spend + fee ≤ (buyEntry asset price spend fee costs).notional := by
    rw [Entry.notional]
    refine le_trans ?_ (le_max_left _ _)
    simp only [buyEntry, abs_neg]
    exact le_abs_self _
  refine ⟨priced, ?_, ?_⟩
  · rw [friction]
    linarith
  · have rate : 0 ≤ (costs.feeBps + costs.slippageBps) / 10000 :=
      div_nonneg (add_nonneg fair.feeNonneg fair.slippageNonneg) (by norm_num)
    have bound := mul_le_mul_of_nonneg_left notional rate
    have residue : 0 ≤ 1 / 10 ^ 12 * price := by positivity
    have spentShare : costs.slippageBps / 10000 * spend ≤
        costs.slippageBps / 10000 * (spend + fee) :=
      mul_le_mul_of_nonneg_left (by linarith) slip
    have split : (costs.feeBps + costs.slippageBps) / 10000 * (spend + fee) =
        costs.feeBps / 10000 * (spend + fee) + costs.slippageBps / 10000 * (spend + fee) := by
      ring
    rw [friction]
    change _ ≤ _ + 1 / 10 ^ 12 * price
    linarith

/-- A sale loses its fee, the slippage and the residue. -/
theorem fair_sellEntry {sold residue : ℚ} (fair : costs.Fair) (priced : 0 < price)
    (sells : 0 ≤ sold) (drops : 0 ≤ residue) (small : residue ≤ 1 / 10 ^ 12) (asset : String) :
    FairEntry costs (sellEntry asset price sold residue costs) := by
  have slip : 0 ≤ costs.slippageBps / 10000 := div_nonneg fair.slippageNonneg (by norm_num)
  have fee : 0 ≤ costs.feeBps / 10000 := div_nonneg fair.feeNonneg (by norm_num)
  have kept : 0 ≤ 1 - costs.slippageBps / 10000 := by linarith [fair.slippageLe]
  have value : 0 ≤ sold * price := mul_nonneg sells priced.le
  have dropped : 0 ≤ residue * price := mul_nonneg drops priced.le
  have dropBound : residue * price ≤ 1 / 10 ^ 12 * price :=
    mul_le_mul_of_nonneg_right small priced.le
  have friction : (sellEntry asset price sold residue costs).friction =
      sold * price * (costs.slippageBps / 10000 +
        costs.feeBps / 10000 * (1 - costs.slippageBps / 10000)) + residue * price := by
    simp only [Entry.friction, sellEntry]
    ring
  have notional : sold * price ≤ (sellEntry asset price sold residue costs).notional := by
    rw [Entry.notional]
    refine le_trans ?_ (le_max_right _ _)
    simp only [sellEntry, abs_neg, abs_of_nonneg (add_nonneg sells drops)]
    linarith [add_mul sold residue price]
  have share : 0 ≤ costs.slippageBps / 10000 +
      costs.feeBps / 10000 * (1 - costs.slippageBps / 10000) :=
    add_nonneg slip (mul_nonneg fee kept)
  refine ⟨priced, ?_, ?_⟩
  · rw [friction]
    exact add_nonneg (mul_nonneg value share) dropped
  · have rate : costs.slippageBps / 10000 +
        costs.feeBps / 10000 * (1 - costs.slippageBps / 10000) ≤
          (costs.feeBps + costs.slippageBps) / 10000 := by
      have saved : 0 ≤ costs.feeBps / 10000 * (costs.slippageBps / 10000) := mul_nonneg fee slip
      linarith [mul_sub (costs.feeBps / 10000) 1 (costs.slippageBps / 10000),
        add_div costs.feeBps costs.slippageBps 10000]
    have total : 0 ≤ (costs.feeBps + costs.slippageBps) / 10000 := le_trans share rate
    have first := mul_le_mul_of_nonneg_left rate value
    have second := mul_le_mul_of_nonneg_left notional total
    rw [friction]
    change _ ≤ _ + 1 / 10 ^ 12 * price
    linarith [mul_comm (sold * price) ((costs.feeBps + costs.slippageBps) / 10000)]

/-- A buy does nothing, or it enters one trade. -/
theorem buy_enters (sound : Sound p) (fair : costs.Fair) (quoted : prices.get? asset = some price)
    (bought : p.buy asset usd price hour costs = .ok (next, spent)) :
    ∃ entries, Enters prices costs p next entries := by
  rcases Portfolio.buy_cases bought with ⟨rfl, -⟩ | ⟨gross, fee, spend, added, grossEq, feeEq,
    spendEq, priced, grossPositive, paid, -, filled, rfl, -⟩
  · exact ⟨[], .refl prices costs next⟩
  · have slipped : 0 < 1 + costs.slippageBps / 10000 := by
      linarith [div_nonneg fair.slippageNonneg (show (0 : ℚ) ≤ 10000 by norm_num)]
    have charged : 0 ≤ fee := by
      rw [feeEq]
      exact div_nonneg (mul_nonneg grossPositive.le fair.feeNonneg) (by norm_num)
    -- what is committed is the gross amount, or all the cash with the fee
    have committed : gross ≤ spend + fee := by
      have within : gross ≤ p.cash := grossEq ▸ min_le_right _ _
      rw [spendEq, Portfolio.spendOf]
      split
      · linarith [le_max_right 0 (p.cash - fee)]
      · linarith
    have atRate : fee ≤ costs.feeBps / 10000 * (spend + fee) := by
      have share := mul_le_mul_of_nonneg_left committed
        (div_nonneg fair.feeNonneg (show (0 : ℚ) ≤ 10000 by norm_num))
      have same : fee = costs.feeBps / 10000 * gross := by
        rw [feeEq]
        ring
      linarith
    have positive := div_pos paid (mul_pos priced slipped)
    have count : added.tradeCount = p.tradeCount ∧ added.navHistory = p.navHistory := by
      rcases Portfolio.addQty_cases filled with ⟨-, entry, average, -, rfl⟩ | ⟨-, rfl⟩
      · exact ⟨rfl, rfl⟩
      · exact ⟨rfl, rfl⟩
    refine ⟨[buyEntry asset price spend fee costs], ?_, ?_, rfl, count.2⟩
    · intro entry mem
      rw [List.mem_singleton] at mem
      subst mem
      exact ⟨quoted, fair_buyEntry fair priced paid charged atRate asset⟩
    · intro quote
      have held := holdings_addQty sound positive filled quote
      change p.cash - (spend + fee) + added.holdings quote = p.cash + p.holdings quote + _
      rw [held, Accounting.worth_singleton]
      simp only [Entry.worth, buyEntry]
      ring

/-- A sale does nothing, or it enters one trade. -/
theorem sell_enters (fair : costs.Fair) (quoted : prices.get? asset = some price)
    (fraction : ℚ) :
    ∃ entries, Enters prices costs p (p.sell asset fraction price costs).1 entries := by
  dsimp only [Portfolio.sell]
  split
  · exact ⟨[], .refl prices costs p⟩
  · next selling =>
    push Not at selling
    rcases selling with ⟨held, priced, some⟩
    have sells : 0 ≤ p.qtyOf asset * min 1 fraction := by positivity
    have left : 0 ≤ p.qtyOf asset - p.qtyOf asset * min 1 fraction := by
      have atMost : p.qtyOf asset * min 1 fraction ≤ p.qtyOf asset * 1 :=
        mul_le_mul_of_nonneg_left (min_le_left _ _) held.le
      linarith
    rcases residueOf_bounds left with ⟨drops, small⟩
    have kept : (p.setQty asset (p.qtyOf asset - p.qtyOf asset * min 1 fraction)).navHistory =
        p.navHistory := by
      unfold Portfolio.setQty
      split <;> rfl
    refine ⟨[sellEntry asset price (p.qtyOf asset * min 1 fraction)
      (residueOf (p.qtyOf asset - p.qtyOf asset * min 1 fraction)) costs], ?_, ?_, rfl, kept⟩
    · intro entry mem
      rw [List.mem_singleton] at mem
      subst mem
      exact ⟨quoted, fair_sellEntry fair priced sells drops small asset⟩
    · intro quote
      have remaining := holdings_setQty held
        (p.qtyOf asset - p.qtyOf asset * min 1 fraction) quote
      change p.cash + _ + (p.setQty asset _).holdings quote = p.cash + p.holdings quote + _
      rw [remaining, Accounting.worth_singleton]
      simp only [Entry.worth, sellEntry]
      ring

theorem sellAll_enters (fair : costs.Fair) (prices : Dict String ℚ) (fills : ℕ)
    (assets : List String) :
    ∃ entries, Enters prices costs p (Portfolio.sellAll prices costs p fills assets).1 entries := by
  induction assets generalizing p fills with
  | nil => exact ⟨[], .refl prices costs p⟩
  | cons asset assets ih =>
      unfold Portfolio.sellAll
      split
      · exact ⟨[], .refl prices costs p⟩
      · next price found =>
        rcases sell_enters (p := p) fair found 1 with ⟨entries, sold⟩
        rcases ih (p := (p.sell asset 1 price costs).1)
          (if 0 < (p.sell asset 1 price costs).2 then fills + 1 else fills) with ⟨more, rest⟩
        exact ⟨entries ++ more, sold.trans rest⟩

/-- An executed intent enters its trades. -/
theorem execute_enters {intent : Intent} {executed : Bool} (sound : Sound p)
    (applied : execute intent p prices hour = .ok (next, executed)) :
    ∃ entries, Enters prices .default p next entries := by
  unfold execute at applied
  split at applied
  · split at applied
    · cases applied
    · next price found =>
      rcases bought : p.buy intent.asset intent.size price hour .default with e | filled
      · rw [bought] at applied
        cases applied
      · rw [bought] at applied
        cases applied
        exact buy_enters sound fair_default found bought
  · split at applied
    · cases applied
    · next price found =>
      cases applied
      exact sell_enters fair_default found intent.size
  · dsimp only at applied
    rcases flattened : (p.flatten prices .default).2 with e | fills
    · rw [flattened] at applied
      cases applied
    · rw [flattened] at applied
      cases applied
      exact sellAll_enters fair_default prices 0 p.positions.keys
  · cases applied
    exact ⟨[], .refl prices .default p⟩

/-- A strategy that leaves the book and its history alone when it is asked. -/
structure KeepsBook (decideFn : DecideFn) : Prop where
  sound : KeepsSound decideFn
  book : ∀ market p asked intent, decideFn market p = .ok (asked, intent) →
    asked.cash = p.cash ∧ asked.positions = p.positions ∧ asked.tradeCount = p.tradeCount ∧
      asked.navHistory = p.navHistory

theorem KeepsBook.enters {decideFn : DecideFn} (keeps : KeepsBook decideFn)
    {market : MarketState} {asked : Portfolio} {intent : Intent}
    (decided : decideFn market p = .ok (asked, intent)) (prices : Dict String ℚ) (costs : Costs) :
    Enters prices costs p asked [] := by
  rcases keeps.book market p asked intent decided with ⟨cash, positions, count, history⟩
  refine ⟨by simp, ?_, count, history⟩
  intro quote
  rw [Portfolio.worth, Portfolio.holdings, cash, positions, Accounting.worth_nil, add_zero]
  rfl

/-- The rounds of an hour enter trades at its prices. -/
theorem rounds_enters {decideFn : DecideFn} (keeps : KeepsBook decideFn) {market : MarketState}
    {hour left : ℕ} {ledger ledger' : List LedgerLine} (sound : Sound p)
    (ran : rounds decideFn market hour left p ledger = .ok (last, ledger')) :
    ∃ entries, Enters market.prices .default p last entries := by
  induction left generalizing p ledger with
  | zero =>
      cases ran
      exact ⟨[], .refl _ _ last⟩
  | succ left ih =>
      rw [rounds] at ran
      rcases bind_eq_ok_iff.1 ran with ⟨⟨asked, intent⟩, decided, ran⟩
      have soundAsked := keeps.sound market p asked intent sound decided
      have asks := keeps.enters decided market.prices .default
      dsimp only at ran
      split at ran
      · cases ran
        exact ⟨[], asks⟩
      · rcases bind_eq_ok_iff.1 ran with ⟨⟨next, executed⟩, applied, ran⟩
        rcases execute_enters soundAsked applied with ⟨entries, trades⟩
        have soundNext := sound_execute soundAsked applied
        dsimp only at ran
        split at ran
        · rcases ih soundNext ran with ⟨more, rest⟩
          exact ⟨_, (asks.trans trades).trans rest⟩
        · cases ran
          exact ⟨_, asks.trans trades⟩

/-- What the journals of the hours tell of a portfolio: its value at every quotation, the number
of its trades, and the net asset values on its record. -/
structure Booked (pricesPerAsset : Dict String (List ℚ)) (hours : List ℕ) (p : Portfolio)
    (journals : List (List (Entry String ℚ))) : Prop where
  length : journals.length = hours.length
  kept : Accounting.Kept initialNav journals.flatten p.worth
  count : p.tradeCount = journals.flatten.length
  record : p.navHistory.length = hours.length
  fair : ∀ entry ∈ journals.flatten, FairEntry .default entry
  priced : ∀ (i hour : ℕ) entries market, hours[i]? = some hour → journals[i]? = some entries →
    marketAt pricesPerAsset hour = .ok market →
    ∀ entry ∈ entries, market.prices.get? entry.asset = some entry.price
  recorded : ∀ (i hour : ℕ) market, hours[i]? = some hour →
    marketAt pricesPerAsset hour = .ok market →
    p.navHistory[i]? = some (initialNav +
      Accounting.gains (quoteOf market.prices) (journals.take (i + 1)).flatten -
      Accounting.friction (journals.take (i + 1)).flatten)

section Runs

variable {decideFn : DecideFn} {pricesPerAsset : Dict String (List ℚ)} {hours : List ℕ}
  {journals : List (List (Entry String ℚ))}

theorem booked_newPortfolio (pricesPerAsset : Dict String (List ℚ)) :
    Booked pricesPerAsset [] (newPortfolio initialNav) [] where
  length := rfl
  kept := by
    intro quote
    simp [Portfolio.worth, Portfolio.holdings, newPortfolio, Dict.total, Dict.empty]
  count := rfl
  record := rfl
  fair := by simp
  priced := by simp
  recorded := by simp

/-- One more hour of trades and the mark at its prices. -/
theorem Booked.enters {hour : ℕ} {market : MarketState}
    (booked : Booked pricesPerAsset hours p journals)
    (priced : marketAt pricesPerAsset hour = .ok market)
    (trades : Enters market.prices .default p next entries) :
    Booked pricesPerAsset (hours ++ [hour]) (next.mark market.prices).1 (journals ++ [entries]) := by
  have kept : Accounting.Kept initialNav (journals ++ [entries]).flatten next.worth := by
    rw [List.flatten_append, List.flatten_singleton]
    exact booked.kept.append trades.worth
  have history : next.navHistory.length = hours.length := by rw [trades.history, booked.record]
  refine ⟨by simp [booked.length], kept, ?_, ?_, ?_, ?_, ?_⟩
  · change next.tradeCount = _
    rw [trades.count, booked.count]
    simp
  · change (next.navHistory ++ [_]).length = _
    simp [history]
  · intro entry mem
    rw [List.flatten_append, List.flatten_singleton, List.mem_append] at mem
    rcases mem with early | late
    · exact booked.fair entry early
    · exact (trades.fair entry late).2
  · intro i hour' entries' market' visited entered priced'
    rcases lt_or_ge i hours.length with before | now
    · rw [List.getElem?_append_left before] at visited
      rw [List.getElem?_append_left (booked.length ▸ before)] at entered
      exact booked.priced i hour' entries' market' visited entered priced'
    · rw [List.getElem?_append_right now, List.getElem?_singleton] at visited
      rw [List.getElem?_append_right (booked.length ▸ now), List.getElem?_singleton,
        booked.length] at entered
      split at visited
      · next first =>
        rw [if_pos first, Option.some.injEq] at entered
        rw [Option.some.injEq] at visited
        rw [← visited, priced, Except.ok.injEq] at priced'
        rw [← entered, ← priced']
        exact fun entry mem => (trades.fair entry mem).1
      · cases visited
  · intro i hour' market' visited priced'
    change (next.navHistory ++ [next.nav market.prices])[i]? = _
    rcases lt_or_ge i hours.length with before | now
    · rw [List.getElem?_append_left before] at visited
      rw [List.getElem?_append_left (history ▸ before), trades.history,
        List.take_append_of_le_length (by rw [booked.length]; exact before)]
      exact booked.recorded i hour' market' visited priced'
    · rw [List.getElem?_append_right now, List.getElem?_singleton] at visited
      rw [List.getElem?_append_right (history ▸ now), List.getElem?_singleton, history]
      split at visited
      · next first =>
        rw [Option.some.injEq] at visited
        rw [← visited, priced, Except.ok.injEq] at priced'
        rw [if_pos first, ← priced', nav_eq_worth, kept.attribution,
          List.take_of_length_le (by simp [booked.length]; omega)]
      · cases visited

/-- Trading costs at most its rate on the turnover, and a residue at each price. -/
theorem Booked.friction_bounds (booked : Booked pricesPerAsset hours p journals) :
    0 ≤ Accounting.friction journals.flatten ∧
      Accounting.friction journals.flatten ≤ 55 / 10000 * Accounting.turnover journals.flatten +
        1 / 10 ^ 12 * (journals.flatten.map Entry.price).sum := by
  refine ⟨Accounting.friction_nonneg fun entry mem => (booked.fair entry mem).loses, ?_⟩
  apply Accounting.friction_le
  intro entry mem
  have bounded := (booked.fair entry mem).bounded
  norm_num [Costs.default] at bounded ⊢
  exact bounded

/-- **The record of a backtest is its journal.** Whatever a strategy decides, each recorded net
asset value is the initial cash with the gains of all trades until its hour, less their friction.
Each trade is at a price of its hour, and trading never pays by itself: it costs between nothing
and the fee and slippage on the turnover, up to the residues. -/
theorem runStrategy_journal (keeps : KeepsBook decideFn) (pricesPerAsset : Dict String (List ℚ))
    (hours : List ℕ) {last : Portfolio} {ledger : List LedgerLine}
    (ran : runStrategy decideFn pricesPerAsset hours = .ok (last, ledger)) :
    ∃ journals, Booked pricesPerAsset hours last journals ∧
      0 ≤ Accounting.friction journals.flatten ∧
      Accounting.friction journals.flatten ≤ 55 / 10000 * Accounting.turnover journals.flatten +
        1 / 10 ^ 12 * (journals.flatten.map Entry.price).sum := by
  have runs : ∀ hours last ledger,
      runStrategy decideFn pricesPerAsset hours = .ok (last, ledger) →
        Sound last ∧ ∃ journals, Booked pricesPerAsset hours last journals := by
    intro hours
    induction hours using List.reverseRecOn with
    | nil =>
        intro last ledger ran
        cases ran
        exact ⟨sound_newPortfolio (by norm_num [initialNav]), [],
          booked_newPortfolio pricesPerAsset⟩
    | append_singleton hours hour ih =>
        intro last ledger ran
        rw [runStrategy, List.foldlM_append] at ran
        rcases bind_eq_ok_iff.1 ran with ⟨⟨p, before⟩, ranBefore, ran⟩
        rcases ih p before ranBefore with ⟨sound, journals, booked⟩
        rw [List.foldlM_cons] at ran
        rcases bind_eq_ok_iff.1 ran with ⟨⟨p', after⟩, stepped, ended⟩
        rw [List.foldlM_nil] at ended
        cases ended
        have soundAfter := sound_runHour keeps.sound sound stepped
        rw [runHour] at stepped
        rcases bind_eq_ok_iff.1 stepped with ⟨market, priced, stepped⟩
        rcases bind_eq_ok_iff.1 stepped with ⟨⟨next, lines⟩, rounded, marked⟩
        cases marked
        rcases rounds_enters keeps sound rounded with ⟨entries, trades⟩
        exact ⟨soundAfter, journals ++ [entries], booked.enters priced trades⟩
  rcases (runs hours last ledger ran).2 with ⟨journals, booked⟩
  exact ⟨journals, booked, booked.friction_bounds⟩

theorem Champion.keepsBook_decide (math : FloatMath) (cfg : Champion.Cfg) :
    KeepsBook fun market p => Champion.decide math market p cfg where
  sound := Champion.keepsSound_decide math cfg
  book := by
    intro market p asked intent decided
    rw [(Champion.decide_cases decided).1]
    unfold Champion.rearm
    split
    · split
      · exact ⟨rfl, rfl, rfl, rfl⟩
      · split
        · exact ⟨rfl, rfl, rfl, rfl⟩
        · exact ⟨rfl, rfl, rfl, rfl⟩
    · exact ⟨rfl, rfl, rfl, rfl⟩

/-- The champion through five hours of a rising market. -/
theorem Champion.risingRun : ∃ last ledger,
    runStrategy (fun market p => decide risingMath market p defaultCfg) risingPrices
      (List.range 5) = .ok (last, ledger) := by
  have ends : (runStrategy (fun market p => decide risingMath market p defaultCfg) risingPrices
      (List.range 5)).toOption.isSome = true := by
    decide +kernel
  rcases Option.isSome_iff_exists.1 ends with ⟨⟨last, ledger⟩, ended⟩
  exact ⟨last, ledger, toOption_eq_some_iff.1 ended⟩

theorem runStrategy_journal_champion : ∃ last ledger,
    runStrategy (fun market p => Champion.decide Champion.risingMath market p Champion.defaultCfg)
        Champion.risingPrices (List.range 5) = .ok (last, ledger) ∧
      ∃ journals, Booked Champion.risingPrices (List.range 5) last journals ∧
        0 ≤ Accounting.friction journals.flatten ∧
        Accounting.friction journals.flatten ≤
          55 / 10000 * Accounting.turnover journals.flatten +
            1 / 10 ^ 12 * (journals.flatten.map Entry.price).sum := by
  rcases Champion.risingRun with ⟨last, ledger, ran⟩
  exact ⟨last, ledger, ran, runStrategy_journal
    (Champion.keepsBook_decide Champion.risingMath Champion.defaultCfg) Champion.risingPrices
    (List.range 5) ran⟩

end Runs

/-- No price is negative, and from one hour to the next none rises by more than a factor. -/
def RisesBy (factor : ℚ) (pricesPerAsset : Dict String (List ℚ)) : Prop :=
  ∀ asset path, pricesPerAsset.get? asset = some path → (∀ price ∈ path, 0 ≤ price) ∧
    ∀ h price next, path[h]? = some price → path[h + 1]? = some next → next ≤ factor * price

section Growth

variable {decideFn : DecideFn} {pricesPerAsset : Dict String (List ℚ)} {factor : ℚ}

/-- Reading every series leaves the keys, and a key has what was read from its own series. -/
theorem lookup_of_read {hour : ℕ} {read : String × List ℚ → Except PyError (String × ℚ)}
    (reads : ∀ entry quote, read entry = .ok quote →
      quote.1 = entry.1 ∧ entry.2[hour]? = some quote.2)
    (asset : String) {entries : List (String × List ℚ)} {quoted : List (String × ℚ)}
    (done : entries.mapM read = .ok quoted) :
    quoted.map Prod.fst = entries.map Prod.fst ∧
      quoted.lookup asset = (entries.lookup asset).bind fun path => path[hour]? := by
  induction entries generalizing quoted with
  | nil =>
      cases done
      exact ⟨rfl, rfl⟩
  | cons entry entries ih =>
      rw [List.mapM_cons] at done
      rcases bind_eq_ok_iff.1 done with ⟨first, priced, done⟩
      rcases bind_eq_ok_iff.1 done with ⟨rest, others, done⟩
      cases done
      rcases ih others with ⟨keys, lookup⟩
      rcases reads entry first priced with ⟨key, found⟩
      refine ⟨by simp [keys, key], ?_⟩
      rw [List.lookup_cons, List.lookup_cons, key]
      cases asset == entry.1 with
      | true => exact found.symm
      | false => exact lookup

/-- The prices of an hour are those of the series. -/
theorem get?_marketAt {hour : ℕ} {market : MarketState}
    (priced : marketAt pricesPerAsset hour = .ok market) (asset : String) :
    market.prices.get? asset = (pricesPerAsset.get? asset).bind fun path => path[hour]? := by
  rw [marketAt] at priced
  rcases bind_eq_ok_iff.1 priced with ⟨quoted, read, made⟩
  cases made
  have looked : quoted.map Prod.fst = pricesPerAsset.entries.map Prod.fst ∧
      quoted.lookup asset = (pricesPerAsset.entries.lookup asset).bind fun path => path[hour]? := by
    refine lookup_of_read (fun entry quote priced => ?_) asset read
    split at priced
    · cases priced
    · next price found =>
      cases priced
      exact ⟨rfl, found⟩
  rcases looked with ⟨keys, lookup⟩
  have nodup : (quoted.map Prod.fst).Nodup := keys ▸ pricesPerAsset.nodup
  change (Dict.ofList quoted).get? asset = _
  rw [Dict.get?, Dict.entries_ofList nodup, lookup]
  rfl

/-- No price is zero or negative. -/
def PositiveSeries (pricesPerAsset : Dict String (List ℚ)) : Prop :=
  ∀ asset path, pricesPerAsset.get? asset = some path → ∀ price ∈ path, 0 < price

theorem PositiveSeries.marketAt (positive : PositiveSeries pricesPerAsset) {hour : ℕ}
    {market : MarketState} (visited : Backtest.marketAt pricesPerAsset hour = .ok market) :
    ∀ asset price, market.prices.get? asset = some price → 0 < price := by
  intro asset price quoted
  rw [get?_marketAt visited, Option.bind_eq_some_iff] at quoted
  rcases quoted with ⟨path, listed, found⟩
  exact positive asset path listed price (List.mem_of_getElem? found)

theorem t_marketAt {hour : ℕ} {market : MarketState}
    (visited : marketAt pricesPerAsset hour = .ok market) : market.t = hour := by
  rw [marketAt] at visited
  rcases bind_eq_ok_iff.1 visited with ⟨quoted, -, made⟩
  cases made
  rfl

/-- Trading at the prices of an hour does not raise the value at these prices. -/
theorem Enters.nav_le (trades : Enters prices costs p next entries) :
    next.nav prices ≤ p.nav prices := by
  rw [nav_eq_worth, nav_eq_worth, trades.worth]
  have loses : Accounting.worth (quoteOf prices) entries ≤ 0 := by
    apply Accounting.worth_nonpos
    intro entry entered
    rcases trades.fair entry entered with ⟨quoted, fair⟩
    have friction := fair.loses
    rw [Entry.friction] at friction
    rw [Entry.worth, quoteOf, quoted, Option.getD_some]
    linarith
  linarith

/-- A book is worth at most a factor more when no price rises by more. -/
theorem worth_le_of_quote_le (sound : Sound p) (grows : 1 ≤ factor)
    {quote later : String → ℚ} (rises : ∀ asset, later asset ≤ factor * quote asset) :
    p.worth later ≤ factor * p.worth quote := by
  have held : p.holdings later ≤ factor * p.holdings quote := by
    unfold Portfolio.holdings Dict.total
    rw [← List.sum_map_mul_left]
    apply List.sum_le_sum
    intro entry _
    dsimp only
    split
    · next positive =>
      have scaled := mul_le_mul_of_nonneg_left (rises entry.1) positive.le
      linarith
    · simp
  have cash := le_mul_of_one_le_left sound.cash grows
  unfold Portfolio.worth
  linarith

/-- The prices of the next hour, against those of an hour. -/
theorem quoteOf_le (grows : 1 ≤ factor) (rises : RisesBy factor pricesPerAsset) {hour : ℕ}
    {market later : MarketState} (priced : marketAt pricesPerAsset hour = .ok market)
    (pricedLater : marketAt pricesPerAsset (hour + 1) = .ok later) (asset : String) :
    quoteOf later.prices asset ≤ factor * quoteOf market.prices asset := by
  rw [quoteOf, quoteOf, get?_marketAt priced, get?_marketAt pricedLater]
  rcases listed : pricesPerAsset.get? asset with _ | path
  · simp
  · rcases rises asset path listed with ⟨nonneg, steps⟩
    simp only [Option.bind_some]
    rcases now : path[hour]? with _ | price
    · -- a path that ends before the hour ends before the next one
      rw [List.getElem?_eq_none_iff] at now
      rw [List.getElem?_eq_none_iff.2 (by omega)]
      simp
    · rcases next : path[hour + 1]? with _ | later
      · have scaled := mul_nonneg (zero_le_one.trans grows)
          (nonneg price (List.mem_of_getElem? now))
        simpa using scaled
      · exact steps hour price later now next

/-- **No strategy outgrows the best asset.** If no price rises by more than a factor in an hour,
then after each hour the recorded net asset value of any strategy is at most the initial cash
grown by that factor in every hour. -/
theorem navHistory_growth (keeps : KeepsBook decideFn) (grows : 1 ≤ factor)
    (rises : RisesBy factor pricesPerAsset) (n : ℕ) {last : Portfolio} {ledger : List LedgerLine}
    (ran : runStrategy decideFn pricesPerAsset (List.range n) = .ok (last, ledger)) :
    ∀ (i : ℕ) nav, last.navHistory[i]? = some nav → nav ≤ factor ^ i * initialNav := by
  -- the value at the prices of the next hour, before anything is traded at them
  have runs : ∀ n last ledger,
      runStrategy decideFn pricesPerAsset (List.range n) = .ok (last, ledger) →
        Sound last ∧ last.navHistory.length = n ∧
          (∀ market, marketAt pricesPerAsset n = .ok market →
            last.nav market.prices ≤ factor ^ n * initialNav) ∧
          ∀ (i : ℕ) nav, last.navHistory[i]? = some nav → nav ≤ factor ^ i * initialNav := by
    intro n
    induction n with
    | zero =>
        intro last ledger ran
        cases ran
        refine ⟨sound_newPortfolio (by norm_num [initialNav]), rfl, ?_, ?_⟩
        · intro market _
          rw [pow_zero, one_mul, nav_eq_worth]
          simp [Portfolio.worth, Portfolio.holdings, newPortfolio, Dict.total, Dict.empty]
        · intro i nav found
          simp [newPortfolio] at found
    | succ n ih =>
        intro last ledger ran
        rw [List.range_succ, runStrategy, List.foldlM_append] at ran
        rcases bind_eq_ok_iff.1 ran with ⟨⟨p, before⟩, ranBefore, ran⟩
        rcases ih p before ranBefore with ⟨sound, length, ahead, recorded⟩
        rw [List.foldlM_cons] at ran
        rcases bind_eq_ok_iff.1 ran with ⟨⟨p', after⟩, stepped, ended⟩
        rw [List.foldlM_nil] at ended
        cases ended
        have soundLast := sound_runHour keeps.sound sound stepped
        rw [runHour] at stepped
        rcases bind_eq_ok_iff.1 stepped with ⟨market, priced, stepped⟩
        rcases bind_eq_ok_iff.1 stepped with ⟨⟨next, lines⟩, rounded, marked⟩
        cases marked
        rcases rounds_enters keeps sound rounded with ⟨entries, trades⟩
        have bound : next.nav market.prices ≤ factor ^ n * initialNav :=
          trades.nav_le.trans (ahead market priced)
        have history : next.navHistory.length = n := by rw [trades.history, length]
        refine ⟨soundLast, ?_, ?_, ?_⟩
        · change (next.navHistory ++ [_]).length = _
          simp [history]
        · intro later pricedLater
          change next.worth (quoteOf later.prices) ≤ _
          have growth := worth_le_of_quote_le (sound_rounds keeps.sound sound rounded) grows
            (quoteOf_le grows rises priced pricedLater)
          have scaled := mul_le_mul_of_nonneg_left bound (zero_le_one.trans grows)
          rw [nav_eq_worth] at scaled
          rw [pow_succ']
          linarith [mul_assoc factor (factor ^ n) initialNav]
        · intro i nav found
          change (next.navHistory ++ [next.nav market.prices])[i]? = some nav at found
          rcases lt_or_ge i n with early | now
          · rw [List.getElem?_append_left (history ▸ early), trades.history] at found
            exact recorded i nav found
          · rw [List.getElem?_append_right (history ▸ now), List.getElem?_singleton,
              history] at found
            split at found
            · next first =>
              cases found
              have same : i = n := by omega
              rw [same]
              exact bound
            · cases found
  exact (runs n last ledger ran).2.2.2

end Growth

/-- The champion in the rising market, in which every price rises by one percent. -/
theorem navHistory_growth_champion : ∃ last ledger,
    runStrategy (fun market p => Champion.decide Champion.risingMath market p Champion.defaultCfg)
        Champion.risingPrices (List.range 5) = .ok (last, ledger) ∧
      ∀ (i : ℕ) nav, last.navHistory[i]? = some nav → nav ≤ (101 / 100) ^ i * initialNav := by
  rcases Champion.risingRun with ⟨last, ledger, ran⟩
  refine ⟨last, ledger, ran, navHistory_growth
    (Champion.keepsBook_decide Champion.risingMath Champion.defaultCfg) (by norm_num) ?_ 5 ran⟩
  intro asset path listed
  have eth : path = (List.range 6).map fun hour => 2000 * (101 / 100) ^ hour := by
    rw [Champion.risingPrices, Dict.get?, Dict.entries_ofList (by simp), List.lookup_cons] at listed
    split at listed
    · exact (Option.some.inj listed).symm
    · cases listed
  subst eth
  constructor
  · intro price mem
    rcases List.mem_map.1 mem with ⟨hour, -, rfl⟩
    positivity
  · intro h price next now later
    simp only [List.getElem?_map, Option.map_eq_some_iff, List.getElem?_eq_some_iff,
      List.getElem_range] at now later
    rcases now with ⟨_, ⟨_, rfl⟩, rfl⟩
    rcases later with ⟨_, ⟨_, rfl⟩, rfl⟩
    rw [pow_succ]
    linarith

end Backtest

end SumplusTrader
