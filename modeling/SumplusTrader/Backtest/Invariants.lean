import SumplusTrader.Backtest.Elimination

/-!
# The invariants of the backtest portfolio

This file proves the representation invariant of the portfolio and that trading
creates no value. The three dictionaries have the same keys in the same order,
every stored quantity is positive, and cash is never negative. At prices that
agree with the prices of a trade, the net asset value does not rise: a buy pays its
fee and the slippage, a sell receives less than what it gives up, and a residue
that is removed is lost.
-/

namespace SumplusTrader

namespace Backtest

/-- Costs between nothing and everything that is swapped. -/
structure Costs.Fair (costs : Costs) : Prop where
  feeNonneg : 0 ≤ costs.feeBps
  feeLe : costs.feeBps ≤ 10000
  slippageNonneg : 0 ≤ costs.slippageBps
  slippageLe : costs.slippageBps ≤ 10000

/-- The costs of an operation are fair. -/
def Op.Fair : Op → Prop
  | .buy _ _ _ _ costs => costs.Fair
  | .sell _ _ _ costs => costs.Fair
  | .flatten _ costs => costs.Fair
  | _ => True

/-- Fixed prices that hold every asset an operation trades at its trade price. -/
def Op.TradesAt (prices : Dict String ℚ) (p : Portfolio) : Op → Prop
  | .buy asset _ price _ _ => prices.get? asset = some price
  | .sell asset _ price _ => prices.get? asset = some price
  | .flatten quoted _ => ∀ asset ∈ p.positions.keys, ∀ price,
      quoted.get? asset = some price → prices.get? asset = some price
  | _ => True

/-- The representation invariant. -/
structure Sound (p : Portfolio) : Prop where
  cash : 0 ≤ p.cash
  positive : ∀ asset qty, p.positions.get? asset = some qty → 0 < qty
  entryPrice : p.entryPrice.keys = p.positions.keys
  entryHour : p.entryHour.keys = p.positions.keys

variable {p next : Portfolio} {asset : String} {usd price fraction qty fillPrice spent : ℚ}
  {hour : ℤ} {costs : Costs} {prices : Dict String ℚ}

theorem Costs.Fair.bounded (fair : costs.Fair) : costs.Bounded := ⟨fair.feeLe, fair.slippageLe⟩

theorem sound_newPortfolio {initialCash : ℚ} (positive : 0 < initialCash) :
    Sound (newPortfolio initialCash) where
  cash := positive.le
  positive := by
    intro asset qty found
    cases found
  entryPrice := rfl
  entryHour := rfl

theorem get?_of_qtyOf_pos (held : 0 < p.qtyOf asset) :
    p.positions.get? asset = some (p.qtyOf asset) := by
  unfold Portfolio.qtyOf at held ⊢
  cases found : p.positions.get? asset with
  | none =>
      rw [found] at held
      exact absurd held (lt_irrefl 0)
  | some qty => rfl

theorem Sound.qtyOf_nonneg (sound : Sound p) (asset : String) : 0 ≤ p.qtyOf asset := by
  unfold Portfolio.qtyOf
  cases found : p.positions.get? asset with
  | none => exact le_refl 0
  | some qty => exact (sound.positive asset qty found).le

/-- Without a quantity there is no position. -/
theorem Sound.get?_eq_none (sound : Sound p) (empty : p.qtyOf asset ≤ 0) :
    p.positions.get? asset = none := by
  unfold Portfolio.qtyOf at empty
  cases found : p.positions.get? asset with
  | none => rfl
  | some qty =>
      rw [found] at empty
      exact absurd (sound.positive asset qty found) (not_lt.2 empty)

theorem positive_set (sound : Sound p) (positive : 0 < qty) :
    ∀ other held, (p.positions.set asset qty).get? other = some held → 0 < held := by
  intro other held found
  rw [Dict.get?_set] at found
  split at found
  · rw [← Option.some.inj found]
    exact positive
  · exact sound.positive other held found

theorem mem_keys_of_get? {found : ℚ} (stored : p.positions.get? asset = some found) :
    asset ∈ p.positions.keys := by
  by_contra absent
  rw [(Dict.get?_eq_none_iff _ _).2 absent] at stored
  cases stored

theorem sound_addQty (sound : Sound p) (positive : 0 < qty)
    (added : p.addQty asset qty fillPrice hour = .ok next) : Sound next := by
  have held := sound.qtyOf_nonneg asset
  have total : 0 < p.qtyOf asset + qty := by linarith
  rcases Portfolio.addQty_cases added with ⟨open_, entry, average, found, rfl⟩ | ⟨-, rfl⟩
  · have mem := mem_keys_of_get? (get?_of_qtyOf_pos open_)
    refine ⟨sound.cash, positive_set sound total, ?_, ?_⟩
    · simp only [Dict.keys_set, sound.entryPrice]
    · simp only [Dict.keys_set, sound.entryHour, if_pos mem]
  · refine ⟨sound.cash, positive_set sound total, ?_, ?_⟩
    · simp only [Dict.keys_set, sound.entryPrice]
    · simp only [Dict.keys_set, sound.entryHour]

theorem sound_setQty (sound : Sound p) (held : asset ∈ p.positions.keys) (qty : ℚ) :
    Sound (p.setQty asset qty) := by
  unfold Portfolio.setQty
  split
  · refine ⟨sound.cash, ?_, ?_, ?_⟩
    · intro other left found
      rw [Dict.get?_pop] at found
      split at found
      · cases found
      · exact sound.positive other left found
    · simp only [Dict.keys_pop, sound.entryPrice]
    · simp only [Dict.keys_pop, sound.entryHour]
  · next more =>
    have positive : 0 < qty := lt_trans (by norm_num) (not_le.1 more)
    refine ⟨sound.cash, positive_set sound positive, ?_, ?_⟩
    · simp only [Dict.keys_set, if_pos held, sound.entryPrice]
    · simp only [Dict.keys_set, if_pos held, sound.entryHour]

theorem sound_buy (sound : Sound p) (fair : costs.Fair)
    (bought : p.buy asset usd price hour costs = .ok (next, spent)) : Sound next := by
  have funded := cash_buy_nonneg sound.cash bought
  rcases Portfolio.buy_cases bought with ⟨rfl, -⟩ | ⟨gross, fee, spend, added, -, -, -, priced, -,
    paid, -, filled, rfl, -⟩
  · exact sound
  · have slipped : 0 < 1 + costs.slippageBps / 10000 := by linarith [fair.slippageNonneg]
    have grown := sound_addQty sound (div_pos paid (mul_pos priced slipped)) filled
    exact ⟨funded, grown.positive, grown.entryPrice, grown.entryHour⟩

theorem sound_sell (sound : Sound p) (fair : costs.Fair) (asset : String) (fraction price : ℚ) :
    Sound (p.sell asset fraction price costs).1 := by
  have funded := cash_sell_nonneg sound.cash fair.bounded asset fraction price
  dsimp only [Portfolio.sell] at funded ⊢
  split at funded
  · next idle =>
    rw [if_pos idle]
    exact sound
  · next selling =>
    rw [if_neg selling]
    push Not at selling
    have left := sound_setQty sound (mem_keys_of_get? (get?_of_qtyOf_pos selling.1))
      (p.qtyOf asset - p.qtyOf asset * min 1 fraction)
    exact ⟨funded, left.positive, left.entryPrice, left.entryHour⟩

theorem sound_sellAll (sound : Sound p) (fair : costs.Fair) (prices : Dict String ℚ) (fills : ℕ)
    (assets : List String) : Sound (Portfolio.sellAll prices costs p fills assets).1 := by
  induction assets generalizing p fills with
  | nil => exact sound
  | cons asset assets ih =>
      unfold Portfolio.sellAll
      split
      · exact sound
      · exact ih (sound_sell sound fair asset 1 _) _

theorem valueOf_of_quoted (quoted : prices.get? asset = some price) (positive : 0 < qty) :
    Portfolio.valueOf prices asset qty = qty * price := by
  rw [Portfolio.valueOf, if_pos positive, quoted, Option.getD_some]

/-- Adding a quantity raises the value of the positions by its price. -/
theorem riskyValue_addQty (sound : Sound p) (quoted : prices.get? asset = some price)
    (positive : 0 < qty) (added : p.addQty asset qty fillPrice hour = .ok next) :
    next.riskyValue prices = p.riskyValue prices + qty * price := by
  have positions : next.positions = p.positions.set asset (p.qtyOf asset + qty) := by
    rcases Portfolio.addQty_cases added with ⟨-, entry, average, -, rfl⟩ | ⟨-, rfl⟩ <;> rfl
  unfold Portfolio.riskyValue
  rw [positions]
  rcases lt_or_ge 0 (p.qtyOf asset) with held | empty
  · rw [Dict.total_set_of_some _ _ (get?_of_qtyOf_pos held), valueOf_of_quoted quoted held,
      valueOf_of_quoted quoted (by linarith)]
    ring
  · have absent := sound.get?_eq_none empty
    have none : p.qtyOf asset = 0 := by rw [Portfolio.qtyOf, absent, Option.getD_none]
    rw [Dict.total_set_of_none _ _ absent, none, zero_add, valueOf_of_quoted quoted positive]

/-- Leaving a quantity keeps its value, or loses it as a residue. -/
theorem riskyValue_setQty_le (quoted : prices.get? asset = some price) (priced : 0 < price)
    (held : 0 < p.qtyOf asset) (nonneg : 0 ≤ qty) :
    (p.setQty asset qty).riskyValue prices ≤
      p.riskyValue prices - p.qtyOf asset * price + qty * price := by
  have found := get?_of_qtyOf_pos held
  have kept := mul_nonneg nonneg priced.le
  unfold Portfolio.setQty Portfolio.riskyValue
  split
  · rw [Dict.total_pop_of_some _ found, valueOf_of_quoted quoted held]
    linarith
  · next more =>
    have positive : 0 < qty := lt_trans (by norm_num) (not_le.1 more)
    rw [Dict.total_set_of_some _ _ found, valueOf_of_quoted quoted held,
      valueOf_of_quoted quoted positive]

theorem nav_buy_le (sound : Sound p) (fair : costs.Fair)
    (quoted : prices.get? asset = some price)
    (bought : p.buy asset usd price hour costs = .ok (next, spent)) :
    next.nav prices ≤ p.nav prices := by
  rcases Portfolio.buy_cases bought with ⟨rfl, -⟩ | ⟨gross, fee, spend, added, -, feeEq, -, priced,
    grossPositive, paid, -, filled, rfl, -⟩
  · exact le_refl _
  · have slipped : 1 ≤ 1 + costs.slippageBps / 10000 := by linarith [fair.slippageNonneg]
    have worse : price ≤ price * (1 + costs.slippageBps / 10000) :=
      le_mul_of_one_le_right priced.le slipped
    have fillPositive := lt_of_lt_of_le priced worse
    have charged : 0 ≤ fee := by
      rw [feeEq]
      exact div_nonneg (mul_nonneg grossPositive.le fair.feeNonneg) (by norm_num)
    have received : spend / (price * (1 + costs.slippageBps / 10000)) * price ≤ spend := by
      rw [div_mul_eq_mul_div, div_le_iff₀ fillPositive]
      exact mul_le_mul_of_nonneg_left worse paid.le
    have grown := riskyValue_addQty sound quoted (div_pos paid fillPositive) filled
    change (p.cash - (spend + fee)) + added.riskyValue prices ≤ p.cash + p.riskyValue prices
    rw [grown]
    linarith

theorem nav_sell_le (fair : costs.Fair) (quoted : prices.get? asset = some price)
    (fraction : ℚ) : (p.sell asset fraction price costs).1.nav prices ≤ p.nav prices := by
  dsimp only [Portfolio.sell]
  split
  · exact le_refl _
  · next selling =>
    push Not at selling
    rcases selling with ⟨held, priced, some⟩
    have sold : 0 ≤ p.qtyOf asset * min 1 fraction := by positivity
    have left : 0 ≤ p.qtyOf asset - p.qtyOf asset * min 1 fraction := by
      have atMost : p.qtyOf asset * min 1 fraction ≤ p.qtyOf asset * 1 :=
        mul_le_mul_of_nonneg_left (min_le_left _ _) held.le
      linarith
    have kept := riskyValue_setQty_le quoted priced held left
    have worse : price * (1 - costs.slippageBps / 10000) ≤ price := by
      have slips := mul_nonneg priced.le fair.slippageNonneg
      linarith
    have gross := mul_le_mul_of_nonneg_left worse sold
    have slipped : 0 ≤ 1 - costs.slippageBps / 10000 := by linarith [fair.slippageLe]
    have charged := mul_nonneg (mul_nonneg sold (mul_nonneg priced.le slipped)) fair.feeNonneg
    simp only [Portfolio.nav]
    change p.cash + _ + (p.setQty asset _).riskyValue prices ≤ _
    linarith

theorem nav_sellAll_le (fair : costs.Fair) (quoted : Dict String ℚ) (fills : ℕ)
    (assets : List String) (agree : ∀ asset ∈ assets, ∀ price,
      quoted.get? asset = some price → prices.get? asset = some price) :
    (Portfolio.sellAll quoted costs p fills assets).1.nav prices ≤ p.nav prices := by
  induction assets generalizing p fills with
  | nil => exact le_refl _
  | cons asset assets ih =>
      unfold Portfolio.sellAll
      split
      · exact le_refl _
      · next price found =>
        have first := nav_sell_le (p := p) fair (agree asset (by simp) price found) 1
        exact (ih _ fun other mem => agree other (List.mem_cons_of_mem _ mem)).trans first

theorem sound_step (sound : Sound p) {op : Op} (fair : op.Fair) : Sound (step p op) := by
  cases op with
  | buy asset usd price hour costs =>
      unfold step
      dsimp only
      split
      · exact sound
      · next bought => exact sound_buy sound fair bought
  | sell asset fraction price costs => exact sound_sell sound fair asset fraction price
  | flatten prices costs => exact sound_sellAll sound fair prices 0 p.positions.keys
  | mark prices => exact ⟨sound.cash, sound.positive, sound.entryPrice, sound.entryHour⟩
  | rebaseline prices => exact ⟨sound.cash, sound.positive, sound.entryPrice, sound.entryHour⟩

theorem nav_step_le (sound : Sound p) {op : Op} (fair : op.Fair)
    (tradesAt : op.TradesAt prices p) : (step p op).nav prices ≤ p.nav prices := by
  cases op with
  | buy asset usd price hour costs =>
      unfold step
      dsimp only
      split
      · exact le_refl _
      · next bought => exact nav_buy_le sound fair tradesAt bought
  | sell asset fraction price costs => exact nav_sell_le fair tradesAt fraction
  | flatten quoted costs => exact nav_sellAll_le fair quoted 0 p.positions.keys tradesAt
  | mark prices => exact le_refl _
  | rebaseline prices => exact le_refl _

/-- **The portfolio invariants.** After every sequence of operations on a portfolio
created with positive cash, cash is not negative, every stored quantity is positive
and the three dictionaries have the same keys; and at fixed prices that contain
every traded asset at its trade price, no further operation raises the net asset
value. -/
theorem portfolio_invariants (initialCash : ℚ) (positive : 0 < initialCash) (history : List Op)
    (p : Portfolio) (run : Run (moves fun _ op => op.Fair) (newPortfolio initialCash) history p) :
    Sound p ∧ ∀ op : Op, op.Fair → ∀ prices, op.TradesAt prices p →
      (step p op).nav prices ≤ p.nav prices := by
  have sound : Sound p := by
    refine run.invariant (fun _ p => Sound p) (sound_newPortfolio positive) ?_
    rintro history p ops next sound ⟨op, -, fair, -, rfl⟩
    exact sound_step sound fair
  exact ⟨sound, fun op fair prices tradesAt => nav_step_le sound fair tradesAt⟩

theorem fair_default : Costs.default.Fair := by
  constructor <;> norm_num [Costs.default]

theorem portfolio_invariants_oneFall :
    0 < (10000 : ℚ) ∧ Sound (oneFall.foldl step (newPortfolio 10000)) ∧
      (step (oneFall.foldl step (newPortfolio 10000)) (.flatten (bnbAt 90) .default)).nav
          (bnbAt 90) ≤ (oneFall.foldl step (newPortfolio 10000)).nav (bnbAt 90) := by
  have along : Along (fun _ op => op.Fair) (newPortfolio 10000) oneFall :=
    ⟨positivePrices_bnbAt (by norm_num), trivial, positivePrices_bnbAt (by norm_num), trivial,
      ⟨by norm_num, bounded_default⟩, fair_default, positivePrices_bnbAt (by norm_num), trivial,
      trivial⟩
  have invariants := portfolio_invariants 10000 (by norm_num) oneFall _ along.run
  exact ⟨by norm_num, invariants.1, invariants.2 (.flatten (bnbAt 90) .default) fair_default
    (bnbAt 90) fun _ _ _ quoted => quoted⟩

end Backtest

end SumplusTrader
