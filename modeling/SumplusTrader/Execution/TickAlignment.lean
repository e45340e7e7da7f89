import SumplusTrader.Execution.ExitSize

/-!
# Orders on the ticks of the market

This file says what the backend sizes for a swap: a quantity on the grid of the market, less
than one tick below the amount over the reference price, and a worst price on the grid, less
than one tick beyond the slippage bound. A swap whose quantity is worth less than the minimal
notional never reaches the chain.
-/

namespace SumplusTrader

namespace InjectiveMarket

section Snap

variable {tick : ℚ}

/-- Snapping down loses less than one tick. -/
theorem snapToTick_down (value : ℚ) (positive : 0 < tick) :
    (∃ count : ℤ, snapToTick value tick .down = count * tick) ∧
      value - tick < snapToTick value tick .down ∧ snapToTick value tick .down ≤ value := by
  rw [snapToTick, if_neg (not_le.2 positive)]
  refine ⟨⟨_, rfl⟩, ?_, ?_⟩
  · have below := Int.lt_floor_add_one (value / tick)
    rw [div_lt_iff₀ positive] at below
    linarith
  · exact (le_div_iff₀ positive).1 (Int.floor_le _)

/-- Snapping up adds less than one tick. -/
theorem snapToTick_up (value : ℚ) (positive : 0 < tick) :
    (∃ count : ℤ, snapToTick value tick .up = count * tick) ∧
      value ≤ snapToTick value tick .up ∧ snapToTick value tick .up < value + tick := by
  rw [snapToTick, if_neg (not_le.2 positive)]
  refine ⟨⟨_, rfl⟩, (div_le_iff₀ positive).1 (Int.le_ceil _), ?_⟩
  have above := Int.ceil_lt_add_one (value / tick)
  rw [← sub_lt_iff_lt_add, lt_div_iff₀ positive] at above
  linarith

/-- A number on a grid of the exchange survives the format of the exchange. -/
theorem fromUfixed_toUfixed {value : ℚ} (whole : ∃ units : ℤ, value * 10 ^ 18 = units) :
    fromUfixed (toUfixed value) = value := by
  rcases whole with ⟨units, whole⟩
  have same : toUfixed value = units := by
    rw [toUfixed, truncate, whole, Int.ceil_intCast, Int.floor_intCast, ite_self]
  rw [fromUfixed, same, ← whole]
  exact mul_div_cancel_right₀ _ (by norm_num)

end Snap

end InjectiveMarket

namespace InjectiveBackend

open InjectiveMarket

/-- An order is sized on the ticks of the market, on its own side of the bounds. -/
structure TickAligned (sizing : Sizing) (side : Side) (ref usd priceTick qtyTick slip : ℚ) :
    Prop where
  quantity_whole : ∃ count : ℤ, sizing.quantityBase = count * qtyTick
  quantity_gt : usd / ref - qtyTick < sizing.quantityBase
  quantity_le : sizing.quantityBase ≤ usd / ref
  price_whole : ∃ count : ℤ, sizing.worstPrice = count * priceTick
  buys : side = .buy →
    ref * (1 + slip) ≤ sizing.worstPrice ∧ sizing.worstPrice < ref * (1 + slip) + priceTick
  sells : side ≠ .buy →
    ref * (1 - slip) - priceTick < sizing.worstPrice ∧ sizing.worstPrice ≤ ref * (1 - slip)
  sent_quantity : (∃ units : ℤ, qtyTick * 10 ^ 18 = units) →
    fromUfixed sizing.quantityUfixed = sizing.quantityBase
  sent_price : (∃ units : ℤ, priceTick * 10 ^ 18 = units) →
    fromUfixed sizing.priceUfixed = sizing.worstPrice
  notional : sizing.amountUsd = sizing.quantityBase * ref

/-- A multiple of a tick on the grid of the exchange is on the grid. -/
theorem grid_of_whole {value tick : ℚ} (whole : ∃ count : ℤ, value = count * tick)
    (grid : ∃ units : ℤ, tick * 10 ^ 18 = units) : ∃ units : ℤ, value * 10 ^ 18 = units := by
  rcases whole with ⟨count, rfl⟩
  rcases grid with ⟨units, grid⟩
  refine ⟨count * units, ?_⟩
  rw [mul_assoc, grid]
  push_cast
  rfl

section Sizing

variable {backend : InjectiveBackend} {env : Environ} {indexer : Indexer} {base quote : String}
  {side : Side} {amount : String} {slippageBps : ℤ} {ref usd priceTick qtyTick : ℚ}

theorem tickAligned_of_size
    (refPrice : backend.refPrice env indexer base quote side = .ok ref) (ref_pos : 0 < ref)
    (read : Py.decimal amount = some usd)
    (ticks : marketTicks env indexer.ticks base quote = .ok (priceTick, qtyTick))
    (price_pos : 0 < priceTick) (qty_pos : 0 < qtyTick) :
    ∃ sizing, backend.size env indexer base quote side amount slippageBps = .ok sizing ∧
      TickAligned sizing side ref usd priceTick qtyTick (slippageBps / 10000) := by
  rcases snapToTick_down (usd / ref) qty_pos with ⟨quantity, low, high⟩
  have sized : backend.size env indexer base quote side amount slippageBps = .ok {
      refPrice := ref
      worstPrice := snapToTick (if side = .buy then ref * (1 + slippageBps / 10000)
        else ref * (1 - slippageBps / 10000)) priceTick (if side = .buy then .up else .down)
      quantityBase := snapToTick (usd / ref) qtyTick .down
      priceUfixed := toUfixed (snapToTick (if side = .buy then ref * (1 + slippageBps / 10000)
        else ref * (1 - slippageBps / 10000)) priceTick (if side = .buy then .up else .down))
      quantityUfixed := toUfixed (snapToTick (usd / ref) qtyTick .down)
      amountUsd := snapToTick (usd / ref) qtyTick .down * ref } := by
    simp only [size, refPrice, decimalOfText, read, ticks, bind, Except.bind, ref_pos.ne',
      if_false, pure, Except.pure]
  refine ⟨_, sized, ?_⟩
  have price : (∃ count : ℤ, snapToTick (if side = .buy then ref * (1 + slippageBps / 10000)
      else ref * (1 - slippageBps / 10000)) priceTick (if side = .buy then .up else .down) =
        count * priceTick) := by
    split
    · exact (snapToTick_up _ price_pos).1
    · exact (snapToTick_down _ price_pos).1
  constructor
  · exact quantity
  · exact low
  · exact high
  · exact price
  · intro buys
    simp only [buys, if_true]
    exact (snapToTick_up _ price_pos).2
  · intro sells
    simp only [sells, if_false]
    exact (snapToTick_down _ price_pos).2
  · exact fun grid => fromUfixed_toUfixed (grid_of_whole quantity grid)
  · exact fun grid => fromUfixed_toUfixed (grid_of_whole price grid)
  · rfl

end Sizing

/-- A swap of an order sized on a market. -/
structure SwapOf (request : SwapRequest) (base quote : String) (side : Side) (amount : String)
    (slippageBps : ℤ) : Prop where
  classified : ∃ orderType,
    classifySwap request.fromToken request.toToken = .ok ⟨side, base, quote, orderType⟩
  amount_eq : request.amount = amount
  slippage_eq : request.slippageBps = slippageBps

/-- The swap ends in the same way whatever the chain answers, and nothing was accepted by it. -/
def NothingSent (backend : InjectiveBackend) (env : Environ) (indexer : Indexer)
    (request : SwapRequest) : Prop :=
  ∃ result, ∀ chain, backend.swap env indexer chain request = (none, result)

section Swap

variable {backend : InjectiveBackend} {env : Environ} {indexer : Indexer} {request : SwapRequest}

theorem nothingSent_of_small {plan : SwapPlan} {sizing : Sizing} {minNotional : ℚ}
    (sized : backend.sized env indexer request = .ok (plan, sizing))
    (least : minNotionalUsd env = .ok minNotional) (small : sizing.amountUsd < minNotional) :
    NothingSent backend env indexer request := by
  rcases found : marketId env plan.base plan.quote with e | market
  · refine ⟨.error e, ?_⟩
    intro chain
    simp only [swap, spotOrder, sized, found, bind, Except.bind]
  · refine ⟨.ok (skippedResult sizing backend.dryRun minNotional
      (if request.cid.getD "" = "" then env.text "INJ_CID" "" else request.cid.getD "")), ?_⟩
    intro chain
    simp only [swap, spotOrder, sized, found, least, bind, Except.bind, pure, Except.pure, place,
      small, if_true]

end Swap

/-- **Orders are sized on the ticks of the market and one-sided**: for every positive reference
price and positive ticks, every amount, slippage and side. A swap of the order sends nothing when
its quantity is worth less than the minimal notional. -/
theorem order_tick_aligned (backend : InjectiveBackend) (env : Environ) (indexer : Indexer)
    (base quote : String) (side : Side) (amount : String) (slippageBps : ℤ)
    (ref usd priceTick qtyTick : ℚ)
    (refPrice : backend.refPrice env indexer base quote side = .ok ref) (ref_pos : 0 < ref)
    (read : Py.decimal amount = some usd)
    (ticks : marketTicks env indexer.ticks base quote = .ok (priceTick, qtyTick))
    (price_pos : 0 < priceTick) (qty_pos : 0 < qtyTick) :
    ∃ sizing, backend.size env indexer base quote side amount slippageBps = .ok sizing ∧
      TickAligned sizing side ref usd priceTick qtyTick (slippageBps / 10000) ∧
      ∀ request minNotional, SwapOf request base quote side amount slippageBps →
        minNotionalUsd env = .ok minNotional → sizing.quantityBase * ref < minNotional →
        NothingSent backend env indexer request := by
  rcases @tickAligned_of_size backend env indexer base quote side amount slippageBps _ _ _ _
    refPrice ref_pos read ticks price_pos qty_pos with ⟨sizing, sized, aligned⟩
  refine ⟨sizing, sized, aligned, ?_⟩
  rintro request minNotional ⟨⟨orderType, classified⟩, rfl, rfl⟩ least small
  have planned : backend.sized env indexer request =
      .ok (⟨side, base, quote, orderType⟩, sizing) := by
    simp only [InjectiveBackend.sized, classified, sized, bind, Except.bind, pure, Except.pure]
  rw [← aligned.notional] at small
  exact nothingSent_of_small planned least small

/-- Five dollars of INJ at a bid of 20. -/
theorem order_tick_aligned_fiveDollars :
    ∃ sizing, ExitSetting.wiredBackend.size ExitSetting.ticksEnviron
        (ExitSetting.indexerOfBid "0.00000000002") "INJ" "USDT" .sell "5" 50 = .ok sizing ∧
      TickAligned sizing .sell 20 5 0.001 0.001 ((50 : ℤ) / 10000) ∧
      ∀ request minNotional, SwapOf request "INJ" "USDT" .sell "5" 50 →
        minNotionalUsd ExitSetting.ticksEnviron = .ok minNotional →
        sizing.quantityBase * 20 < minNotional →
        NothingSent ExitSetting.wiredBackend ExitSetting.ticksEnviron
          (ExitSetting.indexerOfBid "0.00000000002") request := by
  have refPrice : (ExitSetting.wiredBackend.refPrice ExitSetting.ticksEnviron
      (ExitSetting.indexerOfBid "0.00000000002") "INJ" "USDT" .sell).toOption = some 20 := by
    decide +kernel
  have ticks : (marketTicks ExitSetting.ticksEnviron
      (ExitSetting.indexerOfBid "0.00000000002").ticks "INJ" "USDT").toOption =
        some (0.001, 0.001) := by
    decide +kernel
  exact order_tick_aligned ExitSetting.wiredBackend ExitSetting.ticksEnviron
    (ExitSetting.indexerOfBid "0.00000000002") "INJ" "USDT" .sell "5" 50 20 5 0.001 0.001
    (toOption_eq_some_iff.1 refPrice) (by norm_num) (by decide +kernel)
    (toOption_eq_some_iff.1 ticks) (by norm_num) (by norm_num)

end InjectiveBackend

end SumplusTrader
