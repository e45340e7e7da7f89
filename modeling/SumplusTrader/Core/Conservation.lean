import SumplusTrader.Core.Oscillation

/-!
# A fill conserves value

This file says once what booking a fill can do: nothing but write down the cash, add to a
position, or take from one. `applyFill_conserves` follows for every book without short
positions and every amount that is not negative. At the prices of the fill the net asset value
stays what it was, except for the residue that a closing sale drops.
-/

namespace SumplusTrader

/-- The token whose position a decision changes. -/
def Decision.tradedSymbol (decision : Decision) : String :=
  match decision.side with
  | .sell => Py.upper decision.fromToken
  | _ => Py.upper decision.toToken

/-- A fill books a buy: the token has a price, and the cash pays for the amount. -/
structure FillBuys (state : State) (decision : Decision) (amountUsd : ℚ)
    (price : Dict String ℚ) : Prop where
  buys : decision.side = .buy
  priced : 0 < priceOrZero price decision.tradedSymbol
  affordable : amountUsd ≤ state.stable + 1 / 1000000000

/-- A fill books a sale out of a position. -/
structure FillSells (state : State) (decision : Decision) (price : Dict String ℚ)
    (old : HeldPosition) : Prop where
  sells : decision.side = .sell
  held : state.positions.get? decision.tradedSymbol = some old
  priced : 0 < priceOrZero price decision.tradedSymbol

/-- The position that a buy leaves behind. -/
def boughtPosition (old : Option HeldPosition) (qty px nowTs : ℚ) : HeldPosition :=
  match old with
  | some old => addToPosition old qty px
  | none => ⟨qty, px, nowTs⟩

/-- The book without what a sale took, or without the position. -/
def soldPositions (positions : Dict String HeldPosition) (sym : String) (old : HeldPosition)
    (left : ℚ) : Dict String HeldPosition :=
  if left ≤ 1 / 1000000000 then positions.pop sym else positions.set sym { old with qty := left }

section Cases

variable {state : State} {decision : Decision} {amountUsd nowTs : ℚ} {price : Dict String ℚ}
  {old : HeldPosition}

theorem FillBuys.traded (fill : FillBuys state decision amountUsd price) :
    decision.tradedSymbol = Py.upper decision.toToken := by
  rw [Decision.tradedSymbol, fill.buys]

theorem FillSells.traded (fill : FillSells state decision price old) :
    decision.tradedSymbol = Py.upper decision.fromToken := by
  rw [Decision.tradedSymbol, fill.sells]

theorem FillBuys.applyFill_eq (fill : FillBuys state decision amountUsd price) (nowTs : ℚ) :
    applyFill state decision amountUsd price nowTs =
      { state with
        positions := state.positions.set decision.tradedSymbol
          (boughtPosition (state.positions.get? decision.tradedSymbol)
            (amountUsd / priceOrZero price decision.tradedSymbol)
            (priceOrZero price decision.tradedSymbol) nowTs)
        stableUsd := some (state.stable - amountUsd) } := by
  have bought : 0 < priceOrZero price (Py.upper decision.toToken) ∧
      amountUsd ≤ state.stable + 1 / 1000000000 := ⟨fill.traded ▸ fill.priced, fill.affordable⟩
  rw [applyFill, fill.buys]
  dsimp only
  rw [applyBuy, if_pos bought, fill.traded]
  cases state.positions.get? (Py.upper decision.toToken) with
  | none => rfl
  | some old => rfl

theorem FillSells.applyFill_eq (fill : FillSells state decision price old) (amountUsd nowTs : ℚ) :
    applyFill state decision amountUsd price nowTs =
      { state with
        positions := soldPositions state.positions decision.tradedSymbol old
          (old.left amountUsd (priceOrZero price decision.tradedSymbol))
        stableUsd := some (state.stable +
          min old.qty (amountUsd / priceOrZero price decision.tradedSymbol) *
            priceOrZero price decision.tradedSymbol) } := by
  have held := fill.held
  have priced := fill.priced
  rw [fill.traded] at held priced ⊢
  rw [applyFill, fill.sells]
  simp only [applySell, held, if_pos priced]
  rfl

/-- A fill books a buy or a sale, or it changes nothing but the record of the cash. -/
theorem applyFill_cases (state : State) (decision : Decision) (amountUsd : ℚ)
    (price : Dict String ℚ) (nowTs : ℚ) :
    FillBuys state decision amountUsd price ∨
      (∃ old, FillSells state decision price old) ∨
      ¬FillBuys state decision amountUsd price ∧ (¬∃ old, FillSells state decision price old) ∧
        applyFill state decision amountUsd price nowTs =
          { state with stableUsd := some state.stable } := by
  by_cases buys : FillBuys state decision amountUsd price
  · exact .inl buys
  by_cases sells : ∃ old, FillSells state decision price old
  · exact .inr (.inl sells)
  refine .inr (.inr ⟨buys, sells, ?_⟩)
  unfold applyFill
  cases side : decision.side with
  | buy =>
      have traded : decision.tradedSymbol = Py.upper decision.toToken := by
        rw [Decision.tradedSymbol, side]
      refine if_neg ?_
      rintro ⟨priced, affordable⟩
      exact buys ⟨side, traded ▸ priced, affordable⟩
  | sell =>
      have traded : decision.tradedSymbol = Py.upper decision.fromToken := by
        rw [Decision.tradedSymbol, side]
      dsimp only
      rw [applySell]
      split
      · rfl
      · next old held =>
        refine if_neg ?_
        intro priced
        exact sells ⟨old, side, traded ▸ held, traded ▸ priced⟩
  | hold => rfl

end Cases

theorem HeldPosition.left_nonneg (old : HeldPosition) (amount px : ℚ) : 0 ≤ old.left amount px :=
  sub_nonneg.2 (min_le_left _ _)

/-- A mean with nonnegative weights lies between its two values. -/
theorem mean_between {x y u v : ℚ} (first : 0 ≤ u) (second : 0 ≤ v) (weighted : u + v ≠ 0) :
    min x y ≤ (x * u + y * v) / (u + v) ∧ (x * u + y * v) / (u + v) ≤ max x y := by
  have total : 0 < u + v := lt_of_le_of_ne (add_nonneg first second) (Ne.symm weighted)
  constructor
  · rw [le_div_iff₀ total, mul_add]
    exact add_le_add (mul_le_mul_of_nonneg_right (min_le_left x y) first)
      (mul_le_mul_of_nonneg_right (min_le_right x y) second)
  · rw [div_le_iff₀ total, mul_add]
    exact add_le_add (mul_le_mul_of_nonneg_right (le_max_left x y) first)
      (mul_le_mul_of_nonneg_right (le_max_right x y) second)

theorem entryPrice_addToPosition {old : HeldPosition} {qty : ℚ} (held : 0 ≤ old.qty)
    (added : 0 ≤ qty) (px : ℚ) :
    min old.entryPrice px ≤ (addToPosition old qty px).entryPrice ∧
      (addToPosition old qty px).entryPrice ≤ max old.entryPrice px := by
  unfold addToPosition
  dsimp only
  split
  · next weighted => exact mean_between held added weighted
  · exact ⟨min_le_right _ _, le_max_right _ _⟩

theorem qty_boughtPosition_nonneg {old : Option HeldPosition} {qty : ℚ}
    (held : ∀ pos, old = some pos → 0 ≤ pos.qty) (added : 0 ≤ qty) (px nowTs : ℚ) :
    0 ≤ (boughtPosition old qty px nowTs).qty := by
  cases old with
  | none => exact added
  | some pos => exact add_nonneg (held pos rfl) added

theorem get?_soldPositions_self {positions : Dict String HeldPosition} {sym : String}
    {old pos : HeldPosition} {left : ℚ}
    (found : (soldPositions positions sym old left).get? sym = some pos) :
    pos = { old with qty := left } := by
  unfold soldPositions at found
  split at found
  · rw [Dict.get?_pop, if_pos rfl] at found
    cases found
  · rw [Dict.get?_set_self] at found
    exact (Option.some.inj found).symm

theorem get?_soldPositions_of_ne (positions : Dict String HeldPosition) {sym other : String}
    (old : HeldPosition) (left : ℚ) (apart : other ≠ sym) :
    (soldPositions positions sym old left).get? other = positions.get? other := by
  unfold soldPositions
  split
  · rw [Dict.get?_pop, if_neg apart]
  · exact Dict.get?_set_of_ne _ _ apart

/-- What a fill keeps. The residue is what a closing sale leaves of a position and drops. -/
structure Conserves (state : State) (decision : Decision) (amountUsd : ℚ) (price : Dict String ℚ)
    (after : State) : Prop where
  quantities : ∀ sym pos, after.positions.get? sym = some pos → 0 ≤ pos.qty
  cash : ∃ stable, after.stableUsd = some stable ∧ min state.stable (-(1 / 1000000000)) ≤ stable
  others : ∀ sym, sym ≠ decision.tradedSymbol →
    after.positions.get? sym = state.positions.get? sym
  entryPrice : ∀ old new, decision.side = .buy →
    state.positions.get? decision.tradedSymbol = some old →
    after.positions.get? decision.tradedSymbol = some new →
    min old.entryPrice (priceOrZero price decision.tradedSymbol) ≤ new.entryPrice ∧
      new.entryPrice ≤ max old.entryPrice (priceOrZero price decision.tradedSymbol)
  value : ∃ residue, 0 ≤ residue ∧ residue ≤ 1 / 1000000000 ∧
    (markNav after price).1 = (markNav state price).1 -
      residue * priceOrZero price decision.tradedSymbol ∧
    (residue ≠ 0 → decision.side = .sell ∧
      after.positions.get? decision.tradedSymbol = none ∧
      ∃ old, state.positions.get? decision.tradedSymbol = some old ∧
        residue = old.left amountUsd (priceOrZero price decision.tradedSymbol))

section Conservation

variable {state : State} {decision : Decision} {amountUsd : ℚ} {price : Dict String ℚ}

/-- A token that can be traded is marked at its price. -/
theorem markPrice_traded (priced : 0 < priceOrZero price decision.tradedSymbol) (entryPrice : ℚ) :
    markPrice price decision.tradedSymbol entryPrice =
      priceOrZero price decision.tradedSymbol := by
  have upper : Py.upper decision.tradedSymbol = decision.tradedSymbol := by
    unfold Decision.tradedSymbol
    split
    · exact Py.upper_upper _
    · exact Py.upper_upper _
  exact markPrice_of_quoted (by rw [upper, get?_of_priceOrZero_ne priced.ne']) priced.ne' entryPrice

/-- What a buy pays comes back as the value of what it adds. -/
theorem FillBuys.markNav_applyFill (fill : FillBuys state decision amountUsd price) (nowTs : ℚ) :
    (markNav (applyFill state decision amountUsd price nowTs) price).1 =
      (markNav state price).1 := by
  have booked : applyFill state decision amountUsd price nowTs = applyBuy state
      decision.tradedSymbol amountUsd (priceOrZero price decision.tradedSymbol) nowTs := by
    rw [applyFill, fill.buys, fill.traded]
  have total := total_applyBuy state
    (fun sym pos => pos.qty * markPrice price sym pos.entryPrice)
    (fun pos => by rw [markPrice_traded fill.priced]) nowTs ⟨fill.priced, fill.affordable⟩
  have cash : (applyFill state decision amountUsd price nowTs).stable =
      state.stable - amountUsd := by
    rw [fill.applyFill_eq]
    rfl
  rw [← booked] at total
  simp only [markNav, markedUsd, total, cash]
  ring

/-- A sale loses the residue that it drops. -/
theorem FillSells.markNav_applyFill {old : HeldPosition}
    (fill : FillSells state decision price old) (amountUsd nowTs : ℚ) :
    (markNav (applyFill state decision amountUsd price nowTs) price).1 =
      (markNav state price).1 - old.dust amountUsd (priceOrZero price decision.tradedSymbol) *
        priceOrZero price decision.tradedSymbol := by
  have booked : applyFill state decision amountUsd price nowTs = applySell state
      decision.tradedSymbol amountUsd (priceOrZero price decision.tradedSymbol) := by
    rw [applyFill, fill.sells, fill.traded]
  have total := total_applySell state
    (fun sym pos => pos.qty * markPrice price sym pos.entryPrice)
    (fun pos => by rw [markPrice_traded fill.priced]) amountUsd fill.held fill.priced
  have cash : (applyFill state decision amountUsd price nowTs).stable = state.stable +
      min old.qty (amountUsd / priceOrZero price decision.tradedSymbol) *
        priceOrZero price decision.tradedSymbol := by
    rw [fill.applyFill_eq]
    rfl
  rw [← booked] at total
  simp only [markNav, markedUsd, total, cash]
  ring

theorem FillBuys.conserves (fill : FillBuys state decision amountUsd price)
    (held : ∀ sym pos, state.positions.get? sym = some pos → 0 ≤ pos.qty)
    (nonneg : 0 ≤ amountUsd) (nowTs : ℚ) :
    Conserves state decision amountUsd price
      (applyFill state decision amountUsd price nowTs) := by
  have added : 0 ≤ amountUsd / priceOrZero price decision.tradedSymbol :=
    div_nonneg nonneg fill.priced.le
  have nav := fill.markNav_applyFill nowTs
  rw [fill.applyFill_eq] at nav ⊢
  constructor
  · intro sym pos found
    rw [Dict.get?_set] at found
    split at found
    · cases found
      exact qty_boughtPosition_nonneg (held _) added _ _
    · exact held sym pos found
  · refine ⟨_, rfl, min_le_iff.2 (.inr ?_)⟩
    linarith [fill.affordable]
  · intro sym apart
    exact Dict.get?_set_of_ne _ _ apart
  · intro old new _ before found
    rw [Dict.get?_set_self, before] at found
    cases found
    exact entryPrice_addToPosition (held _ _ before) added _
  · refine ⟨0, le_refl 0, by norm_num, ?_, fun apart => absurd rfl apart⟩
    rw [nav, zero_mul, sub_zero]

theorem FillSells.conserves {old : HeldPosition} (fill : FillSells state decision price old)
    (held : ∀ sym pos, state.positions.get? sym = some pos → 0 ≤ pos.qty)
    (nonneg : 0 ≤ amountUsd) (nowTs : ℚ) :
    Conserves state decision amountUsd price
      (applyFill state decision amountUsd price nowTs) := by
  have left := old.left_nonneg amountUsd (priceOrZero price decision.tradedSymbol)
  have nav := fill.markNav_applyFill amountUsd nowTs
  rw [fill.applyFill_eq] at nav ⊢
  constructor
  · intro sym pos found
    by_cases same : sym = decision.tradedSymbol
    · subst same
      rw [get?_soldPositions_self found]
      exact left
    · rw [get?_soldPositions_of_ne _ _ _ same] at found
      exact held sym pos found
  · refine ⟨_, rfl, min_le_iff.2 (.inl (le_add_of_nonneg_right ?_))⟩
    exact mul_nonneg (le_min (held _ _ fill.held) (div_nonneg nonneg fill.priced.le))
      fill.priced.le
  · intro sym apart
    exact get?_soldPositions_of_ne _ _ _ apart
  · intro _ _ buys
    rw [fill.sells] at buys
    cases buys
  · refine ⟨old.dust amountUsd (priceOrZero price decision.tradedSymbol), ?_, ?_, nav, ?_⟩
    · unfold HeldPosition.dust
      split
      · exact left
      · exact le_refl 0
    · unfold HeldPosition.dust
      split
      · assumption
      · norm_num
    · unfold HeldPosition.dust soldPositions
      split
      · intro _
        refine ⟨fill.sells, ?_, old, fill.held, rfl⟩
        rw [Dict.get?_pop, if_pos rfl]
      · exact fun apart => absurd rfl apart

/-- **Booking a fill conserves value**, for every book without short positions, every decision
and every amount that is not negative. -/
theorem applyFill_conserves (state : State) (decision : Decision) (amountUsd : ℚ)
    (price : Dict String ℚ) (nowTs : ℚ)
    (held : ∀ sym pos, state.positions.get? sym = some pos → 0 ≤ pos.qty)
    (nonneg : 0 ≤ amountUsd) :
    Conserves state decision amountUsd price
      (applyFill state decision amountUsd price nowTs) := by
  rcases applyFill_cases state decision amountUsd price nowTs with
    buys | ⟨old, sells⟩ | ⟨-, -, unchanged⟩
  · exact buys.conserves held nonneg nowTs
  · exact sells.conserves held nonneg nowTs
  · rw [unchanged]
    constructor
    · exact held
    · exact ⟨_, rfl, min_le_left _ _⟩
    · exact fun _ _ => rfl
    · intro old new _ before after
      have same : old = new := Option.some.inj (before.symm.trans after)
      rw [same]
      exact ⟨min_le_left _ _, le_max_left _ _⟩
    · exact ⟨0, le_refl 0, by norm_num, by rw [zero_mul, sub_zero]; rfl,
        fun apart => absurd rfl apart⟩

end Conservation

/-- A little more than one INJ, and two ETH. -/
def dustBook : Dict String HeldPosition :=
  ⟨[("INJ", ⟨1 + 1 / 10000000000, 25, 0⟩), ("ETH", ⟨2, 5, 0⟩)], by decide⟩

def twentyDollarExit : Decision := ⟨.sell, "injective", "inj", "USDT", 20, 0.9, "exit INJ"⟩

/-- At a price of 20 the exit sells one INJ and drops the rest. -/
theorem applyFill_conserves_dustBook :
    Conserves (Core.hundredBook dustBook 80) twentyDollarExit 20 (priceMap Survival.flatViews)
      (applyFill (Core.hundredBook dustBook 80) twentyDollarExit 20
        (priceMap Survival.flatViews) 1000) := by
  have long : ∀ entry ∈ dustBook.entries, 0 ≤ entry.2.qty := by decide +kernel
  apply applyFill_conserves
  · intro sym pos found
    exact long (sym, pos) ((Dict.get?_eq_some_iff _ _ _).1 found)
  · norm_num

end SumplusTrader
