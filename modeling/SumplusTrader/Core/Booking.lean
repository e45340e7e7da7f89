import SumplusTrader.Core.Portfolio

/-!
# What booking a fill does to the book

This file describes the book after a fill. A sale of a nonnegative amount never
raises a quantity above its old value or zero. A booked buy raises the marked value
of the book by exactly the amount that was paid, whatever entry price the position
ends up with, because a token that can be bought has a quote.
-/

namespace SumplusTrader

theorem left_le_of_sold (qty : ℚ) {amount : ℚ} (nonneg : 0 ≤ amount) :
    qty - min qty amount ≤ max qty 0 := by
  rcases le_total qty amount with all | part
  · rw [min_eq_left all, sub_self]
    exact le_max_right qty 0
  · rw [min_eq_right part]
    exact le_trans (by linarith) (le_max_left qty 0)

theorem qtyOf_applySell_le (state : State) (sym : String) {amount : ℚ} (nonneg : 0 ≤ amount)
    (px : ℚ) (other : String) :
    (applySell state sym amount px).qtyOf other ≤ max (state.qtyOf other) 0 := by
  unfold applySell
  split
  · exact le_max_left _ _
  · next old found =>
    split
    · next quoted =>
      have left := left_le_of_sold old.qty (div_nonneg nonneg quoted.le)
      by_cases same : other = sym
      · subst same
        have held : state.qtyOf other = old.qty := by simp [State.qtyOf, found]
        rw [held]
        dsimp only
        split
        · simp [State.qtyOf, Dict.get?_pop]
        · simpa [State.qtyOf, Dict.get?_set_self] using left
      · apply le_max_of_le_left
        apply le_of_eq
        dsimp only
        split
        · simp [State.qtyOf, Dict.get?_pop, same]
        · simp [State.qtyOf, Dict.get?_set_of_ne _ _ same]
    · exact le_max_left _ _

theorem cash_applyBuy (state : State) (sym : String) (amount px nowTs : ℚ) :
    ∃ stable, (applyBuy state sym amount px nowTs).stableUsd = some stable := by
  unfold applyBuy
  split
  · exact ⟨_, rfl⟩
  · exact ⟨_, rfl⟩

theorem cash_applySell (state : State) (sym : String) (amount px : ℚ) :
    ∃ stable, (applySell state sym amount px).stableUsd = some stable := by
  unfold applySell
  split
  · exact ⟨_, rfl⟩
  · split
    · exact ⟨_, rfl⟩
    · exact ⟨_, rfl⟩

/-- A state that a fill was booked in has its cash on record. -/
theorem cash_applyFill (state : State) (decision : Decision) (amount : ℚ)
    (price : Dict String ℚ) (nowTs : ℚ) :
    ∃ stable, (applyFill state decision amount price nowTs).stableUsd = some stable := by
  unfold applyFill
  split
  · exact cash_applyBuy state _ amount _ nowTs
  · exact cash_applySell state _ amount _
  · exact ⟨_, rfl⟩

/-- A token with a quote is marked at it. -/
theorem markPrice_of_quoted {price : Dict String ℚ} {sym : String} {px : ℚ}
    (quoted : price.get? (Py.upper sym) = some px) (nonzero : px ≠ 0) (entryPrice : ℚ) :
    markPrice price sym entryPrice = px := by
  simp [markPrice, quoted, nonzero]

theorem get?_of_priceOrZero_ne {price : Dict String ℚ} {sym : String}
    (priced : priceOrZero price sym ≠ 0) : price.get? sym = some (priceOrZero price sym) := by
  unfold priceOrZero at priced ⊢
  cases found : price.get? sym with
  | none => simp [found] at priced
  | some px => rfl

/-- A booked buy adds what was paid to every valuation that prices the token as the fill does. -/
theorem total_applyBuy (state : State) {sym : String} {px : ℚ} (value : String → HeldPosition → ℚ)
    (priced : ∀ pos, value sym pos = pos.qty * px) {amount : ℚ} (nowTs : ℚ)
    (bought : 0 < px ∧ amount ≤ state.stable + 1 / 1000000000) :
    (applyBuy state sym amount px nowTs).positions.total value =
      state.positions.total value + amount := by
  have nonzero := bought.1.ne'
  rw [applyBuy, if_pos bought]
  dsimp only
  cases old : state.positions.get? sym with
  | none =>
      rw [Dict.total_set_of_none _ _ old, priced, div_mul_cancel₀ _ nonzero]
  | some old =>
      rw [Dict.total_set_of_some _ _ (by assumption), priced, priced]
      simp only [addToPosition]
      field_simp
      ring

/-- A booked buy adds what was paid to the marked value of the book. -/
theorem markedUsd_applyBuy (state : State) {price : Dict String ℚ} {sym : String}
    (upper : Py.upper sym = sym) (amount nowTs : ℚ) (quoted : 0 < priceOrZero price sym)
    (affordable : amount ≤ state.stable + 1 / 1000000000) :
    markedUsd (applyBuy state sym amount (priceOrZero price sym) nowTs) price =
      markedUsd state price + amount := by
  apply total_applyBuy _ _ _ _ ⟨quoted, affordable⟩
  intro pos
  rw [markPrice_of_quoted (by rw [upper, get?_of_priceOrZero_ne quoted.ne']) quoted.ne']

/-- What a sale leaves of the quantity of a position. -/
def HeldPosition.left (old : HeldPosition) (amount px : ℚ) : ℚ :=
  old.qty - min old.qty (amount / px)

/-- What a sale drops of a position as dust. -/
def HeldPosition.dust (old : HeldPosition) (amount px : ℚ) : ℚ :=
  if old.left amount px ≤ 1 / 1000000000 then old.left amount px else 0

/-- A booked sale takes what was sold, and the dust, off every valuation that prices the token as
the fill does. -/
theorem total_applySell (state : State) {sym : String} {px : ℚ}
    (value : String → HeldPosition → ℚ) (priced : ∀ pos, value sym pos = pos.qty * px)
    (amount : ℚ) {old : HeldPosition} (found : state.positions.get? sym = some old)
    (quoted : 0 < px) :
    (applySell state sym amount px).positions.total value = state.positions.total value -
      (min old.qty (amount / px) + old.dust amount px) * px := by
  unfold HeldPosition.dust HeldPosition.left
  simp only [applySell, found, if_pos quoted]
  split
  · rw [Dict.total_pop_of_some _ found, priced]
    ring
  · rw [Dict.total_set_of_some _ _ found, priced, priced]
    ring

end SumplusTrader
