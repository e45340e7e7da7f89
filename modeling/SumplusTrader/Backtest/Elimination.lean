import Mathlib.Algebra.Order.BigOperators.Group.List
import SumplusTrader.Backtest.Metrics
import SumplusTrader.Backtest.Portfolio
import SumplusTrader.Transition.Run

/-!
# Eliminations in a backtest

This file compares the two histories of a portfolio over whole runs. The largest drawdown is that
of the net asset values, while the elimination of a strategy is read off the drawdowns on record.
These are taken from the high-water mark of the portfolio, so that the two agree as long as this
mark is not below any value of the curve.

Buying, selling and marking keep it so, and `breach_of_maxDrawdownPct` says that then no
elimination is hidden. Rebaselining a flat book lowers the mark and erases the last drawdown on
record, after which a run can lose more than the gate without a breach.
-/

namespace SumplusTrader

namespace Backtest

/-- The operations on a portfolio. -/
inductive Op where
  | buy (asset : String) (usd price : ℚ) (hour : ℤ) (costs : Costs)
  | sell (asset : String) (fraction price : ℚ) (costs : Costs)
  | flatten (prices : Dict String ℚ) (costs : Costs)
  | mark (prices : Dict String ℚ)
  | rebaseline (prices : Dict String ℚ)

/-- The portfolio after an operation; a buy that raises leaves it as it was. -/
def step (p : Portfolio) : Op → Portfolio
  | .buy asset usd price hour costs =>
      match p.buy asset usd price hour costs with
      | .error _ => p
      | .ok bought => bought.1
  | .sell asset fraction price costs => (p.sell asset fraction price costs).1
  | .flatten prices costs => (p.flatten prices costs).1
  | .mark prices => (p.mark prices).1
  | .rebaseline prices => p.rebaseline prices

def PositivePrices (prices : Dict String ℚ) : Prop :=
  ∀ asset px, prices.get? asset = some px → 0 < px

/-- Costs that do not exceed what is swapped. -/
def Costs.Bounded (costs : Costs) : Prop := costs.feeBps ≤ 10000 ∧ costs.slippageBps ≤ 10000

/-- Prices are positive and costs are bounded. -/
def Op.Priced : Op → Prop
  | .buy _ _ price _ costs => 0 < price ∧ costs.Bounded
  | .sell _ _ price costs => 0 < price ∧ costs.Bounded
  | .flatten prices costs => PositivePrices prices ∧ costs.Bounded
  | .mark prices => PositivePrices prices
  | .rebaseline prices => PositivePrices prices

/-- A strategy rebaselines a flat book only. -/
def WhenFlat (p : Portfolio) : Op → Prop
  | .rebaseline prices => p.riskyValue prices ≤ 1 / 10 ^ 9
  | _ => True

/-- A rebaseline neither lowers the high-water mark nor erases a drawdown. -/
def KeepsPeak (p : Portfolio) : Op → Prop
  | .rebaseline prices => p.hwm ≤ p.nav prices ∧ p.currentDrawdown = 0
  | _ => True

/-- The moves of a portfolio whose rebaselines meet a condition. -/
def moves (ok : Portfolio → Op → Prop) (p : Portfolio) (ops : List Op) (next : Portfolio) : Prop :=
  ∃ op, op.Priced ∧ ok p op ∧ ops = [op] ∧ next = step p op

variable {p next : Portfolio} {asset : String} {usd price fraction qty fillPrice spent : ℚ}
  {hour : ℤ} {costs : Costs} {prices : Dict String ℚ}

/-- Both portfolios have the same high-water mark and the same histories. -/
structure SameRecord (p next : Portfolio) : Prop where
  hwm : next.hwm = p.hwm
  navHistory : next.navHistory = p.navHistory
  drawdownHistory : next.drawdownHistory = p.drawdownHistory

theorem SameRecord.refl (p : Portfolio) : SameRecord p p := ⟨rfl, rfl, rfl⟩

theorem SameRecord.trans {middle : Portfolio} (first : SameRecord p middle)
    (second : SameRecord middle next) : SameRecord p next :=
  ⟨second.hwm.trans first.hwm, second.navHistory.trans first.navHistory,
    second.drawdownHistory.trans first.drawdownHistory⟩

theorem sameRecord_buy (bought : p.buy asset usd price hour costs = .ok (next, spent)) :
    SameRecord p next := by
  rcases Portfolio.buy_cases bought with ⟨rfl, -⟩ | ⟨gross, fee, spend, added, -, -, -, -, -, -, -,
    filled, rfl, -⟩
  · exact .refl next
  · rcases Portfolio.addQty_cases filled with ⟨-, entry, average, -, rfl⟩ | ⟨-, rfl⟩
    · exact ⟨rfl, rfl, rfl⟩
    · exact ⟨rfl, rfl, rfl⟩

theorem sameRecord_sell (p : Portfolio) (asset : String) (fraction price : ℚ) (costs : Costs) :
    SameRecord p (p.sell asset fraction price costs).1 := by
  dsimp only [Portfolio.sell]
  split
  · exact .refl p
  · unfold Portfolio.setQty
    split
    · exact ⟨rfl, rfl, rfl⟩
    · exact ⟨rfl, rfl, rfl⟩

theorem sameRecord_sellAll (prices : Dict String ℚ) (costs : Costs) (p : Portfolio) (fills : ℕ)
    (assets : List String) : SameRecord p (Portfolio.sellAll prices costs p fills assets).1 := by
  induction assets generalizing p fills with
  | nil => exact .refl p
  | cons asset assets ih =>
      unfold Portfolio.sellAll
      split
      · exact .refl p
      · exact (sameRecord_sell p asset 1 _ costs).trans (ih _ _)

theorem spendOf_le {cash gross fee : ℚ} (positive : 0 < Portfolio.spendOf cash gross fee) :
    Portfolio.spendOf cash gross fee + fee ≤ cash := by
  unfold Portfolio.spendOf at positive ⊢
  split
  · next short =>
    rw [if_pos short] at positive
    rcases le_total 0 (cash - fee) with left | left
    · rw [max_eq_right left]
      linarith
    · rw [max_eq_left left] at positive
      exact absurd positive (lt_irrefl 0)
  · next enough => exact not_lt.1 enough

theorem cash_buy_nonneg (funded : 0 ≤ p.cash)
    (bought : p.buy asset usd price hour costs = .ok (next, spent)) : 0 ≤ next.cash := by
  rcases Portfolio.buy_cases bought with ⟨rfl, -⟩ | ⟨gross, fee, spend, added, -, -, rfl, -, -,
    positive, -, -, rfl, -⟩
  · exact funded
  · exact sub_nonneg.2 (spendOf_le positive)

theorem cash_sell_nonneg (funded : 0 ≤ p.cash) (bounded : costs.Bounded) (asset : String)
    (fraction price : ℚ) : 0 ≤ (p.sell asset fraction price costs).1.cash := by
  dsimp only [Portfolio.sell]
  split
  · exact funded
  · next selling =>
    push Not at selling
    rcases selling with ⟨held, priced, some⟩
    have sold : 0 ≤ p.qtyOf asset * min 1 fraction := by positivity
    have slipped : 0 ≤ 1 - costs.slippageBps / 10000 := by linarith [bounded.2]
    have charged : 0 ≤ 1 - costs.feeBps / 10000 := by linarith [bounded.1]
    have gross := mul_nonneg sold (mul_nonneg priced.le slipped)
    have proceeds := mul_nonneg gross charged
    dsimp only
    linarith

theorem cash_sellAll_nonneg (bounded : costs.Bounded) (prices : Dict String ℚ) (fills : ℕ)
    (assets : List String) (funded : 0 ≤ p.cash) :
    0 ≤ (Portfolio.sellAll prices costs p fills assets).1.cash := by
  induction assets generalizing p fills with
  | nil => exact funded
  | cons asset assets ih =>
      unfold Portfolio.sellAll
      split
      · exact funded
      · exact ih _ (cash_sell_nonneg funded bounded asset 1 _)

theorem riskyValue_nonneg (positive : PositivePrices prices) (p : Portfolio) :
    0 ≤ p.riskyValue prices := by
  apply List.sum_nonneg
  intro value mem
  rcases List.mem_map.1 mem with ⟨entry, -, rfl⟩
  unfold Portfolio.valueOf
  split
  · next held =>
    apply mul_nonneg held.le
    cases quoted : prices.get? entry.1 with
    | none => simp
    | some px => exact (positive entry.1 px quoted).le
  · exact le_refl 0

/-- The portfolio has started in debt, so that it never buys. -/
structure Indebted (p : Portfolio) : Prop where
  cash : p.cash < 0
  entries : p.positions.entries = []
  navHistory : ∀ n ∈ p.navHistory, n < 0

theorem Indebted.nav_neg (indebted : Indebted p) (prices : Dict String ℚ) : p.nav prices < 0 := by
  rw [Portfolio.nav, Portfolio.riskyValue, Dict.total, indebted.entries, List.map_nil,
    List.sum_nil, add_zero]
  exact indebted.cash

theorem buy_of_indebted (indebted : Indebted p) (asset : String) (usd price : ℚ) (hour : ℤ)
    (costs : Costs) : p.buy asset usd price hour costs = .ok (p, 0) := by
  apply if_pos
  right
  right
  left
  exact (min_le_right usd p.cash).trans indebted.cash.le

theorem sell_of_indebted (indebted : Indebted p) (asset : String) (fraction price : ℚ)
    (costs : Costs) : p.sell asset fraction price costs = (p, 0) := by
  apply if_pos
  left
  rw [Portfolio.qtyOf, Dict.get?, indebted.entries]
  exact le_refl 0

/-- No value of the curve is above the high-water mark, the largest drawdown is on record, and the
portfolio has cash or has always been in debt. -/
structure Recorded (p : Portfolio) : Prop where
  peaks : ∀ n ∈ p.navHistory, n ≤ p.hwm
  drawdown : maxDrawdownPct p.navHistory = 0 ∨
    ∃ dd ∈ p.drawdownHistory, maxDrawdownPct p.navHistory ≤ dd
  funds : 0 ≤ p.cash ∨ Indebted p

theorem recorded_newPortfolio (initialCash : ℚ) : Recorded (newPortfolio initialCash) := by
  refine ⟨?_, Or.inl rfl, ?_⟩
  · intro n mem
    cases mem
  · rcases le_or_gt 0 initialCash with funded | negative
    · exact Or.inl funded
    · refine Or.inr ⟨negative, rfl, ?_⟩
      intro n mem
      cases mem

theorem Recorded.of_sameRecord (recorded : Recorded p) (same : SameRecord p next)
    (funds : 0 ≤ next.cash ∨ Indebted next) : Recorded next := by
  refine ⟨?_, ?_, funds⟩
  · rw [same.hwm, same.navHistory]
    exact recorded.peaks
  · rw [same.navHistory, same.drawdownHistory]
    exact recorded.drawdown

theorem recorded_buy (recorded : Recorded p) (asset : String) (usd price : ℚ) (hour : ℤ)
    (costs : Costs) : Recorded (step p (.buy asset usd price hour costs)) := by
  unfold step
  dsimp only
  rcases recorded.funds with funded | indebted
  · split
    · exact recorded
    · next bought =>
      exact recorded.of_sameRecord (sameRecord_buy bought)
        (Or.inl (cash_buy_nonneg funded bought))
  · rw [buy_of_indebted indebted]
    exact recorded

theorem recorded_sell (recorded : Recorded p) (bounded : costs.Bounded) (asset : String)
    (fraction price : ℚ) : Recorded (step p (.sell asset fraction price costs)) := by
  unfold step
  dsimp only
  rcases recorded.funds with funded | indebted
  · exact recorded.of_sameRecord (sameRecord_sell p asset fraction price costs)
      (Or.inl (cash_sell_nonneg funded bounded asset fraction price))
  · rw [sell_of_indebted indebted]
    exact recorded

theorem recorded_flatten (recorded : Recorded p) (bounded : costs.Bounded)
    (prices : Dict String ℚ) : Recorded (step p (.flatten prices costs)) := by
  unfold step Portfolio.flatten
  dsimp only
  rcases recorded.funds with funded | indebted
  · exact recorded.of_sameRecord (sameRecord_sellAll prices costs p 0 p.positions.keys)
      (Or.inl (cash_sellAll_nonneg bounded prices 0 p.positions.keys funded))
  · rw [Dict.keys, indebted.entries]
    exact recorded

/-- The value that a mark appends is not negative, or the portfolio is in debt. -/
theorem nav_nonneg (recorded : Recorded p) (positive : PositivePrices prices) :
    0 ≤ p.nav prices ∨ Indebted p := by
  rcases recorded.funds with funded | indebted
  · exact Or.inl (add_nonneg funded (riskyValue_nonneg positive p))
  · exact Or.inr indebted

theorem hwm_mark (p : Portfolio) (prices : Dict String ℚ) :
    (step p (.mark prices)).hwm = max p.hwm (p.nav prices) := by
  change (if p.hwm < p.nav prices then p.nav prices else p.hwm) = _
  rw [max_def_lt]

theorem peaks_mark (recorded : Recorded p) (prices : Dict String ℚ) :
    ∀ n ∈ p.navHistory ++ [p.nav prices], n ≤ max p.hwm (p.nav prices) := by
  intro n mem
  rcases List.mem_append.1 mem with earlier | last
  · exact (recorded.peaks n earlier).trans (le_max_left _ _)
  · rw [List.mem_singleton.1 last]
    exact le_max_right _ _

/-- A portfolio in debt has no peak above zero, with the value that a mark appends. -/
theorem Indebted.not_positive (indebted : Indebted p) (prices : Dict String ℚ) {peak : ℚ}
    (mem : peak ∈ p.navHistory ++ [p.nav prices]) : ¬0 < peak := by
  rw [not_lt]
  rcases List.mem_append.1 mem with earlier | last
  · exact (indebted.navHistory peak earlier).le
  · rw [List.mem_singleton.1 last]
    exact (indebted.nav_neg prices).le

/-- The drawdown that a mark records is not below the drop from any peak so far. -/
theorem drop_le_recorded (recorded : Recorded p) (positive : PositivePrices prices) {peak : ℚ}
    (mem : peak ∈ p.navHistory ++ [p.nav prices]) (high : 0 < peak) :
    ∃ dd ∈ (step p (.mark prices)).drawdownHistory, dropPct peak (p.nav prices) ≤ dd := by
  have higher := peaks_mark recorded prices peak mem
  rw [← hwm_mark] at higher
  have positiveHwm := lt_of_lt_of_le high higher
  have nonneg : 0 ≤ p.nav prices := by
    rcases nav_nonneg recorded positive with nonneg | indebted
    · exact nonneg
    · exact absurd high (indebted.not_positive prices mem)
  refine ⟨dropPct (step p (.mark prices)).hwm (p.nav prices), ?_, dropPct_le nonneg high higher⟩
  apply List.mem_append_right
  rw [List.mem_singleton]
  exact (if_neg (not_le.2 positiveHwm)).symm

theorem recorded_mark (recorded : Recorded p) (positive : PositivePrices prices) :
    Recorded (step p (.mark prices)) := by
  refine ⟨?_, ?_, ?_⟩
  · rw [hwm_mark]
    exact peaks_mark recorded prices
  · change maxDrawdownPct (p.navHistory ++ [p.nav prices]) = 0 ∨
      ∃ dd ∈ _, maxDrawdownPct (p.navHistory ++ [p.nav prices]) ≤ dd
    rcases maxDrawdownPct_concat p.navHistory (p.nav prices) with same | ⟨peak, mem, high, drop⟩
    · rw [same]
      rcases recorded.drawdown with none | ⟨dd, ddMem, reached⟩
      · exact Or.inl none
      · exact Or.inr ⟨dd, List.mem_append_left _ ddMem, reached⟩
    · rw [drop]
      exact Or.inr (drop_le_recorded recorded positive mem high)
  · rcases recorded.funds with funded | indebted
    · exact Or.inl funded
    · refine Or.inr ⟨indebted.cash, indebted.entries, ?_⟩
      intro n mem
      rcases List.mem_append.1 mem with earlier | last
      · exact indebted.navHistory n earlier
      · rw [List.mem_singleton.1 last]
        exact indebted.nav_neg prices

/-- Overwriting a last drawdown of zero with zero erases nothing. -/
theorem set_last_zero {drawdowns : List ℚ} (nothing : drawdowns.getLast?.getD 0 = 0) :
    drawdowns.set (drawdowns.length - 1) 0 = drawdowns := by
  rcases List.eq_nil_or_concat' drawdowns with rfl | ⟨drawdowns, last, rfl⟩
  · rfl
  · rw [List.getLast?_append_of_ne_nil _ (List.cons_ne_nil last []), List.getLast?_singleton,
      Option.getD_some] at nothing
    simp [nothing]

theorem recorded_rebaseline (recorded : Recorded p) (keeps : KeepsPeak p (.rebaseline prices)) :
    Recorded (step p (.rebaseline prices)) := by
  refine ⟨?_, ?_, ?_⟩
  · intro n mem
    exact (recorded.peaks n mem).trans keeps.1
  · have kept : (step p (.rebaseline prices)).drawdownHistory = p.drawdownHistory :=
      set_last_zero keeps.2
    rw [kept]
    exact recorded.drawdown
  · rcases recorded.funds with funded | indebted
    · exact Or.inl funded
    · exact Or.inr ⟨indebted.cash, indebted.entries, indebted.navHistory⟩

theorem recorded_step (recorded : Recorded p) {op : Op} (priced : op.Priced)
    (keeps : KeepsPeak p op) : Recorded (step p op) := by
  cases op with
  | buy asset usd price hour costs => exact recorded_buy recorded asset usd price hour costs
  | sell asset fraction price costs => exact recorded_sell recorded priced.2 asset fraction price
  | flatten prices costs => exact recorded_flatten recorded priced.2 prices
  | mark prices => exact recorded_mark recorded priced
  | rebaseline prices => exact recorded_rebaseline recorded keeps

/-- **No elimination is hidden** in a run whose rebaselines neither lower the high-water mark nor
erase a drawdown: a gate that the largest drawdown reaches is breached on record. -/
theorem breach_of_maxDrawdownPct (initialCash : ℚ) (history : List Op) (p : Portfolio)
    (run : Run (moves KeepsPeak) (newPortfolio initialCash) history p) (gatePct : ℚ)
    (positive : 0 < gatePct) (reached : gatePct ≤ maxDrawdownPct p.navHistory) :
    firstBreachHour p.drawdownHistory gatePct ≠ none := by
  have recorded : Recorded p := by
    refine run.invariant (fun _ p => Recorded p) (recorded_newPortfolio initialCash) ?_
    rintro history p ops next recorded ⟨op, priced, keeps, -, rfl⟩
    exact recorded_step recorded priced keeps
  rw [firstBreachHour_ne_none_iff]
  rcases recorded.drawdown with none | ⟨dd, mem, below⟩
  · rw [none] at reached
    exact absurd reached (not_le.2 positive)
  · exact ⟨dd, mem, reached.trans below⟩

/-- The operations can be taken in order. -/
def Along (ok : Portfolio → Op → Prop) (p : Portfolio) : List Op → Prop
  | [] => True
  | op :: ops => op.Priced ∧ ok p op ∧ Along ok (step p op) ops

theorem Along.run {ok : Portfolio → Op → Prop} {ops : List Op} (along : Along ok p ops) :
    Run (moves ok) p ops (ops.foldl step p) := by
  induction ops generalizing p with
  | nil => exact .stay
  | cons op ops ih =>
      rcases along with ⟨priced, permitted, rest⟩
      exact (Run.single ⟨op, priced, permitted, rfl, rfl⟩).trans (ih rest)

def bnbAt (px : ℚ) : Dict String ℚ := Dict.ofList [("WBNB", px)]

theorem positivePrices_bnbAt {px : ℚ} (positive : 0 < px) : PositivePrices (bnbAt px) := by
  intro asset other quoted
  rw [bnbAt, Dict.get?_ofList, List.reverse_singleton, List.lookup_cons, List.lookup_nil] at quoted
  split at quoted
  · rw [Option.some.injEq] at quoted
    rw [← quoted]
    exact positive
  · cases quoted

theorem bounded_default : Costs.default.Bounded := by
  constructor
  · norm_num [Costs.default]
  · norm_num [Costs.default]

/-- A rebaseline at the start, and one fall. -/
def oneFall : List Op :=
  [.mark (bnbAt 100), .rebaseline (bnbAt 100), .buy "WBNB" 10000 100 0 .default, .mark (bnbAt 90)]

theorem breach_of_maxDrawdownPct_oneFall :
    6 ≤ maxDrawdownPct (oneFall.foldl step (newPortfolio 10000)).navHistory ∧
      firstBreachHour (oneFall.foldl step (newPortfolio 10000)).drawdownHistory 6 ≠ none := by
  have along : Along KeepsPeak (newPortfolio 10000) oneFall :=
    ⟨positivePrices_bnbAt (by norm_num), trivial,
      positivePrices_bnbAt (by norm_num), ⟨by decide +kernel, by decide +kernel⟩,
      ⟨by norm_num, bounded_default⟩, trivial,
      positivePrices_bnbAt (by norm_num), trivial, trivial⟩
  have reached : 6 ≤ maxDrawdownPct (oneFall.foldl step (newPortfolio 10000)).navHistory := by
    decide +kernel
  exact ⟨reached, breach_of_maxDrawdownPct 10000 oneFall _ along.run 6 (by norm_num) reached⟩

/-- Two falls of a book that is sold and rebaselined between them. -/
def twoFalls : List Op :=
  [.mark (bnbAt 100), .buy "WBNB" 5000 100 0 .default, .flatten (bnbAt 92) .default,
    .mark (bnbAt 92), .rebaseline (bnbAt 92), .buy "WBNB" 5000 92 24 .default,
    .flatten (bnbAt 84) .default, .mark (bnbAt 84)]

/-- A curve that loses more than nine percent, without a breach of the gate of six. -/
theorem rebaseline_hides_elimination : ∃ p,
    Run (moves WhenFlat) (newPortfolio 10000) twoFalls p ∧ 9 ≤ maxDrawdownPct p.navHistory ∧
      firstBreachHour p.drawdownHistory 6 = none := by
  have along : Along WhenFlat (newPortfolio 10000) twoFalls :=
    ⟨positivePrices_bnbAt (by norm_num), trivial, ⟨by norm_num, bounded_default⟩, trivial,
      ⟨positivePrices_bnbAt (by norm_num), bounded_default⟩, trivial,
      positivePrices_bnbAt (by norm_num), trivial,
      positivePrices_bnbAt (by norm_num), by unfold WhenFlat; decide +kernel,
      ⟨by norm_num, bounded_default⟩, trivial,
      ⟨positivePrices_bnbAt (by norm_num), bounded_default⟩, trivial,
      positivePrices_bnbAt (by norm_num), trivial, trivial⟩
  exact ⟨_, along.run, by decide +kernel, by decide +kernel⟩

end Backtest

end SumplusTrader
