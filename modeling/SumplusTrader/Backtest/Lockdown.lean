import SumplusTrader.Backtest.ExposureCap
import SumplusTrader.Backtest.Journal

/-!
# The deepest rung of the champion

This file follows the champion through a drawdown on the last rung of its ladder. The flatten sells
every position within the hour, and the book that is left holds cash alone, so that its value and
its drawdown stay as they are. The champion keeps out of the market until it has been flat for a
day and starts over from a new baseline.

`rounds_flatten` is about the hour of the flatten, `Locked` about the hours that follow it, and
`runStrategy_cooldown` puts them together in the run of a backtest.
-/

namespace SumplusTrader

namespace Backtest

variable {p next last : Portfolio} {asset : String} {price : ℚ} {prices : Dict String ℚ}

theorem flatSince_sell (p : Portfolio) (asset : String) (fraction price : ℚ) (costs : Costs) :
    (p.sell asset fraction price costs).1.flatSince = p.flatSince := by
  dsimp only [Portfolio.sell]
  split
  · rfl
  · unfold Portfolio.setQty
    split
    · rfl
    · rfl

/-- A full sale removes the position and is paid for. -/
theorem sell_full (held : 0 < p.qtyOf asset) (positive : 0 < price) :
    (p.sell asset 1 price .default).1.positions = p.positions.pop asset ∧
      0 < (p.sell asset 1 price .default).2 := by
  have sells : ¬(p.qtyOf asset ≤ 0 ∨ price ≤ 0 ∨ (1 : ℚ) ≤ 0) := by
    push Not
    exact ⟨held, positive, one_pos⟩
  have nothing : p.qtyOf asset - p.qtyOf asset * min 1 1 ≤ 1 / 10 ^ 12 := by
    rw [min_self, mul_one, sub_self]
    positivity
  have gross : 0 < p.qtyOf asset * price := mul_pos held positive
  dsimp only [Portfolio.sell]
  rw [if_neg sells, Portfolio.setQty, if_pos nothing]
  refine ⟨rfl, ?_⟩
  norm_num [Costs.default]
  linarith

/-- Selling every asset in turn leaves no position. -/
theorem sellAll_empties {assets : List String} (sound : Sound p) (held : p.positions.keys = assets)
    (positive : ∀ asset price, prices.get? asset = some price → 0 < price) {fills fills' : ℕ}
    (sold : Portfolio.sellAll prices .default p fills assets = (next, .ok fills')) :
    next.positions.keys = [] ∧ next.flatSince = p.flatSince ∧ fills' = fills + assets.length := by
  induction assets generalizing p fills with
  | nil =>
      cases sold
      exact ⟨held, rfl, rfl⟩
  | cons asset assets ih =>
      unfold Portfolio.sellAll at sold
      split at sold
      · cases sold
      · next price quoted =>
        have mem : asset ∈ p.positions.keys := by
          rw [held]
          exact List.mem_cons_self
        have owned : 0 < p.qtyOf asset := by
          by_contra nothing
          have absent := sound.get?_eq_none (not_lt.1 nothing)
          exact (Dict.get?_eq_none_iff _ _).1 absent mem
        rcases sell_full owned (positive asset price quoted) with ⟨positions, paid⟩
        have keys : (p.sell asset 1 price .default).1.positions.keys = assets := by
          have nodup : (asset :: assets).Nodup := held ▸ p.positions.nodup
          rw [positions, Dict.keys_pop, held, List.filter_cons_of_neg (by simp),
            List.filter_eq_self]
          intro other mem
          simpa using ne_of_mem_of_not_mem mem (List.nodup_cons.1 nodup).1
        dsimp only at sold
        rw [if_pos paid] at sold
        rcases ih (sound_sell sound fair_default asset 1 price) keys sold with
          ⟨empty, since, count⟩
        refine ⟨empty, since.trans (flatSince_sell p asset 1 price .default), ?_⟩
        rw [count, List.length_cons]
        omega

theorem riskyValue_of_empty (empty : p.positions.keys = []) (prices : Dict String ℚ) :
    p.riskyValue prices = 0 := by
  have entries : p.positions.entries = [] := List.map_eq_nil_iff.1 empty
  rw [Portfolio.riskyValue, Dict.total, entries]
  rfl

namespace Champion

variable {math : FloatMath} {cfg : Cfg} {market : MarketState} {armed : Portfolio}
  {intent : Intent} {hour left : ℕ} {since : ℤ} {ledger ledger' : List LedgerLine}

/-- The line of a flatten in the ledger. -/
def flattenLine (hour : ℕ) (drawdown : ℚ) : LedgerLine :=
  ⟨hour, drawdown, ⟨.flatten, "", 0, "ladder:stablecoin@dd=" ++ Py.fixedText 2 drawdown ++ "%"⟩⟩

theorem riskyValue_rearm (p : Portfolio) (prices : Dict String ℚ) (hour : ℤ) :
    (rearm p prices hour).riskyValue prices = p.riskyValue prices := by
  rw [Portfolio.riskyValue, Portfolio.riskyValue, (rearm_same p prices hour).2.1]

theorem rearm_of_risk (risk : 1 / 10 ^ 9 < p.riskyValue prices) (hour : ℤ) :
    rearm p prices hour = { p with flatSince := none } := by
  rw [rearm, if_neg (not_le.2 risk)]

theorem rearm_of_flattened (flat : p.riskyValue prices ≤ 1 / 10 ^ 9) (unset : p.flatSince = none)
    (hour : ℤ) : rearm p prices hour = { p with flatSince := some hour } := by
  rw [rearm, if_pos flat, unset]

/-- Within a day of the flatten the book is left alone. -/
theorem rearm_of_cooling (flat : p.riskyValue prices ≤ 1 / 10 ^ 9) (since_ : p.flatSince = some since)
    {hour : ℤ} (soon : hour < since + flatCooldownH) : rearm p prices hour = p := by
  rw [rearm, if_pos flat, since_]
  dsimp only
  rw [if_neg]
  rintro ⟨elapsed, -⟩
  linarith

/-- On the deepest rung a decision flattens what there is. -/
theorem decide_of_deep (hour : ℕ)
    (deep : ladderState (rearm p market.prices market.t).currentDrawdown cfg.drawdownLadder =
      .flatten) (decided : decide math market p cfg = .ok (armed, intent)) :
    armed = rearm p market.prices market.t ∧ intent =
      if 1 / 10 ^ 9 < p.riskyValue market.prices then
        (flattenLine hour armed.currentDrawdown).intent
      else hold := by
  dsimp only [decide] at decided
  rw [if_pos deep, riskyValue_rearm] at decided
  split at decided
  · next risk =>
    cases decided
    rw [if_pos risk]
    exact ⟨rfl, rfl⟩
  · next flat =>
    cases decided
    rw [if_neg flat]
    exact ⟨rfl, rfl⟩

/-- A flat book on the deepest rung is asked once. -/
theorem rounds_of_flat (flat : p.riskyValue market.prices ≤ 1 / 10 ^ 9)
    (deep : ladderState (rearm p market.prices market.t).currentDrawdown cfg.drawdownLadder =
      .flatten)
    (ran : rounds (fun market p => decide math market p cfg) market hour (left + 1) p ledger =
      .ok (last, ledger')) : last = rearm p market.prices market.t ∧ ledger' = ledger := by
  rw [rounds] at ran
  rcases bind_eq_ok_iff.1 ran with ⟨⟨asked, intent⟩, decided, ran⟩
  rcases decide_of_deep hour deep decided with ⟨rfl, rfl⟩
  rw [if_neg (not_lt.2 flat)] at ran
  cases ran
  exact ⟨rfl, rfl⟩

/-- A book that the flatten of an hour leaves: no position, and the record of before. -/
structure Flattened (p last : Portfolio) (hour : ℤ) : Prop where
  empty : last.positions.keys = []
  since : last.flatSince = some hour
  record : SameRecord p last

/-- Executing the flatten of a book with a position. -/
theorem execute_flatten (sound : Sound p) (risk : 1 / 10 ^ 9 < p.riskyValue market.prices)
    (positive : ∀ asset price, market.prices.get? asset = some price → 0 < price)
    (flattens : intent.action = .flatten) {executed : Bool}
    (applied : execute intent p market.prices hour = .ok (next, executed)) :
    next.positions.keys = [] ∧ next.flatSince = p.flatSince ∧ SameRecord p next ∧
      executed = true := by
  have some_ : p.positions.keys ≠ [] := by
    intro empty
    rw [riskyValue_of_empty empty] at risk
    exact absurd risk (by norm_num)
  unfold execute at applied
  rw [flattens] at applied
  dsimp only [Portfolio.flatten] at applied
  have record := sameRecord_sellAll market.prices .default p 0 p.positions.keys
  rcases sold : Portfolio.sellAll market.prices .default p 0 p.positions.keys with
    ⟨flat, e | fills⟩
  · rw [sold] at applied
    cases applied
  · rw [sold] at applied record
    cases applied
    rcases sellAll_empties sound rfl positive sold with ⟨empty, since, count⟩
    refine ⟨empty, since, record, ?_⟩
    rw [count, zero_add, decide_eq_true_eq]
    exact List.length_pos_iff.2 some_

/-- **The flatten completes within the hour**, with one line in the ledger. -/
theorem rounds_flatten (sound : Sound p) (risk : 1 / 10 ^ 9 < p.riskyValue market.prices)
    (positive : ∀ asset price, market.prices.get? asset = some price → 0 < price)
    (deep : ladderState p.currentDrawdown cfg.drawdownLadder = .flatten)
    (ran : rounds (fun market p => decide math market p cfg) market hour (left + 2) p ledger =
      .ok (last, ledger')) :
    Flattened p last market.t ∧ ledger' = ledger ++ [flattenLine hour p.currentDrawdown] := by
  rw [rounds] at ran
  rcases bind_eq_ok_iff.1 ran with ⟨⟨asked, intent⟩, decided, ran⟩
  have armed := rearm_of_risk risk market.t
  have sameDrawdown : (rearm p market.prices market.t).currentDrawdown = p.currentDrawdown := by
    rw [armed]
    rfl
  rcases decide_of_deep hour (sameDrawdown ▸ deep) decided with ⟨rfl, rfl⟩
  rw [if_pos risk, sameDrawdown] at ran
  dsimp only at ran
  rw [if_neg (by simp [flattenLine])] at ran
  rcases bind_eq_ok_iff.1 ran with ⟨⟨next, executed⟩, applied, ran⟩
  have soundArmed := sound_rearm sound market.prices market.t
  have riskArmed : 1 / 10 ^ 9 < (rearm p market.prices market.t).riskyValue market.prices := by
    rwa [riskyValue_rearm]
  rcases execute_flatten soundArmed riskArmed positive rfl applied with
    ⟨empty, since, record, rfl⟩
  dsimp only at ran
  rw [if_pos rfl] at ran
  -- the second round finds the book flat, and notes the hour
  have flat : next.riskyValue market.prices ≤ 1 / 10 ^ 9 := by
    rw [riskyValue_of_empty empty]
    norm_num
  have unset : next.flatSince = none := by rw [since, armed]
  have rearmed := rearm_of_flattened flat unset market.t
  have kept : (rearm next market.prices market.t).currentDrawdown = p.currentDrawdown := by
    rw [rearmed, Portfolio.currentDrawdown, record.drawdownHistory, armed]
    rfl
  rcases rounds_of_flat flat (kept ▸ deep) ran with ⟨rfl, rfl⟩
  refine ⟨⟨?_, ?_, ?_⟩, rfl⟩
  · rw [rearmed]
    exact empty
  · rw [rearmed]
  · rw [rearmed]
    rw [armed] at record
    exact ⟨record.hwm, record.navHistory, record.drawdownHistory⟩

/-- A book of cash alone on the deepest rung, with the hour since which it is flat. -/
structure Locked (ladder : List Rung) (since : ℤ) (p : Portfolio) : Prop where
  empty : p.positions.keys = []
  flatSince : p.flatSince = some since
  below : p.cash ≤ p.hwm
  shown : p.currentDrawdown = if p.hwm ≤ 0 then 0 else (p.hwm - p.cash) / p.hwm * 100
  deep : ladderState p.currentDrawdown ladder = .flatten

theorem currentDrawdown_mark (p : Portfolio) (prices : Dict String ℚ) :
    (p.mark prices).1.currentDrawdown = (p.mark prices).2 := by
  simp [Portfolio.currentDrawdown, Portfolio.mark]

theorem nav_of_empty (empty : p.positions.keys = []) (prices : Dict String ℚ) :
    p.nav prices = p.cash := by
  rw [Portfolio.nav, riskyValue_of_empty empty, add_zero]

/-- The mark of a flattened book locks it, if the drawdown is still on the deepest rung. -/
theorem Flattened.locked {ladder : List Rung} {since : ℤ} (flattened : Flattened p last since)
    (prices : Dict String ℚ)
    (deep : ladderState (last.mark prices).1.currentDrawdown ladder = .flatten) :
    Locked ladder since (last.mark prices).1 where
  empty := flattened.empty
  flatSince := flattened.since
  below := by
    rw [Portfolio.mark, nav_of_empty flattened.empty]
    dsimp only
    split
    · exact le_refl _
    · next above => exact not_lt.1 above
  shown := by
    rw [currentDrawdown_mark, Portfolio.mark, nav_of_empty flattened.empty]
  deep := deep

/-- **A locked book stays as it is** for a day. -/
theorem Locked.runHour {pricesPerAsset : Dict String (List ℚ)}
    (locked : Locked cfg.drawdownLadder since p) (soon : (hour : ℤ) < since + flatCooldownH)
    (ran : Backtest.runHour (fun market p => decide math market p cfg) pricesPerAsset (p, ledger)
      hour = .ok (next, ledger')) :
    Locked cfg.drawdownLadder since next ∧ next.cash = p.cash ∧ ledger' = ledger ∧
      next.navHistory = p.navHistory ++ [p.cash] := by
  rw [Backtest.runHour] at ran
  rcases bind_eq_ok_iff.1 ran with ⟨market, visited, ran⟩
  rcases bind_eq_ok_iff.1 ran with ⟨⟨book, lines⟩, rounded, marked⟩
  cases marked
  have flat : p.riskyValue market.prices ≤ 1 / 10 ^ 9 := by
    rw [riskyValue_of_empty locked.empty]
    norm_num
  have kept := rearm_of_cooling flat locked.flatSince ((t_marketAt visited).symm ▸ soon)
  rcases rounds_of_flat flat (by rw [kept]; exact locked.deep) rounded with ⟨rfl, rfl⟩
  rw [kept]
  have same : (p.mark market.prices).1.currentDrawdown = p.currentDrawdown := by
    rw [currentDrawdown_mark, locked.shown, Portfolio.mark, nav_of_empty locked.empty]
    dsimp only
    rw [if_neg (not_lt.2 locked.below)]
  have flattened : Flattened p p since := ⟨locked.empty, locked.flatSince, .refl p⟩
  refine ⟨flattened.locked market.prices (same ▸ locked.deep), rfl, rfl, ?_⟩
  rw [Portfolio.mark, nav_of_empty locked.empty]

theorem Locked.run {pricesPerAsset : Dict String (List ℚ)} {hours : List ℕ}
    (locked : Locked cfg.drawdownLadder since p)
    (soon : ∀ hour ∈ hours, (hour : ℤ) < since + flatCooldownH)
    (ran : hours.foldlM (Backtest.runHour (fun market p => decide math market p cfg) pricesPerAsset)
      (p, ledger) = .ok (last, ledger')) :
    Locked cfg.drawdownLadder since last ∧ last.cash = p.cash ∧ ledger' = ledger ∧
      last.navHistory = p.navHistory ++ List.replicate hours.length p.cash := by
  induction hours generalizing p ledger with
  | nil =>
      cases ran
      exact ⟨locked, rfl, rfl, by simp⟩
  | cons hour hours ih =>
      rw [List.foldlM_cons] at ran
      rcases bind_eq_ok_iff.1 ran with ⟨⟨next, lines⟩, stepped, rest⟩
      rcases locked.runHour (soon hour List.mem_cons_self) stepped with ⟨locked', cash, rfl, record⟩
      rcases ih locked' (fun later mem => soon later (List.mem_cons_of_mem _ mem)) rest with
        ⟨ended, cash', rfl, record'⟩
      refine ⟨ended, cash'.trans cash, rfl, ?_⟩
      rw [record', record, cash, List.append_assoc, List.singleton_append, List.length_cons,
        List.replicate_succ]

/-- **A drawdown on the deepest rung puts the champion into cash for a day.** An hour that starts
there with a position ends without one, and with the flatten as its only line in the ledger. If the
drawdown is still on that rung, then no hour of the next day trades, and the value of the book
stays what the flatten left. -/
theorem runStrategy_cooldown (math : FloatMath) (cfg : Cfg) (pricesPerAsset : Dict String (List ℚ))
    (positive : PositiveSeries pricesPerAsset) (before after : List ℕ) (hour : ℕ)
    {p last : Portfolio} {lines ledger : List LedgerLine}
    (reached : runStrategy (fun market p => decide math market p cfg) pricesPerAsset before =
      .ok (p, lines))
    (ran : runStrategy (fun market p => decide math market p cfg) pricesPerAsset
      (before ++ hour :: after) = .ok (last, ledger))
    (deep : ladderState p.currentDrawdown cfg.drawdownLadder = .flatten)
    (risk : ∀ market, marketAt pricesPerAsset hour = .ok market →
      1 / 10 ^ 9 < p.riskyValue market.prices) :
    ∃ flat, runStrategy (fun market p => decide math market p cfg) pricesPerAsset
        (before ++ [hour]) = .ok (flat, lines ++ [flattenLine hour p.currentDrawdown]) ∧
      flat.positions.keys = [] ∧
      (ladderState flat.currentDrawdown cfg.drawdownLadder = .flatten →
        (∀ later ∈ after, later < hour + 24) →
        ledger = lines ++ [flattenLine hour p.currentDrawdown] ∧ last.positions.keys = [] ∧
          last.navHistory = flat.navHistory ++ List.replicate after.length flat.cash) := by
  have sound := sound_backtest reached
  rw [runStrategy, List.foldlM_append] at ran
  rcases bind_eq_ok_iff.1 ran with ⟨state, again, rest⟩
  rw [← runStrategy, reached, Except.ok.injEq] at again
  subst again
  rw [List.foldlM_cons] at rest
  rcases bind_eq_ok_iff.1 rest with ⟨⟨flat, lines'⟩, stepped, rest⟩
  have hourly := stepped
  rw [Backtest.runHour] at stepped
  rcases bind_eq_ok_iff.1 stepped with ⟨market, visited, stepped⟩
  rcases bind_eq_ok_iff.1 stepped with ⟨⟨book, written⟩, rounded, marked⟩
  cases marked
  rw [show maxTradesPerHour = 2 + 2 from rfl] at rounded
  rcases rounds_flatten sound (risk market visited) (positive.marketAt visited) deep rounded with
    ⟨flattened, rfl⟩
  rw [t_marketAt visited] at flattened
  refine ⟨(book.mark market.prices).1, ?_, flattened.empty, ?_⟩
  · rw [runStrategy, List.foldlM_append, ← runStrategy, reached]
    simp only [bind, Except.bind, List.foldlM_cons, List.foldlM_nil, hourly]
    rfl
  · intro still soon
    have locked := flattened.locked market.prices still
    have within : ∀ later ∈ after, ((later : ℕ) : ℤ) < hour + flatCooldownH := by
      intro later mem
      rw [flatCooldownH]
      exact_mod_cast soon later mem
    rcases locked.run within rest with ⟨ended, -, same, record⟩
    exact ⟨same, ended.empty, record⟩

/-- The champion with a ladder whose only rung is a thousandth of a percent deep. -/
def cautiousCfg : Cfg :=
  { defaultCfg with
    universeAssets := ["ETH"]
    drawdownLadder := [⟨1 / 1000, "stablecoin_mode"⟩] }

/-- A price that rises by one percent in each of eight hours. -/
def eightHours : Dict String (List ℚ) :=
  Dict.ofList [("ETH", (List.range 8).map fun hour => 2000 * (101 / 100) ^ hour)]

theorem positiveSeries_eightHours : PositiveSeries eightHours := by
  intro asset path listed price mem
  have entry := (Dict.get?_eq_some_iff _ _ _).1 listed
  rw [eightHours, Dict.entries_ofList (by decide), List.mem_singleton] at entry
  rw [(Prod.mk.inj entry).2, List.mem_map] at mem
  rcases mem with ⟨hour, -, rfl⟩
  positivity

/-- The book is at risk at the prices of an hour. -/
def atRisk (p : Portfolio) (hour : ℕ) : Bool :=
  match marketAt eightHours hour with
  | .ok market => 1 / 10 ^ 9 < p.riskyValue market.prices
  | .error _ => true

/-- The costs of its first entries put the cautious champion on the rung. -/
theorem runStrategy_cooldown_cautious : ∃ p last : Portfolio, ∃ lines : List LedgerLine,
    runStrategy (fun market p => decide risingMath market p cautiousCfg) eightHours
        (List.range 5 ++ 5 :: [6, 7]) =
      .ok (last, lines ++ [flattenLine 5 p.currentDrawdown]) ∧ last.positions.keys = [] := by
  have checked : (runStrategy (fun market p => decide risingMath market p cautiousCfg) eightHours
      (List.range 5)).toOption.map (fun reached =>
        Decidable.decide (ladderState reached.1.currentDrawdown cautiousCfg.drawdownLadder =
          .flatten) && atRisk reached.1 5) = some true := by
    decide +kernel
  have still : (runStrategy (fun market p => decide risingMath market p cautiousCfg) eightHours
      (List.range 5 ++ [5])).toOption.map (fun reached =>
        Decidable.decide (ladderState reached.1.currentDrawdown cautiousCfg.drawdownLadder =
          .flatten)) = some true := by
    decide +kernel
  have ends : (runStrategy (fun market p => decide risingMath market p cautiousCfg) eightHours
      (List.range 5 ++ 5 :: [6, 7])).toOption.isSome = true := by
    decide +kernel
  rcases Option.map_eq_some_iff.1 checked with ⟨⟨p, lines⟩, reached, onRung⟩
  rcases Option.isSome_iff_exists.1 ends with ⟨⟨last, ledger⟩, ran⟩
  rw [Bool.and_eq_true, decide_eq_true_eq] at onRung
  have risk : ∀ market, marketAt eightHours 5 = .ok market →
      1 / 10 ^ 9 < p.riskyValue market.prices := by
    intro market visited
    have held := onRung.2
    simpa only [atRisk, visited, decide_eq_true_eq] using held
  rcases runStrategy_cooldown risingMath cautiousCfg eightHours positiveSeries_eightHours
    (List.range 5) [6, 7] 5 (toOption_eq_some_iff.1 reached) (toOption_eq_some_iff.1 ran) onRung.1
    risk with ⟨flat, flattened, -, locked⟩
  rw [flattened] at still
  simp only [Except.toOption, Option.map_some, Option.some.injEq, decide_eq_true_eq] at still
  rcases locked still (by decide) with ⟨rfl, empty, -⟩
  exact ⟨p, last, lines, toOption_eq_some_iff.1 ran, empty⟩

end Champion

end Backtest

end SumplusTrader
