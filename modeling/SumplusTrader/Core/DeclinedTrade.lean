import SumplusTrader.Core.ExposureCap
import SumplusTrader.Abstention.Outage

/-!
# The record of a declined trade

This file follows a trade that the policy engine rejects into the abstention ledger, and on to
the day when the record is marked to market. A tick records every abstention as a declined buy,
so the result of a declined sell is booked with the wrong sign.

`declined_honest_iff` says when a record tells what the declined trade would have earned: for a
buy, up to moves of the price that round to nothing.
-/

namespace SumplusTrader

/-- What a trade declined at `p0` would have earned at `p1`, by unit. -/
def declinedGain (side : Side) (p0 p1 : ℚ) : ℚ :=
  match side with
  | .buy => p1 - p0
  | .sell => p0 - p1
  | .hold => 0

/-- The record has the side of the declined trade, and is marked with the sign of its gain. -/
structure Abstention.Honest (r : Abstention) (side : Side) (prices : Dict String ℚ)
    (nowTs minAgeS : ℚ) : Prop where
  sameSide : r.side = side.text
  sameSign : ∀ p1, prices.get? (Py.upper r.symbol) = some p1 → minAgeS ≤ nowTs - r.ts →
    ((AbstentionLedger.mark prices nowTs minAgeS r).hypotheticalPnlUsd.map signOf) =
      some (signOf (declinedGain side r.refPrice p1))

namespace Core

/-- The tick records an abstention because the policy engine rejects its trade. -/
structure Declines (world : World) (state : State) (input : TickInput) (j : Judgement)
    (r : Abstention) : Prop where
  prepared : ∃ ph, prepare world.configFile state input = .ok (ph, j)
  trade : j.decision.isTrade
  rejected : j.verdict.action = .reject
  abstained : ∃ result newState, (tick world state input).2 = .ok (result, newState) ∧
    result.abstained = true
  recorded : (tick world state input).1.world.abstentions.getLast? = some r

/-- The price of the recorded token at the tick. -/
def declinedPrice (j : Judgement) (r : Abstention) : ℚ := priceOrZero (priceMap j.views) r.symbol

/-- The size of a recorded abstention. -/
def declinedSize (j : Judgement) : ℚ := j.cfg.risk.maxSingleTradeUsd * 0.3

variable {world : World} {state : State} {input : TickInput} {j : Judgement} {r : Abstention}

theorem upper_abstainedSymbol {stables : List String} {sym : String}
    (found : abstainedSymbol j stables = some sym) : Py.upper sym = sym := by
  simp only [abstainedSymbol, Option.or_eq_some_iff] at found
  rcases found with (rejected | ⟨-, candidate⟩) | ⟨-, mover⟩
  · split at rejected
    · have mem := List.mem_of_mem_head? rejected
      rw [List.mem_filterMap] at mem
      rcases mem with ⟨token, -, shown⟩
      split at shown
      · cases shown
      · cases shown
        exact Py.upper_upper token
    · cases rejected
  · rcases Option.map_eq_some_iff.1 candidate with ⟨scored, -, rfl⟩
    exact Py.upper_upper _
  · rcases Option.map_eq_some_iff.1 mover with ⟨view, -, rfl⟩
    exact Py.upper_upper _

/-- An abstention is recorded at the price of its token, which is not zero. -/
theorem abstention?_eq_some {sym : String} {px : ℚ} (found : abstention? j = some (sym, px)) :
    Py.upper sym = sym ∧ px = priceOrZero (priceMap j.views) sym ∧ px ≠ 0 := by
  unfold abstention? at found
  split at found
  · rcases Option.bind_eq_some_iff.1 found with ⟨chosen, symbol, kept⟩
    simp only [Option.ite_none_right_eq_some, Option.some.injEq, Prod.mk.injEq] at kept
    rcases kept with ⟨⟨-, -, nonzero⟩, rfl, rfl⟩
    exact ⟨upper_abstainedSymbol symbol, rfl, nonzero⟩
  · cases found

theorem record_eq (records : List Abstention) (ts : ℚ) (symbol reason side : String)
    (refPrice sizeUsd : ℚ) :
    ∃ r, AbstentionLedger.record records ts symbol reason side refPrice sizeUsd = records ++ [r] ∧
      r.symbol = Py.upper symbol ∧ r.side = side ∧ r.ts = ts ∧ r.refPrice = refPrice ∧
      r.sizeUsd = sizeUsd ∧ r.marked = false :=
  ⟨_, rfl, rfl, rfl, rfl, rfl, rfl, rfl⟩

/-- A tick appends its record to the marked ones; it is too young to be marked by it. -/
theorem abstentions_markAbstentions (fx : Effects) {sym : String} {px : ℚ}
    (found : abstention? j = some (sym, px)) :
    ∃ r, (markAbstentions (bookAbstention fx j).world j).abstentions =
        AbstentionLedger.markToMarket fx.world.abstentions (priceMap j.views) j.nowTs
          (24 * 3600) ++ [r] ∧
      r.symbol = Py.upper sym ∧ r.side = "buy" ∧ r.ts = j.nowTs ∧ r.refPrice = px ∧
      r.sizeUsd = declinedSize j ∧ r.marked = false := by
  rcases record_eq fx.world.abstentions j.nowTs sym (abstentionReason j) "buy" px (declinedSize j)
    with ⟨r, recorded, symbol, side, ts, refPrice, size, unmarked⟩
  have young : AbstentionLedger.mark (priceMap j.views) j.nowTs (24 * 3600) r = r := by
    apply AbstentionLedger.mark_of_not_due
    rintro ⟨-, old, -⟩
    rw [ts] at old
    norm_num at old
  refine ⟨r, ?_, symbol, side, ts, refPrice, size, unmarked⟩
  unfold declinedSize at recorded
  simp only [markAbstentions, bookAbstention, found, AbstentionLedger.markToMarket, recorded,
    List.map_append, List.map_cons, List.map_nil, young]

/-- A tick without an approved trade does nothing but record its abstention. -/
theorem act_of_not_approved (fx : Effects) (state : State) (input : TickInput) (receipt : Receipt)
    (idle : ¬j.approved) :
    act fx state input j receipt =
      ({ bookAbstention fx j with
          world := markAbstentions (bookAbstention fx j).world j },
        .ok (tickResult j receipt false, { state with pendingIntent := none })) := by
  have refused : ¬(j.verdict.allowed ∧ j.decision.isTrade) := idle
  simp only [act, carryOut, refused, not_false_eq_true, if_true, andThen]

theorem not_approved_of_rejected (rejected : j.verdict.action = .reject) : ¬j.approved := by
  simp [Judgement.approved, PolicyVerdict.allowed, rejected]

theorem Declines.record (declines : Declines world state input j r) :
    Py.upper r.symbol = r.symbol ∧ r.side = "buy" ∧ r.ts = j.nowTs ∧
      r.refPrice = declinedPrice j r ∧ r.refPrice ≠ 0 ∧ r.sizeUsd = declinedSize j ∧
      r.marked = false := by
  rcases declines.prepared with ⟨ph, prepared⟩
  rcases declines.abstained with ⟨result, newState, ended, abstained⟩
  rcases tick_cases world state input with ⟨e, raised⟩ | ⟨ph', j', log, receipt, prepared', -, acts⟩
  · rw [raised] at ended
    cases ended
  · rw [prepared, Except.ok.injEq, Prod.mk.injEq] at prepared'
    rcases prepared' with ⟨rfl, rfl⟩
    rw [act_of_not_approved _ _ _ _ (not_approved_of_rejected declines.rejected)] at acts
    have recorded := declines.recorded
    rw [acts] at ended recorded
    simp only [Except.ok.injEq, Prod.mk.injEq] at ended
    rw [← ended.1] at abstained
    rcases Option.isSome_iff_exists.1 abstained with ⟨⟨sym, px⟩, found⟩
    rcases abstention?_eq_some found with ⟨upper, price, nonzero⟩
    rcases abstentions_markAbstentions ⟨{ world with receipts := log }, [.receiptAppended receipt]⟩
      found with ⟨r', appended, symbol, side, ts, refPrice, size, unmarked⟩
    have same : r' = r := by
      simp only [appended, List.getLast?_concat, Option.some.injEq] at recorded
      exact recorded
    rw [same] at symbol side ts refPrice size unmarked
    have shown : r.symbol = sym := symbol.trans upper
    refine ⟨by rw [shown, upper], side, ts, ?_, refPrice ▸ nonzero, size, unmarked⟩
    rw [refPrice, price, declinedPrice, shown]

theorem signOf_eq_one_iff (q : ℚ) : signOf q = 1 ↔ 0 < q := by
  unfold signOf
  split_ifs with positive negative
  · simp [positive]
  · simp [positive]
  · simp [positive]

theorem signOf_eq_neg_one_iff (q : ℚ) : signOf q = -1 ↔ q < 0 := by
  unfold signOf
  split_ifs with positive negative
  · simp [positive.le]
  · simp [negative]
  · simp [negative]

/-- A gain keeps its sign in a rounded result exactly when it is none, or does not round to
nothing. -/
theorem signOf_roundTo_iff (gain scale : ℚ) :
    signOf (Py.roundTo 4 (gain * scale)) = signOf gain ↔
      gain = 0 ∨ 1 / 20000 < |gain| * scale := by
  have unit : (1 : ℚ) / (2 * 10 ^ 4) = 1 / 20000 := by norm_num
  rcases lt_trichotomy gain 0 with down | same | up
  · rw [(signOf_eq_neg_one_iff gain).2 down, signOf_eq_neg_one_iff, Py.roundTo_neg_iff, unit,
      abs_of_neg down]
    simp only [down.ne, false_or]
    constructor
    · intro below
      linarith
    · intro above
      linarith
  · subst same
    simp [Py.roundTo_zero, signOf]
  · rw [(signOf_eq_one_iff gain).2 up, signOf_eq_one_iff, Py.roundTo_pos_iff, unit, abs_of_pos up]
    simp [up.ne']

/-- The result that a record is marked with. -/
theorem Declines.marked (declines : Declines world state input j r) (prices : Dict String ℚ)
    (p1 nowTs minAgeS : ℚ) (priced : prices.get? r.symbol = some p1)
    (old : minAgeS ≤ nowTs - j.nowTs) :
    (AbstentionLedger.mark prices nowTs minAgeS r).hypotheticalPnlUsd =
      some (Py.roundTo 4 ((p1 - declinedPrice j r) * (declinedSize j / declinedPrice j r))) := by
  rcases declines.record with ⟨upper, side, ts, refPrice, nonzero, size, unmarked⟩
  have due : AbstentionLedger.Due nowTs minAgeS r := ⟨unmarked, ts ▸ old, nonzero⟩
  rw [AbstentionLedger.mark_of_due due (by rw [upper, priced])]
  simp only [side, if_true, one_mul, refPrice, size, div_mul_eq_mul_div, mul_div_assoc]

theorem eq_buy_of_text {side : Side} (same : "buy" = side.text) : side = .buy := by
  cases side with
  | buy => rfl
  | sell => exact absurd same (by decide)
  | hold => exact absurd same (by decide)

/-- **A record is honest about the declined trade** exactly when the trade is a buy, and the later
price is the old one or moves the result by more than rounding hides. -/
theorem declined_honest_iff (world : World) (state : State) (input : TickInput) (j : Judgement)
    (r : Abstention) (declines : Declines world state input j r) (prices : Dict String ℚ)
    (nowTs minAgeS : ℚ) :
    r.Honest j.decision.side prices nowTs minAgeS ↔
      j.decision.side = .buy ∧
        ∀ p1, prices.get? r.symbol = some p1 → minAgeS ≤ nowTs - j.nowTs →
          p1 = declinedPrice j r ∨
            1 / 20000 < |p1 - declinedPrice j r| * (declinedSize j / declinedPrice j r) := by
  rcases declines.record with ⟨upper, side, ts, refPrice, -⟩
  have marked := fun p1 => declines.marked prices p1 nowTs minAgeS
  constructor
  · rintro ⟨sameSide, sign⟩
    have buys : j.decision.side = .buy := by
      rw [side] at sameSide
      exact eq_buy_of_text sameSide
    refine ⟨buys, ?_⟩
    intro p1 priced old
    have signed := sign p1 (by rw [upper, priced]) (ts ▸ old)
    rw [marked p1 priced old, Option.map_some, Option.some.injEq, buys, refPrice] at signed
    have moved := (signOf_roundTo_iff _ _).1 signed
    rwa [sub_eq_zero] at moved
  · rintro ⟨buys, moves⟩
    refine ⟨by rw [side, buys]; rfl, ?_⟩
    intro p1 priced old
    rw [upper] at priced
    rw [ts] at old
    have moved := moves p1 priced old
    rw [← sub_eq_zero] at moved
    rw [marked p1 priced old, Option.map_some, buys, refPrice]
    exact congrArg some ((signOf_roundTo_iff _ _).2 moved)

/-- A tick on views that are older than the data cap. -/
def staleInput (input : TickInput) : TickInput :=
  { input with market := input.market.map fun market => (market.1, -1000) }

/-- The side of the trade that a tick declines, and whether it records an abstention. -/
def declinedBy (state : State) (input : TickInput) : Option (Side × PolicyAction × Bool × Bool) :=
  (prepare bareWorld.configFile state input).toOption.bind fun prepared =>
    (tick bareWorld state input).2.toOption.map fun ended =>
      (prepared.2.decision.side, prepared.2.verdict.action, prepared.2.decision.isTrade,
        ended.1.abstained)

theorem declines_of_declinedBy {state : State} {input : TickInput} {side : Side} {r : Abstention}
    (values : declinedBy state input = some (side, .reject, true, true))
    (recorded : (tick bareWorld state input).1.world.abstentions.getLast? = some r) :
    ∃ j, Declines bareWorld state input j r ∧ j.decision.side = side := by
  rw [declinedBy, Option.bind_eq_some_iff] at values
  rcases values with ⟨⟨ph, j⟩, prepared, values⟩
  rw [Option.map_eq_some_iff] at values
  rcases values with ⟨⟨result, newState⟩, ended, values⟩
  rw [toOption_eq_some_iff] at prepared ended
  simp only [Prod.mk.injEq, decide_eq_true_eq] at values
  rcases values with ⟨side, rejected, trade, abstained⟩
  exact ⟨j, ⟨⟨ph, prepared⟩, trade, rejected, ⟨result, newState, ended, abstained⟩, recorded⟩, side⟩

/-- INJ at half the price at which it was declined. -/
def halvedPrice : Dict String ℚ := ⟨[("INJ", 10)], by decide⟩

/-- An entry that is declined because the views are stale. -/
theorem declined_honest_iff_staleEntry : ∃ j r,
    Declines bareWorld (hundredBook Dict.empty 100) (staleInput (rebalanceInput "USDT")) j r ∧
      r.Honest j.decision.side halvedPrice 172800 86400 := by
  have recorded : (tick bareWorld (hundredBook Dict.empty 100)
      (staleInput (rebalanceInput "USDT"))).1.world.abstentions.getLast? =
        some ⟨0, 1, "INJ", "stale_data", "buy", 20, 15, false, none, none, none⟩ := by
    decide +kernel
  have values : declinedBy (hundredBook Dict.empty 100) (staleInput (rebalanceInput "USDT")) =
      some (.buy, .reject, true, true) := by
    decide +kernel
  rcases declines_of_declinedBy values recorded with ⟨j, declines, buys⟩
  refine ⟨j, _, declines, ?_⟩
  rw [declined_honest_iff _ _ _ _ _ declines]
  rcases declines.record with ⟨-, -, -, price, -, size, -⟩
  refine ⟨buys, ?_⟩
  intro p1 priced _
  have halved : p1 = 10 := (Option.some.inj priced).symm
  right
  rw [← price, ← size, halved]
  norm_num

/-- An exit that is declined because the views are stale is recorded as a buy, and the fall that
it would have avoided counts as a loss that was avoided. -/
theorem declined_exit_recorded_as_buy : ∃ j r,
    Declines bareWorld (drawnDownState longBook) (staleInput (flatteningInput 50)) j r ∧
      j.decision.side = .sell ∧ r.side = "buy" ∧
      (AbstentionLedger.mark halvedPrice 172800 86400 r).hypotheticalPnlUsd = some (-7.5) ∧
      ¬r.Honest j.decision.side halvedPrice 172800 86400 := by
  have recorded : (tick bareWorld (drawnDownState longBook)
      (staleInput (flatteningInput 50))).1.world.abstentions.getLast? =
        some ⟨0, 1, "INJ", "stale_data", "buy", 20, 15, false, none, none, none⟩ := by
    decide +kernel
  have values : declinedBy (drawnDownState longBook) (staleInput (flatteningInput 50)) =
      some (.sell, .reject, true, true) := by
    decide +kernel
  rcases declines_of_declinedBy values recorded with ⟨j, declines, sells⟩
  refine ⟨j, _, declines, sells, rfl, by decide +kernel, ?_⟩
  rintro ⟨sameSide, -⟩
  rw [sells] at sameSide
  exact absurd sameSide (by decide)

end Core

end SumplusTrader
