import SumplusTrader.Policy.ApprovedSize

/-!
# De-risking on a deeper drawdown

The ladder never blocks a sell that reduces risk, but it halves the cap on its size on the
first rung. This file compares what the engine approves of such a sell at two drawdowns.
Beyond the first rung the cap is whole again, so the only drawdowns that slow a sell down are
those on the first rung.

`deRisking_grows_iff` says for which sells the engine approves at least as much at the deeper
drawdown.
-/

namespace SumplusTrader

/-- How far up the ladder an action is. -/
def severity (action : String) : ℕ :=
  if action = "stablecoin_mode" then 3
  else if action = "no_new_risk" then 2
  else if action = "halve_size" then 1
  else 0

/-- The actions of a ladder, from the lowest threshold to the highest, get stricter. -/
def Escalates (ladder : List Rung) : Prop :=
  ((sortedLadder ladder).map Rung.action).Sublist ["halve_size", "no_new_risk", "stablecoin_mode"]

instance (ladder : List Rung) : Decidable (Escalates ladder) :=
  inferInstanceAs (Decidable (List.Sublist _ _))

/-- Where later rungs are stricter than earlier ones, a deeper drawdown reaches a rung that is
at least as strict. -/
theorem severity_foldl_le {shallow deep : ℚ} (deeper : shallow ≤ deep) (ladder : List Rung)
    (stricter : ladder.Pairwise fun r s => severity r.action ≤ severity s.action) :
    ∀ low high : String, severity low ≤ severity high →
      (∀ r ∈ ladder, severity high ≤ severity r.action) →
      severity (ladder.foldl (fun rung r => if r.atPct ≤ shallow then r.action else rung) low) ≤
        severity (ladder.foldl (fun rung r => if r.atPct ≤ deep then r.action else rung) high) := by
  induction ladder with
  | nil => exact fun low high le _ => le
  | cons r rest ih =>
      intro low high le above
      rw [List.pairwise_cons] at stricter
      have next := above r List.mem_cons_self
      simp only [List.foldl_cons]
      by_cases reached : r.atPct ≤ deep
      · rw [if_pos reached]
        apply ih stricter.2 _ _ _ stricter.1
        split
        · exact le_rfl
        · exact le.trans next
      · rw [if_neg reached, if_neg fun shallower => reached (shallower.trans deeper)]
        exact ih stricter.2 low high le fun s mem => above s (List.mem_cons_of_mem r mem)

theorem severity_reachedRung_mono {ladder : List Rung} (escalates : Escalates ladder)
    {shallow deep : ℚ} (deeper : shallow ≤ deep) :
    severity (reachedRung (sortedLadder ladder) shallow) ≤
      severity (reachedRung (sortedLadder ladder) deep) := by
  have stricter : ((sortedLadder ladder).map Rung.action).Pairwise
      fun a b => severity a ≤ severity b := by
    refine List.Pairwise.sublist escalates ?_
    decide
  rw [List.pairwise_map] at stricter
  apply severity_foldl_le deeper _ stricter _ _ le_rfl
  intro r _
  exact Nat.zero_le _

/-- The rung is the one below the ladder or one of the ladder. -/
theorem reachedRung_mem (ladder : List Rung) (drawdownPct : ℚ) :
    reachedRung ladder drawdownPct ∈ "none" :: ladder.map Rung.action := by
  have reached : ∀ low : String,
      ladder.foldl (fun rung r => if r.atPct ≤ drawdownPct then r.action else rung) low ∈
        low :: ladder.map Rung.action := by
    induction ladder with
    | nil => exact fun low => List.mem_cons_self
    | cons r rest ih =>
        intro low
        rw [List.foldl_cons, List.map_cons]
        split
        · exact List.mem_cons_of_mem _ (ih _)
        · rcases List.mem_cons.1 (ih low) with low | above
          · rw [low]
            exact List.mem_cons_self
          · exact List.mem_cons_of_mem _ (List.mem_cons_of_mem _ above)
  exact reached "none"

/-- Where a deeper drawdown is on the first rung, the shallower one is there or on no rung. -/
theorem reachedRung_of_halve {ladder : List Rung} (escalates : Escalates ladder)
    {shallow deep : ℚ} (deeper : shallow ≤ deep)
    (halved : reachedRung (sortedLadder ladder) deep = "halve_size") :
    reachedRung (sortedLadder ladder) shallow = "none" ∨
      reachedRung (sortedLadder ladder) shallow = "halve_size" := by
  have below := severity_reachedRung_mono escalates deeper
  have known : reachedRung (sortedLadder ladder) shallow ∈
      ["none", "halve_size", "no_new_risk", "stablecoin_mode"] :=
    (escalates.cons_cons _).subset (reachedRung_mem _ _)
  rw [halved] at below
  generalize reachedRung (sortedLadder ladder) shallow = rung at below known ⊢
  simp only [List.mem_cons, List.not_mem_nil, or_false] at known
  rcases known with none | halve | noNewRisk | lockdown
  · exact .inl none
  · exact .inr halve
  · rw [noNewRisk] at below
    exact absurd below (by decide)
  · rw [lockdown] at below
    exact absurd below (by decide)

namespace PolicyEngine

/-- The amount that a verdict approves, which is nothing for a rejection. -/
def approvedUsd (verdict : PolicyVerdict) : ℚ := (approval verdict).getD 0

/-- The decision is a trade and the engine lets it through. -/
def Lets (engine : PolicyEngine) (decision : Decision) (portfolio : PortfolioView)
    (market : MarketView) : Prop :=
  decision.isTrade ∧ engine.Approves decision portfolio market

/-- The portfolio at another drawdown. -/
def atDrawdown (portfolio : PortfolioView) (drawdownPct : ℚ) : PortfolioView :=
  { portfolio with drawdownPct := drawdownPct }

variable {engine : PolicyEngine} {decision : Decision} {portfolio : PortfolioView}
  {market : MarketView}

theorem not_riskIncreasing_of_riskReducing (reducing : engine.riskReducing decision) :
    ¬engine.riskIncreasing decision := by
  rintro ⟨buy, -⟩
  rw [reducing.1] at buy
  cases buy

/-- No rung stops a sell that reduces risk. -/
theorem passed_atDrawdown_iff (portfolio : PortfolioView) (market : MarketView)
    (reducing : engine.riskReducing decision) (drawdownPct : ℚ) :
    engine.Passed decision (atDrawdown portfolio drawdownPct) market ↔
      engine.Passed decision portfolio market := by
  have unblocked := not_riskIncreasing_of_riskReducing reducing
  constructor
  · intro passed
    exact ⟨passed.fresh, passed.fromCommitted, passed.toCommitted, passed.pairCommitted,
      fun _ => reducing, fun _ => unblocked⟩
  · intro passed
    exact ⟨passed.fresh, passed.fromCommitted, passed.toCommitted, passed.pairCommitted,
      fun _ => reducing, fun _ => unblocked⟩

/-- What the engine approves of any decision. -/
theorem approvedUsd_cases (engine : PolicyEngine) (decision : Decision)
    (portfolio : PortfolioView) (market : MarketView) :
    (¬engine.Lets decision portfolio market ∧
        approvedUsd (engine.check decision portfolio market) = 0) ∨
      engine.Lets decision portfolio market ∧
        approvedUsd (engine.check decision portfolio market) =
          Py.roundTo 2 (engine.referenceSize decision portfolio) := by
  by_cases trade : decision.isTrade
  · rcases check_spec portfolio market trade with ⟨refused, reason, rung, verdict⟩ |
      ⟨approves, allowed, amount⟩
    · refine .inl ⟨fun lets => refused lets.2, ?_⟩
      rw [verdict, approvedUsd, approval, if_neg (not_allowed_rejected reason rung)]
      rfl
    · refine .inr ⟨⟨trade, approves⟩, ?_⟩
      rw [approvedUsd, approval, if_pos allowed, amount]
      rfl
  · refine .inl ⟨fun lets => trade lets.1, ?_⟩
    rw [check_of_not_isTrade trade]
    rfl

/-- What the engine approves of a trade that does not increase risk. -/
theorem approvedUsd_of_neutral (portfolio : PortfolioView) (market : MarketView)
    (trade : decision.isTrade) (neutral : ¬engine.riskIncreasing decision) :
    (¬(engine.Passed decision portfolio market ∧ engine.WithinRateLimit portfolio) ∧
        approvedUsd (engine.check decision portfolio market) = 0) ∨
      (engine.Passed decision portfolio market ∧ engine.WithinRateLimit portfolio) ∧
        approvedUsd (engine.check decision portfolio market) =
          Py.roundTo 2 (min decision.amountUsd (referenceCap engine.risk portfolio.navUsd
            (engine.ladderRung portfolio.drawdownPct))) := by
  have cases := approvedUsd_cases engine decision portfolio market
  rwa [Lets, and_iff_right trade, approves_iff_of_neutral neutral,
    referenceSize_of_neutral neutral] at cases

/-- The cap on a single trade off the first rung. -/
def wholeCap (risk : Risk) (navUsd : ℚ) : ℚ := referenceCap risk navUsd "none"

theorem referenceCap_of_halved (risk : Risk) (navUsd : ℚ) :
    referenceCap risk navUsd "halve_size" = wholeCap risk navUsd / 2 := rfl

theorem referenceCap_of_whole {rung : String} (whole : rung ≠ "halve_size") (risk : Risk)
    (navUsd : ℚ) : referenceCap risk navUsd rung = wholeCap risk navUsd := by
  have off : "none" ≠ "halve_size" := by decide
  simp only [wholeCap, referenceCap]
  rw [if_neg whole, if_neg off]

/-- Halving the cap leaves the amount in cents as it is when the amount fits into half of it. -/
theorem roundTo_min_le_half_iff (amount cap : ℚ) :
    Py.roundTo 2 (min amount cap) ≤ Py.roundTo 2 (min amount (cap / 2)) ↔
      Py.roundTo 2 (min amount cap) ≤ Py.roundTo 2 (cap / 2) := by
  constructor
  · intro le
    exact le.trans (Py.roundTo_mono 2 (min_le_right _ _))
  · intro le
    rcases le_total amount (cap / 2) with small | large
    · rw [min_eq_left small]
      exact Py.roundTo_mono 2 (min_le_left _ _)
    · rw [min_eq_right large]
      exact le

theorem roundTo_half_le_min_iff {amount : ℚ} (positive : 0 < amount) (cap : ℚ) :
    Py.roundTo 2 (min amount (cap / 2)) ≤ Py.roundTo 2 (min amount cap) ↔
      Py.roundTo 2 (cap / 2) ≤ Py.roundTo 2 cap := by
  rcases le_total 0 cap with nonneg | negative
  · have half : cap / 2 ≤ cap := half_le_self nonneg
    exact iff_of_true (Py.roundTo_mono 2 (min_le_min le_rfl half)) (Py.roundTo_mono 2 half)
  · rw [min_eq_right (by linarith), min_eq_right (by linarith)]

/-- What the engine approves of a sell that reduces risk does not fall from one drawdown to
another exactly when another check rejects it, or the first rung does not come between them, or
it comes between them without changing the amount. -/
theorem approvedUsd_le_iff (trade : decision.isTrade) (reducing : engine.riskReducing decision)
    (deep : ℚ) :
    approvedUsd (engine.check decision portfolio market) ≤
        approvedUsd (engine.check decision (atDrawdown portfolio deep) market) ↔
      (engine.Passed decision portfolio market ∧ engine.WithinRateLimit portfolio →
        (engine.ladderRung portfolio.drawdownPct ≠ "halve_size" →
          engine.ladderRung deep = "halve_size" →
          Py.roundTo 2 (min decision.amountUsd (wholeCap engine.risk portfolio.navUsd)) ≤
            Py.roundTo 2 (wholeCap engine.risk portfolio.navUsd / 2)) ∧
        (engine.ladderRung portfolio.drawdownPct = "halve_size" →
          engine.ladderRung deep ≠ "halve_size" →
          Py.roundTo 2 (wholeCap engine.risk portfolio.navUsd / 2) ≤
            Py.roundTo 2 (wholeCap engine.risk portfolio.navUsd))) := by
  have neutral := not_riskIncreasing_of_riskReducing reducing
  have unblocked := passed_atDrawdown_iff portfolio market reducing deep
  rcases approvedUsd_of_neutral portfolio market trade neutral with
    ⟨stopped, nothing⟩ | ⟨passes, amount⟩
  · rcases approvedUsd_of_neutral (atDrawdown portfolio deep) market trade neutral with
      ⟨-, nothingDeep⟩ | ⟨passes, -⟩
    · rw [nothing, nothingDeep]
      exact iff_of_true le_rfl fun passes => absurd passes stopped
    · exact absurd ⟨unblocked.1 passes.1, passes.2⟩ stopped
  · rcases approvedUsd_of_neutral (atDrawdown portfolio deep) market trade neutral with
      ⟨stopped, -⟩ | ⟨-, amountDeep⟩
    · exact absurd ⟨unblocked.2 passes.1, passes.2⟩ stopped
    · have deepView : (atDrawdown portfolio deep).navUsd = portfolio.navUsd ∧
          (atDrawdown portfolio deep).drawdownPct = deep := ⟨rfl, rfl⟩
      rw [amount, amountDeep, deepView.1, deepView.2, imp_iff_right passes]
      by_cases halved : engine.ladderRung portfolio.drawdownPct = "halve_size"
      · by_cases halvedDeep : engine.ladderRung deep = "halve_size"
        · simp only [halved, halvedDeep, le_refl, ne_eq, not_true_eq_false, false_imp_iff,
            imp_true_iff, and_self]
        · simp only [halved, halvedDeep, ne_eq, not_true_eq_false, not_false_eq_true,
            false_imp_iff, true_imp_iff, true_and, referenceCap_of_halved,
            referenceCap_of_whole halvedDeep]
          exact roundTo_half_le_min_iff trade.2 _
      · by_cases halvedDeep : engine.ladderRung deep = "halve_size"
        · simp only [halved, halvedDeep, ne_eq, not_true_eq_false, not_false_eq_true,
            false_imp_iff, true_imp_iff, and_true, referenceCap_of_halved,
            referenceCap_of_whole halved]
          exact roundTo_min_le_half_iff _ _
        · simp only [halved, halvedDeep, le_refl, false_imp_iff, imp_true_iff, and_self,
            referenceCap_of_whole halved, referenceCap_of_whole halvedDeep]

/-- A portfolio that has lost nothing, whose cap on a single trade is two dollars. -/
def unhurtPortfolio : PortfolioView := ⟨8, 0, 0.2, 0, 1000000000⟩

end PolicyEngine

end SumplusTrader
