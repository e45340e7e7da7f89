import SumplusTrader.Core.Bookkeeping
import SumplusTrader.Core.DeclinedTrade
import SumplusTrader.Core.SimulatedTick

/-!
# The record of a restraint

A tick that holds, or whose trade is rejected, records one abstention. The symbol of the record
is the first of three choices: the token of the rejected trade, the best ranked view, the biggest
mover. What does not qualify is filtered out only after the choice is made, and nothing comes in
its place, so a stablecoin at the top of the ranking leaves the restraint without a record.

`restraint_recorded_iff` says which choices are recorded.
-/

namespace SumplusTrader

namespace Core

/-- The quote tokens, which are not recorded. -/
def stables (j : Judgement) : List String := j.cfg.quoteTokens.getD ["USDT", "USDC"]

/-- The token can be recorded: it is no quote token, and the views price it. -/
structure Recordable (j : Judgement) (sym : String) : Prop where
  named : sym ≠ ""
  risky : sym ∉ stables j
  priced : priceOrZero (priceMap j.views) sym ≠ 0

/-- The first token of a rejected trade that is no quote token. -/
def rejectedToken (j : Judgement) : Option String :=
  if j.verdict.action = .reject ∧ j.decision.isTrade then
    ([j.decision.fromToken, j.decision.toToken].filterMap fun t =>
      if Py.upper t ∈ stables j then none else some (Py.upper t)).head?
  else none

def bestRanked (j : Judgement) : Option String :=
  (rankEntries j.views j.cfg.volEnterMaxPct).head?.map fun scored => Py.upper scored.1.symbol

/-- The views of other than quote tokens with a known change. -/
def movers (j : Judgement) : List TokenView :=
  j.views.filter fun view => Py.upper view.symbol ∉ stables j ∧ view.pct4h.isSome

def biggestMover (j : Judgement) : Option String :=
  ((movers j).argmax fun view => |view.pct4h.getD 0|).map fun view => Py.upper view.symbol

/-- The first of the three choices that is made can be recorded. -/
structure ChoiceRecordable (j : Judgement) : Prop where
  rejected : ∀ sym, rejectedToken j = some sym → Recordable j sym
  ranked : rejectedToken j = none → ∀ sym, bestRanked j = some sym → Recordable j sym
  mover : rejectedToken j = none → bestRanked j = none →
    ∀ sym, biggestMover j = some sym → Recordable j sym

section Choice

variable {j : Judgement} {sym : String}

theorem abstainedSymbol_eq (j : Judgement) :
    abstainedSymbol j (stables j) = ((rejectedToken j).or (bestRanked j)).or (biggestMover j) := rfl

theorem choiceRecordable_iff :
    ChoiceRecordable j ↔
      ∀ sym, abstainedSymbol j (stables j) = some sym → Recordable j sym := by
  rw [abstainedSymbol_eq]
  constructor
  · rintro ⟨rejected, ranked, mover⟩ sym chosen
    rcases Option.or_eq_some_iff.1 chosen with earlier | ⟨none, third⟩
    · rcases Option.or_eq_some_iff.1 earlier with first | ⟨none, second⟩
      · exact rejected sym first
      · exact ranked none sym second
    · rcases Option.or_eq_none_iff.1 none with ⟨noFirst, noSecond⟩
      exact mover noFirst noSecond sym third
  · intro recordable
    constructor
    · intro sym first
      exact recordable sym (by simp [first])
    · intro noFirst sym second
      exact recordable sym (by simp [noFirst, second])
    · intro noFirst noSecond sym third
      exact recordable sym (by simp [noFirst, noSecond, third])

/-- A choice is made as soon as there is a mover. -/
theorem abstainedSymbol_isSome (known : movers j ≠ []) :
    ∃ sym, abstainedSymbol j (stables j) = some sym := by
  rcases found : (movers j).argmax fun view => |view.pct4h.getD 0| with _ | view
  · exact absurd (List.argmax_eq_none.1 found) known
  · have third : biggestMover j = some (Py.upper view.symbol) := by
      rw [biggestMover, found]
      rfl
    rw [abstainedSymbol_eq, third]
    rcases (rejectedToken j).or (bestRanked j) with _ | sym
    · exact ⟨_, rfl⟩
    · exact ⟨sym, rfl⟩

theorem abstention?_of_chosen
    (restrains : j.intent.action = .hold ∨ j.verdict.action = .reject)
    (chosen : abstainedSymbol j (stables j) = some sym) (recordable : Recordable j sym) :
    abstention? j = some (sym, priceOrZero (priceMap j.views) sym) := by
  unfold stables at chosen
  rw [abstention?, if_pos restrains]
  simp only [chosen, Option.bind_some]
  exact if_pos ⟨recordable.named, recordable.risky, recordable.priced⟩

theorem recordable_of_abstention? {px : ℚ} (found : abstention? j = some (sym, px)) :
    abstainedSymbol j (stables j) = some sym ∧ Recordable j sym := by
  unfold abstention? at found
  split at found
  · rcases Option.bind_eq_some_iff.1 found with ⟨chosen, symbol, kept⟩
    simp only [Option.ite_none_right_eq_some, Option.some.injEq, Prod.mk.injEq] at kept
    rcases kept with ⟨⟨named, risky, priced⟩, rfl, -⟩
    exact ⟨symbol, named, risky, priced⟩
  · cases found

end Choice

/-- One record is appended to the marked ones, of a token that is no quote token, at its price. -/
def RecordsOne (before after : List Abstention) (j : Judgement) : Prop :=
  ∃ r, after = AbstentionLedger.markToMarket before (priceMap j.views) j.nowTs (24 * 3600) ++ [r] ∧
    r.symbol ∉ stables j ∧ (priceMap j.views).get? r.symbol = some r.refPrice

/-- The views know a token that is no quote token, with a positive price and its change. -/
def KnowsMover (j : Judgement) : Prop :=
  ∃ view ∈ j.views, Py.upper view.symbol ∉ stables j ∧ 0 < view.price ∧ view.pct4h.isSome

instance (j : Judgement) : Decidable (KnowsMover j) :=
  inferInstanceAs (Decidable (∃ view ∈ j.views,
    Py.upper view.symbol ∉ stables j ∧ 0 < view.price ∧ view.pct4h.isSome))

section Record

variable {j : Judgement}

theorem recordsOne_iff (fx : Effects)
    (restrains : j.intent.action = .hold ∨ j.verdict.action = .reject) (known : movers j ≠ []) :
    RecordsOne fx.world.abstentions
        (markAbstentions (bookAbstention fx j).world j).abstentions j ↔ ChoiceRecordable j := by
  rw [choiceRecordable_iff]
  rcases abstainedSymbol_isSome known with ⟨sym, chosen⟩
  constructor
  · rintro ⟨r, appended, -⟩ other same
    rw [chosen, Option.some.injEq] at same
    subst same
    rcases found : abstention? j with _ | ⟨recorded, px⟩
    · have length := congrArg List.length appended
      simp [markAbstentions, bookAbstention, found, AbstentionLedger.markToMarket] at length
    · rcases recordable_of_abstention? found with ⟨same, recordable⟩
      rw [chosen, Option.some.injEq] at same
      exact same ▸ recordable
  · intro recordable
    have found := abstention?_of_chosen restrains chosen (recordable sym chosen)
    rcases abstentions_markAbstentions fx found with
      ⟨r, appended, symbol, -, -, refPrice, -⟩
    have shown : r.symbol = sym := by rw [symbol, upper_abstainedSymbol chosen]
    refine ⟨r, appended, ?_, ?_⟩
    · rw [shown]
      exact (recordable sym chosen).risky
    · rw [shown, refPrice]
      exact get?_of_priceOrZero_ne (recordable sym chosen).priced

/-- **A restraint is recorded** exactly when the first choice can be recorded: for every tick that
holds or whose trade is rejected, on views with a priced token that is no quote token and whose
change is known. -/
theorem restraint_recorded_iff (world : World) (state : State) (input : TickInput) (ph : String)
    (j : Judgement) (log : List Char) (receipt : Receipt)
    (prepared : prepare world.configFile state input = .ok (ph, j))
    (appended : ReceiptChain.append world.receipts (receiptArgs ph j) = .ok (log, receipt))
    (restrains : j.intent.action = .hold ∨ j.verdict.action = .reject)
    (known : KnowsMover j) :
    RecordsOne world.abstentions (tick world state input).1.world.abstentions j ↔
      ChoiceRecordable j := by
  have moves : movers j ≠ [] := by
    rcases known with ⟨view, mem, risky, -, change⟩
    apply List.ne_nil_of_mem (a := view)
    exact List.mem_filter.2 ⟨mem, by simpa using ⟨risky, change⟩⟩
  have idle := not_approved_of_held (decision_of_prepare prepared) restrains
  rw [tick_of_prepare prepared appended, act_of_not_approved _ _ _ _ idle]
  exact recordsOne_iff _ restrains moves

end Record

/-- A fall of INJ, beside a drift of USDT. -/
def driftViews (drift : Option ℚ) : List TokenView :=
  [⟨"INJ", 20, some (-2), some (-3), some 2.5, 0, 0, 1, .obj []⟩,
    ⟨"USDT", 1, drift, drift, some 0.01, 0, 0, 1, .obj []⟩]

def driftInput (drift : Option ℚ) : TickInput :=
  { rebalanceInput "USDT" with market := some (driftViews drift, 1) }

/-- Whether a tick on cash holds, on views that know a mover. -/
def holdsOn (drift : Option ℚ) : Option (Bool × Bool) :=
  (prepare bareWorld.configFile (hundredBook Dict.empty 100) (driftInput drift)).toOption.map
    fun prepared => (prepared.2.intent.action = .hold, KnowsMover prepared.2)

theorem prepared_of_holdsOn {drift : Option ℚ} (values : holdsOn drift = some (true, true)) :
    ∃ ph j log receipt, prepare bareWorld.configFile (hundredBook Dict.empty 100)
        (driftInput drift) = .ok (ph, j) ∧
      ReceiptChain.append bareWorld.receipts (receiptArgs ph j) = .ok (log, receipt) ∧
      j.intent.action = .hold ∧ KnowsMover j := by
  rcases Option.map_eq_some_iff.1 values with ⟨⟨ph, j⟩, prepared, values⟩
  simp only [Prod.mk.injEq, decide_eq_true_eq] at values
  have appendable : Appendable bareWorld := appendable_of_empty rfl
  rcases appendable.append (receiptArgs ph j) with ⟨log, receipt, appended, -⟩
  exact ⟨ph, j, log, receipt, toOption_eq_some_iff.1 prepared, appended, values.1, values.2⟩

/-- INJ falls, USDT drifts up by a hundredth of a percent and ranks first, and the hold leaves no
record. -/
theorem drift_suppresses_record : ∃ ph j log receipt,
    prepare bareWorld.configFile (hundredBook Dict.empty 100) (driftInput (some 0.01)) =
        .ok (ph, j) ∧
      ReceiptChain.append bareWorld.receipts (receiptArgs ph j) = .ok (log, receipt) ∧
      j.intent.action = .hold ∧ KnowsMover j ∧
      ¬RecordsOne bareWorld.abstentions
        (tick bareWorld (hundredBook Dict.empty 100) (driftInput (some 0.01))).1.world.abstentions
        j := by
  have empty : (tick bareWorld (hundredBook Dict.empty 100)
      (driftInput (some 0.01))).1.world.abstentions = [] := by
    decide +kernel
  have values : holdsOn (some 0.01) = some (true, true) := by decide +kernel
  rcases prepared_of_holdsOn values with
    ⟨ph, j, log, receipt, prepared, appended, holds, known⟩
  refine ⟨ph, j, log, receipt, prepared, appended, holds, known, ?_⟩
  rintro ⟨r, records, -⟩
  rw [empty] at records
  simp at records

/-- Without the drift the fall is recorded. -/
theorem restraint_recorded_iff_fall : ∃ ph j log receipt,
    prepare bareWorld.configFile (hundredBook Dict.empty 100) (driftInput none) = .ok (ph, j) ∧
      ReceiptChain.append bareWorld.receipts (receiptArgs ph j) = .ok (log, receipt) ∧
      (RecordsOne bareWorld.abstentions
          (tick bareWorld (hundredBook Dict.empty 100) (driftInput none)).1.world.abstentions j ↔
        ChoiceRecordable j) := by
  have values : holdsOn none = some (true, true) := by decide +kernel
  rcases prepared_of_holdsOn values with
    ⟨ph, j, log, receipt, prepared, appended, holds, known⟩
  exact ⟨ph, j, log, receipt, prepared, appended, restraint_recorded_iff bareWorld
    (hundredBook Dict.empty 100) (driftInput none) ph j log receipt prepared appended
    (.inl holds) known⟩

end Core

end SumplusTrader
