import SumplusTrader.Core.TickCases
import SumplusTrader.Policy.ReceiptChain

/-!
# Ticks without an executor

This file describes a tick without an executor over a receipt log that can be appended to.
Such a tick raises only where its judgement does, the log stays appendable, and the next
state is a function of the judgement alone: an approved trade is booked as executed, and
nothing else changes. The drivers that replay prices make no other ticks.
-/

namespace SumplusTrader

namespace Core

/-- The receipts are a chain, and the log ends in a closed line. -/
def Appendable (world : World) : Prop :=
  ∃ records links, LogOf world.receipts records links ∧ Json.Blank (Json.openLine world.receipts)

/-- Whether the trade of a judgement is executed without an executor, and the next state. -/
def simulated (state : State) (j : Judgement) : Bool × State :=
  (decide j.approved, settle { state with pendingIntent := none } j j.verdict.finalAmountUsd
    (decide j.approved))

theorem carryOut_of_no_executor {fx : Effects} {state : State} {input : TickInput}
    {j : Judgement} {receipt : Receipt} (none : input.executor = none) :
    carryOut fx state input j receipt = (fx, .ok (simulated state j)) := by
  unfold carryOut simulated Judgement.approved
  by_cases approved : j.verdict.allowed ∧ j.decision.isTrade
  · simp [approved, none]
  · simp [approved, settle]

theorem appendable_of_empty {world : World} (empty : world.receipts = []) : Appendable world := by
  refine ⟨[], [], ?_, ?_⟩
  · rw [empty]
    exact logOf_nil
  · rw [empty]
    exact Json.blank_nil

theorem Appendable.append {world : World} (appendable : Appendable world) (args : ReceiptArgs) :
    ∃ log receipt, ReceiptChain.append world.receipts args = .ok (log, receipt) ∧
      Appendable { world with receipts := log } := by
  rcases appendable with ⟨records, links, valid, blank⟩
  refine ⟨_, _, valid.append_eq args, _, _, valid.append blank args, ?_⟩
  rw [Json.openLine_appendLine]
  exact Json.blank_nil

theorem Appendable.of_receipts_eq {world other : World} (appendable : Appendable world)
    (same : other.receipts = world.receipts) : Appendable other := by
  rcases appendable with ⟨records, links, valid, blank⟩
  refine ⟨records, links, ?_, ?_⟩
  · rwa [same]
  · rwa [same]

/-- Without an executor, a tick raises where its judgement does, and its result and next
state come from the judgement. -/
theorem tick_of_no_executor {world : World} {input : TickInput} (none : input.executor = none)
    (appendable : Appendable world) (state : State) :
    Appendable (tick world state input).1.world ∧
      (tick world state input).2.map (fun ended => (ended.1.executed, ended.2)) =
        (prepare world.configFile state input).map fun prepared => simulated state prepared.2 := by
  rcases prepared : prepare world.configFile state input with e | ⟨ph, j⟩
  · simp only [tick, prepared]
    exact ⟨appendable, rfl⟩
  · rcases appendable.append (receiptArgs ph j) with ⟨log, receipt, appended, appendable'⟩
    rw [tick_of_prepare prepared appended]
    constructor
    · apply appendable'.of_receipts_eq
      exact (act_extends _ state input j receipt).receipts
    · rw [act, carryOut_of_no_executor none]
      rfl

end Core

end SumplusTrader
