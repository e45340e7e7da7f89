import SumplusTrader.Core.Conservation
import SumplusTrader.Core.TickCases

/-!
# The high-water mark of a book

This file collects what raises the high-water mark and what leaves it alone. Marking the book
raises it to the marked value; a tick books a fill at most, and leaves the mark to the marking that
follows it.
-/

namespace SumplusTrader

/-- The high-water mark of a state; none counts as zero. -/
def State.peak (state : State) : ℚ := max 0 (state.highWaterMark.getD 0)

/-- A high-water mark that is not below an earlier one, nor below the recorded value. -/
structure Above (floor : ℚ) (state : State) : Prop where
  kept : floor ≤ state.peak
  marked : state.nav.getD 0 ≤ state.peak

variable {floor : ℚ} {state newState : State}

theorem Above.mono {lower : ℚ} (above : Above floor state) (below : lower ≤ floor) :
    Above lower state := ⟨below.trans above.kept, above.marked⟩

/-- The mark and the value of a state are all that matters. -/
theorem Above.congr (above : Above floor state)
    (highWaterMark : newState.highWaterMark = state.highWaterMark)
    (nav : newState.nav = state.nav) : Above floor newState := by
  have same : newState.peak = state.peak := by rw [State.peak, highWaterMark, State.peak]
  exact ⟨same ▸ above.kept, by rw [same, nav]; exact above.marked⟩

/-- Marking the book does not need the old value. -/
theorem above_markNav (kept : floor ≤ state.peak) (price : Dict String ℚ) :
    Above floor (markNav state price).2 where
  kept := by
    rw [State.peak] at kept ⊢
    simp only [markNav, Option.getD_some]
    rcases found : state.highWaterMark with _ | hwm
    · rw [found, Option.getD_none, max_self] at kept
      exact le_max_of_le_left kept
    · rw [found] at kept
      exact kept.trans (max_le_max_left 0 (le_max_left _ _))
  marked := by
    simp only [State.peak, markNav, Option.getD_some]
    exact le_max_of_le_right (le_max_right _ _)

/-- A fill changes the positions and the cash, and nothing else. -/
theorem applyFill_keeps (state : State) (decision : Decision) (amountUsd : ℚ)
    (price : Dict String ℚ) (nowTs : ℚ) :
    ∃ positions stable, applyFill state decision amountUsd price nowTs =
      { state with positions := positions, stableUsd := some stable } := by
  rcases applyFill_cases state decision amountUsd price nowTs with
    fill | ⟨old, fill⟩ | ⟨-, -, same⟩
  · exact ⟨_, _, fill.applyFill_eq nowTs⟩
  · exact ⟨_, _, fill.applyFill_eq amountUsd nowTs⟩
  · exact ⟨state.positions, _, same⟩

namespace Core

/-- A tick leaves the high-water mark to the marking of the book. -/
theorem highWaterMark_of_tick {world : World} {input : TickInput} {fx : Effects}
    {result : TickResult} (ticked : tick world state input = (fx, .ok (result, newState))) :
    newState.highWaterMark = state.highWaterMark := by
  rcases tick_state ticked with ⟨ph, j, seq, -, -, rfl, -⟩
  cases result.executed with
  | false => rfl
  | true =>
      rcases applyFill_keeps { state with pendingIntent := none, intentSeq := seq } j.decision
        j.verdict.finalAmountUsd (priceMap j.views) j.nowTs with ⟨positions, stable, booked⟩
      simp [settle, booked]

end Core

end SumplusTrader
