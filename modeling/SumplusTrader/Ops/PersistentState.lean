import SumplusTrader.Core.Portfolio

/-!
# The state on disk

This file models `PersistentState` of `agent/ops/state.py` on the part of the state that the
agent uses. A load and a write both start from the defaults, so that a key that is missing is
present afterwards. A write replaces the whole snapshot at once: a crash leaves the old snapshot
or the new one.
-/

namespace SumplusTrader

namespace PersistentState

/-- `DEFAULTS`. -/
def defaults : State where
  positions := Dict.empty
  nav := some 0
  portfolioValueUsd := none
  highWaterMark := some 0
  stableUsd := some 0
  lastTradeTs := 0
  tradesThisWeek := 0
  tradesLastHour := 0
  intentSeq := 0
  pendingIntent := none

/-- The defaults, updated with a state. -/
def merged (state : State) : State :=
  { state with
    nav := state.nav.or defaults.nav
    highWaterMark := state.highWaterMark.or defaults.highWaterMark
    stableUsd := state.stableUsd.or defaults.stableUsd }

/-- `load`, of the snapshot that is on disk. -/
def load : Option State → State
  | none => defaults
  | some snapshot => merged snapshot

/-- `write`: the snapshot that is on disk afterwards. -/
def write (state : State) : Option State := some (merged state)

@[simp] theorem pendingIntent_merged (state : State) :
    (merged state).pendingIntent = state.pendingIntent := rfl

@[simp] theorem intentSeq_merged (state : State) : (merged state).intentSeq = state.intentSeq := rfl

/-- What is loaded is what was written. -/
theorem load_write (state : State) : load (write state) = merged state := by
  rcases state with ⟨positions, nav, value, highWaterMark, stableUsd⟩
  cases nav <;> cases highWaterMark <;> cases stableUsd <;> rfl

end PersistentState

end SumplusTrader
