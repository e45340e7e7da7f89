import SumplusTrader.Types

/-!
# The ledger of the brain loop

This file models `agent/ledger.py`, the file to which the loop and the chat append
their events, and from which the guardrail counts the executed trades. The ledger is
the list of its entries, in the order of the file.

A time stamp is written in UTC with a resolution of one second. It is kept here as the
number of seconds that its calendar fields name. Reading it back takes these fields for
local time, which moves the result by the offset of the machine.
-/

namespace SumplusTrader

structure LedgerEntry where
  ts : ℤ
  event : String
  payload : List (String × Json)

namespace Ledger

/-- `_now`, from a reading of the clock. -/
def stamp (now : ℚ) : ℤ := ⌊now⌋

def record (ledger : List LedgerEntry) (now : ℚ) (event : String)
    (payload : List (String × Json)) : List LedgerEntry :=
  ledger ++ [⟨stamp now, event, payload⟩]

/-- `time.mktime`, on a machine whose local time is ahead of UTC by the offset. -/
def mktime (utcOffset ts : ℤ) : ℤ := ts - utcOffset

def tradesLastHour (ledger : List LedgerEntry) (now : ℚ) (utcOffset : ℤ) : ℕ :=
  ledger.countP fun entry =>
    entry.event = "executed" ∧ now - 3600 ≤ mktime utcOffset entry.ts

end Ledger

end SumplusTrader
