import Mathlib.Data.Int.Notation
import Mathlib.Data.List.Nodup
import Mathlib.Data.List.Pairwise
import SumplusTrader.Transition.Run

/-!
# Write-ahead intents

This file develops the discipline of writing an intent to durable storage before acting on it,
over arbitrary types of intents and orders. The log keeps one pending intent and a number that
counts the intents. An order may be sent only for the pending intent, once, and by the process
that has staged it; an intent may be staged only while nothing is pending. Only a process that
has reconciled since it started may stage an intent or clear one.

Three laws hold of every history. Each order that is sent is the one that is durably pending, no
two orders are sent under one number, and after a restart that finds a pending intent nothing is
sent before a reconciliation and a write that clears it.
-/

namespace WriteAhead

/-- The pending intent and the number are durable; that the process has reconciled since it
started, and that it has staged an intent and not sent its order, are not. -/
structure Log (ω : Type) where
  pending : Option ω
  number : ℤ
  reconciled : Bool
  staged : Bool

inductive Event (ω κ : Type) where
  | restarted (pending : Option ω)
  | reconciled
  | wrote (pending : Option ω) (number : ℤ)
  | sent (order : κ)

variable {ω κ : Type} {fits : ω → ℤ → κ → Prop}

/-- The moves of a log; `fits` says that an order is the one of an intent under a number. -/
inductive Step (fits : ω → ℤ → κ → Prop) : Log ω → List (Event ω κ) → Log ω → Prop where
  | restart (log : Log ω) :
      Step fits log [.restarted log.pending] { log with reconciled := false, staged := false }
  | reconcile (log : Log ω) : Step fits log [.reconciled] { log with reconciled := true }
  | keep (log : Log ω) : Step fits log [.wrote log.pending log.number] log
  | clear (log : Log ω) (reconciled : log.reconciled = true) :
      Step fits log [.wrote none log.number] { log with pending := none, staged := false }
  | stage (log : Log ω) (intent : ω) (nothing : log.pending = none)
      (reconciled : log.reconciled = true) :
      Step fits log [.wrote (some intent) (log.number + 1)]
        { log with pending := some intent, number := log.number + 1, staged := true }
  | send (log : Log ω) (intent : ω) (order : κ) (pending : log.pending = some intent)
      (staged : log.staged = true) (fit : fits intent log.number order) :
      Step fits log [.sent order] { log with staged := false }

/-- What is durable after a history: the last write, or what there was at first. -/
def lastWrite (durable : Option ω × ℤ) : List (Event ω κ) → Option ω × ℤ
  | [] => durable
  | .wrote pending number :: history => lastWrite (pending, number) history
  | _ :: history => lastWrite durable history

/-- The numbers under which the orders of a history were sent. -/
def sentNumbers (durable : Option ω × ℤ) : List (Event ω κ) → List ℤ
  | [] => []
  | .wrote pending number :: history => sentNumbers (pending, number) history
  | .sent _ :: history => durable.2 :: sentNumbers durable history
  | .restarted _ :: history => sentNumbers durable history
  | .reconciled :: history => sentNumbers durable history

/-- A reconciliation, and after it a write that clears the pending intent. -/
def Recovers (history : List (Event ω κ)) : Prop :=
  ∃ early middle number late,
    history = early ++ .reconciled :: (middle ++ .wrote none number :: late)

section

variable {durable : Option ω × ℤ} {history later : List (Event ω κ)}

theorem lastWrite_append :
    lastWrite durable (history ++ later) = lastWrite (lastWrite durable history) later := by
  induction history generalizing durable with
  | nil => rfl
  | cons event history ih => cases event <;> exact ih

theorem sentNumbers_append : sentNumbers durable (history ++ later) =
    sentNumbers durable history ++ sentNumbers (lastWrite durable history) later := by
  induction history generalizing durable with
  | nil => rfl
  | cons event history ih =>
      cases event with
      | sent order => exact congrArg (durable.2 :: ·) ih
      | restarted pending => exact ih
      | reconciled => exact ih
      | wrote pending number => exact ih

theorem Recovers.append (recovers : Recovers history) (later : List (Event ω κ)) :
    Recovers (history ++ later) := by
  rcases recovers with ⟨early, middle, number, late, rfl⟩
  exact ⟨early, middle, number, late ++ later, by simp⟩

theorem Recovers.concat {number : ℤ} (reconciled : .reconciled ∈ history) :
    Recovers (history ++ [.wrote none number] : List (Event ω κ)) := by
  rcases List.append_of_mem reconciled with ⟨early, middle, rfl⟩
  exact ⟨early, middle, number, [], by simp⟩

end

section

variable {start log : Log ω} {history : List (Event ω κ)}

/-- The log holds what was written last. -/
theorem lastWrite_of_run (run : Run (Step fits) start history log) :
    lastWrite (start.pending, start.number) history = (log.pending, log.number) := by
  refine Run.invariant (fun history log =>
    lastWrite (start.pending, start.number) history = (log.pending, log.number)) rfl ?_ run
  intro history log events next durable step
  rw [lastWrite_append, durable]
  cases step <;> rfl

/-- **Each order is the one that is durably pending.** -/
theorem sent_pending (run : Run (Step fits) start history log) :
    Justified (fun before event => ∀ order, event = .sent order → ∃ intent number,
      lastWrite (start.pending, start.number) before = (some intent, number) ∧
        fits intent number order) history := by
  refine run.justified ?_
  intro history log events next run step
  have durable := lastWrite_of_run run
  right
  cases step with
  | send intent order pending staged fit =>
      refine ⟨_, rfl, ?_⟩
      rintro _ ⟨rfl⟩
      exact ⟨intent, log.number, by rw [durable, pending], fit⟩
  | restart => exact ⟨_, rfl, by simp⟩
  | reconcile => exact ⟨_, rfl, by simp⟩
  | keep => exact ⟨_, rfl, by simp⟩
  | clear => exact ⟨_, rfl, by simp⟩
  | stage => exact ⟨_, rfl, by simp⟩

/-- The numbers of the orders are in the past, and that of a staged intent is new. -/
structure Numbered (log : Log ω) (numbers : List ℤ) : Prop where
  ordered : numbers.Pairwise (· < ·)
  past : ∀ number ∈ numbers, number ≤ log.number
  new : log.staged = true → ∀ number ∈ numbers, number < log.number

theorem numbered_of_run (settled : start.staged = false) (run : Run (Step fits) start history log) :
    Numbered log (sentNumbers (start.pending, start.number) history) := by
  induction run with
  | stay => exact ⟨.nil, by simp [sentNumbers], by simp [settled]⟩
  | move run step ih =>
      rw [sentNumbers_append, lastWrite_of_run run]
      generalize sentNumbers (start.pending, start.number) _ = numbers at ih
      rcases ih with ⟨ordered, past, new⟩
      cases step with
      | restart => simpa [sentNumbers] using ⟨ordered, past, by simp⟩
      | reconcile => simpa [sentNumbers] using ⟨ordered, past, new⟩
      | keep => simpa [sentNumbers] using ⟨ordered, past, new⟩
      | clear reconciled => simpa [sentNumbers] using ⟨ordered, past, by simp⟩
      | stage intent nothing reconciled =>
          simp only [sentNumbers, List.append_nil]
          refine ⟨ordered, ?_, ?_⟩
          · intro number mem
            exact Int.le_trans (past number mem) (Int.le_of_lt (Int.lt_succ _))
          · intro _ number mem
            exact Int.lt_add_one_of_le (past number mem)
      | send intent order pending staged fit =>
          simp only [sentNumbers]
          refine ⟨?_, ?_, by simp⟩
          · rw [List.pairwise_append]
            refine ⟨ordered, List.pairwise_singleton _ _, ?_⟩
            simpa using new staged
          · simpa [or_imp, forall_and] using past

/-- **No two orders are sent under one number.** -/
theorem sentNumbers_nodup (settled : start.staged = false)
    (run : Run (Step fits) start history log) :
    (sentNumbers (start.pending, start.number) history).Nodup := by
  apply (numbered_of_run settled run).ordered.imp
  intro number other less
  exact Int.ne_of_lt less

/-- Since a restart that found a pending intent, the log has recovered, or the intent is still
pending. -/
def Recovering (log : Log ω) (since : List (Event ω κ)) : Prop :=
  Recovers since ∨ log.pending.isSome ∧ log.staged = false ∧
    (log.reconciled = true → .reconciled ∈ since)

theorem Recovering.step {next : Log ω} {since events : List (Event ω κ)}
    (recovering : Recovering log since) (step : Step fits log events next) :
    Recovering next (since ++ events) := by
  rcases recovering with recovers | ⟨pending, unstaged, reconciled⟩
  · exact .inl (recovers.append _)
  · cases step with
    | restart => exact .inr ⟨pending, rfl, by simp⟩
    | reconcile => exact .inr ⟨pending, unstaged, by simp⟩
    | keep => exact .inr ⟨pending, unstaged, by simpa using reconciled⟩
    | clear done => exact .inl (.concat (reconciled done))
    | stage intent nothing reconciled => simp [nothing] at pending
    | send intent order found staged fit => simp [unstaged] at staged

theorem Step.single {events : List (Event ω κ)} {next : Log ω} (step : Step fits log events next) :
    ∃ event, events = [event] := by
  cases step with
  | restart => exact ⟨_, rfl⟩
  | reconcile => exact ⟨_, rfl⟩
  | keep => exact ⟨_, rfl⟩
  | clear => exact ⟨_, rfl⟩
  | stage => exact ⟨_, rfl⟩
  | send => exact ⟨_, rfl⟩

theorem recovering_of_run (run : Run (Step fits) start history log) :
    ∀ before found after, history = before ++ .restarted (some found) :: after →
      Recovering log after := by
  induction run with
  | stay =>
      intro before found after split
      simp at split
  | move run step ih =>
      intro before found after split
      rcases step.single with ⟨event, rfl⟩
      rcases split_concat split with ⟨-, restarted, rfl⟩ | ⟨rest, rfl, within⟩
      · generalize named : [event] = events at step
        rw [← restarted] at named
        cases step with
        | restart =>
            simp only [List.cons.injEq, Event.restarted.injEq, and_true] at named
            exact .inr ⟨by simp [← named], rfl, by simp⟩
        | reconcile => simp at named
        | keep => simp at named
        | clear => simp at named
        | stage => simp at named
        | send => simp at named
      · exact (ih before found rest within).step step

/-- **After a restart that finds a pending intent, nothing is sent before it has recovered.** -/
theorem sent_recovered (run : Run (Step fits) start history log) :
    Justified (fun before event => ∀ order, event = .sent order → ∀ early found late,
      before = early ++ .restarted (some found) :: late → Recovers late) history := by
  refine run.justified ?_
  intro history log events next run step
  right
  rcases step.single with ⟨event, rfl⟩
  refine ⟨event, rfl, ?_⟩
  rintro order rfl early found late split
  rcases recovering_of_run run early found late split with recovers | ⟨-, unstaged, -⟩
  · exact recovers
  · cases step with
    | send intent _ pending staged fit => simp [unstaged] at staged

end

end WriteAhead
