import SumplusTrader.Transition.WriteAhead

/-!
# Orders in flight

This file puts the log of write-ahead intents beside a network. An order is open from the moment
it is sent. The network resolves it at any later time: the order takes effect, fails or is lost.

A pending intent says that its order may be open, but clearing it says nothing about the
network. Under two conditions on the moves nothing is sent while an order of an earlier process
is open: when a process starts, only the order of the pending intent is open, and when a
process reconciles, the order of the pending intent is not.
-/

namespace WriteAhead

/-- A log, and the numbers of the orders that were sent and are not yet resolved. -/
structure Net (ω : Type) where
  log : Log ω
  unresolved : List ℤ

inductive NetEvent (ω κ : Type) where
  | log (event : Event ω κ)
  | resolved (number : ℤ)

variable {ω κ : Type} {fits : ω → ℤ → κ → Prop}

/-- The open orders after an event of the log: an order is sent under the number of the log. -/
def Net.opens (net : Net ω) : Event ω κ → List ℤ
  | .sent _ => net.log.number :: net.unresolved
  | _ => net.unresolved

inductive NetStep (fits : ω → ℤ → κ → Prop) : Net ω → List (NetEvent ω κ) → Net ω → Prop where
  | log (net : Net ω) (event : Event ω κ) (next : Log ω) (step : Step fits net.log [event] next) :
      NetStep fits net [.log event] ⟨next, net.opens event⟩
  | resolve (net : Net ω) (number : ℤ) (mem : number ∈ net.unresolved) :
      NetStep fits net [.resolved number] { net with unresolved := net.unresolved.erase number }

/-- What the log sees. -/
def logEvent : NetEvent ω κ → Option (Event ω κ)
  | .log event => some event
  | _ => none

/-- An open order is the one of the pending intent. -/
def Net.OnlyPending (net : Net ω) : Prop :=
  ∀ number ∈ net.unresolved, net.log.pending.isSome ∧ number = net.log.number

/-- The order of the pending intent is not open. -/
def Net.PendingResolved (net : Net ω) : Prop :=
  net.log.pending.isSome → net.log.number ∉ net.unresolved

/-- The conditions on the moves. -/
def Settles (net : Net ω) : NetEvent ω κ → Prop
  | .log (.restarted _) => net.OnlyPending
  | .log .reconciled => net.PendingResolved
  | _ => True

/-- A move that meets the conditions. -/
def SettlingStep (fits : ω → ℤ → κ → Prop) (net : Net ω) (events : List (NetEvent ω κ))
    (next : Net ω) : Prop :=
  NetStep fits net events next ∧ ∀ event ∈ events, Settles net event

def Restarted (history : List (NetEvent ω κ)) : Prop :=
  ∃ pending, .log (.restarted pending) ∈ history

/-- An order was resolved, and a later reconciliation has seen it. -/
def Absorbed (number : ℤ) (history : List (NetEvent ω κ)) : Prop :=
  ∃ early late, history = early ++ .resolved number :: late ∧ .log .reconciled ∈ late

/-- Since it was sent, an order is open or was resolved. Once there was a restart it is absorbed,
or the process has not reconciled and the order is resolved or still pending. -/
structure Tracked (net : Net ω) (number : ℤ) (since : List (NetEvent ω κ)) : Prop where
  unresolved : number ∈ net.unresolved ∨ .resolved number ∈ since
  restarted : Restarted since → Absorbed number since ∨ net.log.reconciled = false ∧
    (.resolved number ∈ since ∨
      number ∈ net.unresolved ∧ net.log.pending.isSome ∧ number = net.log.number)

section

variable {start net next : Net ω} {number : ℤ} {since history events : List (NetEvent ω κ)}

theorem Absorbed.append (absorbed : Absorbed number since) (later : List (NetEvent ω κ)) :
    Absorbed number (since ++ later) := by
  rcases absorbed with ⟨early, late, rfl, reconciled⟩
  exact ⟨early, late ++ later, by simp, by simp [reconciled]⟩

theorem Absorbed.concat (resolved : .resolved number ∈ since) :
    Absorbed number (since ++ [.log .reconciled]) := by
  rcases List.append_of_mem resolved with ⟨early, late, rfl⟩
  exact ⟨early, late ++ [.log .reconciled], by simp, by simp⟩

theorem restarted_append {event : NetEvent ω κ}
    (other : ∀ pending, event ≠ .log (.restarted pending))
    (restarted : Restarted (since ++ [event])) : Restarted since := by
  rcases restarted with ⟨pending, mem⟩
  rcases List.mem_append.1 mem with earlier | last
  · exact ⟨pending, earlier⟩
  · rw [List.mem_singleton] at last
    exact absurd last.symm (other pending)

/-- A process that has reconciled has absorbed what was sent before it started. -/
theorem Tracked.absorbed (tracked : Tracked net number since)
    (reconciled : net.log.reconciled = true) (restarted : Restarted since) :
    Absorbed number since := by
  rcases tracked.restarted restarted with absorbed | ⟨unreconciled, -⟩
  · exact absorbed
  · simp [reconciled] at unreconciled

theorem mem_opens (open' : number ∈ net.unresolved) (event : Event ω κ) :
    number ∈ net.opens event := by
  cases event with
  | sent order => exact List.mem_cons_of_mem _ open'
  | _ => exact open'

theorem Tracked.logStep {event : Event ω κ} {log : Log ω} (tracked : Tracked net number since)
    (trusted : net.log.staged = true → net.log.reconciled = true)
    (step : Step fits net.log [event] log) (settles : Settles net (.log event)) :
    Tracked ⟨log, net.opens event⟩ number (since ++ [.log event]) := by
  refine ⟨?_, ?_⟩
  · rcases tracked.unresolved with open' | resolved
    · exact .inl (mem_opens open' event)
    · exact .inr (by simp [resolved])
  intro restarted
  generalize named : [event] = events at step
  cases step with
  | restart =>
      simp only [List.cons.injEq, and_true] at named
      subst named
      refine .inr ⟨rfl, ?_⟩
      rcases tracked.unresolved with open' | resolved
      · exact .inr ⟨open', settles number open'⟩
      · exact .inl (by simp [resolved])
  | reconcile =>
      simp only [List.cons.injEq, and_true] at named
      subst named
      left
      rcases tracked.restarted (restarted_append (by simp) restarted) with absorbed |
        ⟨-, resolved | ⟨open', pending, rfl⟩⟩
      · exact absorbed.append _
      · exact .concat resolved
      · exact absurd open' (settles pending)
  | keep =>
      simp only [List.cons.injEq, and_true] at named
      subst named
      rcases tracked.restarted (restarted_append (by simp) restarted) with absorbed |
        ⟨unreconciled, resolved | pending⟩
      · exact .inl (absorbed.append _)
      · exact .inr ⟨unreconciled, .inl (by simp [resolved])⟩
      · exact .inr ⟨unreconciled, .inr pending⟩
  | clear reconciled =>
      simp only [List.cons.injEq, and_true] at named
      subst named
      exact .inl ((tracked.absorbed reconciled (restarted_append (by simp) restarted)).append _)
  | stage intent nothing reconciled =>
      simp only [List.cons.injEq, and_true] at named
      subst named
      exact .inl ((tracked.absorbed reconciled (restarted_append (by simp) restarted)).append _)
  | send intent order pending staged fit =>
      simp only [List.cons.injEq, and_true] at named
      subst named
      exact .inl ((tracked.absorbed (trusted staged)
        (restarted_append (by simp) restarted)).append _)

theorem Tracked.step (tracked : Tracked net number since)
    (trusted : net.log.staged = true → net.log.reconciled = true)
    (moved : SettlingStep fits net events next) : Tracked next number (since ++ events) := by
  rcases moved with ⟨step, settles⟩
  cases step with
  | log event log step => exact tracked.logStep trusted step (settles _ (by simp))
  | resolve other mem =>
      have erased : number ∈ net.unresolved → number ∈ net.unresolved.erase other ∨
          .resolved number ∈ since ++ [.resolved other] := by
        intro open'
        by_cases same : number = other
        · exact .inr (by simp [same])
        · exact .inl ((List.mem_erase_of_ne same).2 open')
      refine ⟨?_, ?_⟩
      · rcases tracked.unresolved with open' | resolved
        · exact erased open'
        · exact .inr (by simp [resolved])
      · intro restarted
        rcases tracked.restarted (restarted_append (by simp) restarted) with absorbed |
          ⟨unreconciled, resolved | ⟨open', pending⟩⟩
        · exact .inl (absorbed.append _)
        · exact .inr ⟨unreconciled, .inl (by simp [resolved])⟩
        · rcases erased open' with still | resolved
          · exact .inr ⟨unreconciled, .inr ⟨still, pending⟩⟩
          · exact .inr ⟨unreconciled, .inl resolved⟩

theorem NetStep.single (step : NetStep fits net events next) : ∃ event, events = [event] := by
  cases step with
  | log => exact ⟨_, rfl⟩
  | resolve => exact ⟨_, rfl⟩

/-- The network leaves the log alone. -/
theorem log_run (run : Run (NetStep fits) start history net) :
    Run (Step fits) start.log (history.filterMap logEvent) net.log := by
  have matched : ∀ (net : Net ω) events (next : Net ω) log, net.log = log →
      NetStep fits net events next →
        ∃ log', Run (Step fits) log (events.filterMap logEvent) log' ∧ next.log = log' := by
    rintro net events next log rfl step
    cases step with
    | log event log step => exact ⟨log, .single step, rfl⟩
    | resolve => exact ⟨net.log, .stay, rfl⟩
  rcases Run.refines (fun net log => net.log = log) rfl matched run with ⟨log, logRun, rfl⟩
  exact logRun

/-- An intent is staged only by a process that has reconciled. -/
theorem staged_reconciled (settled : start.log.staged = false)
    (run : Run (NetStep fits) start history net) :
    net.log.staged = true → net.log.reconciled = true := by
  refine Run.invariant (fun _ net => net.log.staged = true → net.log.reconciled = true)
    (by simp [settled]) ?_ run
  intro history net events next trusted step
  cases step with
  | log event log step =>
      cases step with
      | restart => simp
      | reconcile => simp
      | keep => exact trusted
      | clear reconciled => simp
      | stage intent nothing reconciled => simp [reconciled]
      | send => simp
  | resolve => exact trusted

/-- The number of an order that is sent after a history. -/
def numberAfter (start : Net ω) (history : List (NetEvent ω κ)) : ℤ :=
  (lastWrite (start.log.pending, start.log.number) (history.filterMap logEvent)).2

theorem number_of_run (run : Run (NetStep fits) start history net) :
    net.log.number = numberAfter start history := by
  unfold numberAfter
  rw [lastWrite_of_run (log_run run)]

/-- An order is tracked from the move that sends it. -/
theorem tracked_of_send {order : κ} (moved : NetStep fits net [.log (.sent order)] next) :
    Tracked next net.log.number ([] : List (NetEvent ω κ)) := by
  cases moved with
  | log event log step =>
      exact ⟨.inl List.mem_cons_self, fun restarted => by simp [Restarted] at restarted⟩

theorem tracked_of_run (settled : start.log.staged = false)
    (run : Run (SettlingStep fits) start history net) :
    ∀ early order late, history = early ++ .log (.sent order) :: late →
      Tracked net (numberAfter start early) late := by
  induction run with
  | stay =>
      intro early order late split
      simp at split
  | move run moved ih =>
      have netRun := run.mono fun _ _ _ moved => moved.1
      intro early order late split
      rcases moved.1.single with ⟨event, rfl⟩
      rcases split_concat split with ⟨rfl, rfl, rfl⟩ | ⟨rest, rfl, within⟩
      · rw [← number_of_run netRun]
        exact tracked_of_send moved.1
      · exact (ih early order rest within).step (staged_reconciled settled netRun) moved

/-- **Nothing is sent while an order of an earlier process is open**, when all moves meet the
conditions. -/
theorem sent_absorbed (settled : start.log.staged = false)
    (run : Run (SettlingStep fits) start history net) :
    Justified (fun before event => ∀ order, event = .log (.sent order) →
      ∀ early other late, before = early ++ .log (.sent other) :: late → Restarted late →
        Absorbed (numberAfter start early) late) history := by
  refine run.justified ?_
  intro history net events next run moved
  right
  rcases moved.1.single with ⟨event, rfl⟩
  refine ⟨event, rfl, ?_⟩
  rintro order rfl early other late split restarted
  have trusted := staged_reconciled settled (run.mono fun _ _ _ moved => moved.1)
  have tracked := tracked_of_run settled run early other late split
  rcases moved with ⟨step, -⟩
  cases step with
  | log event log step =>
      cases step with
      | send intent order pending staged fit =>
          exact tracked.absorbed (trusted staged) restarted

end

end WriteAhead
