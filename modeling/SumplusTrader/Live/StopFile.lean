import SumplusTrader.Live.Intents

/-!
# The STOP file across invocations

The process drops the STOP file when it ends, and its loop and its watchdog end when they find
it. But an invocation removes the file before anything tests it.

This file states the law that a stop lasts until an operator deletes the file: one that the
operator made, or that the process made when its watchdog gave up. `stop_respected` proves it of
the runs in which the process is only invoked when there is no STOP file; the other invocations
remove a file that somebody made.
-/

namespace SumplusTrader

namespace Live

/-- The trading is to stop until an operator deletes the STOP file. -/
def Latches : Happening → Prop
  | .stopCreated => True
  | .ended gaveUp => gaveUp = true
  | _ => False

/-- A later invocation does not execute a tick before an operator has deleted the STOP file. -/
def StopRespected (history : List Happening) : Prop :=
  Justified (fun before event => event = .did .ticked →
    ∀ early latch late, before = early ++ latch :: late → Latches latch →
      .invoked ∈ late → .stopDeleted ∈ late) history

/-- The process is only invoked when there is no STOP file. -/
def stopAbsent (live : Live) : Action → Bool
  | .invoke => !live.stop
  | _ => true

/-- A stop that no operator has taken back is on disk, and nothing was invoked since. -/
def Latched (history : List Happening) (live : Live) : Prop :=
  ∀ early latch late, history = early ++ latch :: late → Latches latch → .stopDeleted ∉ late →
    live.stop = true ∧ .invoked ∉ late

section

variable {live next last : Live} {action : Action} {events history : List Happening}
  {happening : Happening}

theorem stop_of_latch (move : Move live action [happening] next) (latch : Latches happening) :
    next.stop = true := by
  cases move with
  | stopCreated => rfl
  | ended gaveUp => rfl
  | _ => exact latch.elim

theorem stop_of_quiet (move : Move live action [] next) : next.stop = live.stop := by
  cases move <;> rfl

/-- A STOP file stays until an operator deletes it. -/
theorem stop_of_move (move : Move live action [happening] next)
    (permitted : stopAbsent live action = true) (stop : live.stop = true)
    (kept : happening ≠ .stopDeleted) : next.stop = true ∧ happening ≠ .invoked := by
  cases move with
  | stopCreated => exact ⟨rfl, by simp⟩
  | stopDeleted => exact absurd rfl kept
  | invoked idle => simp [stopAbsent, stop] at permitted
  | restarted deployment restarts setup state absent => simp [stop] at absent
  | did restarts setup event =>
      refine ⟨?_, by simp⟩
      cases event <;> exact stop
  | ended gaveUp => exact ⟨rfl, by simp⟩
  | accepted number => exact ⟨stop, by simp⟩
  | resolved number => exact ⟨stop, by simp⟩
  | lost number => exact ⟨stop, by simp⟩

theorem latched_move (latched : Latched history live) (move : Move live action events next)
    (permitted : stopAbsent live action = true) : Latched (history ++ events) next := by
  rcases move.single with rfl | ⟨happening, rfl⟩
  · rw [List.append_nil]
    intro early latch late split latches kept
    rw [stop_of_quiet move]
    exact latched early latch late split latches kept
  · intro early latch late split latches kept
    rcases split_concat split with ⟨-, rfl, rfl⟩ | ⟨rest, rfl, within⟩
    · exact ⟨stop_of_latch move latches, by simp⟩
    · simp only [List.mem_append, List.mem_singleton, not_or] at kept
      rcases latched early latch rest within latches kept.1 with ⟨stop, notInvoked⟩
      rcases stop_of_move move permitted stop (Ne.symm kept.2) with ⟨stop', notInvoked'⟩
      refine ⟨stop', ?_⟩
      simp only [List.mem_append, List.mem_singleton, not_or]
      exact ⟨notInvoked, Ne.symm notInvoked'⟩

theorem latched_run (run : Run (movesOf step stopAbsent) live history last) :
    Latched history last := by
  refine run.invariant Latched ?_ ?_
  · intro early latch late split
    simp at split
  · rintro history live events next latched ⟨action, permitted, stepped⟩
    exact latched_move latched (move_of_step stepped) permitted

end

/-- **A stop lasts until an operator deletes the STOP file**, in a run where the process is only
invoked when there is none. -/
theorem stop_respected (live last : Live) (history : List Happening)
    (run : Run (movesOf step stopAbsent) live history last) : StopRespected history := by
  refine run.justified ?_
  rintro history live events next run ⟨action, -, stepped⟩
  rcases (move_of_step stepped).single with rfl | ⟨event, rfl⟩
  · exact .inl rfl
  · refine .inr ⟨event, rfl, ?_⟩
    intro _ early latch late split latches invoked
    by_contra kept
    exact (latched_run run early latch late split latches kept).2 invoked

/-- An operator stops the process before it runs, and takes the stop back. -/
def resumedStop : List Action :=
  [.createStop, .deleteStop, .invoke, .supervise injectiveDeployment none, .iterate entryIteration,
    .perform, .perform]

def resumedWords : List Word :=
  [.stopCreated, .stopDeleted, .invoked, .restarted false, .reconciled, .ticked]

theorem stop_respected_resumedStop : ∃ history : List Happening,
    history.map word = resumedWords ∧ StopRespected history := by
  have traced : words stopAbsent resumedStop = some resumedWords := by
    decide +kernel
  rcases run_of_words traced with ⟨last, history, told, run⟩
  exact ⟨history, told, stop_respected idleSystem last history run⟩

/-- A start of the loop that crashes on its first market. -/
def crash : List Action :=
  [.supervise injectiveDeployment none, .iterate { entryIteration with market := .error .osError },
    .finish]

/-- The watchdog gives up, and the process is invoked again. -/
def gaveUpOrder : List Action :=
  [.invoke] ++ crash ++ crash ++ crash ++ crash ++ [.close, .invoke,
    .supervise injectiveDeployment none, .iterate entryIteration, .perform, .perform]

def gaveUpWords : List Word :=
  [.invoked, .restarted false, .restarted false, .restarted false, .restarted false, .ended true,
    .invoked, .restarted false, .reconciled, .ticked]

/-- The operator stops the process before it is invoked. -/
def stoppedOrder : List Action :=
  [.createStop, .invoke, .supervise injectiveDeployment none, .iterate entryIteration, .perform,
    .perform]

def stoppedWords : List Word :=
  [.stopCreated, .invoked, .restarted false, .reconciled, .ticked]

theorem not_stopRespected_of_words {history : List Happening} (before : List Word)
    (latch : Word) (after : List Word) (told : history.map word = (before ++ latch :: after) ++ [.ticked])
    (latches : ∀ happening, Says latch happening → Latches happening)
    (invoked : Word.invoked ∈ after) (kept : Word.stopDeleted ∉ after) :
    ¬StopRespected history := by
  rcases split_of_words told with ⟨early, ticked, late, rfl, told', rfl, -⟩
  rcases split_of_words told' with ⟨first, stop, rest, rfl, -, said, rfl⟩
  rcases says_of_mem invoked with ⟨_, mem, rfl⟩
  intro respected
  have deleted := respected _ _ _ rfl rfl first stop rest rfl (latches stop said) mem
  exact kept (List.mem_map.2 ⟨_, deleted, rfl⟩)

/-- An invocation resumes trading after the watchdog gave up, and after an operator made the STOP
file. -/
theorem invocation_resumes_trading :
    (∃ last history, Run (movesOf step reconciling) idleSystem history last ∧
      history.map word = gaveUpWords ∧ ¬StopRespected history) ∧
    (∃ last history, Run (movesOf step reconciling) idleSystem history last ∧
      history.map word = stoppedWords ∧ ¬StopRespected history) := by
  constructor
  · have traced : words reconciling gaveUpOrder = some gaveUpWords := by
      decide +kernel
    rcases run_of_words traced with ⟨last, history, told, run⟩
    refine ⟨last, history, run, told, ?_⟩
    apply not_stopRespected_of_words (gaveUpWords.take 5) (.ended true)
      [.invoked, .restarted false, .reconciled]
    · exact told
    · rintro happening rfl
      rfl
    · decide
    · decide
  · have traced : words reconciling stoppedOrder = some stoppedWords := by
      decide +kernel
    rcases run_of_words traced with ⟨last, history, told, run⟩
    refine ⟨last, history, run, told, ?_⟩
    apply not_stopRespected_of_words [] .stopCreated [.invoked, .restarted false, .reconciled]
    · exact told
    · rintro happening rfl
      trivial
    · decide
    · decide

end Live

end SumplusTrader
