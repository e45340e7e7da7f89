import SumplusTrader.Live.Intents

/-!
# The heartbeat of the live loop

This file adds a clock and the heartbeat file to the live process. The watchdog
writes the heartbeat before it starts the loop, and after the loop has returned,
crashed or been cancelled; the loop itself never writes it. While ticks complete
inside of one start, the heartbeat therefore stays at the reading that the watchdog
took before the start.

A heartbeat is fresh when it is not older than the begin of the tick that completed
last. In a run this holds throughout exactly when each tick that completes has begun
at the reading of the watchdog (`heartbeat_fresh_iff`). A start that fails in its
setup is taken to fail at once.
-/

namespace SumplusTrader

/-- The live system with a clock and the heartbeat file. The remaining fields record the
reading of the watchdog before the last start, the begin of the last tick, and that of a tick
that has completed with no other begun since. -/
structure Timed where
  live : Live
  clock : ℚ
  heartbeat : Option ℚ
  watchedAt : ℚ
  began : ℚ
  completed : Option ℚ

/-- Time passes, or something happens in no time. -/
inductive TimedAction where
  | pass (elapsed : ℚ)
  | act (action : Action)

namespace Timed

/-- The watchdog starts the loop. -/
def starts (live : Live) : Action → Bool
  | .supervise _ _ => !live.stop
  | _ => false

/-- The loop begins a tick. -/
def begins (live : Live) : Action → Bool
  | .iterate _ => !live.stop
  | _ => false

/-- A tick of the loop completes. -/
def completes (live : Live) : Action → Bool
  | .finish =>
      match live.process with
      | .iterating _ _ _ (.ok _) => true
      | _ => false
  | _ => false

/-- The watchdog writes the heartbeat. A cancellation while it waits for a restart is not
caught. -/
def beats (live : Live) : Action → Bool
  | .supervise _ _ => !live.stop
  | .iterate _ => live.stop
  | .finish =>
      match live.process with
      | .iterating _ _ _ (.error _) => true
      | _ => false
  | .interrupt => true
  | .cancel =>
      match live.process with
      | .watching _ => false
      | _ => true
  | _ => false

/-- The system after an action that leads the live system to another state. -/
def after (timed : Timed) (action : Action) (next : Live) : Timed where
  live := next
  clock := timed.clock
  heartbeat := if beats timed.live action then some timed.clock else timed.heartbeat
  watchedAt := if starts timed.live action then timed.clock else timed.watchedAt
  began := if begins timed.live action then timed.clock else timed.began
  completed :=
    if begins timed.live action then none
    else if completes timed.live action then some timed.began
    else timed.completed

def step (timed : Timed) : TimedAction → Option Timed
  | .pass elapsed =>
      if 0 ≤ elapsed then some { timed with clock := timed.clock + elapsed } else none
  | .act action => (timed.live.step action).map fun moved => timed.after action moved.1

def run (timed : Timed) (actions : List TimedAction) : Option Timed := actions.foldlM step timed

/-- A system whose process is not running. -/
structure Initial (timed : Timed) : Prop where
  idle : timed.live.process = .idle
  completed : timed.completed = none

/-- The heartbeat is not older than the begin of the tick that completed last, and it is not
reported as stale for any age that covers the time since then. -/
def Fresh (timed : Timed) : Prop :=
  ∀ began, timed.completed = some began →
    (∃ ts, timed.heartbeat = some ts ∧ began ≤ ts) ∧
      ∀ maxAgeS, timed.clock - began ≤ maxAgeS →
        Watchdog.isStale timed.heartbeat timed.clock maxAgeS = false

/-- If a tick completes, it has begun at the reading of the watchdog before the start. -/
def Punctual (timed : Timed) : TimedAction → Prop
  | .pass _ => True
  | .act action => completes timed.live action → timed.began = timed.watchedAt

/-- While the loop runs, the heartbeat is the reading of the watchdog before the start. -/
structure Watched (timed : Timed) : Prop where
  heartbeat : ¬Live.Outside timed.live.process →
    timed.heartbeat = some timed.watchedAt ∧ timed.watchedAt ≤ timed.clock
  ticking : ∀ restarts setup todo outcome,
    timed.live.process = .iterating restarts setup todo outcome →
      timed.watchedAt ≤ timed.began ∧ timed.began ≤ timed.clock
  completed : ∀ began, timed.completed = some began → began ≤ timed.clock

variable {timed next start last : Timed} {action : Action} {live : Live}
  {events : List Happening} {actions before : List TimedAction}

theorem fresh_iff : Fresh timed ↔
    ∀ began, timed.completed = some began → ∃ ts, timed.heartbeat = some ts ∧ began ≤ ts := by
  refine forall₂_congr fun began completed => and_iff_left_of_imp ?_
  rintro ⟨ts, heartbeat, young⟩ maxAgeS covers
  rw [heartbeat]
  exact decide_eq_false (by linarith)

theorem inside_of_looping {restarts : ℕ} {setup : LoopSetup} {state : State}
    (looping : timed.live.process = .looping restarts setup state) :
    ¬Live.Outside timed.live.process := by
  rw [looping]
  exact id

theorem inside_of_iterating {restarts : ℕ} {setup : LoopSetup} {todo : List LiveEvent}
    {outcome : Except PyError State}
    (iterating : timed.live.process = .iterating restarts setup todo outcome) :
    ¬Live.Outside timed.live.process := by
  rw [iterating]
  exact id

theorem completes_cases (done : completes timed.live action) :
    action = .finish ∧ ∃ restarts setup todo state,
      timed.live.process = .iterating restarts setup todo (.ok state) := by
  unfold completes at done
  split at done
  · refine ⟨rfl, ?_⟩
    split at done
    · next restarts setup todo state iterating => exact ⟨restarts, setup, todo, state, iterating⟩
    · cases done
  · cases done

/-- When a tick completes, the heartbeat is left as it is. -/
theorem after_of_completes (watched : Watched timed) (done : completes timed.live action)
    (live : Live) :
    (timed.after action live).completed = some timed.began ∧
      (timed.after action live).heartbeat = some timed.watchedAt ∧
        timed.watchedAt ≤ timed.began := by
  rcases completes_cases done with ⟨rfl, restarts, setup, todo, state, iterating⟩
  have quiet : beats timed.live .finish = false := by simp [beats, iterating]
  refine ⟨?_, ?_, (watched.ticking _ _ _ _ iterating).1⟩
  · simp [after, begins, done]
  · simp [after, quiet, (watched.heartbeat (inside_of_iterating iterating)).1]

/-- When no tick completes, what is recorded of ticks is kept or dropped, and the heartbeat is
kept or written. -/
theorem after_of_not_completes (going : completes timed.live action = false) (live : Live) :
    ((timed.after action live).completed = none ∨
      (timed.after action live).completed = timed.completed) ∧
      ((timed.after action live).heartbeat = timed.heartbeat ∨
        (timed.after action live).heartbeat = some timed.clock) := by
  simp only [after, going]
  refine ⟨?_, ?_⟩
  · split
    · exact .inl rfl
    · exact .inr rfl
  · split
    · exact .inr rfl
    · exact .inl rfl

theorem completed_le_after (watched : Watched timed) (live : Live) {began : ℚ}
    (completed : (timed.after action live).completed = some began) : began ≤ timed.clock := by
  cases done : completes timed.live action with
  | true =>
      rcases completes_cases done with ⟨-, restarts, setup, todo, state, iterating⟩
      rw [(after_of_completes watched done live).1, Option.some.injEq] at completed
      rw [← completed]
      exact (watched.ticking _ _ _ _ iterating).2
  | false =>
      rcases (after_of_not_completes done live).1 with none | same
      · rw [none] at completed
        cases completed
      · exact watched.completed began (same ▸ completed)

/-- While the loop runs, an action leaves the heartbeat as the watchdog wrote it. -/
theorem heartbeat_after (watched : Watched timed) (move : Live.Move timed.live action events live)
    (inside : ¬Live.Outside live.process) :
    (timed.after action live).heartbeat = some (timed.after action live).watchedAt ∧
      (timed.after action live).watchedAt ≤ timed.clock := by
  cases move with
  | invoked => exact absurd trivial inside
  | restarted deployment restarts setup state absent => simp [after, beats, starts, absent]
  | began input restarts setup state absent looping =>
      simpa [after, beats, starts, absent] using watched.heartbeat (inside_of_looping looping)
  | did restarts setup event todo outcome iterating =>
      exact watched.heartbeat (inside_of_iterating iterating)
  | finished restarts setup state iterating =>
      simpa [after, beats, starts, iterating] using
        watched.heartbeat (inside_of_iterating iterating)
  | left action process outside => exact absurd outside inside
  | ended => exact absurd trivial inside
  | _ => exact watched.heartbeat inside

/-- A tick begins after the watchdog has written, and no later than now. -/
theorem ticking_after (watched : Watched timed) (move : Live.Move timed.live action events live)
    {restarts : ℕ} {setup : LoopSetup} {todo : List LiveEvent} {outcome : Except PyError State}
    (iterating : live.process = .iterating restarts setup todo outcome) :
    (timed.after action live).watchedAt ≤ (timed.after action live).began ∧
      (timed.after action live).began ≤ timed.clock := by
  cases move with
  | began input restarts setup state absent looping =>
      have started := (watched.heartbeat (inside_of_looping looping)).2
      simpa [after, begins, starts, absent] using started
  | did restarts setup event todo outcome earlier =>
      exact watched.ticking restarts setup (event :: todo) outcome earlier
  | left action process outside =>
      have within : process = .iterating restarts setup todo outcome := iterating
      rw [within] at outside
      exact outside.elim
  | stopCreated => exact watched.ticking _ _ _ _ iterating
  | stopDeleted => exact watched.ticking _ _ _ _ iterating
  | accepted => exact watched.ticking _ _ _ _ iterating
  | resolved => exact watched.ticking _ _ _ _ iterating
  | lost => exact watched.ticking _ _ _ _ iterating
  | _ => cases iterating

theorem watched_after (watched : Watched timed) (move : Live.Move timed.live action events live) :
    Watched (timed.after action live) where
  heartbeat := heartbeat_after watched move
  ticking _ _ _ _ := ticking_after watched move
  completed _ := completed_le_after watched live

theorem watched_pass (watched : Watched timed) {elapsed : ℚ} (nonneg : 0 ≤ elapsed) :
    Watched { timed with clock := timed.clock + elapsed } where
  heartbeat := by
    intro looping
    rcases watched.heartbeat looping with ⟨heartbeat, started⟩
    exact ⟨heartbeat, started.trans (le_add_of_nonneg_right nonneg)⟩
  ticking := by
    intro restarts setup todo outcome iterating
    rcases watched.ticking restarts setup todo outcome iterating with ⟨started, began⟩
    exact ⟨started, began.trans (le_add_of_nonneg_right nonneg)⟩
  completed := by
    intro began completed
    exact (watched.completed began completed).trans (le_add_of_nonneg_right nonneg)

theorem pass_cases {elapsed : ℚ} (stepped : timed.step (.pass elapsed) = some next) :
    0 ≤ elapsed ∧ next = { timed with clock := timed.clock + elapsed } := by
  rw [step, Option.ite_none_right_eq_some, Option.some.injEq] at stepped
  exact ⟨stepped.1, stepped.2.symm⟩

theorem watched_step {action : TimedAction} (watched : Watched timed)
    (stepped : timed.step action = some next) : Watched next := by
  cases action with
  | pass elapsed =>
      rcases pass_cases stepped with ⟨nonneg, rfl⟩
      exact watched_pass watched nonneg
  | act action =>
      rcases Option.map_eq_some_iff.1 stepped with ⟨⟨live, events⟩, moved, rfl⟩
      exact watched_after watched (Live.move_of_step moved)

/-- A step keeps the heartbeat fresh if it is punctual. -/
theorem fresh_step {action : TimedAction} (watched : Watched timed) (fresh : Fresh timed)
    (punctual : Punctual timed action) (stepped : timed.step action = some next) : Fresh next := by
  rw [fresh_iff] at fresh ⊢
  cases action with
  | pass elapsed =>
      rcases pass_cases stepped with ⟨-, rfl⟩
      exact fresh
  | act action =>
      rcases Option.map_eq_some_iff.1 stepped with ⟨⟨live, events⟩, -, rfl⟩
      intro began completed
      have past := completed_le_after watched live completed
      cases done : completes timed.live action with
      | true =>
          rcases after_of_completes watched done live with ⟨completed', heartbeat, -⟩
          rw [completed', Option.some.injEq] at completed
          exact ⟨timed.watchedAt, heartbeat, completed ▸ (punctual done).le⟩
      | false =>
          rcases after_of_not_completes done live with ⟨none | same, kept | written⟩
          · rw [none] at completed
            cases completed
          · rw [none] at completed
            cases completed
          · rw [kept]
            exact fresh began (same ▸ completed)
          · exact ⟨timed.clock, written, past⟩

/-- A completing step that leaves the heartbeat fresh is punctual. -/
theorem punctual_of_fresh {action : TimedAction} (watched : Watched timed)
    (stepped : timed.step action = some next) (fresh : Fresh next) : Punctual timed action := by
  cases action with
  | pass elapsed => trivial
  | act action =>
      rcases Option.map_eq_some_iff.1 stepped with ⟨⟨live, events⟩, -, rfl⟩
      intro done
      rcases after_of_completes watched done live with ⟨completed, heartbeat, started⟩
      rcases fresh_iff.1 fresh timed.began completed with ⟨ts, written, young⟩
      rw [heartbeat, Option.some.injEq] at written
      exact le_antisymm (written ▸ young) started

theorem run_concat (start : Timed) (actions : List TimedAction) (action : TimedAction) :
    run start (actions ++ [action]) = (run start actions).bind fun timed => timed.step action := by
  simp [run, List.foldlM_append]

theorem run_of_prefix (ran : run start actions = some last) (part : before <+: actions) :
    ∃ timed, run start before = some timed := by
  rcases part with ⟨rest, rfl⟩
  rw [run, List.foldlM_append] at ran
  rcases Option.bind_eq_some_iff.1 ran with ⟨timed, ran, -⟩
  exact ⟨timed, ran⟩

theorem watched_initial (initial : Initial start) : Watched start where
  heartbeat := by
    intro looping
    rw [initial.idle] at looping
    exact absurd trivial looping
  ticking := by
    intro restarts setup todo outcome iterating
    rw [initial.idle] at iterating
    cases iterating
  completed := by
    intro began completed
    rw [initial.completed] at completed
    cases completed

theorem watched_run (initial : Initial start) (ran : run start actions = some last) :
    Watched last := by
  induction actions using List.reverseRecOn generalizing last with
  | nil =>
      cases ran
      exact watched_initial initial
  | append_singleton actions action ih =>
      rw [run_concat] at ran
      rcases Option.bind_eq_some_iff.1 ran with ⟨timed, ran, stepped⟩
      exact watched_step (ih ran) stepped

theorem fresh_run (initial : Initial start) (ran : run start actions = some last)
    (punctual : ∀ before action timed, before ++ [action] <+: actions →
      run start before = some timed → Punctual timed action) : Fresh last := by
  induction actions using List.reverseRecOn generalizing last with
  | nil =>
      cases ran
      intro began completed
      rw [initial.completed] at completed
      cases completed
  | append_singleton actions action ih =>
      rw [run_concat] at ran
      rcases Option.bind_eq_some_iff.1 ran with ⟨timed, ran, stepped⟩
      have earlier := ih ran fun before action timed part =>
        punctual before action timed (part.trans (List.prefix_append _ _))
      exact fresh_step (watched_run initial ran) earlier
        (punctual actions action timed List.prefix_rfl ran) stepped

/-- **The heartbeat is fresh throughout a run** exactly when every tick that completes in it
has begun at the reading that the watchdog took before it started the loop. -/
theorem heartbeat_fresh_iff (start last : Timed) (actions : List TimedAction)
    (initial : Initial start) (ran : run start actions = some last) :
    (∀ before timed, before <+: actions → run start before = some timed → Fresh timed) ↔
      ∀ before action timed, before ++ [action] <+: actions → run start before = some timed →
        Punctual timed action := by
  constructor
  · intro fresh before action timed part ranBefore
    rcases run_of_prefix ran part with ⟨next, ranNext⟩
    have stepped := ranNext
    rw [run_concat, ranBefore, Option.bind_some] at stepped
    exact punctual_of_fresh (watched_run initial ranBefore) stepped
      (fresh (before ++ [action]) next part ranNext)
  · intro punctual before timed part ranBefore
    exact fresh_run initial ranBefore fun earlier action timed' part' =>
      punctual earlier action timed' (part'.trans part)

/-- An iteration that cannot read the balances, and holds. -/
def heldIteration : IterationInput :=
  { Live.entryIteration with
    services := { Live.hundredServices with
      chain := { ExitSetting.executingChain with
        subaccountBalance := fun _ _ => .error .osError } } }

/-- A tick of ten seconds. -/
def heldTick : List TimedAction :=
  [.act (.iterate heldIteration), .act .perform, .pass 10, .act .finish]

def twoTicks : List TimedAction :=
  [.act .invoke, .act (.supervise Live.injectiveDeployment none)] ++ heldTick ++ [.pass 1800] ++
    heldTick

def idleTimed : Timed := ⟨Live.idleSystem, 0, none, 0, 0, none⟩

theorem heartbeat_fresh_iff_twoTicks : ∃ last, run idleTimed twoTicks = some last ∧
    ((∀ before timed, before <+: twoTicks → run idleTimed before = some timed → Fresh timed) ↔
      ∀ before action timed, before ++ [action] <+: twoTicks →
        run idleTimed before = some timed → Punctual timed action) := by
  have runs : (run idleTimed twoTicks).isSome := by
    decide +kernel
  rcases Option.isSome_iff_exists.1 runs with ⟨last, ran⟩
  exact ⟨last, ran, heartbeat_fresh_iff idleTimed last twoTicks ⟨rfl, rfl⟩ ran⟩

/-- After its second tick the loop is reported as stale, for an age of one interval and one
tick. -/
theorem second_tick_stale :
    (run idleTimed twoTicks).map (fun timed => (timed.completed, timed.heartbeat,
      Watchdog.isStale timed.heartbeat timed.clock (1800 + 10))) =
        some (some 1810, some 0, true) := by
  decide +kernel

end Timed

end SumplusTrader
