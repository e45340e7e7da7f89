import SumplusTrader.Live.Loop
import SumplusTrader.Ops.Watchdog
import SumplusTrader.Transition.Run

/-!
# The live process

This file models `run` of `agent/run_live.py`, with the watchdog that restarts its loop, as a
transition system over the STOP file, the snapshot on disk and the process. An operator may
create and delete the STOP file at any time. The process may die between any two effects; an
exception or a cancellation may stop an iteration at the same places.

An order that is sent is offered to the network, under the number that the snapshot on disk
carries at that time. The network may accept what it was offered, and resolves it later: the
order settles into the balances, or fails. An order that it does not accept may be lost.
-/

namespace SumplusTrader

/-- Where the process is. The watchdog has counted its restarts; the loop has its variables and
its state; an iteration has effects to perform before it ends. -/
inductive Process where
  | idle
  | watching (restarts : ℕ)
  | looping (restarts : ℕ) (setup : LoopSetup) (state : State)
  | iterating (restarts : ℕ) (setup : LoopSetup) (todo : List LiveEvent)
      (outcome : Except PyError State)
  | ending (gaveUp : Bool)

structure Live where
  stop : Bool
  disk : Option State
  offered : List ℤ
  inFlight : List ℤ
  process : Process

/-- What is noted of a run. -/
inductive Happening where
  | stopCreated
  | stopDeleted
  | invoked
  | restarted (found : State)
  | did (event : LiveEvent)
  | ended (gaveUp : Bool)
  | accepted (number : ℤ)
  | resolved (number : ℤ)

/-- The actions of the operator, the process and the network. `supervise` is a round of the
watchdog, whose load of the snapshot may raise; `close` is the clause of `run` that drops the
STOP file. -/
inductive Action where
  | createStop
  | deleteStop
  | invoke
  | supervise (deployment : Deployment) (unreadable : Option PyError)
  | iterate (input : IterationInput)
  | perform
  | finish
  | interrupt
  | cancel
  | close
  | die
  | accept (number : ℤ)
  | resolve (number : ℤ)

namespace Live

/-- The system with its process elsewhere. -/
def goesTo (live : Live) (process : Process) : Live := { live with process := process }

/-- The watchdog after a crash of the loop. -/
def crashed (live : Live) (restarts : ℕ) : Process :=
  if Watchdog.live.maxRestarts < restarts + 1 then .ending true
  else if live.stop then .ending false
  else .watching (restarts + 1)

/-- A round of the watchdog: it tests the STOP file and starts the loop. -/
def supervise (live : Live) (deployment : Deployment) (unreadable : Option PyError) :
    Option (Live × List Happening) :=
  match live.process with
  | .watching restarts =>
      if live.stop then some (live.goesTo (.ending false), [])
      else
        match unreadable, start deployment live.disk with
        | none, .ok (setup, state) =>
            some (live.goesTo (.looping restarts setup state),
              [.restarted (PersistentState.load live.disk)])
        | _, _ => some (live.goesTo (live.crashed restarts), [])
  | _ => none

/-- The loop tests the STOP file and begins an iteration. -/
def iterate (live : Live) (input : IterationInput) : Option (Live × List Happening) :=
  match live.process with
  | .looping restarts setup state =>
      if live.stop then some (live.goesTo (.ending false), [])
      else
        let done := iteration setup input state
        some (live.goesTo (.iterating restarts setup done.1 done.2), [])
  | _ => none

/-- What an effect does to the disk and the network. -/
def effect (live : Live) : LiveEvent → Live
  | .wrote state => { live with disk := PersistentState.write state }
  | .sent _ _ _ =>
      { live with offered := (PersistentState.load live.disk).intentSeq :: live.offered }
  | .reconciled _ => live
  | .ticked => live

/-- Performs the next effect of an iteration. -/
def perform (live : Live) : Option (Live × List Happening) :=
  match live.process with
  | .iterating restarts setup (event :: todo) outcome =>
      some ((live.effect event).goesTo (.iterating restarts setup todo outcome), [.did event])
  | _ => none

/-- Ends an iteration that has performed its effects. -/
def finish (live : Live) : Option (Live × List Happening) :=
  match live.process with
  | .iterating restarts setup [] (.ok state) =>
      some (live.goesTo (.looping restarts setup state), [])
  | .iterating restarts _ [] (.error _) =>
      some (live.goesTo (live.crashed restarts), [])
  | _ => none

/-- An exception in the middle of an iteration. -/
def interrupt (live : Live) : Option (Live × List Happening) :=
  match live.process with
  | .iterating restarts _ _ _ => some (live.goesTo (live.crashed restarts), [])
  | _ => none

/-- A cancellation, which the watchdog passes on. -/
def cancel (live : Live) : Option (Live × List Happening) :=
  match live.process with
  | .watching _ | .looping .. | .iterating .. =>
      some (live.goesTo (.ending false), [])
  | _ => none

def step (live : Live) : Action → Option (Live × List Happening)
  | .createStop => some ({ live with stop := true }, [.stopCreated])
  | .deleteStop => some ({ live with stop := false }, [.stopDeleted])
  | .invoke =>
      match live.process with
      | .idle => some ({ live with stop := false, process := .watching 0 }, [.invoked])
      | _ => none
  | .supervise deployment unreadable => live.supervise deployment unreadable
  | .iterate input => live.iterate input
  | .perform => live.perform
  | .finish => live.finish
  | .interrupt => live.interrupt
  | .cancel => live.cancel
  | .close =>
      match live.process with
      | .ending gaveUp => some ({ live with stop := true, process := .idle }, [.ended gaveUp])
      | _ => none
  | .die => some (live.goesTo (.idle), [])
  | .accept number =>
      if number ∈ live.offered then
        some ({ live with
          offered := live.offered.erase number
          inFlight := number :: live.inFlight }, [.accepted number])
      else none
  | .resolve number =>
      if number ∈ live.inFlight then
        some ({ live with inFlight := live.inFlight.erase number }, [.resolved number])
      else if number ∈ live.offered then
        some ({ live with offered := live.offered.erase number }, [.resolved number])
      else none

/-- The process is not in its loop. -/
def Outside : Process → Prop
  | .idle | .watching _ | .ending _ => True
  | _ => False

/-- What a step can do. -/
inductive Move (live : Live) : Action → List Happening → Live → Prop where
  | stopCreated : Move live .createStop [.stopCreated] { live with stop := true }
  | stopDeleted : Move live .deleteStop [.stopDeleted] { live with stop := false }
  | invoked (idle : live.process = .idle) :
      Move live .invoke [.invoked] { live with stop := false, process := .watching 0 }
  | restarted (deployment : Deployment) (restarts : ℕ) (setup : LoopSetup) (state : State)
      (absent : live.stop = false) (started : start deployment live.disk = .ok (setup, state)) :
      Move live (.supervise deployment none) [.restarted (PersistentState.load live.disk)]
        (live.goesTo (.looping restarts setup state))
  | began (input : IterationInput) (restarts : ℕ) (setup : LoopSetup) (state : State)
      (absent : live.stop = false) (looping : live.process = .looping restarts setup state) :
      Move live (.iterate input) [] (live.goesTo (.iterating restarts setup
        (iteration setup input state).1 (iteration setup input state).2))
  | did (restarts : ℕ) (setup : LoopSetup) (event : LiveEvent) (todo : List LiveEvent)
      (outcome : Except PyError State)
      (iterating : live.process = .iterating restarts setup (event :: todo) outcome) :
      Move live .perform [.did event]
        ((live.effect event).goesTo (.iterating restarts setup todo outcome))
  | finished (restarts : ℕ) (setup : LoopSetup) (state : State)
      (iterating : live.process = .iterating restarts setup [] (.ok state)) :
      Move live .finish [] (live.goesTo (.looping restarts setup state))
  | left (action : Action) (process : Process) (outside : Outside process) :
      Move live action [] (live.goesTo process)
  | ended (gaveUp : Bool) :
      Move live .close [.ended gaveUp] { live with stop := true, process := .idle }
  | accepted (number : ℤ) (mem : number ∈ live.offered) :
      Move live (.accept number) [.accepted number]
        { live with offered := live.offered.erase number, inFlight := number :: live.inFlight }
  | resolved (number : ℤ) (mem : number ∈ live.inFlight) :
      Move live (.resolve number) [.resolved number]
        { live with inFlight := live.inFlight.erase number }
  | lost (number : ℤ) (mem : number ∈ live.offered) :
      Move live (.resolve number) [.resolved number]
        { live with offered := live.offered.erase number }

section

variable {live next : Live} {events : List Happening}

theorem outside_crashed (live : Live) (restarts : ℕ) : Outside (live.crashed restarts) := by
  unfold crashed
  split
  · trivial
  · split <;> trivial

theorem move_supervise {deployment : Deployment} {unreadable : Option PyError}
    (stepped : live.supervise deployment unreadable = some (next, events)) :
    Move live (.supervise deployment unreadable) events next := by
  unfold supervise at stepped
  split at stepped
  · next restarts watching =>
    split at stepped
    · simp only [Option.some.injEq, Prod.mk.injEq] at stepped
      rcases stepped with ⟨rfl, rfl⟩
      exact .left _ _ trivial
    · next absent =>
      split at stepped
      · next setup state started =>
        cases stepped
        exact .restarted deployment restarts setup state (by simpa using absent) started
      · simp only [Option.some.injEq, Prod.mk.injEq] at stepped
        rcases stepped with ⟨rfl, rfl⟩
        exact .left _ _ (outside_crashed live restarts)
  · simp at stepped

theorem move_iterate {input : IterationInput}
    (stepped : live.iterate input = some (next, events)) :
    Move live (.iterate input) events next := by
  unfold iterate at stepped
  split at stepped
  · next restarts setup state looping =>
    split at stepped
    · simp only [Option.some.injEq, Prod.mk.injEq] at stepped
      rcases stepped with ⟨rfl, rfl⟩
      exact .left _ _ trivial
    · next absent =>
      cases stepped
      exact .began input restarts setup state (by simpa using absent) looping
  · simp at stepped

theorem move_perform (stepped : live.perform = some (next, events)) :
    Move live .perform events next := by
  unfold perform at stepped
  split at stepped
  · next restarts setup event todo outcome iterating =>
    cases stepped
    exact .did restarts setup event todo outcome iterating
  · simp at stepped

theorem move_finish (stepped : live.finish = some (next, events)) :
    Move live .finish events next := by
  unfold finish at stepped
  split at stepped
  · next restarts setup state iterating =>
    cases stepped
    exact .finished restarts setup state iterating
  · next restarts setup e iterating =>
    cases stepped
    exact .left _ _ (outside_crashed live restarts)
  · simp at stepped

theorem move_interrupt (stepped : live.interrupt = some (next, events)) :
    Move live .interrupt events next := by
  unfold interrupt at stepped
  split at stepped
  · next restarts _ _ _ _ =>
    cases stepped
    exact .left _ _ (outside_crashed live restarts)
  · simp at stepped

theorem move_cancel (stepped : live.cancel = some (next, events)) :
    Move live .cancel events next := by
  unfold cancel at stepped
  split at stepped
  all_goals
    first
    | (cases stepped
       exact .left _ _ trivial)
    | simp at stepped

/-- A step is one of the moves. -/
theorem move_of_step {action : Action} (stepped : live.step action = some (next, events)) :
    Move live action events next := by
  cases action with
  | createStop =>
      cases stepped
      exact .stopCreated
  | deleteStop =>
      cases stepped
      exact .stopDeleted
  | invoke =>
      simp only [step] at stepped
      split at stepped
      · next idle =>
        cases stepped
        exact .invoked idle
      · simp at stepped
  | supervise deployment unreadable => exact move_supervise stepped
  | iterate input => exact move_iterate stepped
  | perform => exact move_perform stepped
  | finish => exact move_finish stepped
  | interrupt => exact move_interrupt stepped
  | cancel => exact move_cancel stepped
  | close =>
      simp only [step] at stepped
      split at stepped
      · simp only [Option.some.injEq, Prod.mk.injEq] at stepped
        rcases stepped with ⟨rfl, rfl⟩
        exact .ended _
      · simp at stepped
  | die =>
      cases stepped
      exact .left _ _ trivial
  | accept number =>
      simp only [step] at stepped
      split at stepped
      · next mem =>
        cases stepped
        exact .accepted number mem
      · simp at stepped
  | resolve number =>
      simp only [step] at stepped
      split at stepped
      · next mem =>
        cases stepped
        exact .resolved number mem
      · split at stepped
        · next mem =>
          cases stepped
          exact .lost number mem
        · simp at stepped

/-- A move notes at most one thing. -/
theorem Move.single {action : Action} (move : Move live action events next) :
    events = [] ∨ ∃ event, events = [event] := by
  cases move with
  | began => exact .inl rfl
  | finished => exact .inl rfl
  | left => exact .inl rfl
  | stopCreated => exact .inr ⟨_, rfl⟩
  | stopDeleted => exact .inr ⟨_, rfl⟩
  | invoked => exact .inr ⟨_, rfl⟩
  | restarted => exact .inr ⟨_, rfl⟩
  | did => exact .inr ⟨_, rfl⟩
  | ended => exact .inr ⟨_, rfl⟩
  | accepted => exact .inr ⟨_, rfl⟩
  | resolved => exact .inr ⟨_, rfl⟩
  | lost => exact .inr ⟨_, rfl⟩

end

/-- A live system before its process is invoked for the first time. -/
structure Initial (live : Live) : Prop where
  idle : live.process = .idle
  offered : live.offered = []
  inFlight : live.inFlight = []

end Live

end SumplusTrader
