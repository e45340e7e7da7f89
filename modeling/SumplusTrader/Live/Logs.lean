import SumplusTrader.Core.CrashPoints
import SumplusTrader.Live.Intents

/-!
# The logs of the live process

This file puts the live process together with the logs of its ticks. An iteration performs its
effects one at a time, on the snapshot, on the network and on the logs, and the process may die or
raise between any two of them.

What the process does is a run of `Live.step`, and what happens to the logs is a run of a recorder.
`Matches` says so of a whole run, from which the guarantees of both come together in
`documented_at_every_point`.
-/

namespace SumplusTrader

/-- An effect of an iteration: what it is to the process, and what it is to the tick. -/
structure LoopEffect where
  live : Option LiveEvent
  tick : Option Event

/-- The live process with the files of its ticks, and the effects that its iteration has yet to
perform. -/
structure LoggedLive where
  live : Live
  world : World
  todo : List LoopEffect

/-- What is noted of a move: what happened to the process, and what its tick did. -/
structure Notice where
  live : Option Happening
  tick : Option Event

/-- `control` is an action that performs no effect of an iteration and begins none; `others` is
whatever happens to the files besides the logs. -/
inductive LoggedLive.Action where
  | control (action : SumplusTrader.Action)
  | iterate (input : IterationInput)
  | perform
  | others (elsewhere : World)

def Event.order? : Event → Option (Decision × ℚ × String)
  | .orderSent decision amount cid => some (decision, amount, cid)
  | _ => none

def LiveEvent.order? : LiveEvent → Option (Decision × ℚ × String)
  | .sent decision amount cid => some (decision, amount, cid)
  | _ => none

def Happening.order? : Happening → Option (Decision × ℚ × String)
  | .did event => event.order?
  | _ => none

/-- An effect sends the same order for the process and for the tick. -/
def LoopEffect.Agrees (effect : LoopEffect) : Prop :=
  effect.live.bind LiveEvent.order? = effect.tick.bind Event.order?

def Notice.ofLive (happening : Happening) : Notice := ⟨some happening, none⟩

namespace Live

/-- What an effect of a tick on a state is to the process. -/
def tickEvent (state : State) : Event → Option LiveEvent
  | .intentPersisted pending =>
      some (.wrote { state with intentSeq := pending.seq, pendingIntent := some pending })
  | .orderSent decision amount cid => some (.sent decision amount cid)
  | _ => none

/-- An effect that the tick has no part in. -/
def besideTick (event : LiveEvent) : LoopEffect := ⟨some event, none⟩

def ofTick (state : State) (event : Event) : LoopEffect := ⟨tickEvent state event, some event⟩

section

variable (setup : LoopSetup) (input : IterationInput)

/-- The effects of the decision tick, and the snapshot after it. -/
def decideEffects (market : List TokenView × ℚ) (state : State) : List LoopEffect :=
  let ticked := Core.tick input.world state (tickInput setup input market)
  besideTick .ticked :: ticked.1.events.map (ofTick state) ++
    match ticked.2 with
    | .error _ => []
    | .ok (_, next) => [besideTick (.wrote (endOfTick (priceMap market.1) next))]

/-- The effects of an iteration, with those of its tick on the logs. -/
def effects (state : State) : List LoopEffect :=
  match input.market with
  | .error _ => []
  | .ok market =>
      match reconcile setup input (priceMap market.1) state with
      | none => [besideTick (.wrote state)]
      | some (reads, state) =>
          let state := (markNav state (priceMap market.1)).2
          if state.pendingIntent.isSome then
            (reads ++ [LiveEvent.wrote { state with pendingIntent := none }]).map besideTick
          else reads.map besideTick ++ decideEffects setup input market state

end

section

variable {setup : LoopSetup} {input : IterationInput} {state : State}

theorem tickEvents_eq (state : State) (fx : Effects) :
    tickEvents state fx = fx.events.filterMap (tickEvent state) := by
  unfold tickEvents Effects.outward
  rw [List.filterMap_filter]
  congr 1
  funext event
  cases event <;> rfl

theorem live_besideTick (events : List LiveEvent) :
    (events.map besideTick).filterMap LoopEffect.live = events := by
  rw [List.filterMap_map]
  exact List.filterMap_some

theorem tick_besideTick (events : List LiveEvent) :
    (events.map besideTick).filterMap LoopEffect.tick = [] := by
  rw [List.filterMap_map]
  exact List.filterMap_eq_nil_iff.2 fun _ _ => rfl

theorem live_ofTick (state : State) (events : List Event) :
    (events.map (ofTick state)).filterMap LoopEffect.live = events.filterMap (tickEvent state) := by
  rw [List.filterMap_map]
  rfl

theorem tick_ofTick (state : State) (events : List Event) :
    (events.map (ofTick state)).filterMap LoopEffect.tick = events := by
  rw [List.filterMap_map]
  exact List.filterMap_some

theorem live_ticked (state : State) (fx : Effects) :
    (besideTick .ticked :: fx.events.map (ofTick state)).filterMap LoopEffect.live =
      .ticked :: tickEvents state fx := by
  rw [tickEvents_eq, ← live_ofTick]
  rfl

theorem tick_ticked (state : State) (fx : Effects) :
    (besideTick .ticked :: fx.events.map (ofTick state)).filterMap LoopEffect.tick = fx.events :=
  tick_ofTick state fx.events

theorem live_decideEffects (market : List TokenView × ℚ) :
    (decideEffects setup input market state).filterMap LoopEffect.live =
      (decideOn setup input market state).1 := by
  unfold decideEffects decideOn
  rcases Core.tick input.world state (tickInput setup input market) with
    ⟨fx, e | ⟨result, next⟩⟩
  · dsimp only [afterTick]
    rw [List.append_nil, live_ticked]
  · dsimp only [afterTick]
    rw [List.filterMap_append, live_ticked]
    rfl

/-- To the process, the effects are those of `iteration`. -/
theorem live_effects :
    (effects setup input state).filterMap LoopEffect.live = (iteration setup input state).1 := by
  unfold effects iteration
  rcases input.market with e | market
  · rfl
  · dsimp only
    rcases reconcile setup input (priceMap market.1) state with _ | ⟨reads, reconciled⟩
    · rfl
    · dsimp only
      split
      · rw [live_besideTick]
      · rw [List.filterMap_append, live_besideTick, live_decideEffects]

theorem tick_decideEffects (market : List TokenView × ℚ) :
    (decideEffects setup input market state).filterMap LoopEffect.tick =
      (Core.tick input.world state (tickInput setup input market)).1.events := by
  unfold decideEffects
  rcases Core.tick input.world state (tickInput setup input market) with
    ⟨fx, e | ⟨result, next⟩⟩
  · dsimp only
    rw [List.append_nil, tick_ticked]
  · dsimp only
    rw [List.filterMap_append, tick_ticked]
    exact List.append_nil _

/-- To the logs, the effects are those of a turn, or there are none. -/
theorem tick_effects (setup : LoopSetup) (input : IterationInput) (state : State) :
    (effects setup input state).filterMap LoopEffect.tick = [] ∨
      ∃ turn : Turn, turn.configFile = input.world.configFile ∧
        (effects setup input state).filterMap LoopEffect.tick =
          (Core.takeTurn input.world turn).1.events := by
  unfold effects
  rcases input.market with e | market
  · exact .inl rfl
  · dsimp only
    rcases reconcile setup input (priceMap market.1) state with _ | ⟨reads, reconciled⟩
    · exact .inl rfl
    · dsimp only
      split
      · exact .inl (tick_besideTick _)
      · right
        refine ⟨⟨input.world.configFile, (markNav reconciled (priceMap market.1)).2,
          tickInput setup input market⟩, rfl, ?_⟩
        rw [List.filterMap_append, tick_besideTick, tick_decideEffects]
        rfl

theorem agrees_ofTick (state : State) (event : Event) : (ofTick state event).Agrees := by
  cases event <;> rfl

theorem agrees_decideEffects (market : List TokenView × ℚ) :
    ∀ effect ∈ decideEffects setup input market state, effect.Agrees := by
  unfold decideEffects
  rcases Core.tick input.world state (tickInput setup input market) with
    ⟨fx, e | ⟨result, next⟩⟩
  all_goals
    simp only [List.forall_mem_append, List.forall_mem_cons, List.forall_mem_map]
  · exact ⟨⟨rfl, fun event _ => agrees_ofTick state event⟩, by simp⟩
  · exact ⟨⟨rfl, fun event _ => agrees_ofTick state event⟩, rfl, by simp⟩

theorem agrees_reads {price : Dict String ℚ} {reads : List LiveEvent} {reconciled : State}
    (read : reconcile setup input price state = some (reads, reconciled)) :
    ∀ effect ∈ reads.map besideTick, effect.Agrees := by
  unfold reconcile at read
  split at read
  · cases read
    simp
  · rcases Option.map_eq_some_iff.1 read with ⟨_, -, made⟩
    cases made
    simp only [List.map_cons, List.map_nil, List.forall_mem_singleton]
    rfl

theorem agrees_effects : ∀ effect ∈ effects setup input state, effect.Agrees := by
  unfold effects
  rcases input.market with e | market
  · simp
  · dsimp only
    rcases read : reconcile setup input (priceMap market.1) state with _ | ⟨reads, reconciled⟩
    · simp only [List.forall_mem_singleton]
      rfl
    · dsimp only
      split
      · rw [List.map_append, List.forall_mem_append]
        refine ⟨agrees_reads read, ?_⟩
        simp only [List.map_cons, List.map_nil, List.forall_mem_singleton]
        rfl
      · rw [List.forall_mem_append]
        exact ⟨agrees_reads read, agrees_decideEffects market⟩

end

end Live

namespace LoggedLive

section

variable (logged : LoggedLive)

/-- An iteration finds the logs as they are on disk. -/
def finds (input : IterationInput) : IterationInput :=
  { input with world := { logged.world with configFile := input.world.configFile } }

/-- The effects of an iteration that the loop begins. -/
def begun (input : IterationInput) : List LoopEffect :=
  match logged.live.process with
  | .looping _ setup state => Live.effects setup input state
  | _ => []

/-- Effects are dropped once the process is not in their iteration any more. -/
def remaining (process : Process) (todo : List LoopEffect) : List LoopEffect :=
  match process with
  | .iterating .. => todo
  | _ => []

/-- The iteration ends when there is nothing left to perform, on the logs as well. -/
def controls : SumplusTrader.Action → Bool
  | .iterate _ | .perform => false
  | .finish => logged.todo.isEmpty
  | _ => true

def step : Action → Option (LoggedLive × List Notice)
  | .control action =>
      if logged.controls action then
        (logged.live.step action).map fun moved =>
          (⟨moved.1, logged.world, remaining moved.1.process logged.todo⟩,
            moved.2.map Notice.ofLive)
      else none
  | .iterate input =>
      (logged.live.step (.iterate (logged.finds input))).map fun moved =>
        (⟨moved.1, logged.world, remaining moved.1.process (logged.begun (logged.finds input))⟩,
          moved.2.map Notice.ofLive)
  | .perform =>
      match logged.todo with
      | [] => none
      | effect :: todo =>
          let world := effect.tick.elim logged.world logged.world.write
          let noted : List Notice := [⟨effect.live.map .did, effect.tick⟩]
          match effect.live with
          | none => some (⟨logged.live, world, todo⟩, noted)
          | some _ => (logged.live.step .perform).map fun moved => (⟨moved.1, world, todo⟩, noted)
  | .others elsewhere => some ({ logged with world := logged.world.besides elsewhere }, [])

/-- The logs with what the tick has yet to write. -/
def recorder : Recorder := ⟨logged.world, logged.todo.filterMap LoopEffect.tick⟩

end

/-- Every tick finds the same configuration file, and the process reconciles. -/
def permits (configFile : Option String) (logged : LoggedLive) : Action → Bool
  | .control action => Live.reconciling logged.live action
  | .iterate input => input.world.configFile = configFile
  | _ => true

/-- The effects that are left are those that the process has left to perform. -/
def Shares (todo : List LoopEffect) : Process → Prop
  | .iterating _ _ events _ => todo.filterMap LoopEffect.live = events
  | _ => todo = []

/-- The process and the tick of its iteration are at the same place. -/
structure Abreast (logged : LoggedLive) : Prop where
  agrees : ∀ effect ∈ logged.todo, effect.Agrees
  shares : Shares logged.todo logged.live.process

/-- From one point to another, the process makes a run of its own, the logs are written as by a
recorder, and both send the same orders. -/
structure Matches (configFile : Option String) (logged : LoggedLive) (history : List Notice)
    (next : LoggedLive) : Prop where
  abreast : Abreast next
  live : Run (movesOf Live.step Live.reconciling) logged.live (history.filterMap Notice.live)
    next.live
  recorder : Run (movesOf Core.record (Core.underFile configFile)) logged.recorder
    (history.filterMap Notice.tick) next.recorder
  orders : (history.filterMap Notice.live).filterMap Happening.order? =
    (history.filterMap Notice.tick).filterMap Event.order?

/-- The snapshot on disk carries the intent of an order, and the last receipt on disk lets its
decision through. -/
structure Documented (written : List Event) (live : Live) (decision : Decision) (amountUsd : ℚ)
    (cid : String) : Prop where
  staged : Live.Staged live decision amountUsd
  authorised : Core.Authorises written (.orderSent decision amountUsd cid)

section

variable {logged next last start : LoggedLive} {configFile : Option String}
  {history later notices : List Notice} {process : Process} {todo : List LoopEffect}

theorem Matches.refl (abreast : Abreast logged) : Matches configFile logged [] logged :=
  ⟨abreast, .stay, .stay, rfl⟩

theorem Matches.trans (first : Matches configFile logged history next)
    (second : Matches configFile next later last) :
    Matches configFile logged (history ++ later) last where
  abreast := second.abreast
  live := by
    rw [List.filterMap_append]
    exact first.live.trans second.live
  recorder := by
    rw [List.filterMap_append]
    exact first.recorder.trans second.recorder
  orders := by
    simp only [List.filterMap_append, first.orders, second.orders]

theorem live_ofLive (happenings : List Happening) :
    (happenings.map Notice.ofLive).filterMap Notice.live = happenings := by
  rw [List.filterMap_map]
  exact List.filterMap_some

theorem tick_ofLive (happenings : List Happening) :
    (happenings.map Notice.ofLive).filterMap Notice.tick = [] := by
  rw [List.filterMap_map]
  exact List.filterMap_eq_nil_iff.2 fun _ _ => rfl

theorem shares_remaining (kept : ∀ restarts setup events outcome,
    process = .iterating restarts setup events outcome → todo.filterMap LoopEffect.live = events) :
    Shares (remaining process todo) process := by
  cases process with
  | iterating restarts setup events outcome => exact kept restarts setup events outcome rfl
  | _ => rfl

theorem agrees_remaining (agrees : ∀ effect ∈ todo, effect.Agrees) :
    ∀ effect ∈ remaining process todo, effect.Agrees := by
  cases process with
  | iterating restarts setup events outcome => exact agrees
  | _ => simp [remaining]

theorem recorder_remaining (process : Process) (todo : List LoopEffect) (world : World) :
    Run (movesOf Core.record (Core.underFile configFile)) ⟨world, todo.filterMap LoopEffect.tick⟩ []
      ⟨world, (remaining process todo).filterMap LoopEffect.tick⟩ := by
  have dies : Run (movesOf Core.record (Core.underFile configFile))
      ⟨world, todo.filterMap LoopEffect.tick⟩ [] ⟨world, []⟩ := .single ⟨.die, rfl, rfl⟩
  cases process with
  | iterating => exact .stay
  | _ => exact dies

/-- What an action on the process leaves. -/
theorem abreast_control {action : SumplusTrader.Action} {live : Live} {events : List Happening}
    (abreast : Abreast logged) (controls : logged.controls action = true)
    (move : Live.Move logged.live action events live) :
    Shares (remaining live.process logged.todo) live.process ∧
      events.filterMap Happening.order? = [] := by
  have kept : ∀ restarts setup events outcome,
      logged.live.process = .iterating restarts setup events outcome →
        logged.todo.filterMap LoopEffect.live = events := by
    intro restarts setup events outcome iterating
    have shares := abreast.shares
    rw [iterating] at shares
    exact shares
  cases move with
  | stopCreated => exact ⟨shares_remaining kept, rfl⟩
  | stopDeleted => exact ⟨shares_remaining kept, rfl⟩
  | invoked => exact ⟨rfl, rfl⟩
  | restarted => exact ⟨rfl, rfl⟩
  | began => cases controls
  | did => cases controls
  | finished => exact ⟨rfl, rfl⟩
  | left _ process outside =>
      refine ⟨shares_remaining ?_, rfl⟩
      intro restarts setup events outcome iterating
      rw [Live.goesTo] at iterating
      dsimp only at iterating
      rw [iterating] at outside
      exact outside.elim
  | ended => exact ⟨rfl, rfl⟩
  | accepted => exact ⟨shares_remaining kept, rfl⟩
  | resolved => exact ⟨shares_remaining kept, rfl⟩
  | lost => exact ⟨shares_remaining kept, rfl⟩

theorem matches_control {action : SumplusTrader.Action} (abreast : Abreast logged)
    (reconciles : Live.reconciling logged.live action = true)
    (stepped : step logged (.control action) = some (next, notices)) :
    Matches configFile logged notices next := by
  dsimp only [step] at stepped
  split at stepped
  · next controls =>
    rcases Option.map_eq_some_iff.1 stepped with ⟨⟨live, events⟩, moved, made⟩
    cases made
    rcases abreast_control abreast controls (Live.move_of_step moved) with ⟨shares, unsent⟩
    refine ⟨⟨agrees_remaining abreast.agrees, shares⟩, ?_, ?_, ?_⟩
    · rw [live_ofLive]
      exact .single ⟨action, reconciles, moved⟩
    · rw [tick_ofLive]
      exact recorder_remaining _ _ _
    · rw [live_ofLive, tick_ofLive, unsent]
      rfl
  · cases stepped

theorem matches_iterate {input : IterationInput} (abreast : Abreast logged)
    (found : input.world.configFile = configFile)
    (stepped : step logged (.iterate input) = some (next, notices)) :
    Matches configFile logged notices next := by
  rcases Option.map_eq_some_iff.1 stepped with ⟨⟨live, events⟩, moved, made⟩
  cases made
  have run : Run (movesOf Live.step Live.reconciling) logged.live events live :=
    .single ⟨.iterate (logged.finds input), rfl, moved⟩
  have move := Live.move_of_step moved
  cases move with
  | began _ restarts setup state absent looping =>
      have shares := abreast.shares
      rw [looping] at shares
      have begins : logged.begun (logged.finds input) =
          Live.effects setup (logged.finds input) state := by
        rw [begun, looping]
      rw [begins]
      refine ⟨⟨Live.agrees_effects, Live.live_effects⟩, run, ?_, rfl⟩
      rw [recorder, shares]
      rcases Live.tick_effects setup (logged.finds input) state with
        nothing | ⟨turn, file, turns⟩
      · have unchanged : (⟨logged.world, []⟩ : Recorder) = ⟨logged.world,
            (Live.effects setup (logged.finds input) state).filterMap LoopEffect.tick⟩ := by
          rw [nothing]
        exact unchanged ▸ .stay
      · refine .single ⟨.call turn, ?_, ?_⟩
        · exact decide_eq_true (file.trans found)
        · change some
              ((⟨logged.world, (Core.takeTurn logged.world turn).1.events⟩ : Recorder), []) =
            some (⟨logged.world, (Live.effects setup (logged.finds input) state).filterMap
              LoopEffect.tick⟩, [])
          rw [turns]
          rfl
  | left _ process outside =>
      have dropped : remaining process (logged.begun (logged.finds input)) = [] := by
        cases process with
        | iterating => exact outside.elim
        | _ => rfl
      refine ⟨⟨?_, ?_⟩, run, ?_, rfl⟩
      · change ∀ effect ∈ remaining process _, effect.Agrees
        rw [dropped]
        simp
      · change Shares (remaining process _) process
        refine shares_remaining fun restarts setup events outcome iterating => ?_
        rw [iterating] at outside
        exact outside.elim
      · refine .single ⟨.die, rfl, ?_⟩
        change some ((⟨logged.world, []⟩ : Recorder), []) =
          some (⟨logged.world, (remaining process _).filterMap LoopEffect.tick⟩, [])
        rw [dropped]
        rfl

theorem orders_single {notice : Notice}
    (agrees : notice.live.bind Happening.order? = notice.tick.bind Event.order?) :
    ([notice].filterMap Notice.live).filterMap Happening.order? =
      ([notice].filterMap Notice.tick).filterMap Event.order? := by
  rw [List.filterMap_filterMap, List.filterMap_filterMap]
  simp only [List.filterMap_cons, List.filterMap_nil, agrees]

/-- Performing an effect of the tick is a move of the recorder. -/
theorem run_recorded (configFile : Option String) (happening : Option Happening)
    (event : Option Event) (world : World) (todo : List Event) :
    Run (movesOf Core.record (Core.underFile configFile)) ⟨world, event.toList ++ todo⟩
      ([(⟨happening, event⟩ : Notice)].filterMap Notice.tick)
      ⟨event.elim world world.write, todo⟩ := by
  rcases event with _ | event
  · exact .stay
  · exact .single ⟨.perform, rfl, rfl⟩

/-- Performing an effect of the process is its next move, and the tick keeps up with it. -/
theorem perform_spec (abreast : Abreast logged)
    (stepped : step logged .perform = some (next, notices)) :
    ∃ effect todo, logged.todo = effect :: todo ∧
      notices = [⟨effect.live.map .did, effect.tick⟩] ∧
      next = ⟨next.live, effect.tick.elim logged.world logged.world.write, todo⟩ ∧
      Shares todo next.live.process ∧
      match effect.live with
      | none => next.live = logged.live
      | some event => logged.live.step .perform = some (next.live, [.did event]) := by
  rcases logged with ⟨live, world, _ | ⟨⟨event, effect⟩, todo⟩⟩
  · cases stepped
  · refine ⟨_, _, rfl, ?_⟩
    have shares := abreast.shares
    rcases process : live.process with _ | _ | _ | ⟨restarts, setup, events, outcome⟩ | _
    all_goals
      dsimp only at shares
      rw [process] at shares
    · cases shares
    · cases shares
    · cases shares
    · change (⟨event, effect⟩ :: todo).filterMap LoopEffect.live = events at shares
      subst shares
      cases event with
      | none =>
          cases stepped
          refine ⟨rfl, rfl, ?_, rfl⟩
          rw [process]
          rfl
      | some event =>
          rcases Option.map_eq_some_iff.1 stepped with ⟨⟨moved, events⟩, performed, made⟩
          cases made
          have same := performed
          rw [Live.step, Live.perform, process] at same
          cases same
          exact ⟨rfl, rfl, rfl, performed⟩
    · cases shares

theorem matches_perform (abreast : Abreast logged)
    (stepped : step logged .perform = some (next, notices)) :
    Matches configFile logged notices next := by
  rcases perform_spec abreast stepped with
    ⟨⟨event, effect⟩, todo, pending, rfl, made, shares, moved⟩
  have agrees := abreast.agrees
  rw [pending, List.forall_mem_cons] at agrees
  rw [made]
  refine ⟨⟨agrees.2, shares⟩, ?_, ?_, orders_single ?_⟩
  · cases event with
    | none => exact moved ▸ .stay
    | some event => exact .single ⟨.perform, rfl, moved⟩
  · have recorded := run_recorded configFile (event.map .did) effect logged.world
      (todo.filterMap LoopEffect.tick)
    have ahead : effect.toList ++ todo.filterMap LoopEffect.tick =
        (⟨event, effect⟩ :: todo).filterMap LoopEffect.tick := by
      cases effect <;> rfl
    rw [ahead, ← pending] at recorded
    exact recorded
  · rw [← agrees.1]
    cases event <;> rfl

theorem matches_step {action : Action} (abreast : Abreast logged)
    (permitted : permits configFile logged action = true)
    (stepped : step logged action = some (next, notices)) :
    Matches configFile logged notices next := by
  cases action with
  | control action => exact matches_control abreast permitted stepped
  | iterate input => exact matches_iterate abreast (of_decide_eq_true permitted) stepped
  | perform => exact matches_perform abreast stepped
  | others elsewhere =>
      cases stepped
      exact ⟨⟨abreast.agrees, abreast.shares⟩, .stay, .single ⟨.others elsewhere, rfl, rfl⟩, rfl⟩

/-- **The process with its logs is both.** -/
theorem matches_run (idle : start.live.process = .idle) (fresh : start.todo = [])
    (run : Run (movesOf step (permits configFile)) start history last) :
    Matches configFile start history last := by
  refine run.invariant (Matches configFile start) (.refl ⟨?_, ?_⟩) ?_
  · rw [fresh]
    simp
  · rw [fresh, idle]
    rfl
  · rintro history logged notices next earlier ⟨action, permitted, stepped⟩
    exact earlier.trans (matches_step earlier.abreast permitted stepped)

theorem eq_orderSent {effect : Option Event} {decision : Decision} {amountUsd : ℚ} {cid : String}
    (agrees : LoopEffect.Agrees ⟨some (.sent decision amountUsd cid), effect⟩) :
    effect = some (.orderSent decision amountUsd cid) := by
  have sent : effect.bind Event.order? = some (decision, amountUsd, cid) := agrees.symm
  rcases Option.bind_eq_some_iff.1 sent with ⟨event, rfl, order⟩
  cases event with
  | orderSent => cases order; rfl
  | _ => cases order

/-- An order that the process is about to send finds its intent and its receipt on disk. -/
theorem documented_of_matches {hash : String} {decision : Decision} {amountUsd : ℚ} {cid : String}
    {notice : Notice} (committed : committedPolicyHash configFile = .ok hash)
    (initial : Live.Initial start.live) (fresh : start.todo = [])
    (noReceipts : start.world.receipts = []) (noExecutions : start.world.executions = [])
    (run : Matches configFile start history last)
    (stepped : step last .perform = some (next, [notice]))
    (sent : notice.live = some (.did (.sent decision amountUsd cid))) :
    Documented (history.filterMap Notice.tick) last.live decision amountUsd cid := by
  have further := (run.trans (matches_perform run.abreast stepped)).recorder
  rcases perform_spec run.abreast stepped with ⟨⟨event, effect⟩, todo, pending, noted, -, -, moved⟩
  rw [List.cons.injEq] at noted
  rcases noted with ⟨rfl, -⟩
  rcases event with _ | event
  · cases sent
  cases sent
  have agrees : LoopEffect.Agrees ⟨some (.sent decision amountUsd cid), effect⟩ :=
    run.abreast.agrees _ (pending ▸ List.mem_cons_self)
  rw [eq_orderSent agrees] at further
  have idle : start.recorder.todo = [] := by
    rw [recorder, fresh]
    rfl
  have justified := Core.authorised_run committed noReceipts noExecutions idle further
  rw [List.filterMap_append] at justified
  exact ⟨Live.staged_of_run initial run.live moved, justified _ _ [] rfl⟩

end

/-- **Every order of the live process is documented before it goes out.** In every run of a process
that reconciles, under a fixed configuration file and with the process dying or raising between any
two effects, also between those of a tick: the process is that of `Live.step`, it sends the orders
of its ticks, the logs are audited, and the next order to be sent finds its intent in the snapshot
on disk and its receipt at the end of the log. -/
theorem documented_at_every_point (configFile : Option String) (committed : Json)
    (loaded : loadConfig configFile = .ok committed) (start last : LoggedLive)
    (initial : Live.Initial start.live) (fresh : start.todo = [])
    (noReceipts : start.world.receipts = []) (noExecutions : start.world.executions = [])
    (history : List Notice) (run : Run (movesOf step (permits configFile)) start history last) :
    Run (movesOf Live.step Live.reconciling) start.live (history.filterMap Notice.live) last.live ∧
      (history.filterMap Notice.live).filterMap Happening.order? =
        (history.filterMap Notice.tick).filterMap Event.order? ∧
      Core.Audited (policyHash committed) (history.filterMap Notice.tick) last.world ∧
      (∀ next notice decision amountUsd cid, step last .perform = some (next, [notice]) →
        notice.live = some (.did (.sent decision amountUsd cid)) →
          Documented (history.filterMap Notice.tick) last.live decision amountUsd cid) ∧
      (NoCollision (Core.hashedInputs last.world) → Core.PassesVerifier configFile last.world) := by
  have hashed : committedPolicyHash configFile = .ok (policyHash committed) :=
    committedPolicyHash_eq_ok_iff.2 ⟨committed, loaded, rfl⟩
  have matched := matches_run initial.idle fresh run
  have idle : start.recorder.todo = [] := by
    rw [recorder, fresh]
    rfl
  rcases Core.audited_run hashed noReceipts noExecutions idle matched.recorder with ⟨audited, -⟩
  refine ⟨matched.live, matched.orders, audited, ?_, fun noCollision => ?_⟩
  · intro next notice decision amountUsd cid stepped sent
    exact documented_of_matches hashed initial fresh noReceipts noExecutions matched stepped sent
  · exact Core.Bound.passesVerifier ⟨_, _, audited.bound⟩ hashed noCollision

/-- The process dies in its tick before the receipt is written; the next one is about to send an
order. -/
def receiptLost : List Action :=
  [.control .invoke, .control (.supervise Live.injectiveDeployment none),
    .iterate Live.entryIteration, .perform, .perform, .control .die, .control .invoke,
    .control (.supervise Live.injectiveDeployment none), .iterate Live.entryIteration, .perform,
    .perform, .perform, .perform]

theorem documented_at_every_point_receiptLost : ∃ last history next notice decision amountUsd cid,
    trace step (permits (some "\x7b\x7d")) ⟨Live.idleSystem, emptyWorld, []⟩ receiptLost =
        some (last, history) ∧
      step last .perform = some (next, [notice]) ∧
      notice.live = some (.did (.sent decision amountUsd cid)) ∧
      Documented (history.filterMap Notice.tick) last.live decision amountUsd cid := by
  have traced : ((trace step (permits (some "\x7b\x7d")) ⟨Live.idleSystem, emptyWorld, []⟩
      receiptLost).bind fun run => (step run.1 .perform).map fun moved =>
        moved.2.map fun notice => notice.live.map Live.word) = some [some .sent] := by
    decide +kernel
  rcases Option.bind_eq_some_iff.1 traced with ⟨⟨last, history⟩, ran, told⟩
  rcases Option.map_eq_some_iff.1 told with ⟨⟨next, notices⟩, stepped, told⟩
  rcases List.map_eq_singleton_iff.1 told with ⟨notice, rfl, spoken⟩
  rcases Option.map_eq_some_iff.1 spoken with ⟨happening, noted, word⟩
  rcases Live.says_of_word word with ⟨decision, amountUsd, cid, rfl⟩
  rcases documented_at_every_point (some "\x7b\x7d") (.obj []) rfl
    ⟨Live.idleSystem, emptyWorld, []⟩ last Live.initial_idleSystem rfl rfl rfl history
    (.of_trace ran) with ⟨-, -, -, documented, -⟩
  exact ⟨last, history, next, notice, decision, amountUsd, cid, ran, stepped, noted,
    documented next notice decision amountUsd cid stepped noted⟩

end LoggedLive

end SumplusTrader
