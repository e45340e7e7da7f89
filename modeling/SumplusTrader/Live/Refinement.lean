import SumplusTrader.Live.IterationCases
import SumplusTrader.Live.Process
import SumplusTrader.Transition.InFlight

/-!
# The live process keeps a log of write-ahead intents

This file connects the live process to the log of write-ahead intents beside a network. The
snapshot on disk is the durable part of the log, and every effect of an iteration is a move of
it, wherever the process dies. `net_run` says that the history of every run of a process that
reconciles shows a run of the log and the network.
-/

namespace SumplusTrader

namespace Live

/-- The deployment reconciles, whenever its loop gets to start. -/
def reconciles (deployment : Deployment) : Bool :=
  match setup deployment with
  | .ok setup => setup.reconciler.isSome
  | .error _ => true

/-- The loop is only ever started with a source of balances. -/
def reconciling (_ : Live) : Action → Bool
  | .supervise deployment _ => reconciles deployment
  | _ => true

/-- What the log and the network see of a happening. -/
def netEvent : Happening → Option (WriteAhead.NetEvent PendingIntent (Decision × ℚ))
  | .restarted found => some (.log (.restarted found.pendingIntent))
  | .did event => (intentEvent event).map .log
  | .resolved number => some (.resolved number)
  | _ => none

/-- The log that a snapshot on disk carries, for a process that has done nothing yet. -/
def logOf (disk : Option State) : IntentLog where
  pending := (PersistentState.load disk).pendingIntent
  number := (PersistentState.load disk).intentSeq
  reconciled := false
  staged := false

def ProcessTracks (log : IntentLog) : Process → Prop
  | .looping _ setup state =>
      setup.reconciler.isSome = true ∧ setup.mode = "live" ∧ Agrees state log
  | .iterating _ setup todo outcome =>
      setup.reconciler.isSome = true ∧ setup.mode = "live" ∧ Follows log todo outcome
  | _ => True

/-- The disk and the process agree with the log and the network. -/
structure Tracks (live : Live) (net : WriteAhead.Net PendingIntent) : Prop where
  disk : Agrees (PersistentState.load live.disk) net.log
  unresolved : (live.offered ++ live.inFlight).Perm net.unresolved
  process : ProcessTracks net.log live.process

section

variable {live next : Live} {net : WriteAhead.Net PendingIntent} {log log' : IntentLog}
  {process : Process} {action : Action} {events : List Happening}

theorem processTracks_of_outside (outside : Outside process) : ProcessTracks log process := by
  cases process with
  | idle => trivial
  | watching restarts => trivial
  | ending gaveUp => trivial
  | looping => exact outside.elim
  | iterating => exact outside.elim

theorem tracks_initial (initial : Initial live) : Tracks live ⟨logOf live.disk, []⟩ := by
  refine ⟨⟨rfl, rfl⟩, ?_, ?_⟩
  · rw [initial.offered, initial.inFlight]
    exact .nil
  · rw [initial.idle]
    trivial

theorem makeBackend_of_not_isLive {env : Environ} (onPath : Bool)
    (notLive : ¬isLive (chosenBackend env)) : makeBackend env onPath "mock" = .ok .mock := by
  simp only [isLive, not_or] at notLive
  simp only [makeBackend, notLive, if_false, or_true, if_true]

/-- A loop with a source of balances is live. -/
theorem live_of_reconcilerOf {env : Environ} {onPath : Bool} {backend : Backend}
    {reconciler : Reconciler}
    (made : makeBackend env onPath (if isLive (chosenBackend env) then "live" else "mock") =
      .ok backend)
    (found : reconcilerOf env backend = .ok (some reconciler)) : isLive (chosenBackend env) := by
  by_contra notLive
  rw [if_neg notLive, makeBackend_of_not_isLive onPath notLive, Except.ok.injEq] at made
  subst made
  simp [reconcilerOf, notLive] at found

/-- What the backend and the source of balances are made from. -/
theorem setup_cases {deployment : Deployment} {loop : LoopSetup}
    (done : setup deployment = .ok loop) :
    loop.mode = (if isLive (chosenBackend deployment.env) then "live" else "mock") ∧
      makeBackend deployment.env deployment.onPath loop.mode = .ok loop.backend ∧
      reconcilerOf deployment.env loop.backend = .ok loop.reconciler ∧
      ∃ seedNav, deployment.env.floatLiteral "START_NAV"
        (if chosenBackend deployment.env = "injective" then "0" else "500") = .ok seedNav := by
  unfold setup at done
  simp only [bind_eq_ok_iff, pure, Except.pure, Except.ok.injEq] at done
  rcases done with ⟨cfg, -, backend, made, ⟨slippageBps, universe', quotes⟩, -, reconciler, found,
    seedNav, seed, rfl⟩
  exact ⟨rfl, made, found, seedNav, seed⟩

theorem setup_spec {deployment : Deployment} {loop : LoopSetup}
    (done : setup deployment = .ok loop) (reconciles : loop.reconciler.isSome = true) :
    loop.mode = "live" := by
  rcases setup_cases done with ⟨mode, made, found, -⟩
  rcases Option.isSome_iff_exists.1 reconciles with ⟨source, configured⟩
  rw [configured] at found
  rw [mode] at made ⊢
  exact if_pos (live_of_reconcilerOf made found)

/-- What the loop starts with, once it has loaded its state. -/
theorem start_spec {deployment : Deployment} {disk : Option State} {loop : LoopSetup}
    {state : State} (started : start deployment disk = .ok (loop, state))
    (permitted : reconciles deployment = true) :
    loop.reconciler.isSome = true ∧ loop.mode = "live" ∧
      state.pendingIntent = (PersistentState.load disk).pendingIntent ∧
      state.intentSeq = (PersistentState.load disk).intentSeq := by
  unfold start at started
  simp only [bind_eq_ok_iff, pure, Except.pure, Except.ok.injEq, Prod.mk.injEq] at started
  rcases started with ⟨_, done, rfl, rfl⟩
  have configured := permitted
  simp only [reconciles, done] at configured
  refine ⟨configured, setup_spec done configured, ?_⟩
  unfold seedHighWater
  split <;> exact ⟨rfl, rfl⟩

theorem tracks_effect {event : LiveEvent} {restarts : ℕ} {loop : LoopSetup}
    {todo : List LiveEvent} {outcome : Except PyError State} (tracks : Tracks live net)
    (iterating : live.process = .iterating restarts loop (event :: todo) outcome) :
    ∃ next, Shows net.log event next ∧
      Tracks ((live.effect event).goesTo (.iterating restarts loop todo outcome))
        ⟨next, (intentEvent event).elim net.unresolved net.opens⟩ := by
  have process := tracks.process
  rw [iterating] at process
  rcases process with ⟨reconciler, mode, next, shows', follows⟩
  refine ⟨next, shows', ?_, ?_, ⟨reconciler, mode, follows⟩⟩
  · cases event with
    | reconciled state =>
        cases shows'
        exact ⟨tracks.disk.pending, tracks.disk.number⟩
    | ticked =>
        cases shows'
        exact tracks.disk
    | wrote state =>
        have written : PersistentState.load (live.effect (.wrote state)).disk =
            PersistentState.merged state := PersistentState.load_write state
        change Agrees (PersistentState.load (live.effect (.wrote state)).disk) next
        have durable := WriteAhead.lastWrite_of_run (.single (shows_wrote_iff.1 shows'))
        rw [written]
        exact ⟨congrArg Prod.fst durable, congrArg Prod.snd durable⟩
    | sent decision amount cid =>
        cases shows'
        exact ⟨tracks.disk.pending, tracks.disk.number⟩
  · cases event with
    | sent decision amount cid =>
        have number := tracks.disk.number
        change ((PersistentState.load live.disk).intentSeq :: live.offered ++ live.inFlight).Perm
          (net.log.number :: net.unresolved)
        rw [number]
        exact tracks.unresolved.cons _
    | reconciled state => exact tracks.unresolved
    | ticked => exact tracks.unresolved
    | wrote state => exact tracks.unresolved

theorem tracks_restarted {deployment : Deployment} {restarts : ℕ} {loop : LoopSetup}
    {state : State} (tracks : Tracks live net) (permitted : reconciles deployment = true)
    (started : start deployment live.disk = .ok (loop, state)) :
    Tracks (live.goesTo (.looping restarts loop state))
      { net with log := { net.log with reconciled := false, staged := false } } := by
  rcases start_spec started permitted with ⟨reconciler, mode, pending, number⟩
  refine ⟨⟨tracks.disk.pending, tracks.disk.number⟩, tracks.unresolved, reconciler, mode, ?_⟩
  exact ⟨pending.trans tracks.disk.pending, number.trans tracks.disk.number⟩

section

variable {offered inFlight : List ℤ} {number : ℤ}

/-- An order that is accepted stays open. -/
theorem perm_accepted (mem : number ∈ offered) :
    (offered.erase number ++ number :: inFlight).Perm (offered ++ inFlight) :=
  List.perm_middle.trans ((List.perm_cons_erase mem).symm.append_right inFlight)

theorem perm_lost (mem : number ∈ offered) :
    (offered.erase number ++ inFlight).Perm ((offered ++ inFlight).erase number) := by
  rw [List.erase_append_left inFlight mem]

theorem perm_resolved (mem : number ∈ inFlight) :
    (offered ++ inFlight.erase number).Perm ((offered ++ inFlight).erase number) := by
  have comm : (inFlight ++ offered).Perm (offered ++ inFlight) := List.perm_append_comm
  have swapped := comm.erase number
  rw [List.erase_append_left offered mem] at swapped
  exact List.perm_append_comm.trans swapped

end

/-- A move that the log and the network see is a move of theirs. -/
theorem tracks_move (tracks : Tracks live net) (move : Move live action events next)
    (permitted : reconciling live action = true) :
    (events.filterMap netEvent = [] ∧ Tracks next net) ∨
      ∃ event net', events.filterMap netEvent = [event] ∧
        WriteAhead.NetStep Stages net [event] net' ∧ Tracks next net' := by
  cases move with
  | stopCreated => exact .inl ⟨rfl, tracks.disk, tracks.unresolved, tracks.process⟩
  | stopDeleted => exact .inl ⟨rfl, tracks.disk, tracks.unresolved, tracks.process⟩
  | invoked => exact .inl ⟨rfl, tracks.disk, tracks.unresolved, trivial⟩
  | ended => exact .inl ⟨rfl, tracks.disk, tracks.unresolved, trivial⟩
  | left _ process outside =>
      exact .inl ⟨rfl, tracks.disk, tracks.unresolved, processTracks_of_outside outside⟩
  | restarted deployment restarts loop state absent started =>
      right
      refine ⟨_, _, rfl, ?_, tracks_restarted tracks permitted started⟩
      rw [tracks.disk.pending]
      exact .log net _ _ (.restart net.log)
  | began input restarts loop state absent looping =>
      have process := tracks.process
      rw [looping] at process
      rcases process with ⟨reconciler, mode, agrees⟩
      exact .inl ⟨rfl, tracks.disk, tracks.unresolved, reconciler, mode,
        follows_iteration reconciler mode agrees⟩
  | did restarts loop event todo outcome iterating =>
      rcases tracks_effect tracks iterating with ⟨log, shows', tracks'⟩
      unfold Shows at shows'
      rcases seen : intentEvent event with _ | shown
      · rw [seen] at shows'
        subst shows'
        exact .inl ⟨by simp [netEvent, seen], by simpa [seen] using tracks'⟩
      · rw [seen] at shows'
        exact .inr ⟨.log shown, _, by simp [netEvent, seen], .log net shown log shows',
          by simpa [seen] using tracks'⟩
  | finished restarts loop state iterating =>
      have process := tracks.process
      rw [iterating] at process
      rcases process with ⟨reconciler, mode, follows⟩
      exact .inl ⟨rfl, tracks.disk, tracks.unresolved, reconciler, mode, follows state rfl⟩
  | accepted number mem =>
      exact .inl ⟨rfl, tracks.disk, (perm_accepted mem).trans tracks.unresolved, tracks.process⟩
  | resolved number mem =>
      have open' := tracks.unresolved.subset (List.mem_append_right _ mem)
      exact .inr ⟨_, _, rfl, .resolve net number open', tracks.disk,
        (perm_resolved mem).trans (tracks.unresolved.erase number), tracks.process⟩
  | lost number mem =>
      have open' := tracks.unresolved.subset (List.mem_append_left _ mem)
      exact .inr ⟨_, _, rfl, .resolve net number open', tracks.disk,
        (perm_lost mem).trans (tracks.unresolved.erase number), tracks.process⟩

/-- **The live process refines the log of intents and the network.** -/
theorem net_run {allowed : Live → Action → Bool} {history : List Happening} {last : Live}
    (initial : Initial live)
    (permits : ∀ live action, allowed live action = true → reconciling live action = true)
    (run : Run (movesOf step allowed) live history last) :
    ∃ net, Run (WriteAhead.NetStep Stages) ⟨logOf live.disk, []⟩ (history.filterMap netEvent) net ∧
      Tracks last net := by
  refine Run.refines Tracks (tracks_initial initial) ?_ run
  rintro live events next net tracks ⟨action, permitted, stepped⟩
  rcases tracks_move tracks (move_of_step stepped) (permits live action permitted) with
    ⟨unseen, tracks'⟩ | ⟨event, net', seen, moved, tracks'⟩
  · rw [unseen]
    exact ⟨net, .stay, tracks'⟩
  · rw [seen]
    exact ⟨net', .single moved, tracks'⟩

end

end Live

end SumplusTrader
