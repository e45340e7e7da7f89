import SumplusTrader.Core.HighWater
import SumplusTrader.Live.Intents

/-!
# The high-water mark on disk

The drawdown ladder measures from the high-water mark that the snapshots carry. This file follows
the mark through the live process: through the iterations that end, through those that a crash
cuts off, and through the restarts that load a snapshot again.

`Rises` says that the effects of an iteration never lower the mark, and `highWater_remembered`
that no run does. The drawdown is always measured from the highest value that was ever recorded.
-/

namespace SumplusTrader

namespace Live

/-- The effects never lower the mark, and neither does the state at the end. -/
def Rises (floor : ℚ) : List LiveEvent → Except PyError State → Prop
  | [], outcome => ∀ state, outcome = .ok state → Above floor state
  | event :: todo, outcome =>
      match event with
      | .wrote state => Above floor state ∧ Rises state.peak todo outcome
      | _ => Rises floor todo outcome

section

variable {setup : LoopSetup} {input : IterationInput} {state next : State} {floor : ℚ}
  {events todo : List LiveEvent} {outcome : Except PyError State}

theorem rises_error (floor : ℚ) (e : PyError) : Rises floor [] (.error e) := by
  intro state done
  cases done

theorem rises_ok (above : Above floor state) : Rises floor [] (.ok state) := by
  rintro _ ⟨rfl⟩
  exact above

theorem rises_wrote (above : Above floor state) : Rises floor [.wrote state] (.ok state) :=
  ⟨above, rises_ok ⟨le_refl _, above.marked⟩⟩

theorem Rises.mono {lower : ℚ} (rises : Rises floor todo outcome) (below : lower ≤ floor) :
    Rises lower todo outcome := by
  induction todo with
  | nil =>
      intro state done
      exact (rises state done).mono below
  | cons event todo ih =>
      cases event with
      | wrote state => exact ⟨rises.1.mono below, rises.2⟩
      | reconciled state => exact ih rises
      | ticked => exact ih rises
      | sent decision amount cid => exact ih rises

/-- Snapshots that carry the mark of a state may come before what rises from it. -/
theorem rises_append (above : Above floor state)
    (carry : ∀ snapshot, .wrote snapshot ∈ events →
      snapshot.highWaterMark = state.highWaterMark ∧ snapshot.nav = state.nav)
    (rest : Rises state.peak todo outcome) : Rises floor (events ++ todo) outcome := by
  induction events generalizing floor with
  | nil => exact rest.mono above.kept
  | cons event events ih =>
      have later : ∀ snapshot, .wrote snapshot ∈ events →
          snapshot.highWaterMark = state.highWaterMark ∧ snapshot.nav = state.nav :=
        fun snapshot mem => carry snapshot (List.mem_cons_of_mem _ mem)
      cases event with
      | wrote snapshot =>
          rcases carry snapshot List.mem_cons_self with ⟨mark, nav⟩
          have same : snapshot.peak = state.peak := by rw [State.peak, mark, State.peak]
          refine ⟨above.congr mark nav, ?_⟩
          rw [same]
          exact ih ⟨le_refl _, above.marked⟩ later
      | reconciled _ => exact ih above later
      | ticked => exact ih above later
      | sent _ _ _ => exact ih above later

theorem tickEvents_carry (state : State) (fx : Effects) :
    ∀ snapshot, .wrote snapshot ∈ tickEvents state fx →
      snapshot.highWaterMark = state.highWaterMark ∧ snapshot.nav = state.nav := by
  intro snapshot mem
  rcases List.mem_filterMap.1 mem with ⟨event, -, wrote⟩
  cases event with
  | intentPersisted pending =>
      simp only [Option.some.injEq, LiveEvent.wrote.injEq] at wrote
      subst wrote
      exact ⟨rfl, rfl⟩
  | receiptAppended _ => cases wrote
  | abstentionRecorded _ => cases wrote
  | orderSent _ _ _ => cases wrote
  | executionLogged _ => cases wrote
  | executionLogFailed => cases wrote

/-- Raising the mark after a tick does not lower it. -/
theorem above_raiseHighWater (above : Above floor state) : Above floor (raiseHighWater state) := by
  have raised : state.peak ≤ (raiseHighWater state).peak := by
    rw [State.peak, State.peak]
    by_cases zero : state.highWaterMark.getD 0 = 0
    · rw [zero, max_self]
      exact le_max_left _ _
    · apply max_le_max_left
      rcases found : state.highWaterMark with _ | hwm
      · simp [found] at zero
      · rw [found, Option.getD_some] at zero
        simp only [raiseHighWater, found, Option.getD_some, if_neg zero]
        exact le_max_left _ _
  exact ⟨above.kept.trans raised, above.marked.trans raised⟩

/-- The snapshot at the end of a tick. -/
theorem above_endOfTick (kept : floor ≤ state.peak) (price : Dict String ℚ) :
    Above floor (endOfTick price state) := above_raiseHighWater (above_markNav kept price)

theorem rises_decideOn (above : Above floor state) (market : List TokenView × ℚ) :
    Rises floor (decideOn setup input market state).1 (decideOn setup input market state).2 := by
  unfold decideOn
  rcases ticked : Core.tick input.world state (tickInput setup input market) with
    ⟨fx, e | ⟨result, next⟩⟩
  · have rises := rises_append above (tickEvents_carry state fx) (rises_error state.peak e)
    rw [List.append_nil] at rises
    exact rises
  · have mark := Core.highWaterMark_of_tick ticked
    have same : next.peak = state.peak := by rw [State.peak, mark, State.peak]
    have rises := rises_append above (tickEvents_carry state fx)
      (rises_wrote (above_endOfTick same.ge (priceMap market.1)))
    exact rises

theorem marks_syncState {quotes : Option (List String)} {defaultQuotes : List String}
    {price : Dict String ℚ} {wall : ℚ} {read : Except PyError (Dict String ℚ)}
    (done : syncState state quotes defaultQuotes price wall read = some next) :
    next.highWaterMark = state.highWaterMark ∧ next.nav = state.nav := by
  unfold syncState at done
  split at done
  · cases done
  · cases done
    exact ⟨rfl, rfl⟩

/-- A read of the balances leaves the mark and the value alone. -/
theorem reconcile_keeps {price : Dict String ℚ} {reads : List LiveEvent}
    (done : reconcile setup input price state = some (reads, next)) :
    (∀ snapshot, .wrote snapshot ∉ reads) ∧ next.highWaterMark = state.highWaterMark ∧
      next.nav = state.nav := by
  unfold reconcile at done
  split at done
  · cases done
    refine ⟨by simp, ?_⟩
    unfold coldStart
    split
    · exact ⟨rfl, rfl⟩
    · exact ⟨rfl, rfl⟩
  · next reconciler _ =>
    simp only [Option.map_eq_some_iff, Prod.mk.injEq] at done
    rcases done with ⟨_, read, rfl, rfl⟩
    refine ⟨by simp, ?_⟩
    cases reconciler with
    | subaccount backend => exact marks_syncState read
    | wallet address => exact marks_syncState read

/-- **An iteration never lowers the mark.** -/
theorem rises_iteration (above : Above floor state) :
    Rises floor (iteration setup input state).1 (iteration setup input state).2 := by
  unfold iteration
  split
  · exact rises_error floor _
  · next market _ =>
    split
    · exact rises_wrote above
    · next reads next read =>
      rcases reconcile_keeps read with ⟨silent, mark, nav⟩
      have marked : Above floor (markNav next (priceMap market.1)).2 :=
        above_markNav (above.congr mark nav).kept (priceMap market.1)
      have carry : ∀ snapshot, .wrote snapshot ∈ reads →
          snapshot.highWaterMark = (markNav next (priceMap market.1)).2.highWaterMark ∧
            snapshot.nav = (markNav next (priceMap market.1)).2.nav :=
        fun snapshot mem => absurd mem (silent snapshot)
      dsimp only
      split
      · refine rises_append marked carry ?_
        exact rises_wrote ⟨le_refl _, marked.marked⟩
      · refine rises_append marked carry ?_
        exact rises_decideOn ⟨le_refl _, marked.marked⟩ market

end

/-- The mark of the snapshot that a process would load. -/
def diskPeak (live : Live) : ℚ := (PersistentState.load live.disk).peak

/-- The process does not go below the mark on disk. -/
def Upholds (floor : ℚ) : Process → Prop
  | .looping _ _ state => Above floor state
  | .iterating _ _ todo outcome => Rises floor todo outcome
  | .idle | .watching _ | .ending _ => True

/-- What the system remembers of the values before. -/
structure Remembers (live : Live) : Prop where
  disk : Above live.diskPeak (PersistentState.load live.disk)
  process : Upholds live.diskPeak live.process

/-- The snapshot that a happening writes. -/
def snapshotOf : Happening → Option State
  | .did (.wrote state) => some state
  | _ => none

def snapshots (history : List Happening) : List State := history.filterMap snapshotOf

section

variable {live next last : Live} {action : Action} {events history : List Happening}

theorem upholds_of_outside {process : Process} (floor : ℚ) (outside : Outside process) :
    Upholds floor process := by
  cases process with
  | idle => trivial
  | watching _ => trivial
  | ending _ => trivial
  | looping _ _ _ => cases outside
  | iterating _ _ _ _ => cases outside

theorem peak_merged (state : State) : (PersistentState.merged state).peak = state.peak := by
  rw [State.peak, State.peak, PersistentState.merged]
  rcases state.highWaterMark with _ | hwm
  · rfl
  · rfl

theorem above_merged {floor : ℚ} {state : State} (above : Above floor state) :
    Above floor (PersistentState.merged state) := by
  have nav : (PersistentState.merged state).nav.getD 0 = state.nav.getD 0 := by
    rw [PersistentState.merged]
    rcases state.nav with _ | nav
    · rfl
    · rfl
  exact ⟨peak_merged state ▸ above.kept, by rw [nav, peak_merged]; exact above.marked⟩

/-- A start seeds the mark only where there is none. -/
theorem above_start {deployment : Deployment} {setup : LoopSetup} {state : State}
    (remembers : Remembers live) (started : start deployment live.disk = .ok (setup, state)) :
    Above live.diskPeak state := by
  rcases bind_eq_ok_iff.1 started with ⟨_, -, started⟩
  cases started
  have disk := remembers.disk
  unfold seedHighWater
  split
  · next unset =>
    have nothing : live.diskPeak = 0 := by rw [diskPeak, State.peak, unset.1, max_self]
    have value := disk.marked
    rw [← diskPeak, nothing] at value
    rw [nothing]
    exact ⟨le_max_left _ _, value.trans (le_max_left _ _)⟩
  · exact disk

/-- **A move never lowers the mark on disk.** What it writes is on disk afterwards. -/
theorem remembers_move (remembers : Remembers live) (move : Move live action events next) :
    Remembers next ∧ ((snapshots events = [] ∧ next.diskPeak = live.diskPeak) ∨
      ∃ state, snapshots events = [state] ∧ Above live.diskPeak state ∧
        next.diskPeak = state.peak) := by
  cases move with
  | stopCreated => exact ⟨⟨remembers.disk, remembers.process⟩, .inl ⟨rfl, rfl⟩⟩
  | stopDeleted => exact ⟨⟨remembers.disk, remembers.process⟩, .inl ⟨rfl, rfl⟩⟩
  | invoked => exact ⟨⟨remembers.disk, trivial⟩, .inl ⟨rfl, rfl⟩⟩
  | ended => exact ⟨⟨remembers.disk, trivial⟩, .inl ⟨rfl, rfl⟩⟩
  | left _ process outside =>
      exact ⟨⟨remembers.disk, upholds_of_outside _ outside⟩, .inl ⟨rfl, rfl⟩⟩
  | restarted deployment restarts setup state absent started =>
      have above := above_start remembers started
      exact ⟨⟨remembers.disk, above⟩, .inl ⟨rfl, rfl⟩⟩
  | began input restarts setup state absent looping =>
      have process := remembers.process
      rw [looping] at process
      exact ⟨⟨remembers.disk, rises_iteration process⟩, .inl ⟨rfl, rfl⟩⟩
  | did restarts setup event todo outcome iterating =>
      have process := remembers.process
      rw [iterating] at process
      cases event with
      | wrote state =>
          have loaded : (live.effect (.wrote state)).diskPeak = state.peak := by
            rw [diskPeak, effect, PersistentState.load_write, peak_merged]
          have disk : Above state.peak (PersistentState.load (PersistentState.write state)) := by
            rw [PersistentState.load_write]
            exact above_merged ⟨le_refl _, process.1.marked⟩
          refine ⟨⟨?_, ?_⟩, .inr ⟨state, rfl, process.1, loaded⟩⟩
          · exact loaded.symm ▸ disk
          · exact loaded.symm ▸ process.2
      | reconciled _ => exact ⟨⟨remembers.disk, process⟩, .inl ⟨rfl, rfl⟩⟩
      | ticked => exact ⟨⟨remembers.disk, process⟩, .inl ⟨rfl, rfl⟩⟩
      | sent _ _ _ => exact ⟨⟨remembers.disk, process⟩, .inl ⟨rfl, rfl⟩⟩
  | finished restarts setup state iterating =>
      have process := remembers.process
      rw [iterating] at process
      exact ⟨⟨remembers.disk, process state rfl⟩, .inl ⟨rfl, rfl⟩⟩
  | accepted number => exact ⟨⟨remembers.disk, remembers.process⟩, .inl ⟨rfl, rfl⟩⟩
  | resolved number mem => exact ⟨⟨remembers.disk, remembers.process⟩, .inl ⟨rfl, rfl⟩⟩
  | lost number mem => exact ⟨⟨remembers.disk, remembers.process⟩, .inl ⟨rfl, rfl⟩⟩

/-- The snapshots of a history, in order, between the mark on disk before and after it. -/
structure Climbs (before after : ℚ) (written : List State) : Prop where
  never : before ≤ after
  between : ∀ state ∈ written, Above before state ∧ state.peak ≤ after
  ordered : written.Pairwise fun earlier later => earlier.peak ≤ later.peak

theorem Climbs.concat {before after : ℚ} {written : List State} {state : State}
    (climbs : Climbs before after written) (above : Above after state) :
    Climbs before state.peak (written ++ [state]) where
  never := climbs.never.trans above.kept
  between := by
    intro other mem
    rcases List.mem_append.1 mem with earlier | last
    · exact ⟨(climbs.between other earlier).1, (climbs.between other earlier).2.trans above.kept⟩
    · rw [List.mem_singleton] at last
      subst last
      exact ⟨above.mono climbs.never, le_refl _⟩
  ordered := by
    rw [List.pairwise_append]
    refine ⟨climbs.ordered, List.pairwise_singleton _ _, ?_⟩
    intro earlier mem other last
    rw [List.mem_singleton] at last
    subst last
    exact (climbs.between earlier mem).2.trans above.kept

/-- **The high-water mark is never forgotten.** In every run, with any crashes, cancellations,
restarts and deployments, each snapshot carries a mark that is at least those of the snapshots before it and at
least the value it records. -/
theorem highWater_remembered (live last : Live) (history : List Happening)
    (idle : live.process = .idle)
    (marked : (PersistentState.load live.disk).nav.getD 0 ≤ live.diskPeak)
    (run : Run (movesOf step fun _ _ => true) live history last) :
    Climbs live.diskPeak last.diskPeak (snapshots history) := by
  have held : Remembers last ∧ Climbs live.diskPeak last.diskPeak (snapshots history) := by
    refine run.invariant (fun history state => Remembers state ∧
      Climbs live.diskPeak state.diskPeak (snapshots history)) ?_ ?_
    · refine ⟨⟨⟨le_refl _, marked⟩, ?_⟩, le_refl _, by simp [snapshots], by simp [snapshots]⟩
      rw [idle]
      trivial
    · rintro history state events next ⟨remembers, climbs⟩ ⟨action, -, stepped⟩
      rcases remembers_move remembers (move_of_step stepped) with ⟨remembers', step⟩
      refine ⟨remembers', ?_⟩
      rw [snapshots, List.filterMap_append, ← snapshots, ← snapshots]
      rcases step with ⟨nothing, same⟩ | ⟨snapshot, wrote, above, peak⟩
      · rw [nothing, List.append_nil, same]
        exact climbs
      · rw [wrote, peak]
        exact climbs.concat above
  exact held.2

end

/-- The process dies after it has sent an order, and the next one begins at the mark of its
snapshot. -/
theorem highWater_remembered_resentOrder : ∃ (last : Live) (history : List Happening),
    history.map word = resentWords ∧ Climbs idleSystem.diskPeak last.diskPeak (snapshots history) ∧
      100 ≤ last.diskPeak := by
  have traced : (trace step (fun _ _ => true) idleSystem resentOrder).map
      (fun run => (run.2.map word, decide (100 ≤ run.1.diskPeak))) = some (resentWords, true) := by
    decide +kernel
  rcases Option.map_eq_some_iff.1 traced with ⟨⟨last, history⟩, traced, told⟩
  simp only [Prod.mk.injEq, decide_eq_true_eq] at told
  refine ⟨last, history, told.1, ?_, told.2⟩
  exact highWater_remembered idleSystem last history rfl (by decide +kernel) (.of_trace traced)

end Live

end SumplusTrader
