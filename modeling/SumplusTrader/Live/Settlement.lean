import SumplusTrader.Live.Intents

/-!
# Sending while an order is in flight

This file follows the orders of the live process through the network. A restart that finds a
pending intent clears it after one read of the balances, and a tick clears its own intent when
the executor returns; neither asks whether the order has settled.

An order is open from the call of the executor that sends it until it settles, fails or is lost,
whether or not the network has accepted it yet. `nothing_sent_in_flight` gives conditions on the
starts of the loop and on the reads of the balances under which no order is sent while one that
was sent before a restart is open. Without them the recovered process sends its order again.
-/

namespace SumplusTrader

namespace Live

/-- An order has settled, failed or been lost, and the balances were read after that. -/
def Absorbed (number : ℤ) (history : List Happening) : Prop :=
  ∃ early late state, history = early ++ .resolved number :: late ∧ .did (.reconciled state) ∈ late

/-- The snapshot on disk after a history. -/
def diskAfter (disk : Option State) : List Happening → Option State
  | [] => disk
  | .did (.wrote state) :: history => diskAfter (PersistentState.write state) history
  | _ :: history => diskAfter disk history

/-- Once a process has restarted, the executor is not called before the orders that were sent
earlier are absorbed. An order goes by the number on disk when it was sent. -/
def NothingSentInFlight (disk : Option State) (history : List Happening) : Prop :=
  Justified (fun before event => ∀ decision amount cid, event = .did (.sent decision amount cid) →
    ∀ early decision' amount' cid' late found,
      before = early ++ .did (.sent decision' amount' cid') :: late → .restarted found ∈ late →
        Absorbed (PersistentState.load (diskAfter disk early)).intentSeq late) history

/-- The order of the pending intent that is on disk. -/
def pendingOrder (live : Live) : Option ℤ :=
  if (PersistentState.load live.disk).pendingIntent.isSome then
    some (PersistentState.load live.disk).intentSeq
  else none

/-- An iteration is about to read the balances. -/
def readsNext : Process → Bool
  | .iterating _ _ (.reconciled _ :: _) _ => true
  | _ => false

/-- The orders that were sent and have not settled, failed or been lost. -/
def unresolved (live : Live) : List ℤ := live.offered ++ live.inFlight

/-- The loop starts when only the pending order is open, and reads the balances when the pending
order is not. -/
def settling (live : Live) : Action → Bool
  | .supervise deployment _ =>
      reconciles deployment && live.unresolved.all fun number => live.pendingOrder = some number
  | .perform =>
      !readsNext live.process || live.unresolved.all fun number => live.pendingOrder ≠ some number
  | _ => true

section

variable {live next last : Live} {net : WriteAhead.Net PendingIntent} {action : Action}
  {events history : List Happening} {number : ℤ}

theorem reconciling_of_settling (live : Live) (action : Action)
    (permitted : settling live action = true) : reconciling live action = true := by
  cases action with
  | supervise deployment unreadable =>
      simp only [settling, Bool.and_eq_true] at permitted
      exact permitted.1
  | _ => rfl

theorem pendingOrder_eq_some_iff (tracks : Tracks live net) :
    live.pendingOrder = some number ↔ net.log.pending.isSome = true ∧ number = net.log.number := by
  unfold pendingOrder
  rw [tracks.disk.pending, tracks.disk.number]
  split
  · next isSome => simp [isSome, eq_comm]
  · next isNone => simp [isNone]

/-- What a permitted move shows meets the conditions of the network. -/
theorem settles_of_move {happening : Happening}
    {event : WriteAhead.NetEvent PendingIntent (Decision × ℚ)} (tracks : Tracks live net)
    (move : Move live action events next) (permitted : settling live action = true)
    (noted : happening ∈ events) (seen : netEvent happening = some event) :
    WriteAhead.Settles net event := by
  cases move with
  | restarted deployment restarts loop state absent started =>
      rw [List.mem_singleton] at noted
      subst noted
      cases seen
      simp only [settling, Bool.and_eq_true, List.all_eq_true, decide_eq_true_eq] at permitted
      intro number mem
      exact (pendingOrder_eq_some_iff tracks).1
        (permitted.2 number (tracks.unresolved.mem_iff.2 mem))
  | did restarts loop effect todo outcome iterating =>
      rw [List.mem_singleton] at noted
      subst noted
      cases effect with
      | reconciled state =>
          cases seen
          simp only [settling, iterating, readsNext, Bool.not_true, Bool.false_or, List.all_eq_true,
            decide_eq_true_eq] at permitted
          intro pending mem
          exact permitted _ (tracks.unresolved.mem_iff.2 mem)
            ((pendingOrder_eq_some_iff tracks).2 ⟨pending, rfl⟩)
      | ticked => simp [netEvent, intentEvent] at seen
      | wrote state =>
          cases seen
          trivial
      | sent decision amount cid =>
          cases seen
          trivial
  | resolved number mem =>
      rw [List.mem_singleton] at noted
      subst noted
      cases seen
      trivial
  | lost number mem =>
      rw [List.mem_singleton] at noted
      subst noted
      cases seen
      trivial
  | accepted => simp_all [netEvent]
  | stopCreated => simp_all [netEvent]
  | stopDeleted => simp_all [netEvent]
  | invoked => simp_all [netEvent]
  | ended => simp_all [netEvent]
  | began => simp at noted
  | finished => simp at noted
  | left => simp at noted

theorem settling_run (initial : Initial live)
    (run : Run (movesOf step settling) live history last) :
    ∃ net, Run (WriteAhead.SettlingStep Stages) ⟨logOf live.disk, []⟩
      (history.filterMap netEvent) net := by
  have matched : ∀ live events next net, Tracks live net → movesOf step settling live events next →
      ∃ net', Run (WriteAhead.SettlingStep Stages) net (events.filterMap netEvent) net' ∧
        Tracks next net' := by
    rintro live events next net tracks ⟨action, permitted, stepped⟩
    have move := move_of_step stepped
    rcases tracks_move tracks move (reconciling_of_settling live action permitted) with
      ⟨unseen, tracks'⟩ | ⟨event, net', seen, moved, tracks'⟩
    · rw [unseen]
      exact ⟨net, .stay, tracks'⟩
    · rw [seen]
      have shown : event ∈ events.filterMap netEvent := by
        simp [seen]
      rcases List.mem_filterMap.1 shown with ⟨happening, noted, seen'⟩
      refine ⟨net', .single ⟨moved, ?_⟩, tracks'⟩
      simpa using settles_of_move tracks move permitted noted seen'
  rcases Run.refines Tracks (tracks_initial initial) matched run with ⟨net, netRun, -⟩
  exact ⟨net, netRun⟩

/-- The number on disk after a history is the one that the next order is sent under. -/
theorem numberAfter_view (disk : Option State) (history : List Happening) :
    WriteAhead.numberAfter ⟨logOf disk, []⟩ (history.filterMap netEvent) =
      (PersistentState.load (diskAfter disk history)).intentSeq := by
  unfold WriteAhead.numberAfter
  induction history generalizing disk with
  | nil => rfl
  | cons happening history ih =>
      cases happening with
      | did event =>
          cases event with
          | wrote state =>
              have written := ih (PersistentState.write state)
              simp only [logOf, PersistentState.load_write] at written
              exact written
          | sent decision amount cid => exact ih disk
          | reconciled state => exact ih disk
          | ticked => exact ih disk
      | stopCreated => exact ih disk
      | stopDeleted => exact ih disk
      | invoked => exact ih disk
      | restarted found => exact ih disk
      | ended gaveUp => exact ih disk
      | accepted number => exact ih disk
      | resolved number => exact ih disk

theorem netEvent_eq_resolved {happening : Happening}
    (resolved : netEvent happening = some (.resolved number)) : happening = .resolved number := by
  cases happening with
  | resolved other =>
      simp only [netEvent, Option.some.injEq, WriteAhead.NetEvent.resolved.injEq] at resolved
      rw [resolved]
  | did event => cases event <;> simp [netEvent, intentEvent] at resolved
  | _ => simp [netEvent] at resolved

theorem seen_of_netEvent {happening : Happening}
    {event : WriteAhead.Event PendingIntent (Decision × ℚ)}
    (logged : netEvent happening = some (.log event)) : seen happening = some event := by
  simp [seen, logged, WriteAhead.logEvent]

theorem absorbed_of_view (absorbed : WriteAhead.Absorbed number (history.filterMap netEvent)) :
    Absorbed number history := by
  rcases absorbed with ⟨early, late, split, reconciled⟩
  rcases split_of_view split with ⟨first, event, rest, rfl, -, resolved, rfl⟩
  rcases List.mem_filterMap.1 reconciled with ⟨read, mem, logged⟩
  rcases seen_eq_reconciled (seen_of_netEvent logged) with ⟨state, rfl⟩
  rw [netEvent_eq_resolved resolved]
  exact ⟨first, rest, state, rfl, mem⟩

end

/-- **Nothing is sent while an order is open**, in a run where the loop only starts when the
order of the pending intent alone is open, and only reads the balances when that order is not. -/
theorem nothing_sent_in_flight (live last : Live) (history : List Happening)
    (initial : Initial live) (run : Run (movesOf step settling) live history last) :
    NothingSentInFlight live.disk history := by
  rcases settling_run initial run with ⟨net, netRun⟩
  rintro before event after split decision amount cid rfl early decision' amount' cid' late found
    split' restarted
  have law := (WriteAhead.sent_absorbed rfl netRun).of_view before _ after split
    (.log (.sent (decision, amount))) rfl (decision, amount) rfl
  apply absorbed_of_view
  rw [← numberAfter_view]
  refine law (early.filterMap netEvent) (decision', amount') (late.filterMap netEvent) ?_ ?_
  · have shown : netEvent (.did (.sent decision' amount' cid')) =
        some (.log (.sent (decision', amount'))) := rfl
    rw [split', List.filterMap_append, List.filterMap_cons_some shown]
  · exact ⟨found.pendingIntent, List.mem_filterMap.2 ⟨_, restarted, rfl⟩⟩

/-- An order that is accepted after the restart, and settles before the next process reads the
balances. -/
def settledOrder : List Action :=
  [.invoke, .supervise injectiveDeployment none, .iterate entryIteration, .perform, .perform,
    .perform, .perform, .die, .invoke, .supervise injectiveDeployment none, .accept 1, .resolve 1,
    .iterate entryIteration, .perform, .perform, .finish, .iterate entryIteration, .perform,
    .perform, .perform, .perform]

def settledWords : List Word :=
  [.invoked, .restarted false, .reconciled, .ticked, .wrote true, .sent, .invoked,
    .restarted true, .accepted 1, .resolved 1, .reconciled, .wrote false, .reconciled, .ticked,
    .wrote true, .sent]

theorem nothing_sent_in_flight_settledOrder : ∃ history : List Happening,
    history.map word = settledWords ∧ NothingSentInFlight none history := by
  have traced : words settling settledOrder = some settledWords := by
    decide +kernel
  rcases run_of_words traced with ⟨last, history, told, run⟩
  exact ⟨history, told, nothing_sent_in_flight idleSystem last history initial_idleSystem run⟩

/-- What happens between the first order and the second one. -/
def unsettledWords : List Word :=
  [.accepted 1, .invoked, .restarted true, .reconciled, .wrote false, .reconciled, .ticked,
    .wrote true]

/-- The recovered process sends its order again, while the first one is in flight. -/
theorem order_sent_in_flight : ∃ last history,
    Run (movesOf step reconciling) idleSystem history last ∧ ¬NothingSentInFlight none history := by
  have traced : words reconciling resentOrder = some resentWords := by
    decide +kernel
  rcases run_of_words traced with ⟨last, history, told, run⟩
  refine ⟨last, history, run, ?_⟩
  intro nothing
  have split : resentWords = (resentWords.take 5 ++ .sent :: unsettledWords) ++ [.sent] := rfl
  rcases split_of_words (told.trans split) with ⟨before, event, after, rfl, told', sent, -⟩
  rcases split_of_words told' with ⟨early, event', late, rfl, -, sent', later⟩
  rcases sent with ⟨decision, amount, cid, rfl⟩
  rcases sent' with ⟨decision', amount', cid', rfl⟩
  have again : Word.restarted true ∈ late.map word := by
    rw [later]
    decide
  rcases says_of_mem again with ⟨restarted, mem, found, rfl⟩
  rcases nothing _ _ _ rfl decision amount cid rfl early decision' amount' cid' late found rfl mem
    with ⟨first, rest, state, rfl, -⟩
  have resolved : Word.resolved (PersistentState.load (diskAfter none early)).intentSeq ∈
      unsettledWords := by
    rw [← later]
    exact List.mem_map.2 ⟨.resolved _, by simp, rfl⟩
  simp [unsettledWords] at resolved

end Live

end SumplusTrader
