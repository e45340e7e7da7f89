import Mathlib.Data.List.Basic

/-!
# Runs and their histories

This file develops labelled transition relations over arbitrary types of states and events. A
move may note events, and the history of a run is the list of what its moves have noted.

An invariant speaks about a state and the history that led to it. A law of histories says that
each event is justified by the events before it; it is proved by showing that each move notes
only justified events. A run is refined along a view of its events, which may hide some.
-/

/-- The runs from a state: the history and the state that is reached. -/
inductive Run {σ ε : Type} (moves : σ → List ε → σ → Prop) (start : σ) : List ε → σ → Prop where
  | stay : Run moves start [] start
  | move {history events : List ε} {state next : σ} (run : Run moves start history state)
      (moved : moves state events next) : Run moves start (history ++ events) next

/-- Every event of a history is justified by the events before it. -/
def Justified {ε : Type} (ok : List ε → ε → Prop) (history : List ε) : Prop :=
  ∀ before event after, history = before ++ event :: after → ok before event

/-- The moves of a step function whose actions are allowed. -/
def movesOf {σ α ε : Type} (step : σ → α → Option (σ × List ε)) (allowed : σ → α → Bool)
    (state : σ) (events : List ε) (next : σ) : Prop :=
  ∃ action, allowed state action = true ∧ step state action = some (next, events)

/-- Takes some actions in order, as long as they are allowed: the last state and the history. -/
def trace {σ α ε : Type} (step : σ → α → Option (σ × List ε)) (allowed : σ → α → Bool)
    (state : σ) : List α → Option (σ × List ε)
  | [] => some (state, [])
  | action :: actions =>
      if allowed state action then
        (step state action).bind fun moved =>
          (trace step allowed moved.1 actions).map fun rest => (rest.1, moved.2 ++ rest.2)
      else none

section

variable {σ τ ε ε' : Type} {moves moves' : σ → List ε → σ → Prop} {start state : σ}
  {history : List ε}

theorem justified_nil (ok : List ε → ε → Prop) : Justified ok [] := by
  intro before event after split
  simp at split

/-- A splitting of a history with one more event is at that event, or within the history. -/
theorem split_concat {last event : ε} {before after : List ε}
    (split : history ++ [last] = before ++ event :: after) :
    (before = history ∧ event = last ∧ after = []) ∨
      ∃ rest, after = rest ++ [last] ∧ history = before ++ event :: rest := by
  rcases List.eq_nil_or_concat' after with rfl | ⟨rest, other, rfl⟩
  · left
    rcases List.append_inj' split rfl with ⟨same, event⟩
    rw [List.cons.injEq] at event
    exact ⟨same.symm, event.1.symm, rfl⟩
  · right
    rw [← List.cons_append, ← List.append_assoc] at split
    rcases List.append_inj' split rfl with ⟨same, event⟩
    rw [List.cons.injEq] at event
    exact ⟨rest, by rw [event.1], same⟩

theorem justified_concat (ok : List ε → ε → Prop) (event : ε) :
    Justified ok (history ++ [event]) ↔ Justified ok history ∧ ok history event := by
  constructor
  · intro justified
    refine ⟨?_, justified history event [] rfl⟩
    intro before other after split
    exact justified before other (after ++ [event]) (by simp [split])
  · rintro ⟨justified, last⟩ before other after split
    rcases split_concat split with ⟨rfl, rfl, -⟩ | ⟨rest, -, within⟩
    · exact last
    · exact justified before other rest within

/-- A splitting of what a view shows is the view of a splitting. -/
theorem split_of_view {view : ε → Option ε'} {before after : List ε'} {shown : ε'}
    (split : history.filterMap view = before ++ shown :: after) :
    ∃ early event late, history = early ++ event :: late ∧ early.filterMap view = before ∧
      view event = some shown ∧ late.filterMap view = after := by
  rcases List.filterMap_eq_append_iff.1 split with ⟨early, rest, rfl, shows, rest'⟩
  rcases List.filterMap_eq_cons_iff.1 rest' with ⟨hidden, event, late, rfl, hides, seen, shows'⟩
  refine ⟨early ++ hidden, event, late, by simp, ?_, seen, shows'⟩
  rw [List.filterMap_append, List.filterMap_eq_nil_iff.2 hides, List.append_nil, shows]

/-- A law of what a view shows is a law of the history. -/
theorem Justified.of_view {ok : List ε' → ε' → Prop} {view : ε → Option ε'}
    (justified : Justified ok (history.filterMap view)) :
    Justified (fun before event => ∀ shown ∈ view event, ok (before.filterMap view) shown)
      history := by
  intro before event after split shown seen
  refine justified (before.filterMap view) shown (after.filterMap view) ?_
  rw [split, List.filterMap_append, List.filterMap_cons_some seen]

/-- An invariant of the states and the histories that lead to them. -/
theorem Run.invariant (inv : List ε → σ → Prop) (initial : inv [] start)
    (preserved : ∀ history state events next, inv history state → moves state events next →
      inv (history ++ events) next)
    (run : Run moves start history state) : inv history state := by
  induction run with
  | stay => exact initial
  | move run moved ih => exact preserved _ _ _ _ ih moved

/-- A law holds of the histories when each move notes at most one event, and one that is
justified by the history of a run to its state. -/
theorem Run.justified {ok : List ε → ε → Prop}
    (noted : ∀ history state events next, Run moves start history state →
      moves state events next → events = [] ∨ ∃ event, events = [event] ∧ ok history event)
    (run : Run moves start history state) : Justified ok history := by
  induction run with
  | stay => exact justified_nil ok
  | move run moved ih =>
      rcases noted _ _ _ _ run moved with rfl | ⟨event, rfl, justified⟩
      · rw [List.append_nil]
        exact ih
      · rw [justified_concat]
        exact ⟨ih, justified⟩

theorem Run.single {events : List ε} {next : σ} (moved : moves start events next) :
    Run moves start events next := by
  simpa using Run.move .stay moved

theorem Run.trans {later : List ε} {next : σ} (run : Run moves start history state)
    (continued : Run moves state later next) : Run moves start (history ++ later) next := by
  induction continued with
  | stay => simpa using run
  | move continued moved ih =>
      rw [← List.append_assoc]
      exact ih.move moved

theorem Run.mono (weaker : ∀ state events next, moves state events next → moves' state events next)
    (run : Run moves start history state) : Run moves' start history state := by
  induction run with
  | stay => exact .stay
  | move run moved ih => exact ih.move (weaker _ _ _ moved)

/-- Runs refine along a view when each move is matched by a run. -/
theorem Run.refines {moves' : τ → List ε' → τ → Prop} {view : ε → Option ε'} {start' : τ}
    (rel : σ → τ → Prop) (initial : rel start start')
    (matched : ∀ state events next state', rel state state' → moves state events next →
      ∃ next', Run moves' state' (events.filterMap view) next' ∧ rel next next')
    (run : Run moves start history state) :
    ∃ state', Run moves' start' (history.filterMap view) state' ∧ rel state state' := by
  induction run with
  | stay => exact ⟨start', .stay, initial⟩
  | move run moved ih =>
      rcases ih with ⟨state', earlier, related⟩
      rcases matched _ _ _ _ related moved with ⟨next', later, related'⟩
      refine ⟨next', ?_, related'⟩
      rw [List.filterMap_append]
      exact earlier.trans later

theorem Run.of_trace {α : Type} {step : σ → α → Option (σ × List ε)} {allowed : σ → α → Bool}
    {actions : List α} {last : σ} (traced : trace step allowed start actions = some (last, history)) :
    Run (movesOf step allowed) start history last := by
  induction actions generalizing start history with
  | nil =>
      simp only [trace, Option.some.injEq, Prod.mk.injEq] at traced
      rcases traced with ⟨rfl, rfl⟩
      exact .stay
  | cons action actions ih =>
      unfold trace at traced
      split at traced
      · next permitted =>
        simp only [Option.bind_eq_some_iff, Option.map_eq_some_iff, Prod.mk.injEq] at traced
        rcases traced with ⟨⟨next, events⟩, stepped, ⟨last, later⟩, rest, rfl, rfl⟩
        exact (Run.single ⟨action, permitted, stepped⟩).trans (ih rest)
      · simp at traced

end
