import SumplusTrader.Types
import SumplusTrader.Json.Dictionary
import SumplusTrader.Transition.Run

/-!
# The state file and its temporary file

This file models `PersistentState` of `agent/ops/state.py` down to the operations
on the two files a save touches: the temporary file is opened, written in pieces
and closed, and then replaces the state file at once; last, the directory is
synchronised. Between any two of these steps the save can raise or the process can
die, which leaves whatever the temporary file holds at that moment.

The history of a run notes each save that began, each whose replacement took
place, and each that returned. A load finds the dictionary of the last save whose
replacement took place. That is the last save that returned, or one that began
later and was interrupted behind its replacement. Such a save need not be the last
one that began: a later save can fail before its own replacement.
-/

namespace SumplusTrader

namespace StateFile

/-- `DEFAULTS`. -/
def defaults : JsonDict where
  entries := [("positions", ⟨.obj [], by simp [Json.DistinctKeys, Json.DistinctKeysFields]⟩),
    ("high_water_mark", ⟨Py.floatJson 0, trivial⟩), ("nav", ⟨Py.floatJson 0, trivial⟩),
    ("stable_usd", ⟨Py.floatJson 0, trivial⟩), ("receipt_seq", ⟨.num (.int 0), trivial⟩),
    ("last_tick_ts", ⟨Py.floatJson 0, trivial⟩), ("last_trade_ts", ⟨Py.floatJson 0, trivial⟩),
    ("trades_this_week", ⟨.num (.int 0), trivial⟩), ("trades_last_hour", ⟨.num (.int 0), trivial⟩),
    ("intent_seq", ⟨.num (.int 0), trivial⟩), ("pending_intent", ⟨.null, trivial⟩),
    ("mode", .ofString "paper"), ("kill", ⟨.bool false, trivial⟩)]
  nodup := by decide

/-- The contents of the state file and of the temporary file beside it. -/
structure Disk where
  target : Option (List Char)
  temp : Option (List Char)

/-- `load`, from the contents of the state file. -/
def load : Option (List Char) → Except PyError JsonDict
  | none => .ok defaults
  | some text =>
      match JsonDict.loads text with
      | none => .error (.raised ("could not load state: " ++ PyError.jsonDecode.text))
      | some value =>
          match JsonDict.ofJson? value with
          | none => .error (.raised "state root is not an object")
          | some loaded => .ok (defaults.update loaded)

/-- How far a running save has come. -/
inductive Stage where
  | begun
  | opened
  | closed
  | replaced
deriving DecidableEq

/-- The files, `self.data`, and the running save if there is one. -/
structure Store where
  disk : Disk
  data : JsonDict
  saving : Option Stage

/-- What happens next: a call, a step of the running save, or its failure. -/
inductive Action where
  | write (state : JsonDict)
  | update (fields : JsonDict)
  | load
  | openTemp
  | flush (count : ℕ)
  | closeTemp
  | replace
  | syncDir
  | ioError
  | crash (temp : Option (List Char))

inductive Event where
  | began (data : JsonDict)
  | replaced (data : JsonDict)
  | returned (data : JsonDict)

/-- Starts to save `self.data`. -/
def beginSave (store : Store) (data : JsonDict) : Store × List Event :=
  ({ store with data := data, saving := some .begun }, [.began data])

/-- One step of the process. A save cannot pass a stage it has not reached, and an
update with an unknown field raises before it changes anything. -/
def step (store : Store) : Action → Option (Store × List Event)
  | .write state =>
      if store.saving = none then some (beginSave store (defaults.update state)) else none
  | .update fields =>
      if store.saving = none ∧ ∀ key ∈ fields.keys, key ∈ defaults.keys then
        some (beginSave store (store.data.update fields))
      else none
  | .load =>
      if store.saving = none then
        match StateFile.load store.disk.target with
        | .ok loaded => some ({ store with data := loaded }, [])
        | .error _ => some (store, [])
      else none
  | .openTemp =>
      if store.saving = some .begun then
        some ({ store with disk.temp := some [], saving := some .opened }, [])
      else none
  | .flush count =>
      if store.saving = some .opened then
        some ({ store with disk.temp := some (store.data.dumps.take count) }, [])
      else none
  | .closeTemp =>
      if store.saving = some .opened then
        some ({ store with disk.temp := some store.data.dumps, saving := some .closed }, [])
      else none
  | .replace =>
      if store.saving = some .closed then
        some ({ store with
          disk := { target := store.disk.temp, temp := none }
          saving := some .replaced }, [.replaced store.data])
      else none
  | .syncDir =>
      if store.saving = some .replaced then
        some ({ store with saving := none }, [.returned store.data])
      else none
  | .ioError => if store.saving = none then none else some ({ store with saving := none }, [])
  | .crash temp =>
      some ({ disk := { store.disk with temp := temp }, data := defaults, saving := none }, [])

abbrev moves : Store → List Event → Store → Prop := movesOf step fun _ _ => true

/-- A first process, with no state file and any abandoned temporary file. -/
def fresh (temp : Option (List Char)) : Store where
  disk := { target := none, temp := temp }
  data := defaults
  saving := none

/-- The dictionaries of the last save whose replacement took place, of the last save
that returned, and of the saves that began since then. -/
structure Saves where
  inPlace : Option JsonDict
  finished : Option JsonDict
  since : List JsonDict

def Saves.note (saves : Saves) : Event → Saves
  | .began data => { saves with since := saves.since ++ [data] }
  | .replaced data => { saves with inPlace := some data }
  | .returned data => { saves with finished := some data, since := [] }

def savesOf (history : List Event) : Saves := history.foldl Saves.note ⟨none, none, []⟩

/-- The defaults overlaid with the dictionary of a save, if there is one. -/
def overlaid (saved : Option JsonDict) : JsonDict := defaults.update (saved.getD Dict.empty)

@[simp]
theorem savesOf_append (history : List Event) (events : List Event) :
    savesOf (history ++ events) = events.foldl Saves.note (savesOf history) := by
  rw [savesOf, List.foldl_append, savesOf]

/-- What holds of the temporary file and of the saves while a save runs. -/
def AtStage (saves : Saves) (store : Store) : Option Stage → Prop
  | none => True
  | some .begun => store.data ∈ saves.since
  | some .opened => store.data ∈ saves.since
  | some .closed => store.data ∈ saves.since ∧ store.disk.temp = some store.data.dumps
  | some .replaced => saves.inPlace = some store.data

/-- The state file holds the whole text of the save in place, which returned or began
since the last one that returned. -/
structure Consistent (saves : Saves) (store : Store) : Prop where
  target : store.disk.target = saves.inPlace.map JsonDict.dumps
  newest : saves.inPlace = saves.finished ∨ ∃ data ∈ saves.since, saves.inPlace = some data
  stage : AtStage saves store store.saving

theorem Consistent.begin {saves : Saves} {store : Store} (consistent : Consistent saves store)
    (data : JsonDict) :
    Consistent (saves.note (.began data))
      { store with data := data, saving := some .begun } where
  target := consistent.target
  newest := by
    rcases consistent.newest with finished | ⟨saved, began, inPlace⟩
    · exact .inl finished
    · exact .inr ⟨saved, List.mem_append_left _ began, inPlace⟩
  stage := List.mem_append_right _ (List.mem_singleton_self data)

/-- Every step keeps the files and the history consistent. -/
theorem consistent_step {saves : Saves} {store next : Store} {action : Action}
    {events : List Event} (consistent : Consistent saves store)
    (stepped : step store action = some (next, events)) :
    Consistent (events.foldl Saves.note saves) next := by
  have stage := consistent.stage
  cases action with
  | write state =>
      rw [step, Option.ite_none_right_eq_some] at stepped
      cases stepped.2
      exact consistent.begin _
  | update fields =>
      rw [step, Option.ite_none_right_eq_some] at stepped
      cases stepped.2
      exact consistent.begin _
  | load =>
      rw [step, Option.ite_none_right_eq_some] at stepped
      rcases stepped with ⟨idle, stepped⟩
      cases loaded : StateFile.load store.disk.target with
      | ok data =>
          rw [loaded] at stepped
          cases stepped
          exact ⟨consistent.target, consistent.newest, by rw [idle]; trivial⟩
      | error e =>
          rw [loaded] at stepped
          cases stepped
          exact consistent
  | openTemp =>
      rw [step, Option.ite_none_right_eq_some] at stepped
      rcases stepped with ⟨begun, stepped⟩
      cases stepped
      rw [begun] at stage
      exact ⟨consistent.target, consistent.newest, stage⟩
  | flush count =>
      rw [step, Option.ite_none_right_eq_some] at stepped
      rcases stepped with ⟨opened, stepped⟩
      cases stepped
      rw [opened] at stage
      exact ⟨consistent.target, consistent.newest, by rw [opened]; exact stage⟩
  | closeTemp =>
      rw [step, Option.ite_none_right_eq_some] at stepped
      rcases stepped with ⟨opened, stepped⟩
      cases stepped
      rw [opened] at stage
      exact ⟨consistent.target, consistent.newest, stage, rfl⟩
  | replace =>
      rw [step, Option.ite_none_right_eq_some] at stepped
      rcases stepped with ⟨closed, stepped⟩
      cases stepped
      rw [closed] at stage
      exact ⟨stage.2, .inr ⟨store.data, stage.1, rfl⟩, rfl⟩
  | syncDir =>
      rw [step, Option.ite_none_right_eq_some] at stepped
      rcases stepped with ⟨replaced, stepped⟩
      cases stepped
      rw [replaced] at stage
      exact ⟨consistent.target, .inl stage, trivial⟩
  | ioError =>
      rw [step, Option.ite_none_left_eq_some] at stepped
      cases stepped.2
      exact ⟨consistent.target, consistent.newest, trivial⟩
  | crash temp =>
      cases stepped
      exact ⟨consistent.target, consistent.newest, trivial⟩

theorem consistent_of_run {temp : Option (List Char)} {history : List Event} {store : Store}
    (run : Run moves (fresh temp) history store) : Consistent (savesOf history) store := by
  apply run.invariant fun history store => Consistent (savesOf history) store
  · exact ⟨rfl, .inl rfl, trivial⟩
  · rintro history store events next consistent ⟨action, -, stepped⟩
    rw [savesOf_append]
    exact consistent_step consistent stepped

/-- The text of a save loads as the defaults overlaid with its dictionary. -/
theorem load_dumps (saved : Option JsonDict) :
    ∃ loaded, load (saved.map JsonDict.dumps) = .ok loaded ∧ (overlaid saved).Same loaded := by
  cases saved with
  | none => exact ⟨defaults, rfl, JsonDict.Same.refl _⟩
  | some data =>
      rcases data.loads_dumps with ⟨value, read, parsed, converted, same⟩
      refine ⟨defaults.update read, ?_, same.update defaults⟩
      rw [Option.map_some, load, parsed]
      simp only [converted]

/-- **Crash-atomic saves.** In every run of calls, with a failure or a crash between
any two steps of any save, a load by a fresh object succeeds and returns the
defaults overlaid with the dictionary of the last save whose replacement took
place. That is the last save that returned, or one that began since and was
interrupted. -/
theorem load_after_failures (temp : Option (List Char)) (history : List Event) (store : Store)
    (run : Run moves (fresh temp) history store) :
    ∃ loaded, load store.disk.target = .ok loaded ∧
      (overlaid (savesOf history).inPlace).Same loaded ∧
      ((savesOf history).inPlace = (savesOf history).finished ∨
        ∃ data ∈ (savesOf history).since, (savesOf history).inPlace = some data) := by
  have consistent := consistent_of_run run
  rcases load_dumps (savesOf history).inPlace with ⟨loaded, read, same⟩
  exact ⟨loaded, by rw [consistent.target]; exact read, same, consistent.newest⟩

def navState (nav : ℤ) : JsonDict := ⟨[("nav", ⟨.num (.int nav), trivial⟩)], by simp⟩

/-- What `write` saves for a state. -/
def navData (nav : ℤ) : JsonDict := defaults.update (navState nav)

/-- A save that returns, one that raises behind its replacement, and one that raises
at once. -/
def failingSaves : List Action :=
  [.write (navState 1), .openTemp, .flush 5, .closeTemp, .replace, .syncDir,
    .write (navState 2), .openTemp, .closeTemp, .replace, .ioError, .write (navState 3), .ioError]

def failedStore : Store where
  disk := { target := some (navData 2).dumps, temp := none }
  data := navData 3
  saving := none

def failedHistory : List Event :=
  [.began (navData 1), .replaced (navData 1), .returned (navData 1), .began (navData 2),
    .replaced (navData 2), .began (navData 3)]

theorem run_failingSaves (temp : Option (List Char)) :
    Run moves (fresh temp) failedHistory failedStore := by
  have traced : trace step (fun _ _ => true) (fresh temp) failingSaves =
      some (failedStore, failedHistory) := rfl
  exact Run.of_trace traced

theorem load_after_failures_failedStore :
    ∃ loaded, load failedStore.disk.target = .ok loaded ∧
      (overlaid (savesOf failedHistory).inPlace).Same loaded ∧
      ((savesOf failedHistory).inPlace = (savesOf failedHistory).finished ∨
        ∃ data ∈ (savesOf failedHistory).since, (savesOf failedHistory).inPlace = some data) :=
  load_after_failures (some ['\x7b']) failedHistory failedStore (run_failingSaves _)

/-- Dictionaries that are the same as one dictionary store the same number. -/
theorem nav_eq_of_same {nav other : ℤ} {loaded : JsonDict}
    (same : (overlaid (some (navData nav))).Same loaded)
    (otherSame : (overlaid (some (navData other))).Same loaded) : nav = other := by
  have reads := same "nav"
  have otherReads := otherSame "nav"
  have stored : ∀ n, (overlaid (some (navData n))).get? "nav" = some ⟨.num (.int n), trivial⟩ := by
    intro n
    have own : (navState n).get? "nav" = some ⟨.num (.int n), trivial⟩ := by
      simp [navState, Dict.get?]
    rw [overlaid, Option.getD_some, Dict.get?_update, navData, Dict.get?_update, own]
    rfl
  rw [stored] at reads otherReads
  cases found : loaded.get? "nav" with
  | none =>
      rw [found] at reads
      cases reads
  | some value =>
      rw [found] at reads otherReads
      cases reads with
      | some number =>
          cases otherReads with
          | some otherNumber =>
              rcases value with ⟨tree, distinct⟩
              cases number
              cases otherNumber
              rfl

/-- A load can return a save that is neither the last one that returned nor the one
that was in progress last. -/
theorem interrupted_save_survives :
    Run moves (fresh none) failedHistory failedStore ∧
      ¬∃ loaded, load failedStore.disk.target = .ok loaded ∧
        ((overlaid (savesOf failedHistory).finished).Same loaded ∨
          ∃ data, (savesOf failedHistory).since.getLast? = some data ∧
            (overlaid (some data)).Same loaded) := by
  refine ⟨run_failingSaves none, ?_⟩
  rintro ⟨loaded, read, claimed⟩
  rcases load_dumps (some (navData 2)) with ⟨second, secondRead, same⟩
  have whole : loaded = second := by
    have agrees := read.symm.trans secondRead
    exact Except.ok.inj agrees
  subst whole
  rcases claimed with first | ⟨data, last, third⟩
  · exact absurd (nav_eq_of_same first same) (by decide)
  · have isThird : data = navData 3 := (Option.some.inj last).symm
    subst isThird
    exact absurd (nav_eq_of_same third same) (by decide)

end StateFile

end SumplusTrader
