import SumplusTrader.Execution.Environ
import SumplusTrader.Transition.Run
import Mathlib.Data.Finset.Image

/-!
# The nonce manager

This file models `NonceManager` of `agent/ops/nonce.py`. The manager hands out nonces from the
chain's pending nonce on, and reconciles itself with the chain whenever it reads that nonce. It
locks itself for good once its state is ambiguous.

A pool of endpoints is what it answers to one request, so a call takes the pool as it is at that
time. `nonce_safety` is a law of the histories of all runs: what a call hands out, reads or is
told to have failed is noted in them.
-/

namespace SumplusTrader

structure NonceManager where
  address : String
  nextNonce : Option ℤ
  reserved : Finset ℤ
  confirmed : Finset ℤ
  failed : Finset ℤ
  gapped : Bool

namespace NonceManager

/-- The exceptions of the manager, and those it lets through. -/
inductive Raised where
  | nonceError (message : String)
  | nonceGapError (message : String)
  | other (error : PyError)
deriving DecidableEq

/-- The pool of endpoints: what `call` answers to a method and its parameters. -/
abbrev RpcPool := String → List String → Except PyError Json

def init (address : String) : Except PyError NonceManager :=
  if address = "" then .error (.raised "address is required")
  else .ok ⟨address, none, ∅, ∅, ∅, false⟩

/-- Hexadecimal digits, with an underscore before some of them. -/
def hexDigits : List Char → Option (List (Fin 16))
  | [] => some []
  | '_' :: c :: cs =>
      (Json.hex? c).bind fun digit => (hexDigits cs).map fun digits => digit :: digits
  | c :: cs => (Json.hex? c).bind fun digit => (hexDigits cs).map fun digits => digit :: digits

/-- `int(text, 16)` of a text that starts with `0x`. -/
def intOfHex (text : String) : Except PyError ℤ :=
  match hexDigits ((Py.strip text.toList).drop 2) with
  | some (digit :: digits) =>
      .ok ((digit :: digits).foldl (fun acc (d : Fin 16) => acc * 16 + (d : ℤ)) 0)
  | _ => .error (.raised ("invalid literal for int() with base 16: '" ++ text ++ "'"))

/-- `int(text)` of a text whose digits may be grouped by underscores. -/
def intOfGrouped (text : String) : Except PyError ℤ :=
  intOfText (((ungroup text.toList).map String.ofList).getD text)

def readChainNonce (manager : NonceManager) (rpc : RpcPool) : Except Raised ℤ :=
  match rpc "eth_getTransactionCount" [manager.address, "pending"] with
  | .error error => .error (.other error)
  | .ok (.obj response) =>
      match response.lookup "result" with
      | some (.str raw) =>
          (if "0x".toList.isPrefixOf raw.toList then intOfHex raw else intOfGrouped raw).mapError
            .other
      | some (.num (.int raw)) => .ok raw
      | some (.bool raw) => .ok (if raw then 1 else 0)
      | _ => .error (.nonceError "invalid chain nonce response")
  | .ok _ => .error (.other .attributeError)

/-- `range(low, high)`. -/
def interval (low high : ℤ) : Finset ℤ :=
  (Finset.range (high - low).toNat).image fun (offset : ℕ) => low + (offset : ℤ)

/-- Nonces are reserved, and the least of them is at or above the nonce of the chain and below
the next one. -/
def HasGap (reserved : Finset ℤ) (chainNonce next : ℤ) : Prop :=
  (∀ held ∈ reserved, chainNonce ≤ held) ∧ ∃ held ∈ reserved, held < next

instance (reserved : Finset ℤ) (chainNonce next : ℤ) :
    Decidable (HasGap reserved chainNonce next) := inferInstanceAs (Decidable (_ ∧ _))

/-- What `sync` does with the nonce read from the chain. -/
def reconcile (manager : NonceManager) (chainNonce : ℤ) : NonceManager :=
  match manager.nextNonce with
  | none => { manager with nextNonce := some chainNonce }
  | some next =>
      if next < chainNonce then
        { manager with
          confirmed := manager.confirmed ∪ interval next chainNonce
          reserved := manager.reserved \ interval next chainNonce
          nextNonce := some chainNonce
          gapped := manager.gapped ||
            HasGap (manager.reserved \ interval next chainNonce) chainNonce chainNonce }
      else
        { manager with gapped := manager.gapped || HasGap manager.reserved chainNonce next }

def sync (manager : NonceManager) (rpc : RpcPool) : NonceManager × Except Raised Unit :=
  match manager.readChainNonce rpc with
  | .error error => (manager, .error error)
  | .ok chainNonce => (manager.reconcile chainNonce, .ok ())

def reserve (manager : NonceManager) (rpc : RpcPool) : NonceManager × Except Raised ℤ :=
  if manager.gapped then (manager, .error (.nonceGapError "nonce state is gapped"))
  else
    let synced := if manager.nextNonce = none then manager.sync rpc else (manager, .ok ())
    match synced.2 with
    | .error error => (synced.1, .error error)
    | .ok () =>
        match synced.1.nextNonce with
        | none => (synced.1, .error (.nonceError "nonce state was not initialized"))
        | some nonce =>
            ({ synced.1 with
              reserved := insert nonce synced.1.reserved
              nextNonce := some (nonce + 1) }, .ok nonce)

def onConfirmed (manager : NonceManager) (nonce : ℤ) (rpc : RpcPool) :
    NonceManager × Except Raised Unit :=
  let reserved := manager.reserved.erase nonce
  sync
    { manager with
      confirmed := insert nonce manager.confirmed
      reserved := reserved
      gapped := manager.gapped || decide (∃ held ∈ reserved, held < nonce) } rpc

def onFailed (manager : NonceManager) (nonce : ℤ) (rpc : RpcPool) :
    NonceManager × Except Raised Unit :=
  sync
    { manager with
      failed := insert nonce manager.failed
      reserved := manager.reserved.erase nonce
      gapped := manager.gapped || decide (∀ next ∈ manager.nextNonce, nonce < next) } rpc

def isGapped (manager : NonceManager) : Bool := manager.gapped

inductive Call where
  | sync
  | reserve
  | onConfirmed (nonce : ℤ)
  | onFailed (nonce : ℤ)

inductive Event where
  | chainRead (nonce : ℤ)
  | handedOut (nonce : ℤ)
  | failed (nonce : ℤ)
deriving DecidableEq

/-- Notes what a reading of the chain gives. -/
def readings (manager : NonceManager) (rpc : RpcPool) : List Event :=
  match manager.readChainNonce rpc with
  | .error _ => []
  | .ok chainNonce => [.chainRead chainNonce]

def step (manager : NonceManager) : Call × RpcPool → Option (NonceManager × List Event)
  | (.sync, rpc) => some ((manager.sync rpc).1, manager.readings rpc)
  | (.reserve, rpc) =>
      let reading :=
        if manager.gapped = false ∧ manager.nextNonce = none then manager.readings rpc else []
      let handedOut := match (manager.reserve rpc).2 with
        | .error _ => []
        | .ok nonce => [.handedOut nonce]
      some ((manager.reserve rpc).1, reading ++ handedOut)
  | (.onConfirmed nonce, rpc) => some ((manager.onConfirmed nonce rpc).1, manager.readings rpc)
  | (.onFailed nonce, rpc) =>
      some ((manager.onFailed nonce rpc).1, .failed nonce :: manager.readings rpc)

/-- Any call, with any answer of the pool. -/
abbrev Moves : NonceManager → List Event → NonceManager → Prop := movesOf step fun _ _ => true

/-- A nonce is handed out above all that were handed out before, not below a nonce that the
chain has shown, and not after the failure of one that was handed out. -/
def Safe (before : List Event) : Event → Prop
  | .handedOut nonce =>
      (∀ earlier, .handedOut earlier ∈ before → earlier < nonce) ∧
        (∀ chainNonce, .chainRead chainNonce ∈ before → chainNonce ≤ nonce) ∧
          ∀ failed early late, before = early ++ .failed failed :: late →
            .handedOut failed ∉ early
  | _ => True

/-- The next nonce is known, and not below a bound. -/
def Reaches (manager : NonceManager) (bound : ℤ) : Prop :=
  ∃ next, manager.nextNonce = some next ∧ bound ≤ next

/-- No bound is lost, and the lock stays. -/
structure Follows (manager next : NonceManager) : Prop where
  reaches : ∀ bound, manager.Reaches bound → next.Reaches bound
  gapped : manager.gapped = true → next.gapped = true

variable {manager next start : NonceManager} {history : List Event} {nonce chainNonce : ℤ}
  {rpc : RpcPool}

theorem nextNonce_reconcile (manager : NonceManager) (chainNonce : ℤ) :
    (manager.reconcile chainNonce).nextNonce =
      some (manager.nextNonce.elim chainNonce fun next => max next chainNonce) := by
  unfold reconcile
  cases known : manager.nextNonce with
  | none => rfl
  | some next =>
      rcases lt_or_ge next chainNonce with behind | ahead
      · simp [behind, max_eq_right behind.le]
      · simp [not_lt.2 ahead, max_eq_left ahead]

theorem gapped_reconcile (locked : manager.gapped = true) (chainNonce : ℤ) :
    (manager.reconcile chainNonce).gapped = true := by
  unfold reconcile
  cases manager.nextNonce with
  | none => exact locked
  | some next =>
      dsimp only
      split
      · simp [locked]
      · simp [locked]

theorem follows_reconcile (manager : NonceManager) (chainNonce : ℤ) :
    manager.Follows (manager.reconcile chainNonce) := by
  refine ⟨?_, fun locked => gapped_reconcile locked chainNonce⟩
  rintro bound ⟨next, known, above⟩
  refine ⟨_, nextNonce_reconcile manager chainNonce, ?_⟩
  rw [known]
  exact le_max_of_le_left above

theorem reaches_reconcile (manager : NonceManager) (chainNonce : ℤ) :
    (manager.reconcile chainNonce).Reaches chainNonce := by
  refine ⟨_, nextNonce_reconcile manager chainNonce, ?_⟩
  cases manager.nextNonce with
  | none => exact le_rfl
  | some next => exact le_max_right next chainNonce

/-- A refused reservation changes nothing, and the chain gave it no nonce; else the next nonce is
handed out, which is read from the chain when it is not known. -/
theorem reserve_cases (manager : NonceManager) (rpc : RpcPool) :
    (∃ error, manager.reserve rpc = (manager, .error error) ∧
        (manager.gapped = false ∧ manager.nextNonce = none → manager.readings rpc = [])) ∨
      ∃ nonce, manager.gapped = false ∧
        (manager.nextNonce = some nonce ∨
          manager.nextNonce = none ∧ manager.readChainNonce rpc = .ok nonce) ∧
        manager.reserve rpc = ({ manager with
          reserved := insert nonce manager.reserved
          nextNonce := some (nonce + 1) }, .ok nonce) := by
  unfold reserve
  cases locked : manager.gapped with
  | true =>
      left
      exact ⟨_, rfl, by simp⟩
  | false =>
      cases known : manager.nextNonce with
      | some nonce =>
          right
          exact ⟨nonce, rfl, Or.inl rfl, by simp [known, locked]⟩
      | none =>
          cases reading : manager.readChainNonce rpc with
          | error error =>
              left
              exact ⟨error, by simp [sync, reading], by simp [readings, reading]⟩
          | ok nonce =>
              right
              refine ⟨nonce, rfl, Or.inr ⟨rfl, rfl⟩, ?_⟩
              simp [sync, reading, reconcile, known, locked]

theorem reserve_refused {error : Raised} (refused : (manager.reserve rpc).2 = .error error) :
    (manager.reserve rpc).1 = manager := by
  rcases manager.reserve_cases rpc with ⟨other, result, -⟩ | ⟨nonce, -, -, result⟩
  · rw [result]
  · rw [result] at refused
    exact absurd refused (by simp)

/-- What the manager knows of its history. -/
structure Sound (history : List Event) (manager : NonceManager) : Prop where
  handedOut : ∀ nonce, .handedOut nonce ∈ history → manager.Reaches (nonce + 1)
  chainRead : ∀ chainNonce, .chainRead chainNonce ∈ history → manager.Reaches chainNonce
  failed : ∀ nonce early late, history = early ++ .failed nonce :: late →
    .handedOut nonce ∈ early → manager.gapped = true
  safe : Justified Safe history

theorem Sound.follow (sound : Sound history manager) (follows : manager.Follows next) :
    Sound history next where
  handedOut := fun nonce mem => follows.reaches _ (sound.handedOut nonce mem)
  chainRead := fun chainNonce mem => follows.reaches _ (sound.chainRead chainNonce mem)
  failed := fun nonce early late split mem =>
    follows.gapped (sound.failed nonce early late split mem)
  safe := sound.safe

/-- One more event is sound when the manager knows what it tells, and the law allows it. -/
theorem Sound.note (sound : Sound history manager) {event : Event}
    (handedOut : ∀ nonce, event = .handedOut nonce → manager.Reaches (nonce + 1))
    (chainRead : ∀ chainNonce, event = .chainRead chainNonce → manager.Reaches chainNonce)
    (failed : ∀ nonce, event = .failed nonce → .handedOut nonce ∈ history →
      manager.gapped = true)
    (safe : Safe history event) : Sound (history ++ [event]) manager where
  handedOut := by
    intro nonce mem
    rcases List.mem_append.1 mem with earlier | last
    · exact sound.handedOut nonce earlier
    · exact handedOut nonce (List.mem_singleton.1 last).symm
  chainRead := by
    intro chainNonce mem
    rcases List.mem_append.1 mem with earlier | last
    · exact sound.chainRead chainNonce earlier
    · exact chainRead chainNonce (List.mem_singleton.1 last).symm
  failed := by
    intro nonce early late split mem
    rcases split_concat split with ⟨rfl, last, -⟩ | ⟨rest, -, within⟩
    · exact failed nonce last.symm mem
    · exact sound.failed nonce early rest within mem
  safe := (justified_concat Safe event).2 ⟨sound.safe, safe⟩

theorem Sound.note_chainRead (sound : Sound history manager)
    (reached : manager.Reaches chainNonce) :
    Sound (history ++ [.chainRead chainNonce]) manager := by
  refine sound.note (by simp) ?_ (by simp) trivial
  rintro other ⟨⟩
  exact reached

theorem Sound.note_failed (sound : Sound history manager)
    (locked : .handedOut nonce ∈ history → manager.gapped = true) :
    Sound (history ++ [.failed nonce]) manager := by
  refine sound.note (by simp) (by simp) ?_ trivial
  rintro other ⟨⟩
  exact locked

/-- The next nonce is above what was handed out, and not below what the chain has shown. -/
theorem Sound.safe_handedOut (sound : Sound history manager) (healthy : manager.gapped = false)
    (known : manager.nextNonce = some nonce) : Safe history (.handedOut nonce) := by
  have bounded : ∀ {bound}, manager.Reaches bound → bound ≤ nonce := by
    rintro bound ⟨next, known', above⟩
    rw [known, Option.some.injEq] at known'
    rw [known']
    exact above
  refine ⟨?_, ?_, ?_⟩
  · intro earlier mem
    have above := bounded (sound.handedOut earlier mem)
    omega
  · intro chainNonce mem
    exact bounded (sound.chainRead chainNonce mem)
  · intro failed early late split mem
    have locked := sound.failed failed early late split mem
    rw [healthy] at locked
    cases locked

theorem Sound.note_handedOut (sound : Sound history manager) (healthy : manager.gapped = false)
    (known : manager.nextNonce = some nonce) (reserved : Finset ℤ) :
    Sound (history ++ [.handedOut nonce])
      { manager with reserved := reserved, nextNonce := some (nonce + 1) } := by
  have advanced : manager.Follows
      { manager with reserved := reserved, nextNonce := some (nonce + 1) } := by
    refine ⟨?_, fun locked => locked⟩
    rintro bound ⟨next, known', above⟩
    rw [known, Option.some.injEq] at known'
    exact ⟨nonce + 1, rfl, by omega⟩
  refine (sound.follow advanced).note ?_ (by simp) (by simp) (sound.safe_handedOut healthy known)
  rintro other ⟨⟩
  exact ⟨nonce + 1, rfl, le_rfl⟩

theorem Sound.sync (sound : Sound history manager) (rpc : RpcPool) :
    Sound (history ++ manager.readings rpc) (manager.sync rpc).1 := by
  unfold readings NonceManager.sync
  cases manager.readChainNonce rpc with
  | error error =>
      rw [List.append_nil]
      exact sound
  | ok chainNonce =>
      have followed := sound.follow (follows_reconcile manager chainNonce)
      exact followed.note_chainRead (reaches_reconcile manager chainNonce)

theorem Sound.reserve (sound : Sound history manager) {events : List Event}
    (stepped : step manager (.reserve, rpc) = some (next, events)) :
    Sound (history ++ events) next := by
  simp only [step, Option.some.injEq, Prod.mk.injEq] at stepped
  rcases stepped with ⟨rfl, rfl⟩
  rcases manager.reserve_cases rpc with ⟨error, result, silent⟩ | ⟨nonce, healthy, known, result⟩
  · rw [result]
    dsimp only
    rw [List.append_nil]
    split
    · next asked =>
      rw [silent asked, List.append_nil]
      exact sound
    · rw [List.append_nil]
      exact sound
  · rw [result]
    rcases known with known | ⟨unknown, reading⟩
    · simp only [known, reduceCtorEq, and_false, if_false, List.nil_append]
      exact sound.note_handedOut healthy known _
    · have told := sound.sync rpc
      simp only [readings, NonceManager.sync, reading, reconcile, unknown] at told
      rw [if_pos ⟨healthy, unknown⟩]
      simp only [readings, reading, ← List.append_assoc]
      exact told.note_handedOut healthy rfl _

theorem Sound.step (sound : Sound history manager) {call : Call × RpcPool} {events : List Event}
    (stepped : manager.step call = some (next, events)) : Sound (history ++ events) next := by
  rcases call with ⟨_ | _ | nonce | nonce, rpc⟩
  · cases stepped
    exact sound.sync rpc
  · exact sound.reserve stepped
  · cases stepped
    have marked : Sound history
        { manager with
          confirmed := insert nonce manager.confirmed
          reserved := manager.reserved.erase nonce
          gapped := manager.gapped ||
            decide (∃ held ∈ manager.reserved.erase nonce, held < nonce) } := by
      apply sound.follow
      exact ⟨fun bound reached => reached, fun locked => by simp [locked]⟩
    exact marked.sync rpc
  · cases stepped
    have marked : Sound (history ++ [.failed nonce])
        { manager with
          failed := insert nonce manager.failed
          reserved := manager.reserved.erase nonce
          gapped := manager.gapped || decide (∀ next ∈ manager.nextNonce, nonce < next) } := by
      apply Sound.note_failed
      · apply sound.follow
        exact ⟨fun bound reached => reached, fun locked => by simp [locked]⟩
      · intro mem
        rcases sound.handedOut nonce mem with ⟨next, known, above⟩
        have below : nonce < next := by omega
        simp [known, below]
    rw [← List.singleton_append, ← List.append_assoc]
    exact marked.sync rpc

theorem sound_of_run (run : Run Moves start history manager) : Sound history manager := by
  apply run.invariant Sound
  · refine ⟨by simp, by simp, ?_, justified_nil Safe⟩
    intro nonce early late split
    simp at split
  · rintro history state events next sound ⟨call, -, stepped⟩
    exact sound.step stepped

/-- **Nonce safety**: over every run, nonces are handed out in increasing order and not below
what the chain has shown, none after the failure of one that was handed out, and a refused
reservation changes nothing. -/
theorem nonce_safety (start : NonceManager) (history : List Event) (manager : NonceManager)
    (run : Run Moves start history manager) :
    Justified Safe history ∧
      ∀ rpc error, (manager.reserve rpc).2 = .error error → (manager.reserve rpc).1 = manager :=
  ⟨(sound_of_run run).safe, fun _ _ refused => reserve_refused refused⟩

/-- A manager that has not read the chain. -/
def idle : NonceManager := ⟨"0xabc", none, ∅, ∅, ∅, false⟩

/-- The pool while the chain counts so many transactions. -/
def counting (count : ℤ) : RpcPool := fun _ _ =>
  .ok (.obj [("jsonrpc", .str "2.0"), ("id", .num (.int 1)), ("result", .num (.int count))])

theorem nonce_safety_of_two :
    Justified Safe [.chainRead 5, .handedOut 5, .handedOut 6, .failed 5, .chainRead 4] :=
  (nonce_safety idle _ _ (Run.of_trace (rfl : trace step (fun _ _ => true) idle
    [(.reserve, counting 5), (.reserve, counting 5), (.onFailed 5, counting 4)] =
      some (_, [.chainRead 5, .handedOut 5, .handedOut 6, .failed 5, .chainRead 4])))).1

end NonceManager

end SumplusTrader
