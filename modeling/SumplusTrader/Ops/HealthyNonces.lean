import SumplusTrader.Ops.Nonce

/-!
# Healthy nonce sequences

This file runs the nonce manager against a chain that does nothing wrong. Reserved nonces are
broadcast, mined and confirmed in order, no attempt fails, and the chain counts the transactions
that are in the pending pool or mined.

The manager locks itself in some of these runs, because it takes a reservation that has not been
broadcast for a gap. `isGapped_iff` says in which: in those with an early reading of the chain,
one that finds nonces outstanding and none of them broadcast.
-/

namespace SumplusTrader

/-- The manager with the nonces it has handed out, and the number of transactions of the account
that are in the pending pool or mined. -/
structure Account where
  manager : NonceManager
  count : ℤ
  unsent : List ℤ
  pending : List ℤ
  mined : List ℤ

namespace Account

open NonceManager

inductive Action where
  | sync
  | reserve
  | broadcast
  | mine
  | confirm

/-- What a run notes: readings of the chain, with whether they come early, and refusals. -/
inductive Note where
  | reading (early : Bool)
  | gapError
deriving DecidableEq

def opened (manager : NonceManager) (count : ℤ) : Account := ⟨manager, count, [], [], []⟩

/-- The nonces that are handed out and not confirmed. -/
def outstanding (account : Account) : List ℤ := account.mined ++ account.pending ++ account.unsent

/-- Nonces are outstanding, and none of them has been broadcast. -/
def early (account : Account) : Bool :=
  account.mined = [] ∧ account.pending = [] ∧ account.unsent ≠ []

def step (account : Account) : Action × RpcPool → Option (Account × List Note)
  | (.sync, rpc) =>
      some ({ account with manager := (account.manager.sync rpc).1 }, [.reading account.early])
  | (.reserve, rpc) =>
      let reading := if account.manager.gapped = false ∧ account.manager.nextNonce = none then
        [.reading account.early] else []
      match account.manager.reserve rpc with
      | (manager, .ok nonce) =>
          some ({ account with manager := manager, unsent := account.unsent ++ [nonce] }, reading)
      | (manager, .error (.nonceGapError _)) =>
          some ({ account with manager := manager }, reading ++ [.gapError])
      | (manager, .error _) => some ({ account with manager := manager }, reading)
  | (.broadcast, _) =>
      match account.unsent with
      | [] => none
      | nonce :: unsent =>
          some ({ account with
            count := account.count + 1
            unsent := unsent
            pending := account.pending ++ [nonce] }, [])
  | (.mine, _) =>
      match account.pending with
      | [] => none
      | nonce :: pending =>
          some ({ account with pending := pending, mined := account.mined ++ [nonce] }, [])
  | (.confirm, rpc) =>
      match account.mined with
      | [] => none
      | nonce :: mined =>
          let account' := { account with mined := mined }
          some ({ account' with manager := (account.manager.onConfirmed nonce rpc).1 },
            [.reading account'.early])

/-- The chain answers with the number of transactions. -/
def answered (account : Account) (action : Action × RpcPool) : Bool :=
  account.manager.readChainNonce action.2 = .ok account.count

abbrev Moves : Account → List Note → Account → Prop := movesOf step answered

/-- The nonces follow one another. -/
def Consecutive : ℤ → List ℤ → Prop
  | _, [] => True
  | low, nonce :: nonces => nonce = low ∧ Consecutive (low + 1) nonces

/-- The reserved nonces are the outstanding ones, from `low` up to the next one, and the count
stands at the first that is not broadcast. -/
structure Tracks (low next : ℤ) (account : Account) : Prop where
  nextNonce : account.manager.nextNonce = some next ∨
    account.manager.nextNonce = none ∧ next = account.count ∧ account.outstanding = []
  consecutive : Consecutive low account.outstanding
  length : low + account.outstanding.length = next
  reserved : ∀ nonce, nonce ∈ account.manager.reserved ↔ low ≤ nonce ∧ nonce < next
  count : account.count + account.unsent.length = next

/-- The manager tracks the account, and is locked after an early reading alone. -/
structure Healthy (history : List Note) (account : Account) : Prop where
  tracks : ∃ low next, account.Tracks low next
  gapped : account.manager.gapped = true ↔ .reading true ∈ history
  refused : .gapError ∈ history → .reading true ∈ history

variable {account account' : Account} {history : List Note} {low next nonce : ℤ} {rpc : RpcPool}

theorem consecutive_concat {nonces : List ℤ} (consecutive : Consecutive low nonces) :
    Consecutive low (nonces ++ [low + nonces.length]) := by
  induction nonces generalizing low with
  | nil => simp [Consecutive]
  | cons nonce nonces ih =>
      refine ⟨consecutive.1, ?_⟩
      have shifted : low + ((nonce :: nonces).length : ℤ) = low + 1 + nonces.length := by
        push_cast [List.length_cons]
        ring
      rw [shifted]
      exact ih consecutive.2

/-- With a nonce outstanding the manager knows the next one. -/
theorem Tracks.known (tracks : account.Tracks low next) (some : account.outstanding ≠ []) :
    account.manager.nextNonce = .some next := by
  rcases tracks.nextNonce with known | ⟨-, -, empty⟩
  · exact known
  · exact absurd empty some

theorem early_iff (tracks : account.Tracks low next) :
    account.early = true ↔ account.count ≤ low ∧ low < next := by
  have length := tracks.length
  have count := tracks.count
  unfold outstanding at length
  simp only [early, decide_eq_true_eq, ne_eq, ← List.length_eq_zero_iff]
  simp only [List.length_append, Nat.cast_add] at length
  omega

theorem hasGap_iff (tracks : account.Tracks low next) :
    HasGap account.manager.reserved account.count next ↔ account.early = true := by
  rw [early_iff tracks]
  unfold HasGap
  simp only [tracks.reserved]
  constructor
  · rintro ⟨above, held, bounds, -⟩
    have nonempty : low < next := by omega
    exact ⟨above low ⟨le_rfl, nonempty⟩, nonempty⟩
  · rintro ⟨sent, nonempty⟩
    exact ⟨fun held bounds => by omega, low, ⟨le_rfl, nonempty⟩, nonempty⟩

/-- What a reading of the chain changes in the manager. -/
theorem reconcile_count (tracks : account.Tracks low next) :
    account.manager.reconcile account.count = { account.manager with
      nextNonce := some next
      gapped := account.manager.gapped || account.early } := by
  have gap := hasGap_iff tracks
  have count := tracks.count
  unfold reconcile
  rcases tracks.nextNonce with known | ⟨unknown, same, empty⟩
  · have ahead : ¬next < account.count := by omega
    simp [known, ahead, gap]
  · have idle : account.early = false := by
      simp only [outstanding, List.append_eq_nil_iff] at empty
      simp [early, empty]
    simp [unknown, same, idle]

/-- A reading keeps track of the account. -/
theorem Tracks.read (tracks : account.Tracks low next) (gapped : Bool)
    (confirmed failed : Finset ℤ) :
    Tracks low next { account with manager := { account.manager with
      nextNonce := some next, gapped := gapped, confirmed := confirmed, failed := failed } } where
  nextNonce := Or.inl rfl
  consecutive := tracks.consecutive
  length := tracks.length
  reserved := tracks.reserved
  count := tracks.count

theorem Healthy.read (healthy : Healthy history account)
    (answer : account.manager.readChainNonce rpc = .ok account.count) :
    Healthy (history ++ [.reading account.early])
      { account with manager := (account.manager.sync rpc).1 } := by
  rcases healthy.tracks with ⟨low, next, tracks⟩
  have manager : (account.manager.sync rpc).1 = { account.manager with
      nextNonce := some next
      gapped := account.manager.gapped || account.early } := by
    simp only [NonceManager.sync, answer]
    exact reconcile_count tracks
  rw [manager]
  refine ⟨⟨low, next, tracks.read _ _ _⟩, ?_, ?_⟩
  · have locked := healthy.gapped
    cases account.early with
    | true => simp
    | false => simpa using locked
  · intro refused
    simp only [List.mem_append, List.mem_singleton, reduceCtorEq, or_false] at refused
    exact List.mem_append_left _ (healthy.refused refused)

/-- A reservation of a manager that is not locked hands out the next nonce. -/
theorem reserve_of_tracks (tracks : account.Tracks low next)
    (unlocked : account.manager.gapped = false)
    (answer : account.manager.readChainNonce rpc = .ok account.count) :
    account.manager.reserve rpc = ({ account.manager with
      reserved := insert next account.manager.reserved
      nextNonce := some (next + 1) }, .ok next) := by
  unfold NonceManager.reserve
  rcases tracks.nextNonce with known | ⟨unknown, rfl, -⟩
  · simp [unlocked, known]
  · simp [unlocked, unknown, NonceManager.sync, answer, reconcile]

theorem Tracks.reserve (tracks : account.Tracks low next) :
    Tracks low (next + 1) { account with
      manager := { account.manager with
        reserved := insert next account.manager.reserved, nextNonce := some (next + 1) }
      unsent := account.unsent ++ [next] } where
  nextNonce := Or.inl rfl
  consecutive := by
    have longer := consecutive_concat tracks.consecutive
    rw [tracks.length] at longer
    simpa [outstanding] using longer
  length := by
    have length := tracks.length
    simp only [outstanding, List.length_append, Nat.cast_add] at length ⊢
    simp only [List.length_singleton, Nat.cast_one]
    omega
  reserved := by
    intro nonce
    have nonempty : low ≤ next := by
      have length := tracks.length
      omega
    rw [Finset.mem_insert, tracks.reserved]
    omega
  count := by
    have count := tracks.count
    simp only [List.length_append, List.length_singleton, Nat.cast_add, Nat.cast_one]
    omega

theorem Tracks.broadcast (tracks : account.Tracks low next) {unsent : List ℤ}
    (waiting : account.unsent = nonce :: unsent) :
    Tracks low next { account with
      count := account.count + 1, unsent := unsent, pending := account.pending ++ [nonce] } where
  nextNonce := by
    left
    apply tracks.known
    simp [outstanding, waiting]
  consecutive := by
    have consecutive := tracks.consecutive
    simpa [outstanding, waiting] using consecutive
  length := by
    have length := tracks.length
    simpa [outstanding, waiting] using length
  reserved := tracks.reserved
  count := by
    have count := tracks.count
    rw [waiting] at count
    push_cast [List.length_cons] at count
    dsimp only
    omega

theorem Tracks.mine (tracks : account.Tracks low next) {pending : List ℤ}
    (waiting : account.pending = nonce :: pending) :
    Tracks low next { account with pending := pending, mined := account.mined ++ [nonce] } where
  nextNonce := by
    left
    apply tracks.known
    simp [outstanding, waiting]
  consecutive := by
    have consecutive := tracks.consecutive
    simpa [outstanding, waiting] using consecutive
  length := by
    have length := tracks.length
    simpa [outstanding, waiting] using length
  reserved := tracks.reserved
  count := tracks.count

/-- The least outstanding nonce is confirmed. -/
theorem Tracks.confirm (tracks : account.Tracks low next) {mined : List ℤ}
    (waiting : account.mined = nonce :: mined) (gapped : Bool) :
    nonce = low ∧ Tracks (low + 1) next { account with
      mined := mined
      manager := { account.manager with
        confirmed := insert nonce account.manager.confirmed
        reserved := account.manager.reserved.erase nonce
        gapped := gapped } } := by
  have consecutive := tracks.consecutive
  have length := tracks.length
  simp only [outstanding, waiting, List.cons_append] at consecutive length
  rcases consecutive with ⟨rfl, consecutive⟩
  refine ⟨rfl, ?_, consecutive, ?_, ?_, tracks.count⟩
  · left
    apply tracks.known
    simp [outstanding, waiting]
  · push_cast [List.length_cons] at length
    dsimp only [outstanding]
    omega
  · intro other
    dsimp only
    rw [Finset.mem_erase, tracks.reserved]
    omega

theorem Healthy.reserve (healthy : Healthy history account) {events : List Note}
    (answer : account.manager.readChainNonce rpc = .ok account.count)
    (stepped : account.step (.reserve, rpc) = some (account', events)) :
    Healthy (history ++ events) account' := by
  rcases healthy.tracks with ⟨low, next, tracks⟩
  cases locked : account.manager.gapped with
  | true =>
      have result : account.manager.reserve rpc =
          (account.manager, .error (.nonceGapError "nonce state is gapped")) := by
        simp [NonceManager.reserve, locked]
      simp only [step, result, locked, Bool.true_eq_false, false_and, if_false, List.nil_append,
        Option.some.injEq, Prod.mk.injEq] at stepped
      rcases stepped with ⟨rfl, rfl⟩
      have warned := healthy.gapped.1 locked
      exact ⟨⟨low, next, tracks⟩, by simp [locked, warned], by simp [warned]⟩
  | false =>
      have result := reserve_of_tracks tracks locked answer
      have silent : events = [] ∨ events = [.reading false] := by
        simp only [step, result, locked, true_and, Option.some.injEq, Prod.mk.injEq] at stepped
        rcases stepped with ⟨-, rfl⟩
        rcases tracks.nextNonce with known | ⟨unknown, -, empty⟩
        · simp [known]
        · simp only [outstanding, List.append_eq_nil_iff] at empty
          simp [unknown, early, empty]
      simp only [step, result, Option.some.injEq, Prod.mk.injEq] at stepped
      rcases stepped with ⟨rfl, -⟩
      refine ⟨⟨low, next + 1, tracks.reserve⟩, ?_, ?_⟩
      · have same := healthy.gapped
        rw [locked] at same ⊢
        rcases silent with rfl | rfl <;> simpa using same
      · intro refused
        have before : .gapError ∈ history := by
          rcases silent with rfl | rfl <;> simpa using refused
        exact List.mem_append_left _ (healthy.refused before)

/-- A confirmation in order leaves no gap. -/
theorem Healthy.confirm (healthy : Healthy history account) {mined : List ℤ}
    (waiting : account.mined = nonce :: mined) : Healthy history { account with
      mined := mined
      manager := { account.manager with
        confirmed := insert nonce account.manager.confirmed
        reserved := account.manager.reserved.erase nonce
        gapped := account.manager.gapped ||
          decide (∃ held ∈ account.manager.reserved.erase nonce, held < nonce) } } := by
  rcases healthy.tracks with ⟨low, next, tracks⟩
  have least := (tracks.confirm waiting false).1
  have ordered : ¬∃ held ∈ account.manager.reserved.erase nonce, held < nonce := by
    rintro ⟨held, mem, below⟩
    have bounds := (tracks.reserved held).1 (Finset.mem_of_mem_erase mem)
    omega
  refine ⟨⟨low + 1, next, (tracks.confirm waiting _).2⟩, ?_, healthy.refused⟩
  simp only [ordered, decide_false, Bool.or_false]
  exact healthy.gapped

theorem Healthy.step (healthy : Healthy history account) {action : Action × RpcPool}
    {events : List Note} (answer : account.answered action = true)
    (stepped : account.step action = some (account', events)) :
    Healthy (history ++ events) account' := by
  rcases action with ⟨action, rpc⟩
  rcases healthy.tracks with ⟨low, next, tracks⟩
  simp only [answered, decide_eq_true_eq] at answer
  cases action with
  | sync =>
      cases stepped
      exact healthy.read answer
  | reserve => exact healthy.reserve answer stepped
  | broadcast =>
      unfold Account.step at stepped
      cases waiting : account.unsent with
      | nil => simp [waiting] at stepped
      | cons nonce unsent =>
          simp only [waiting, Option.some.injEq, Prod.mk.injEq] at stepped
          rcases stepped with ⟨rfl, rfl⟩
          rw [List.append_nil]
          exact ⟨⟨low, next, tracks.broadcast waiting⟩, healthy.gapped, healthy.refused⟩
  | mine =>
      unfold Account.step at stepped
      cases waiting : account.pending with
      | nil => simp [waiting] at stepped
      | cons nonce pending =>
          simp only [waiting, Option.some.injEq, Prod.mk.injEq] at stepped
          rcases stepped with ⟨rfl, rfl⟩
          rw [List.append_nil]
          exact ⟨⟨low, next, tracks.mine waiting⟩, healthy.gapped, healthy.refused⟩
  | confirm =>
      unfold Account.step at stepped
      cases waiting : account.mined with
      | nil => simp [waiting] at stepped
      | cons nonce mined =>
          simp only [waiting, Option.some.injEq, Prod.mk.injEq] at stepped
          rcases stepped with ⟨rfl, rfl⟩
          exact (healthy.confirm waiting).read answer

theorem healthy_of_run {manager : NonceManager} {address : String} {count : ℤ}
    (fresh : NonceManager.init address = .ok manager)
    (run : Run Moves (opened manager count) history account) : Healthy history account := by
  unfold NonceManager.init at fresh
  split at fresh
  · cases fresh
  · cases fresh
    apply run.invariant Healthy
    · refine ⟨⟨count, count, Or.inr ⟨rfl, rfl, rfl⟩, trivial, ?_, ?_, ?_⟩, ?_, ?_⟩
      · simp [outstanding, opened]
      · intro nonce
        simp only [opened, Finset.notMem_empty, false_iff, not_and, not_lt]
        exact id
      · simp [opened]
      · simp [opened]
      · simp
    · rintro history state events next healthy ⟨action, answer, stepped⟩
      exact healthy.step answer stepped

/-- **A healthy sequence locks the manager** exactly when the chain is read early, and no other
reservation is refused for a gap. -/
theorem isGapped_iff (address : String) (manager : NonceManager) (count : ℤ)
    (fresh : NonceManager.init address = .ok manager) (history : List Note) (account : Account)
    (run : Run Moves (opened manager count) history account) :
    (account.manager.isGapped = true ↔ .reading true ∈ history) ∧
      (.gapError ∈ history → .reading true ∈ history) :=
  ⟨(healthy_of_run fresh run).gapped, (healthy_of_run fresh run).refused⟩

theorem isGapped_iff_of_one : ∃ account,
    Run Moves (opened idle 5) [.reading false, .reading false, .reading false] account ∧
      account.manager.isGapped = false := by
  have run := Run.of_trace (rfl : trace step answered (opened idle 5)
    [(.reserve, counting 5), (.broadcast, counting 5), (.sync, counting 6), (.mine, counting 6),
      (.confirm, counting 6)] = some (_, [.reading false, .reading false, .reading false]))
  refine ⟨_, run, ?_⟩
  have unlocked := (isGapped_iff "0xabc" idle 5 rfl
    [.reading false, .reading false, .reading false] _ run).1
  rw [← Bool.not_eq_true, unlocked]
  decide

/-- A reading between a reservation and its broadcast locks the manager. -/
theorem healthy_sequence_locks :
    ¬∀ (address : String) (manager : NonceManager) (count : ℤ),
      NonceManager.init address = .ok manager → ∀ history account,
        Run Moves (opened manager count) history account →
          account.manager.isGapped = false ∧ .gapError ∉ history := by
  intro never
  have run := Run.of_trace (rfl : trace step answered (opened idle 5)
    [(.reserve, counting 5), (.sync, counting 5), (.reserve, counting 5)] =
      some (_, [.reading false, .reading true, .gapError]))
  have refused := (never "0xabc" idle 5 rfl _ _ run).2
  simp at refused

end Account

end SumplusTrader
