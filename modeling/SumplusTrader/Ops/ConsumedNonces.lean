import SumplusTrader.Ops.Nonce

/-!
# Nonces that the chain has consumed

This file follows the reserved set of `NonceManager` over all runs. `sync` means to retire the
nonces that the chain has consumed, and removes the range from the local next nonce to the nonce
of the chain. But everything that is reserved lies below the local next nonce, so nothing is ever
removed (`reserved_sync`): a reservation ends only when its nonce is reported, as confirmed or as
failed. `consumed_retired_iff` says when no reservation below a nonce of the chain remains.
-/

namespace SumplusTrader

namespace NonceManager

/-- The nonce that a call reads from the chain, if it reads one. -/
def reading (manager : NonceManager) : Call × RpcPool → Option ℤ
  | (.reserve, rpc) =>
      if manager.gapped = false ∧ manager.nextNonce = none then
        (manager.readChainNonce rpc).toOption
      else none
  | (_, rpc) => (manager.readChainNonce rpc).toOption

/-- The reservations that are not reported, neither before the call nor by the call. -/
def unreported (manager : NonceManager) : Call → Finset ℤ
  | .sync => manager.reserved
  | .reserve => manager.reserved
  | .onConfirmed nonce => manager.reserved.erase nonce
  | .onFailed nonce => manager.reserved.erase nonce

/-- Every reservation that the chain is seen to have consumed has been reported. -/
def reported (manager : NonceManager) (call : Call × RpcPool) : Bool :=
  decide (∀ chainNonce ∈ manager.reading call, ∀ held ∈ manager.unreported call.1,
    chainNonce ≤ held)

/-- Nothing below a nonce is reserved. -/
def Retired (manager : NonceManager) (chainNonce : ℤ) : Prop :=
  ∀ held ∈ manager.reserved, chainNonce ≤ held

/-- An older reservation that is open when a nonce is confirmed. -/
def OlderOpen (manager : NonceManager) (nonce held : ℤ) : Prop :=
  held ∈ manager.reserved.erase nonce ∧ held < nonce

/-- Everything that is reserved is below the next nonce. -/
def Bounded (manager : NonceManager) : Prop := ∀ held ∈ manager.reserved, manager.Reaches (held + 1)

variable {manager next start : NonceManager} {history events : List Event}
  {call : Call × RpcPool} {address : String}

theorem mem_interval {low high held : ℤ} (mem : held ∈ interval low high) : low ≤ held := by
  unfold interval at mem
  rcases Finset.mem_image.1 mem with ⟨offset, -, rfl⟩
  omega

/-- No reservation is in the range that is cleared. -/
theorem sdiff_interval (bounded : manager.Bounded) {low : ℤ}
    (known : manager.nextNonce = some low) (high : ℤ) :
    manager.reserved \ interval low high = manager.reserved := by
  apply Finset.sdiff_eq_self_of_disjoint
  rw [Finset.disjoint_left]
  intro held mem cleared
  rcases bounded held mem with ⟨next, known', above⟩
  rw [known, Option.some.injEq] at known'
  have low := mem_interval cleared
  omega

theorem reserved_reconcile (bounded : manager.Bounded) (chainNonce : ℤ) :
    (manager.reconcile chainNonce).reserved = manager.reserved := by
  unfold reconcile
  cases known : manager.nextNonce with
  | none => rfl
  | some next =>
      dsimp only
      split
      · exact sdiff_interval bounded known chainNonce
      · rfl

/-- **Sync retires no reservation.** -/
theorem reserved_sync (bounded : manager.Bounded) (rpc : RpcPool) :
    (manager.sync rpc).1.reserved = manager.reserved := by
  unfold sync
  cases manager.readChainNonce rpc with
  | error error => rfl
  | ok chainNonce => exact reserved_reconcile bounded chainNonce

/-- A manager that differs in what is confirmed or failed, and reserves less, stays bounded. -/
theorem Bounded.of_subset (bounded : manager.Bounded) (less : next.reserved ⊆ manager.reserved)
    (same : next.nextNonce = manager.nextNonce) : next.Bounded := by
  intro held mem
  rcases bounded held (less mem) with ⟨nonce, known, above⟩
  exact ⟨nonce, same.trans known, above⟩

theorem reaches_sync {bound : ℤ} (reached : manager.Reaches bound) (rpc : RpcPool) :
    (manager.sync rpc).1.Reaches bound := by
  unfold sync
  cases manager.readChainNonce rpc with
  | error error => exact reached
  | ok chainNonce => exact (follows_reconcile manager chainNonce).reaches _ reached

theorem chainRead_mem_readings {rpc : RpcPool} {chainNonce : ℤ} :
    .chainRead chainNonce ∈ manager.readings rpc ↔
      chainNonce ∈ (manager.readChainNonce rpc).toOption := by
  unfold readings
  cases manager.readChainNonce rpc with
  | error error => simp [Except.toOption]
  | ok read => simp [Except.toOption, eq_comm]

theorem chainRead_mem_step (stepped : manager.step call = some (next, events)) (chainNonce : ℤ) :
    .chainRead chainNonce ∈ events ↔ chainNonce ∈ manager.reading call := by
  rcases call with ⟨_ | _ | nonce | nonce, rpc⟩
  · cases stepped
    exact chainRead_mem_readings
  · cases stepped
    rw [List.mem_append, or_iff_left, reading]
    · split
      · exact chainRead_mem_readings
      · simp
    · intro handedOut
      cases outcome : (manager.reserve rpc).2 with
      | error error => simp [outcome] at handedOut
      | ok nonce => simp [outcome] at handedOut
  · cases stepped
    exact chainRead_mem_readings
  · cases stepped
    rw [List.mem_cons, or_iff_right (by simp)]
    exact chainRead_mem_readings

theorem unreported_subset (call : Call) : manager.unreported call ⊆ manager.reserved := by
  cases call with
  | sync => exact Finset.Subset.refl _
  | reserve => exact Finset.Subset.refl _
  | onConfirmed nonce => exact Finset.erase_subset _ _
  | onFailed nonce => exact Finset.erase_subset _ _

/-- What a call does to the reservations: it leaves those that are not reported, and may add a
nonce that is not below what the chain shows or has shown. -/
theorem reserved_step (bounded : manager.Bounded)
    (stepped : manager.step call = some (next, events)) :
    (next.reserved = manager.unreported call.1 ∧
        ∀ bound, manager.Reaches bound → next.Reaches bound) ∨
      ∃ nonce, next.reserved = insert nonce (manager.unreported call.1) ∧
        next.nextNonce = some (nonce + 1) ∧
        (∀ chainNonce ∈ manager.reading call, chainNonce ≤ nonce) ∧
        ∀ bound, manager.Reaches bound → bound ≤ nonce := by
  rcases call with ⟨_ | _ | nonce | nonce, rpc⟩
  · cases stepped
    exact Or.inl ⟨reserved_sync bounded rpc, fun bound reached => reaches_sync reached rpc⟩
  · cases stepped
    rcases manager.reserve_cases rpc with ⟨error, result, -⟩ | ⟨nonce, healthy, known, result⟩
    · rw [result]
      exact Or.inl ⟨rfl, fun bound reached => reached⟩
    · rw [result]
      refine Or.inr ⟨nonce, rfl, rfl, ?_⟩
      rcases known with known | ⟨unknown, answer⟩
      · constructor
        · intro chainNonce read
          simp [reading, known] at read
        · rintro bound ⟨next, known', above⟩
          rw [known, Option.some.injEq] at known'
          omega
      · constructor
        · intro chainNonce read
          rw [reading, if_pos ⟨healthy, unknown⟩, answer] at read
          cases read
          exact le_rfl
        · rintro bound ⟨next, known, -⟩
          rw [unknown] at known
          cases known
  · cases stepped
    left
    constructor
    · rw [onConfirmed, reserved_sync]
      · rfl
      · exact bounded.of_subset (Finset.erase_subset _ _) rfl
    · intro bound reached
      apply reaches_sync
      exact reached
  · cases stepped
    left
    constructor
    · rw [onFailed, reserved_sync]
      · rfl
      · exact bounded.of_subset (Finset.erase_subset _ _) rfl
    · intro bound reached
      apply reaches_sync
      exact reached

theorem bounded_step (bounded : manager.Bounded)
    (stepped : manager.step call = some (next, events)) : next.Bounded := by
  intro held mem
  rcases reserved_step bounded stepped with ⟨reserved, reaches⟩ | ⟨nonce, reserved, known, -, above⟩
  · rw [reserved] at mem
    exact reaches _ (bounded held (unreported_subset call.1 mem))
  · refine ⟨nonce + 1, known, ?_⟩
    rw [reserved] at mem
    rcases Finset.mem_insert.1 mem with rfl | earlier
    · exact le_rfl
    · have below := above _ (bounded held (unreported_subset call.1 earlier))
      omega

/-- Every nonce that a call reads is retired exactly when the reservations below it have been
reported. -/
theorem retired_step_iff (bounded : manager.Bounded)
    (stepped : manager.step call = some (next, events)) :
    (∀ chainNonce, .chainRead chainNonce ∈ events → next.Retired chainNonce) ↔
      manager.reported call = true := by
  rw [reported, decide_eq_true_iff]
  constructor
  · intro retired chainNonce read held mem
    rw [← chainRead_mem_step stepped] at read
    apply retired chainNonce read held
    rcases reserved_step bounded stepped with ⟨reserved, -⟩ | ⟨nonce, reserved, -⟩
    · rw [reserved]
      exact mem
    · rw [reserved]
      exact Finset.mem_insert_of_mem mem
  · intro clear chainNonce read held mem
    rw [chainRead_mem_step stepped] at read
    rcases reserved_step bounded stepped with ⟨reserved, -⟩ | ⟨nonce, reserved, -, above, -⟩
    · rw [reserved] at mem
      exact clear chainNonce read held mem
    · rw [reserved] at mem
      rcases Finset.mem_insert.1 mem with rfl | old
      · exact above chainNonce read
      · exact clear chainNonce read held old

theorem bounded_init (created : init address = .ok start) : start.Bounded := by
  unfold init at created
  split at created
  · cases created
  · cases created
    intro held mem
    simp at mem

theorem bounded_of_run (bounded : start.Bounded) (run : Run Moves start history manager) :
    manager.Bounded := by
  apply run.invariant fun _ => Bounded
  · exact bounded
  · rintro _ state events next bounded ⟨call, -, stepped⟩
    exact bounded_step bounded stepped

/-- A nonce that the chain has shown stays retired. -/
theorem retired_later (bounded : manager.Bounded) {chainNonce : ℤ}
    (reached : manager.Reaches chainNonce) (retired : manager.Retired chainNonce)
    (stepped : manager.step call = some (next, events)) : next.Retired chainNonce := by
  intro held mem
  rcases reserved_step bounded stepped with ⟨reserved, -⟩ | ⟨nonce, reserved, -, -, above⟩
  · rw [reserved] at mem
    exact retired held (unreported_subset call.1 mem)
  · rw [reserved] at mem
    rcases Finset.mem_insert.1 mem with rfl | old
    · exact above chainNonce reached
    · exact retired held (unreported_subset call.1 old)

/-- Over the runs in which every consumed reservation is reported before the chain is read. -/
theorem retired_of_run (bounded : start.Bounded)
    (run : Run (movesOf step reported) start history manager) {chainNonce : ℤ}
    (read : .chainRead chainNonce ∈ history) : manager.Retired chainNonce := by
  have law : Sound history manager ∧ manager.Bounded ∧
      ∀ chainNonce, .chainRead chainNonce ∈ history → manager.Retired chainNonce := by
    apply run.invariant fun history manager => Sound history manager ∧ manager.Bounded ∧
      ∀ chainNonce, .chainRead chainNonce ∈ history → manager.Retired chainNonce
    · refine ⟨sound_of_run .stay, bounded, ?_⟩
      intro chainNonce absent
      cases absent
    · rintro history state events next ⟨sound, bounded, retired⟩ ⟨call, clear, stepped⟩
      refine ⟨sound.step stepped, bounded_step bounded stepped, ?_⟩
      intro chainNonce read
      rcases List.mem_append.1 read with earlier | now
      · exact retired_later bounded (sound.chainRead chainNonce earlier)
          (retired chainNonce earlier) stepped
      · exact (retired_step_iff bounded stepped).2 clear chainNonce now
  exact law.2.2 chainNonce read

/-- **A reading of the chain retires what the chain has consumed** exactly when every reservation
below it has been reported. Over the runs in which this holds of every call, nothing that the
chain has consumed is open when a nonce is confirmed. -/
theorem consumed_retired_iff (address : String) (start : NonceManager)
    (created : init address = .ok start) :
    (∀ history manager, Run Moves start history manager →
      ∀ call next events, manager.step call = some (next, events) →
        ((∀ chainNonce, .chainRead chainNonce ∈ events → next.Retired chainNonce) ↔
          manager.reported call = true)) ∧
      ∀ history manager, Run (movesOf step reported) start history manager →
        ∀ chainNonce, .chainRead chainNonce ∈ history → manager.Retired chainNonce ∧
          ∀ nonce held, manager.OlderOpen nonce held → chainNonce ≤ held := by
  have bounded := bounded_init created
  constructor
  · intro history manager run call next events stepped
    exact retired_step_iff (bounded_of_run bounded run) stepped
  · intro history manager run chainNonce read
    have retired := retired_of_run bounded run read
    refine ⟨retired, ?_⟩
    intro nonce held older
    exact retired held (Finset.mem_of_mem_erase older.1)

theorem consumed_retired_after_report :
    ∃ manager, Run (movesOf step reported) idle [.chainRead 1, .handedOut 1, .chainRead 4] manager ∧
      manager.Retired 4 := by
  refine ⟨_, Run.of_trace (rfl : trace step reported idle
    [(.reserve, counting 1), (.onConfirmed 1, counting 4)] =
      some (_, [.chainRead 1, .handedOut 1, .chainRead 4])), ?_⟩
  refine ((consumed_retired_iff "0xabc" idle rfl).2 [.chainRead 1, .handedOut 1, .chainRead 4] _
    (Run.of_trace (rfl : trace step reported idle
      [(.reserve, counting 1), (.onConfirmed 1, counting 4)] = some (_, _))) 4 ?_).1
  decide

/-- The nonce 1 is handed out, and `sync` reads that the chain counts four: the reservation
remains, and the next nonce that is confirmed locks the manager. -/
theorem consumed_reservation_stays :
    init "0xabc" = .ok idle ∧
      ∃ manager, Run Moves idle [.chainRead 1, .handedOut 1, .chainRead 4] manager ∧
        ¬ manager.Retired 4 ∧ manager.gapped = false ∧
          (manager.reserve (counting 4)).1.OlderOpen 4 1 ∧
            ((manager.reserve (counting 4)).1.onConfirmed 4 (counting 5)).1.gapped = true := by
  refine ⟨rfl, _, Run.of_trace (rfl : trace step (fun _ _ => true) idle
    [(.reserve, counting 1), (.sync, counting 4)] =
      some (_, [.chainRead 1, .handedOut 1, .chainRead 4])), ?_, ?_, ?_, ?_⟩
  · intro retired
    have above := retired 1 (by decide +kernel)
    omega
  · decide +kernel
  · unfold OlderOpen
    decide +kernel
  · decide +kernel

end NonceManager

end SumplusTrader
