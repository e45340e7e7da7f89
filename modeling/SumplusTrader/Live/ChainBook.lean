import SumplusTrader.Live.Reconcile
import SumplusTrader.Ops.PersistentState

/-!
# The book after a reconcile

This file says what reconciling with the chain makes of the book. Both functions read the same
way, so they are taken together as one source of balances. A balance that cannot be read leaves
the state alone. Else the positions and the cash are those of the balances, whatever the state
held before, and marking the book leaves out the value of the tokens that were dropped as dust.

The dropped value is less than `dustUsd` for each of the dropped tokens, and it is none when no
token was dropped. `reconcile_of_chain` puts this together.
-/

namespace SumplusTrader

namespace Live

/-- Where balances are read: the tokens of a wallet, or the subaccount of a contract. -/
inductive BalanceSource where
  | wallet (balanceOf : String → String → Except PyError ℤ) (address : String)
  | subaccount (backend : InjectiveBackend) (env : Environ) (chain : InjectiveChain)

namespace BalanceSource

def read (source : BalanceSource) (symbols : List String) : Except PyError (Dict String ℚ) :=
  match source with
  | wallet balanceOf address => readTokenBalances balanceOf address symbols
  | subaccount backend env chain => backend.readSubaccountBalances env chain symbols

def defaultQuotes : BalanceSource → List String
  | wallet _ _ => ["USDT", "USDC"]
  | subaccount _ _ _ => ["USDT"]

/-- The reconcile function of a source. -/
def sync (source : BalanceSource) (state : State) (price : Dict String ℚ)
    (universeTokens : List String) (quotes : Option (List String)) (wall : ℚ) : Option State :=
  match source with
  | wallet balanceOf address =>
      syncStateFromChain state balanceOf address price universeTokens quotes wall
  | subaccount backend env chain =>
      syncStateFromInjective state backend env chain price universeTokens quotes wall

/-- The symbols that count as cash. -/
def stables (source : BalanceSource) (quotes : Option (List String)) : List String :=
  ((quotes.getD source.defaultQuotes).map Py.upper).dedup

/-- Reading the balance of one symbol fails. -/
def Fails (source : BalanceSource) (sym : String) : Prop :=
  match source with
  | wallet balanceOf address => ∃ addr e, bscTokens.lookup (Py.upper sym) = some addr ∧
      balanceOf addr address = .error e
  | subaccount backend env chain => ∃ e, (do
      chain.connect
      let subaccount ← InjectiveMarket.subaccountId backend.executorAddr backend.subaccountIndex
      let (denom, _) ← InjectiveMarket.token env sym
      chain.subaccountBalance subaccount denom) = .error e

end BalanceSource

/-- What a call leaves in the state, and whether it returns true. -/
def syncOutcome (state : State) (result : Option State) : State × Bool :=
  match result with
  | none => (state, false)
  | some next => (next, true)

/-- The symbols of a book, with their quantities. -/
def holdings (state : State) : List (String × ℚ) :=
  state.positions.entries.map fun entry => (entry.1, entry.2.qty)

/-- The value of a balance that is not cash. -/
def balanceUsd (price : Dict String ℚ) (entry : String × ℚ) : ℚ :=
  entry.2 * priceOr 0 price entry.1

/-- The balances that become positions. -/
def keptBalances (stables : List String) (price : Dict String ℚ) (balances : Dict String ℚ) :
    List (String × ℚ) :=
  balances.entries.filter fun entry => entry.1 ∉ stables ∧ dustUsd ≤ balanceUsd price entry

/-- The balances that are neither cash nor positions. -/
def droppedBalances (stables : List String) (price : Dict String ℚ) (balances : Dict String ℚ) :
    List (String × ℚ) :=
  balances.entries.filter fun entry => entry.1 ∉ stables ∧ balanceUsd price entry < dustUsd

def cashUsd (stables : List String) (price : Dict String ℚ) (balances : Dict String ℚ) : ℚ :=
  (stables.map fun sym => (balances.get? sym).getD 0 * priceOr 1 price sym).sum

/-- The value of all balances: cash at its price or at one, and the rest at its price or at
nothing. -/
def chainUsd (stables : List String) (price : Dict String ℚ) (balances : Dict String ℚ) : ℚ :=
  cashUsd stables price balances +
    ((balances.entries.filter fun entry => entry.1 ∉ stables).map (balanceUsd price)).sum

variable {source : BalanceSource} {state other next next' : State} {price : Dict String ℚ}
  {universeTokens symbols stables : List String} {quotes : Option (List String)} {wall : ℚ}
  {balances : Dict String ℚ} {sym : String}

theorem sync_eq (source : BalanceSource) (state : State) (price : Dict String ℚ)
    (universeTokens : List String) (quotes : Option (List String)) (wall : ℚ) :
    source.sync state price universeTokens quotes wall =
      syncState state quotes source.defaultQuotes price wall
        (source.read (syncSymbols universeTokens quotes)) := by
  cases source with
  | wallet balanceOf address => rfl
  | subaccount backend env chain => rfl

theorem sync_of_error {e : PyError}
    (failed : source.read (syncSymbols universeTokens quotes) = .error e) :
    source.sync state price universeTokens quotes wall = none := by
  rw [sync_eq, failed]
  rfl

theorem sync_of_ok (read : source.read (syncSymbols universeTokens quotes) = .ok balances) :
    source.sync state price universeTokens quotes wall =
      some (synced state (source.stables quotes) price wall balances) := by
  rw [sync_eq, read]
  rfl

/-- A read fails as soon as the read of one symbol does. -/
theorem read_of_fails (mem : sym ∈ symbols) (fails : source.Fails sym) :
    ∃ e, source.read symbols = .error e := by
  cases source with
  | wallet balanceOf address =>
      rcases fails with ⟨addr, e, listed, failed⟩
      apply foldlM_error mem
      intro out
      refine ⟨e, ?_⟩
      simp only [listed, failed, bind, Except.bind]
  | subaccount backend env chain =>
      rcases fails with ⟨e, failed⟩
      simp only [BalanceSource.read, InjectiveBackend.readSubaccountBalances]
      cases connected : chain.connect with
      | error e' => exact ⟨e', by simp [bind, Except.bind]⟩
      | ok connection =>
          cases derived : InjectiveMarket.subaccountId backend.executorAddr backend.subaccountIndex with
          | error e' => exact ⟨e', by simp [bind, Except.bind]⟩
          | ok subaccount =>
              simp only [connected, derived, bind, Except.bind] at failed
              simp only [bind, Except.bind]
              apply foldlM_error mem
              intro out
              cases listed : InjectiveMarket.token env sym with
              | error e' => exact ⟨e', rfl⟩
              | ok denominated =>
                  rw [listed] at failed
                  exact ⟨e, by simp [failed]⟩

/-- Balances are read under upper-case symbols. -/
theorem upper_of_read (read : source.read symbols = .ok balances) :
    ∀ entry ∈ balances.entries, Py.upper entry.1 = entry.1 := by
  have stored : ∀ (out : Dict String ℚ) (sym : String) (qty : ℚ),
      (∀ entry ∈ out.entries, Py.upper entry.1 = entry.1) →
        ∀ entry ∈ (out.set (Py.upper sym) qty).entries, Py.upper entry.1 = entry.1 := by
    intro out sym qty upper entry mem
    rw [← Prod.mk.eta (p := entry), ← Dict.get?_eq_some_iff, Dict.get?_set] at mem
    split at mem
    · next same => rw [same, Py.upper_upper]
    · exact upper entry ((Dict.get?_eq_some_iff _ _ _).1 mem)
  cases source with
  | wallet balanceOf address =>
      refine foldlM_invariant (fun out => ∀ entry ∈ out.entries, Py.upper entry.1 = entry.1) ?_ ?_
        read
      · intro out sym out' upper stepped
        split at stepped
        · cases stepped
          exact upper
        · rcases bind_eq_ok_iff.1 stepped with ⟨raw, -, rest⟩
          cases rest
          exact stored out sym _ upper
      · intro entry mem
        cases mem
  | subaccount backend env chain =>
      rcases bind_eq_ok_iff.1 read with ⟨connection, -, rest⟩
      rcases bind_eq_ok_iff.1 rest with ⟨subaccount, -, folded⟩
      refine foldlM_invariant (fun out => ∀ entry ∈ out.entries, Py.upper entry.1 = entry.1) ?_ ?_
        folded
      · intro out sym out' upper stepped
        rcases bind_eq_ok_iff.1 stepped with ⟨listed, -, rest⟩
        rcases bind_eq_ok_iff.1 rest with ⟨available, -, rest⟩
        cases rest
        exact stored out sym _ upper
      · intro entry mem
        cases mem

theorem entries_synced (state : State) (stables : List String) (price : Dict String ℚ) (wall : ℚ)
    (balances : Dict String ℚ) :
    (synced state stables price wall balances).positions.entries =
      (keptBalances stables price balances).map fun entry =>
        (entry.1, syncedPosition state.positions price wall entry.1 entry.2) := by
  apply Dict.entries_ofList
  rw [List.map_map]
  exact balances.nodup.sublist (List.filter_sublist.map Prod.fst)

theorem qty_syncedPosition (old : Dict String HeldPosition) (price : Dict String ℚ) (wall : ℚ)
    (sym : String) (qty : ℚ) : (syncedPosition old price wall sym qty).qty = qty := by
  unfold syncedPosition
  split
  · rfl
  · rfl

theorem holdings_synced (state : State) (stables : List String) (price : Dict String ℚ) (wall : ℚ)
    (balances : Dict String ℚ) :
    holdings (synced state stables price wall balances) = keptBalances stables price balances := by
  rw [holdings, entries_synced, List.map_map]
  conv_rhs => rw [← List.map_id (keptBalances stables price balances)]
  apply List.map_congr_left
  intro entry _
  simp [qty_syncedPosition]

/-- A kept balance has a price, which marking uses. -/
theorem markPrice_of_kept {entry : String × ℚ} (upper : Py.upper entry.1 = entry.1)
    (kept : dustUsd ≤ balanceUsd price entry) (entryPrice : ℚ) :
    markPrice price entry.1 entryPrice = priceOr 0 price entry.1 := by
  unfold markPrice
  rw [upper]
  cases quoted : price.get? entry.1 with
  | none => norm_num [balanceUsd, priceOr, quoted, dustUsd] at kept
  | some px =>
      by_cases zero : px = 0
      · norm_num [balanceUsd, priceOr, quoted, zero, dustUsd] at kept
      · simp [priceOr, quoted, zero]

/-- Marking a synced book gives the cash and the value of the kept balances. -/
theorem markNav_synced (state : State) (stables : List String) (price : Dict String ℚ) (wall : ℚ)
    (upper : ∀ entry ∈ balances.entries, Py.upper entry.1 = entry.1) :
    (markNav (synced state stables price wall balances) price).1 =
      cashUsd stables price balances +
        ((keptBalances stables price balances).map (balanceUsd price)).sum := by
  have marked : markedUsd (synced state stables price wall balances) price =
      ((keptBalances stables price balances).map (balanceUsd price)).sum := by
    rw [markedUsd, Dict.total, entries_synced, List.map_map]
    congr 1
    apply List.map_congr_left
    intro entry mem
    rcases List.mem_filter.1 mem with ⟨held, kept⟩
    rw [decide_eq_true_iff] at kept
    simp only [Function.comp_apply, qty_syncedPosition, balanceUsd,
      markPrice_of_kept (upper entry held) kept.2]
  simp only [markNav, marked]
  rfl

theorem chainUsd_eq (stables : List String) (price : Dict String ℚ) (balances : Dict String ℚ) :
    chainUsd stables price balances = cashUsd stables price balances +
      ((keptBalances stables price balances).map (balanceUsd price)).sum +
      ((droppedBalances stables price balances).map (balanceUsd price)).sum := by
  let risky := balances.entries.filter fun entry => entry.1 ∉ stables
  have kept : keptBalances stables price balances =
      risky.filter fun entry => dustUsd ≤ balanceUsd price entry := by
    rw [List.filter_filter]
    apply List.filter_congr
    intro entry _
    rw [Bool.eq_iff_iff]
    simp only [Bool.and_eq_true, decide_eq_true_iff]
    exact and_comm
  have dropped : droppedBalances stables price balances =
      risky.filter fun entry => ¬dustUsd ≤ balanceUsd price entry := by
    rw [List.filter_filter]
    apply List.filter_congr
    intro entry _
    rw [Bool.eq_iff_iff]
    simp only [Bool.and_eq_true, decide_eq_true_iff, not_le]
    exact and_comm
  rw [kept, dropped, add_assoc, List.sum_map_filter_add_sum_map_filter_not]
  rfl

theorem sum_le_of_dust {values : List ℚ} (dust : ∀ value ∈ values, value < dustUsd) :
    values.sum ≤ dustUsd * values.length ∧
      (values ≠ [] → values.sum < dustUsd * values.length) := by
  induction values with
  | nil => simp
  | cons value values ih =>
      have first := dust value List.mem_cons_self
      have rest := (ih fun other mem => dust other (List.mem_cons_of_mem value mem)).1
      rw [List.sum_cons, List.length_cons, Nat.cast_add, Nat.cast_one, mul_add, mul_one]
      exact ⟨by linarith, fun _ => by linarith⟩

/-- The marked value is that of the chain less what was dropped. -/
structure LeavesDust (stables : List String) (price : Dict String ℚ) (balances : Dict String ℚ)
    (nav : ℚ) : Prop where
  within : chainUsd stables price balances - nav ≤
    dustUsd * (droppedBalances stables price balances).length
  below : droppedBalances stables price balances ≠ [] →
    chainUsd stables price balances - nav <
      dustUsd * (droppedBalances stables price balances).length
  nonneg : (∀ entry ∈ droppedBalances stables price balances, 0 ≤ priceOr 0 price entry.1) →
    0 ≤ chainUsd stables price balances - nav

theorem leavesDust_of_read (read : source.read symbols = .ok balances)
    (nonneg : ∀ entry ∈ balances.entries, 0 ≤ entry.2) (state : State) (stables : List String)
    (price : Dict String ℚ) (wall : ℚ) :
    LeavesDust stables price balances
      (markNav (synced state stables price wall balances) price).1 := by
  have dropped : chainUsd stables price balances -
      (markNav (synced state stables price wall balances) price).1 =
        ((droppedBalances stables price balances).map (balanceUsd price)).sum := by
    rw [chainUsd_eq, markNav_synced state stables price wall (upper_of_read read)]
    ring
  have dust : ∀ value ∈ (droppedBalances stables price balances).map (balanceUsd price),
      value < dustUsd := by
    intro value mem
    rcases List.mem_map.1 mem with ⟨entry, entryMem, rfl⟩
    exact (of_decide_eq_true (List.mem_filter.1 entryMem).2).2
  have bounds := sum_le_of_dust dust
  rw [List.length_map] at bounds
  constructor
  · rw [dropped]
    exact bounds.1
  · intro some
    rw [dropped]
    apply bounds.2
    simpa using some
  · intro priced
    rw [dropped]
    apply List.sum_nonneg
    intro value mem
    rcases List.mem_map.1 mem with ⟨entry, entryMem, rfl⟩
    exact mul_nonneg (nonneg entry (List.mem_filter.1 entryMem).1) (priced entry entryMem)

/-- **The book is a function of the chain**: a failed read leaves the state alone; else the
quantities, the cash and the marked value do not depend on the state before, and the value is that
of the chain less the dust of the dropped tokens. -/
theorem reconcile_of_chain (source : BalanceSource) (universeTokens : List String)
    (quotes : Option (List String)) (price : Dict String ℚ) :
    (∀ state wall, (∃ sym ∈ syncSymbols universeTokens quotes, source.Fails sym) →
      syncOutcome state (source.sync state price universeTokens quotes wall) = (state, false)) ∧
    ∀ balances, source.read (syncSymbols universeTokens quotes) = .ok balances →
      (∀ entry ∈ balances.entries, 0 ≤ entry.2) →
        ∀ state other wall wall', ∃ next next',
          syncOutcome state (source.sync state price universeTokens quotes wall) = (next, true) ∧
          syncOutcome other (source.sync other price universeTokens quotes wall') = (next', true) ∧
          holdings next = holdings next' ∧ next.stableUsd = next'.stableUsd ∧
          (markNav next price).1 = (markNav next' price).1 ∧
          LeavesDust (source.stables quotes) price balances (markNav next price).1 := by
  constructor
  · rintro state wall ⟨sym, mem, fails⟩
    rcases read_of_fails mem fails with ⟨e, failed⟩
    rw [sync_of_error failed]
    rfl
  · intro balances read nonneg state other wall wall'
    refine ⟨synced state (source.stables quotes) price wall balances,
      synced other (source.stables quotes) price wall' balances, ?_, ?_, ?_, rfl, ?_, ?_⟩
    · rw [sync_of_ok read]
      rfl
    · rw [sync_of_ok read]
      rfl
    · rw [holdings_synced, holdings_synced]
    · rw [markNav_synced _ _ _ _ (upper_of_read read), markNav_synced _ _ _ _ (upper_of_read read)]
    · exact leavesDust_of_read read nonneg state _ price wall

/-- A wallet that cannot be read. -/
def unreadWallet : BalanceSource := .wallet (fun _ _ => .error .osError) "0xWALLET"

/-- A wallet with cash, a token that is kept and one that is dropped as dust. -/
def mixedWallet : BalanceSource :=
  .wallet (fun addr _ =>
    if addr = "0x2170Ed0880ac9A755fd29B2688956BD959F933F8" then .ok (10 ^ 14)
    else .ok (100 * 10 ^ 18)) "0xWALLET"

def mixedPrice : Dict String ℚ := Dict.ofList [("CAKE", 3), ("ETH", 2000)]

/-- A book that has held one of the tokens of the wallet, and one that is gone. -/
def heldState : State :=
  { PersistentState.defaults with
    positions := Dict.ofList [("CAKE", ⟨50, 2, 100⟩), ("WBNB", ⟨1, 300, 50⟩)]
    stableUsd := some 7 }

theorem read_mixedWallet : ∃ balances, mixedWallet.read ["CAKE", "ETH", "USDT"] = .ok balances ∧
    balances.entries = [("CAKE", 100), ("ETH", 1 / 10000), ("USDT", 100)] := by
  have values : (mixedWallet.read ["CAKE", "ETH", "USDT"]).toOption.map Dict.entries =
      some [("CAKE", 100), ("ETH", 1 / 10000), ("USDT", 100)] := by
    decide +kernel
  rcases Option.map_eq_some_iff.1 values with ⟨balances, read, entries⟩
  exact ⟨balances, toOption_eq_some_iff.1 read, entries⟩

theorem reconcile_of_chain_mixedWallet :
    syncOutcome heldState
        (unreadWallet.sync heldState mixedPrice ["CAKE", "ETH"] (some ["USDT"]) 0) =
      (heldState, false) ∧
    ∃ balances next next',
      keptBalances ["USDT"] mixedPrice balances = [("CAKE", 100)] ∧
      droppedBalances ["USDT"] mixedPrice balances = [("ETH", 1 / 10000)] ∧
      syncOutcome PersistentState.defaults (mixedWallet.sync PersistentState.defaults mixedPrice
        ["CAKE", "ETH"] (some ["USDT"]) 100) = (next, true) ∧
      syncOutcome heldState (mixedWallet.sync heldState mixedPrice
        ["CAKE", "ETH"] (some ["USDT"]) 200) = (next', true) ∧
      holdings next = holdings next' ∧ next.stableUsd = next'.stableUsd ∧
      (markNav next mixedPrice).1 = (markNav next' mixedPrice).1 ∧
      LeavesDust ["USDT"] mixedPrice balances (markNav next mixedPrice).1 := by
  rcases read_mixedWallet with ⟨balances, read, entries⟩
  have nonneg : ∀ entry ∈ balances.entries, 0 ≤ entry.2 := by
    rw [entries]
    decide +kernel
  have stables : mixedWallet.stables (some ["USDT"]) = ["USDT"] := by decide +kernel
  refine ⟨?_, ?_⟩
  · apply (reconcile_of_chain unreadWallet ["CAKE", "ETH"] (some ["USDT"]) mixedPrice).1
    exact ⟨"CAKE", List.mem_cons_self, "0x0E09FaBB73Bd3Ade0a17ECC321fD13a19e81cE82", .osError,
      by decide +kernel, rfl⟩
  · rcases (reconcile_of_chain mixedWallet ["CAKE", "ETH"] (some ["USDT"]) mixedPrice).2 balances
      read nonneg PersistentState.defaults heldState 100 200 with ⟨next, next', reconciled⟩
    rw [stables] at reconciled
    refine ⟨balances, next, next', ?_, ?_, reconciled⟩
    · rw [keptBalances, entries]
      decide +kernel
    · rw [droppedBalances, entries]
      decide +kernel

/-- A wallet that holds a hundred units of its first token. -/
def usdtWallet : BalanceSource :=
  .wallet (fun addr _ =>
    if addr = "0x55d398326f99059fF775485246999027B3197955" then .ok (100 * 10 ^ 18) else .ok 0)
    "0xWALLET"

theorem read_usdtWallet : ∃ balances, usdtWallet.read ["USDT"] = .ok balances ∧
    balances.entries = [("USDT", 100)] := by
  have values : (usdtWallet.read ["USDT"]).toOption.map Dict.entries = some [("USDT", 100)] := by
    decide +kernel
  rcases Option.map_eq_some_iff.1 values with ⟨balances, read, entries⟩
  exact ⟨balances, toOption_eq_some_iff.1 read, entries⟩

/-- Where nothing is dropped, the marked value is not below that of the chain. -/
theorem nothing_dropped_nothing_left :
    ¬∀ (source : BalanceSource) (universeTokens : List String) (quotes : Option (List String))
      (price balances : Dict String ℚ) (state next : State) (wall : ℚ),
      source.read (syncSymbols universeTokens quotes) = .ok balances →
        (∀ entry ∈ balances.entries, 0 ≤ entry.2) →
          source.sync state price universeTokens quotes wall = some next →
            0 ≤ chainUsd (source.stables quotes) price balances - (markNav next price).1 ∧
              chainUsd (source.stables quotes) price balances - (markNav next price).1 <
                dustUsd * (droppedBalances (source.stables quotes) price balances).length := by
  intro strict
  rcases read_usdtWallet with ⟨balances, read, entries⟩
  have nonneg : ∀ entry ∈ balances.entries, 0 ≤ entry.2 := by
    rw [entries]
    decide
  have stables : usdtWallet.stables (some ["USDT"]) = ["USDT"] := by decide +kernel
  have dropped : droppedBalances ["USDT"] Dict.empty balances = [] := by
    rw [droppedBalances, entries]
    decide +kernel
  have claimed := strict usdtWallet [] (some ["USDT"]) Dict.empty balances
    PersistentState.defaults _ 0 read nonneg (sync_of_ok read)
  rw [stables, dropped] at claimed
  exact absurd claimed (by simp)

end Live

end SumplusTrader
