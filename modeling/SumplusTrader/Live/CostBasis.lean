import SumplusTrader.Live.ChainBook

/-!
# The cost basis of a position

This file follows the entry of one position through a sequence of reconciles. Each of them builds
the book from nothing and takes over the entry of a symbol that the book held just before. A
balance whose token has no price counts as dust, so that one reconcile without a price drops the
position, and the next one with a price enters it anew.

`keepsBasis_iff` says for a constant balance which sequences keep the entry: those in which every
read that succeeds comes with a price of the token.
-/

namespace SumplusTrader

namespace Live

/-- A call of a reconcile function. -/
structure ReconcileCall where
  source : BalanceSource
  price : Dict String ℚ
  universeTokens : List String
  quotes : Option (List String)
  wall : ℚ

namespace ReconcileCall

def read (call : ReconcileCall) : Except PyError (Dict String ℚ) :=
  call.source.read (syncSymbols call.universeTokens call.quotes)

def apply (state : State) (call : ReconcileCall) : State :=
  (syncOutcome state (call.source.sync state call.price call.universeTokens call.quotes
    call.wall)).1

/-- The call has a price of the token that is not zero. -/
def Quotes (call : ReconcileCall) (sym : String) : Prop :=
  ∃ px, call.price.get? sym = some px ∧ px ≠ 0

/-- The balance of the token is a constant, and worth more than dust where there is a price. -/
def Steady (call : ReconcileCall) (sym : String) (qty : ℚ) : Prop :=
  (∀ balances, call.read = .ok balances → balances.get? sym = some qty) ∧
    (call.Quotes sym → dustUsd ≤ balanceUsd call.price (sym, qty))

/-- Where the balances can be read, the token has a price and is not cash. -/
def Values (call : ReconcileCall) (sym : String) : Prop :=
  ∀ balances, call.read = .ok balances → call.Quotes sym ∧ sym ∉ call.source.stables call.quotes

end ReconcileCall

/-- The state after some calls. -/
def reconciled (state : State) (calls : List ReconcileCall) : State :=
  calls.foldl ReconcileCall.apply state

/-- The book holds a symbol with the entry of a position. -/
def HasBasis (sym : String) (entry : HeldPosition) (state : State) : Prop :=
  ∃ pos, state.positions.get? sym = some pos ∧ pos.entryPrice = entry.entryPrice ∧
    pos.entryTs = entry.entryTs

/-- The entry of a position is kept by all calls of a sequence. -/
def KeepsBasis (sym : String) (entry : HeldPosition) (state : State)
    (calls : List ReconcileCall) : Prop :=
  ∀ before after, calls = before ++ after → HasBasis sym entry (reconciled state before)

variable {state : State} {call : ReconcileCall} {calls : List ReconcileCall}
  {price balances : Dict String ℚ} {stables : List String} {wall qty : ℚ} {sym : String}
  {entry : HeldPosition}

theorem get?_synced_of_kept (held : balances.get? sym = some qty) (risky : sym ∉ stables)
    (worth : dustUsd ≤ balanceUsd price (sym, qty)) :
    (synced state stables price wall balances).positions.get? sym =
      some (syncedPosition state.positions price wall sym qty) := by
  rw [Dict.get?_eq_some_iff, entries_synced, List.mem_map]
  refine ⟨(sym, qty), ?_, rfl⟩
  apply List.mem_filter.2
  refine ⟨(Dict.get?_eq_some_iff _ _ _).1 held, ?_⟩
  simp only [decide_eq_true_iff]
  exact ⟨risky, worth⟩

theorem get?_synced_of_dropped (held : balances.get? sym = some qty)
    (dropped : sym ∈ stables ∨ balanceUsd price (sym, qty) < dustUsd) :
    (synced state stables price wall balances).positions.get? sym = none := by
  rw [Dict.get?_eq_none_iff, entries_synced, List.map_map, List.mem_map]
  rintro ⟨⟨other, otherQty⟩, mem, same⟩
  dsimp only [Function.comp_apply] at same
  subst same
  rcases List.mem_filter.1 mem with ⟨balance, kept⟩
  simp only [decide_eq_true_iff] at kept
  rw [← Dict.get?_eq_some_iff, held, Option.some.injEq] at balance
  subst balance
  rcases dropped with cash | dust
  · exact kept.1 cash
  · exact absurd kept.2 (not_le.2 dust)

theorem balanceUsd_of_not_quotes (unquoted : ¬call.Quotes sym) :
    balanceUsd call.price (sym, qty) < dustUsd := by
  have worthless : priceOr 0 call.price sym = 0 := by
    unfold priceOr
    cases quoted : call.price.get? sym with
    | none => simp
    | some px =>
        by_cases zero : px = 0
        · simp [zero]
        · exact absurd ⟨px, quoted, zero⟩ unquoted
  norm_num [balanceUsd, worthless, dustUsd]

theorem apply_of_ok (read : call.read = .ok balances) (state : State) :
    call.apply state =
      synced state (call.source.stables call.quotes) call.price call.wall balances := by
  rw [ReconcileCall.apply, sync_of_ok read]
  rfl

theorem apply_of_error {e : PyError} (failed : call.read = .error e) (state : State) :
    call.apply state = state := by
  rw [ReconcileCall.apply, sync_of_error failed]
  rfl

/-- A call takes the entry over exactly when it values the token. -/
theorem hasBasis_apply_iff (held : HasBasis sym entry state) (steady : call.Steady sym qty) :
    HasBasis sym entry (call.apply state) ↔ call.Values sym := by
  cases read : call.read with
  | error e =>
      rw [apply_of_error read]
      refine iff_of_true held ?_
      intro balances succeeded
      rw [read] at succeeded
      cases succeeded
  | ok balances =>
      have balance := steady.1 balances read
      rw [apply_of_ok read]
      constructor
      · rintro ⟨pos, kept, -, -⟩ balances' -
        by_contra unvalued
        have dropped : sym ∈ call.source.stables call.quotes ∨
            balanceUsd call.price (sym, qty) < dustUsd := by
          by_cases quoted : call.Quotes sym
          · left
            by_contra risky
            exact unvalued ⟨quoted, risky⟩
          · exact Or.inr (balanceUsd_of_not_quotes quoted)
        rw [get?_synced_of_dropped balance dropped] at kept
        cases kept
      · intro valued
        rcases valued balances read with ⟨quoted, risky⟩
        rcases held with ⟨pos, found, samePrice, sameTs⟩
        refine ⟨{ pos with qty := qty }, ?_, samePrice, sameTs⟩
        rw [get?_synced_of_kept balance risky (steady.2 quoted), syncedPosition, found]

theorem keepsBasis_nil : KeepsBasis sym entry state [] ↔ HasBasis sym entry state := by
  constructor
  · intro keeps
    exact keeps [] [] rfl
  · intro held before after split
    rw [(List.nil_eq_append_iff.1 split).1]
    exact held

theorem keepsBasis_cons : KeepsBasis sym entry state (call :: calls) ↔
    HasBasis sym entry state ∧ KeepsBasis sym entry (call.apply state) calls := by
  constructor
  · intro keeps
    refine ⟨keeps [] (call :: calls) rfl, ?_⟩
    intro before after split
    exact keeps (call :: before) after (by rw [split, List.cons_append])
  · rintro ⟨held, keeps⟩ before after split
    rcases List.cons_eq_append_iff.1 split with ⟨rfl, -⟩ | ⟨rest, rfl, within⟩
    · exact held
    · exact keeps rest after within

/-- **The entry is kept** by a sequence of calls on a constant balance exactly when each call that
can read the balances values the token. -/
theorem keepsBasis_iff (held : HasBasis sym entry state)
    (steady : ∀ call ∈ calls, call.Steady sym qty) :
    KeepsBasis sym entry state calls ↔ ∀ call ∈ calls, call.Values sym := by
  induction calls generalizing state with
  | nil =>
      rw [keepsBasis_nil]
      refine iff_of_true held ?_
      intro call mem
      cases mem
  | cons call calls ih =>
      have first := hasBasis_apply_iff held (steady call List.mem_cons_self)
      rw [keepsBasis_cons, List.forall_mem_cons]
      constructor
      · rintro ⟨-, keeps⟩
        have kept := keeps [] calls rfl
        refine ⟨first.1 kept, ?_⟩
        exact (ih kept fun later mem => steady later (List.mem_cons_of_mem call mem)).1 keeps
      · rintro ⟨valued, rest⟩
        have kept := first.2 valued
        refine ⟨held, ?_⟩
        exact (ih kept fun later mem => steady later (List.mem_cons_of_mem call mem)).2 rest

/-- A wallet that holds a hundred units of one token. -/
def cakeWallet : BalanceSource :=
  .wallet (fun addr _ =>
    if addr = "0x0E09FaBB73Bd3Ade0a17ECC321fD13a19e81cE82" then .ok (100 * 10 ^ 18) else .ok 0)
    "0xWALLET"

def cakeCall (px wall : ℚ) : ReconcileCall where
  source := cakeWallet
  price := Dict.ofList [("CAKE", px)]
  universeTokens := ["CAKE"]
  quotes := none
  wall := wall

def cakeEntry : HeldPosition := ⟨100, 2, 100⟩

/-- The state after the first call of the wallet, at a price of two. -/
def cakeState : State := (cakeCall 2 100).apply PersistentState.defaults

theorem hasBasis_cakeState : HasBasis "CAKE" cakeEntry cakeState := by
  refine ⟨cakeEntry, ?_, rfl, rfl⟩
  decide +kernel

theorem read_cakeCall (px wall : ℚ) : ∃ balances, (cakeCall px wall).read = .ok balances ∧
    balances.get? "CAKE" = some 100 := by
  have value : ((cakeCall px wall).read.toOption.bind fun balances => balances.get? "CAKE") =
      some 100 := by
    change (((cakeWallet.read ["CAKE"]).toOption.bind fun balances => balances.get? "CAKE") = _)
    decide +kernel
  rcases Option.bind_eq_some_iff.1 value with ⟨balances, read, balance⟩
  exact ⟨balances, toOption_eq_some_iff.1 read, balance⟩

theorem get?_price_cakeCall (px wall : ℚ) : (cakeCall px wall).price.get? "CAKE" = some px := by
  rw [cakeCall, Dict.get?_ofList]
  rfl

theorem steady_cakeCall {px wall : ℚ} (worth : px ≠ 0 → 1 ≤ 100 * px) :
    (cakeCall px wall).Steady "CAKE" 100 := by
  constructor
  · intro balances read
    rcases read_cakeCall px wall with ⟨balances', read', balance⟩
    rw [read', Except.ok.injEq] at read
    rw [← read]
    exact balance
  · rintro ⟨px', quoted, nonzero⟩
    rw [get?_price_cakeCall, Option.some.injEq] at quoted
    subst quoted
    simp only [balanceUsd, priceOr, get?_price_cakeCall, Option.getD_some, nonzero, if_false,
      dustUsd]
    exact worth nonzero

theorem values_cakeCall {px wall : ℚ} (nonzero : px ≠ 0) : (cakeCall px wall).Values "CAKE" := by
  intro balances _
  refine ⟨⟨px, get?_price_cakeCall px wall, nonzero⟩, ?_⟩
  change "CAKE" ∉ cakeWallet.stables none
  decide +kernel

theorem keepsBasis_iff_cakeState :
    KeepsBasis "CAKE" cakeEntry cakeState [cakeCall 3 200, cakeCall 1 300, cakeCall 4 400] := by
  have steady : ∀ call ∈ [cakeCall 3 200, cakeCall 1 300, cakeCall 4 400],
      call.Steady "CAKE" 100 := by
    simp only [List.forall_mem_cons]
    refine ⟨steady_cakeCall ?_, steady_cakeCall ?_, steady_cakeCall ?_, by simp⟩ <;> norm_num
  apply (keepsBasis_iff hasBasis_cakeState steady).2
  simp only [List.forall_mem_cons]
  refine ⟨values_cakeCall ?_, values_cakeCall ?_, values_cakeCall ?_, by simp⟩ <;> norm_num

/-- A tick without a price moves the entry of a constant balance to the next price. -/
theorem lapse_moves_basis : HasBasis "CAKE" cakeEntry cakeState ∧
    (∀ call ∈ [cakeCall 0 200, cakeCall 3 300], call.Steady "CAKE" 100) ∧
    ¬KeepsBasis "CAKE" cakeEntry cakeState [cakeCall 0 200, cakeCall 3 300] ∧
    (reconciled cakeState [cakeCall 0 200, cakeCall 3 300]).positions.get? "CAKE" =
      some ⟨100, 3, 300⟩ := by
  have moved : (reconciled cakeState [cakeCall 0 200, cakeCall 3 300]).positions.get? "CAKE" =
      some ⟨100, 3, 300⟩ := by decide +kernel
  refine ⟨hasBasis_cakeState, ?_, ?_, moved⟩
  · intro call mem
    rcases List.mem_cons.1 mem with rfl | last
    · exact steady_cakeCall (by simp)
    · rw [List.mem_singleton.1 last]
      exact steady_cakeCall (by norm_num)
  · intro keeps
    rcases keeps [cakeCall 0 200, cakeCall 3 300] [] rfl with ⟨pos, held, samePrice, -⟩
    rw [moved, Option.some.injEq] at held
    rw [← held] at samePrice
    norm_num [cakeEntry] at samePrice

end Live

end SumplusTrader
