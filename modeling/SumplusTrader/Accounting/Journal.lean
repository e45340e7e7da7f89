import Mathlib.Algebra.Order.BigOperators.Group.List
import Mathlib.Algebra.Order.Ring.Abs
import Mathlib.Tactic.Linarith
import Mathlib.Tactic.Ring

/-!
# Journals of trades

This file develops double-entry bookkeeping over an arbitrary type of assets and an ordered
ring. An entry of a journal says what one trade has added to the holding of an asset and to
the cash, and at which price of the asset.

A book is its value at every quotation of the assets. It is kept by a journal when this value
is the initial cash and the worth of the entries, whatever the quotation: the cash is then the
value at zero prices, and a holding is the slope in the price of its asset. A trade loses its
friction, which is what the entry is worth at its own price with the other sign, and from
there on it gains what its quantity gains. `Kept.attribution` sums this up.
-/

namespace Accounting

/-- What a trade adds to the holding of an asset and to the cash, at a price. -/
structure Entry (α 𝕜 : Type) where
  asset : α
  price : 𝕜
  quantity : 𝕜
  cash : 𝕜

variable {α 𝕜 : Type}

section Worth

variable [CommRing 𝕜]

/-- The value of an entry at a quotation. -/
def Entry.worth (quote : α → 𝕜) (entry : Entry α 𝕜) : 𝕜 :=
  entry.cash + entry.quantity * quote entry.asset

/-- What a trade loses at its own price. -/
def Entry.friction (entry : Entry α 𝕜) : 𝕜 := -(entry.cash + entry.quantity * entry.price)

/-- What an entry has gained since its trade. -/
def Entry.gain (quote : α → 𝕜) (entry : Entry α 𝕜) : 𝕜 :=
  entry.quantity * (quote entry.asset - entry.price)

def worth (quote : α → 𝕜) (journal : List (Entry α 𝕜)) : 𝕜 :=
  (journal.map (Entry.worth quote)).sum

def gains (quote : α → 𝕜) (journal : List (Entry α 𝕜)) : 𝕜 :=
  (journal.map (Entry.gain quote)).sum

def friction (journal : List (Entry α 𝕜)) : 𝕜 := (journal.map Entry.friction).sum

theorem Entry.worth_eq (quote : α → 𝕜) (entry : Entry α 𝕜) :
    entry.worth quote = entry.gain quote - entry.friction := by
  unfold Entry.worth Entry.gain Entry.friction
  ring

@[simp]
theorem worth_nil (quote : α → 𝕜) : worth quote [] = 0 := rfl

@[simp]
theorem worth_singleton (quote : α → 𝕜) (entry : Entry α 𝕜) :
    worth quote [entry] = entry.worth quote := by
  simp [worth]

@[simp]
theorem worth_append (quote : α → 𝕜) (journal more : List (Entry α 𝕜)) :
    worth quote (journal ++ more) = worth quote journal + worth quote more := by
  simp [worth]

/-- Entries are worth their gains without their friction. -/
theorem worth_eq_gains_sub_friction (quote : α → 𝕜) (journal : List (Entry α 𝕜)) :
    worth quote journal = gains quote journal - friction journal := by
  induction journal with
  | nil => simp [worth, gains, friction]
  | cons entry journal ih =>
      simp only [worth, gains, friction, List.map_cons, List.sum_cons] at ih ⊢
      rw [ih, entry.worth_eq]
      ring

/-- A book, given by its value at every quotation, is what the journal makes of the initial
cash. -/
def Kept (initial : 𝕜) (journal : List (Entry α 𝕜)) (value : (α → 𝕜) → 𝕜) : Prop :=
  ∀ quote, value quote = initial + worth quote journal

variable {initial : 𝕜} {journal more : List (Entry α 𝕜)} {value next : (α → 𝕜) → 𝕜}

/-- Trades are entered behind those before them. -/
theorem Kept.append (kept : Kept initial journal value)
    (traded : ∀ quote, next quote = value quote + worth quote more) :
    Kept initial (journal ++ more) next := by
  intro quote
  rw [traded quote, kept quote, worth_append, add_assoc]

/-- **The attribution of a book**: the initial cash, the gains since each trade, and the
friction of the trades. -/
theorem Kept.attribution (kept : Kept initial journal value) (quote : α → 𝕜) :
    value quote = initial + gains quote journal - friction journal := by
  rw [kept quote, worth_eq_gains_sub_friction]
  ring

end Worth

section Friction

variable [CommRing 𝕜] [LinearOrder 𝕜] [IsStrictOrderedRing 𝕜] {journal : List (Entry α 𝕜)}

/-- The larger of the two sides of a trade. -/
def Entry.notional (entry : Entry α 𝕜) : 𝕜 := max |entry.cash| (|entry.quantity| * entry.price)

def turnover (journal : List (Entry α 𝕜)) : 𝕜 := (journal.map Entry.notional).sum

/-- Entries that are all worth nothing or less are worth nothing or less together. -/
theorem worth_nonpos {quote : α → 𝕜} (losing : ∀ entry ∈ journal, entry.worth quote ≤ 0) :
    worth quote journal ≤ 0 := by
  induction journal with
  | nil => simp
  | cons entry journal ih =>
      rw [List.forall_mem_cons] at losing
      rw [worth, List.map_cons, List.sum_cons]
      exact add_nonpos losing.1 (ih losing.2)

theorem friction_nonneg (loses : ∀ entry ∈ journal, 0 ≤ entry.friction) :
    0 ≤ friction journal := by
  apply List.sum_nonneg
  intro loss mem
  rcases List.mem_map.1 mem with ⟨entry, entered, rfl⟩
  exact loses entry entered

/-- A rate on every trade, up to a residue at its price, is a rate on the turnover. -/
theorem friction_le {rate residue : 𝕜} (loses : ∀ entry ∈ journal,
      entry.friction ≤ rate * entry.notional + residue * entry.price) :
    friction journal ≤ rate * turnover journal + residue * (journal.map Entry.price).sum := by
  induction journal with
  | nil => simp [friction, turnover]
  | cons entry journal ih =>
      rw [List.forall_mem_cons] at loses
      have rest := ih loses.2
      simp only [friction, turnover, List.map_cons, List.sum_cons] at rest ⊢
      linarith [loses.1]

end Friction

end Accounting
