import SumplusTrader.Abstention.Ledger
import SumplusTrader.Data.TokenViews

/-!
# Marking through an outage

This file follows a missing quote into the abstention ledger. The feed turns it into a price of
zero, which `mark_to_market` takes for a price: an abstention that is due is marked at it for
good, and its whole size counts as an avoided loss.

`leaves_unquoted_iff` says when no missing quote is booked: when every abstention that is due and
whose token was asked for has a quote.
-/

namespace SumplusTrader

namespace AbstentionLedger

/-- An abstention that is marked as soon as its token has a price. -/
def Due (nowTs minAgeS : ℚ) (r : Abstention) : Prop :=
  r.marked = false ∧ minAgeS ≤ nowTs - r.ts ∧ r.refPrice ≠ 0

/-- The prices that a tick marks at. -/
def feedPrices (feed : Feed) (symbols : List String) (dataTs : ℚ) : Dict String ℚ :=
  priceMap (feed.getTokenViews symbols dataTs).1

/-- Marks an abstention whose token has a quote. -/
def markQuoted (feed : Feed) (symbols : List String) (dataTs nowTs minAgeS : ℚ) (r : Abstention) :
    Abstention :=
  if (feed.quoteOf symbols (Py.upper r.symbol)).isSome then
    mark (feedPrices feed symbols dataTs) nowTs minAgeS r
  else r

/-- Marking leaves the abstentions alone whose token has no quote, and the avoided loss is that
of the others. -/
structure LeavesUnquoted (records : List Abstention) (feed : Feed) (symbols : List String)
    (dataTs nowTs minAgeS : ℚ) : Prop where
  unmarked : ∀ r ∈ records, r.marked = false → feed.quoteOf symbols (Py.upper r.symbol) = none →
    (mark (feedPrices feed symbols dataTs) nowTs minAgeS r).marked = false
  avoidedLossUsd :
    (summary (markToMarket records (feedPrices feed symbols dataTs) nowTs
      minAgeS)).avoidedLossUsd =
      (summary (records.map (markQuoted feed symbols dataTs nowTs minAgeS))).avoidedLossUsd

variable {records : List Abstention} {feed : Feed} {symbols : List String} {prices : Dict String ℚ}
  {dataTs nowTs minAgeS : ℚ} {r : Abstention}

theorem mark_of_not_due (idle : ¬Due nowTs minAgeS r) : mark prices nowTs minAgeS r = r := by
  unfold mark
  split
  · rfl
  · next open' =>
    rw [not_or, not_lt] at open'
    split
    · rfl
    · split
      · rfl
      · next nonzero => exact absurd ⟨by simpa using open'.1, open'.2, nonzero⟩ idle

theorem mark_of_no_price (missing : prices.get? (Py.upper r.symbol) = none) :
    mark prices nowTs minAgeS r = r := by
  unfold mark
  rw [missing]
  split
  · rfl
  · rfl

/-- What marking notes of an abstention that is due. -/
theorem mark_of_due (due : Due nowTs minAgeS r) {px : ℚ}
    (priced : prices.get? (Py.upper r.symbol) = some px) :
    mark prices nowTs minAgeS r = { r with
      hypotheticalPnlUsd := some (Py.roundTo 4
        ((if r.side = "buy" then 1 else -1) * ((px - r.refPrice) / r.refPrice) * r.sizeUsd))
      markPrice := some px
      markTs := some nowTs
      marked := true } := by
  have open' : ¬(r.marked = true ∨ nowTs - r.ts < minAgeS) := by
    rintro (marked | early)
    · rw [due.1] at marked
      cases marked
    · exact absurd due.2.1 (not_le.2 early)
  unfold mark
  rw [if_neg open', priced]
  exact if_neg due.2.2

theorem get?_feedPrices (feed : Feed) (symbols : List String) (dataTs : ℚ) (token : String) :
    (feedPrices feed symbols dataTs).get? token =
      (Feed.requested symbols token).map fun symbol => (feed.raw symbol).price.getD 0 :=
  feed.get?_priceMap symbols dataTs token

theorem requested_isSome_iff (symbols : List String) (token : String) :
    (Feed.requested symbols token).isSome = true ↔ token ∈ symbols.map Py.upper := by
  simp [Feed.requested]

/-- **A missing quote is never booked** exactly when every abstention that is due, and whose token
was asked for, has a quote. -/
theorem leaves_unquoted_iff (records : List Abstention) (feed : Feed) (symbols : List String)
    (dataTs nowTs minAgeS : ℚ) :
    LeavesUnquoted records feed symbols dataTs nowTs minAgeS ↔
      ∀ r ∈ records, Due nowTs minAgeS r → Py.upper r.symbol ∈ symbols.map Py.upper →
        (feed.quoteOf symbols (Py.upper r.symbol)).isSome = true := by
  constructor
  · rintro ⟨unmarked, -⟩ r mem due asked
    by_contra missing
    rw [Option.not_isSome_iff_eq_none] at missing
    rcases Option.isSome_iff_exists.1 ((requested_isSome_iff _ _).2 asked) with ⟨symbol, found⟩
    have priced := get?_feedPrices feed symbols dataTs (Py.upper r.symbol)
    rw [found, Option.map_some] at priced
    have idle := unmarked r mem due.1 missing
    rw [mark_of_due due priced] at idle
    cases idle
  · intro quoted
    have same : ∀ r ∈ records, mark (feedPrices feed symbols dataTs) nowTs minAgeS r =
        markQuoted feed symbols dataTs nowTs minAgeS r := by
      intro r mem
      unfold markQuoted
      split
      · rfl
      · next missing =>
        by_cases due : Due nowTs minAgeS r
        · apply mark_of_no_price
          have unasked : ¬(Feed.requested symbols (Py.upper r.symbol)).isSome = true := by
            intro asked
            exact missing (quoted r mem due ((requested_isSome_iff _ _).1 asked))
          rw [Option.not_isSome_iff_eq_none] at unasked
          rw [get?_feedPrices, unasked, Option.map_none]
        · exact mark_of_not_due due
    constructor
    · intro r mem unmarked missing
      rw [same r mem, markQuoted, missing]
      exact unmarked
    · rw [markToMarket, List.map_congr_left same]

/-- An entry that was declined two days ago. -/
def declinedEntry : Abstention :=
  ⟨0, 0, "INJ", "regime_conflict", "buy", 20, 15, false, none, none, none⟩

/-- A response without the token. -/
def outage : Feed := .live fun _ => none

/-- An outage of the feed books the whole size as an avoided loss. -/
theorem outage_books_loss :
    ¬LeavesUnquoted [declinedEntry] outage ["INJ"] 172800 172800 86400 ∧
      (summary (markToMarket [declinedEntry] (feedPrices outage ["INJ"] 172800) 172800
        86400)).avoidedLossUsd = 15 := by
  constructor
  · rintro ⟨unmarked, -⟩
    have idle := unmarked declinedEntry (List.mem_singleton_self _) rfl rfl
    revert idle
    decide +kernel
  · decide +kernel

end AbstentionLedger

end SumplusTrader
