import SumplusTrader.Abstention.Outage

/-!
# The ledger over its whole life

This file follows the abstention ledger through any sequence of calls. Recording adds to the
end and marking rewrites the records in place, so a call keeps the records that are there, up
to the first marking of a record (`Kept`). Everything that holds over a run is read off this
step: the numbering, what was declined, and that a marked record stays as it is.

The figures of a summary need one invariant besides: every marked record has a result.
-/

namespace SumplusTrader

/-- What an abstention says of the trade that was declined. -/
structure Declined where
  ts : ℚ
  symbol : String
  reason : String
  side : String
  refPrice : ℚ
  sizeUsd : ℚ

def Abstention.declined (r : Abstention) : Declined :=
  ⟨r.ts, r.symbol, r.reason, r.side, r.refPrice, r.sizeUsd⟩

namespace AbstentionLedger

/-- A call that writes to the ledger. -/
inductive Call where
  | record (ts : ℚ) (symbol reason side : String) (refPrice sizeUsd : ℚ)
  | markToMarket (prices : Dict String ℚ) (nowTs minAgeS : ℚ)

/-- What a call has declined. -/
def Call.declined? : Call → Option Declined
  | .record ts symbol reason side refPrice sizeUsd =>
      some ⟨ts, Py.upper symbol, if reason ∈ validReasons then reason else "regime_conflict", side,
        refPrice, sizeUsd⟩
  | .markToMarket _ _ _ => none

def call (records : List Abstention) : Call → List Abstention
  | .record ts symbol reason side refPrice sizeUsd =>
      record records ts symbol reason side refPrice sizeUsd
  | .markToMarket prices nowTs minAgeS => markToMarket records prices nowTs minAgeS

/-- The ledger after some calls on an empty one. -/
def after (calls : List Call) : List Abstention := calls.foldl call []

/-- The record later on: it says the same of the declined trade, and is the same once it is
marked. -/
structure Kept (r later : Abstention) : Prop where
  seq : later.seq = r.seq
  declined : later.declined = r.declined
  frozen : r.marked = true → later = r

/-- Every record is kept at its place. -/
def AllKept (records later : List Abstention) : Prop :=
  ∀ (i : ℕ) r, records[i]? = some r → ∃ r', later[i]? = some r' ∧ Kept r r'

/-- The results that a summary counts as losses that were avoided. -/
def avoidedLoss (records : List Abstention) : ℚ :=
  (((markedPnls records).filter fun pnl => pnl < 0).map fun pnl => -pnl).sum

/-- The results that a summary counts as gains that were missed. -/
def missedGain (records : List Abstention) : ℚ :=
  ((markedPnls records).filter fun pnl => 0 < pnl).sum

/-- Every marked record has a result. -/
def Settled (records : List Abstention) : Prop :=
  ∀ r ∈ records, r.marked = true → r.hypotheticalPnlUsd.isSome = true

variable {records later : List Abstention} {calls : List Call} {prices : Dict String ℚ}
  {nowTs minAgeS : ℚ} {r : Abstention}

theorem after_concat (calls : List Call) (last : Call) :
    after (calls ++ [last]) = call (after calls) last := by
  rw [after, List.foldl_append]
  rfl

/-- Marking leaves a record alone, or it is due and gets its result. -/
theorem mark_cases (prices : Dict String ℚ) (nowTs minAgeS : ℚ) (r : Abstention) :
    mark prices nowTs minAgeS r = r ∨ Due nowTs minAgeS r ∧
      ∃ px pnl, prices.get? (Py.upper r.symbol) = some px ∧
        mark prices nowTs minAgeS r = { r with
          hypotheticalPnlUsd := some pnl
          markPrice := some px
          markTs := some nowTs
          marked := true } := by
  by_cases due : Due nowTs minAgeS r
  · cases priced : prices.get? (Py.upper r.symbol) with
    | none => exact .inl (mark_of_no_price priced)
    | some px => exact .inr ⟨due, px, _, rfl, mark_of_due due priced⟩
  · exact .inl (mark_of_not_due due)

theorem Kept.refl (r : Abstention) : Kept r r := ⟨rfl, rfl, fun _ => rfl⟩

theorem Kept.trans {r r' r'' : Abstention} (first : Kept r r') (second : Kept r' r'') :
    Kept r r'' := by
  refine ⟨second.seq.trans first.seq, second.declined.trans first.declined, ?_⟩
  intro marked
  have same := first.frozen marked
  rw [same] at second
  exact second.frozen marked

theorem kept_mark (prices : Dict String ℚ) (nowTs minAgeS : ℚ) (r : Abstention) :
    Kept r (mark prices nowTs minAgeS r) := by
  rcases mark_cases prices nowTs minAgeS r with same | ⟨due, px, pnl, -, marks⟩
  · rw [same]
    exact .refl r
  · rw [marks]
    refine ⟨rfl, rfl, ?_⟩
    intro marked
    rw [due.1] at marked
    cases marked

theorem AllKept.refl (records : List Abstention) : AllKept records records :=
  fun _ r found => ⟨r, found, .refl r⟩

theorem AllKept.trans {middle : List Abstention} (first : AllKept records middle)
    (second : AllKept middle later) : AllKept records later := by
  intro i r found
  rcases first i r found with ⟨r', found', kept⟩
  rcases second i r' found' with ⟨r'', found'', kept'⟩
  exact ⟨r'', found'', kept.trans kept'⟩

theorem allKept_call (records : List Abstention) (next : Call) :
    AllKept records (call records next) := by
  intro i r found
  cases next with
  | record ts symbol reason side refPrice sizeUsd =>
      refine ⟨r, ?_, .refl r⟩
      exact (List.getElem?_append_left (List.getElem?_eq_some_iff.1 found).1).trans found
  | markToMarket prices nowTs minAgeS =>
      refine ⟨mark prices nowTs minAgeS r, ?_, kept_mark prices nowTs minAgeS r⟩
      simp [call, markToMarket, found]

theorem allKept_after (calls others : List Call) : AllKept (after calls) (after (calls ++ others)) := by
  induction others using List.reverseRecOn with
  | nil =>
      rw [List.append_nil]
      exact .refl _
  | append_singleton others last ih =>
      rw [← List.append_assoc, after_concat]
      exact ih.trans (allKept_call _ last)

/-- A record is new or was there before, and marking is the only way to mark it. -/
theorem found_of_call {records : List Abstention} {next : Call} {i : ℕ} {r : Abstention}
    (found : (call records next)[i]? = some r) :
    (records[i]? = some r) ∨ (records[i]? = none ∧ r.marked = false) ∨
      ∃ prices nowTs minAgeS r', next = .markToMarket prices nowTs minAgeS ∧
        records[i]? = some r' ∧ Due nowTs minAgeS r' ∧ r.ts = r'.ts ∧ r.markTs = some nowTs ∧
        r.hypotheticalPnlUsd.isSome := by
  cases next with
  | record ts symbol reason side refPrice sizeUsd =>
      rcases lt_or_ge i records.length with early | late
      · left
        exact (List.getElem?_append_left early).symm.trans found
      · right
        left
        refine ⟨List.getElem?_eq_none late, ?_⟩
        rw [call, record, List.getElem?_append_right late] at found
        have mem := List.mem_of_getElem? found
        rw [List.mem_singleton] at mem
        rw [mem]
  | markToMarket prices nowTs minAgeS =>
      rw [call, markToMarket, List.getElem?_map, Option.map_eq_some_iff] at found
      rcases found with ⟨r', found', marks⟩
      rcases mark_cases prices nowTs minAgeS r' with same | ⟨due, px, pnl, -, result⟩
      · left
        rw [← marks, same]
        exact found'
      · right
        right
        rw [result] at marks
        subst marks
        exact ⟨prices, nowTs, minAgeS, r', rfl, found', due, rfl, rfl, rfl⟩

/-- A marked record was marked by one of the calls, at an age that the call allows. -/
theorem marked_by_call {i : ℕ} (found : (after calls)[i]? = some r) (marked : r.marked = true) :
    ∃ earlier prices nowTs minAgeS others r',
      calls = earlier ++ .markToMarket prices nowTs minAgeS :: others ∧
        (after earlier)[i]? = some r' ∧ r'.marked = false ∧ minAgeS ≤ nowTs - r.ts ∧
        r.markTs = some nowTs := by
  induction calls using List.reverseRecOn with
  | nil => simp [after] at found
  | append_singleton calls last ih =>
      rw [after_concat] at found
      rcases found_of_call found with before | ⟨-, unmarked⟩ |
        ⟨prices, nowTs, minAgeS, r', rfl, before, due, ts, markTs, -⟩
      · rcases ih before with ⟨earlier, prices, nowTs, minAgeS, others, r', rfl, rest⟩
        exact ⟨earlier, prices, nowTs, minAgeS, others ++ [last], r', by simp, rest⟩
      · rw [marked] at unmarked
        cases unmarked
      · refine ⟨calls, prices, nowTs, minAgeS, [], r', rfl, before, due.1, ?_, markTs⟩
        rw [ts]
        exact due.2.1

theorem settled_after (calls : List Call) : Settled (after calls) := by
  induction calls using List.reverseRecOn with
  | nil => simp [after, Settled]
  | append_singleton calls last ih =>
      intro r mem marked
      rw [after_concat] at mem
      rcases List.mem_iff_getElem?.1 mem with ⟨i, found⟩
      rcases found_of_call found with before | ⟨-, unmarked⟩ | ⟨-, -, -, -, -, -, -, -, -, result⟩
      · exact ih r (List.mem_of_getElem? before) marked
      · rw [marked] at unmarked
        cases unmarked
      · exact result

theorem declined_after (calls : List Call) :
    (after calls).map Abstention.declined = calls.filterMap Call.declined? := by
  induction calls using List.reverseRecOn with
  | nil => rfl
  | append_singleton calls last ih =>
      rw [after_concat, List.filterMap_append, ← ih]
      cases last with
      | record ts symbol reason side refPrice sizeUsd => simp [call, record, Call.declined?, Abstention.declined]
      | markToMarket prices nowTs minAgeS =>
          have same : Abstention.declined ∘ mark prices nowTs minAgeS = Abstention.declined := by
            funext r
            exact (kept_mark prices nowTs minAgeS r).declined
          simp [call, markToMarket, Call.declined?, same]

/-- The records carry their positions. -/
def NumberedByPosition (records : List Abstention) : Prop :=
  records.map Abstention.seq = (List.range records.length).map Nat.cast

theorem NumberedByPosition.last {last : Abstention} (numbered : NumberedByPosition (records ++ [last])) :
    last.seq = records.length := by
  unfold NumberedByPosition at numbered
  rw [List.map_append, List.length_append, List.length_singleton, List.range_succ,
    List.map_append] at numbered
  have lasts := (List.append_inj' numbered rfl).2
  simpa using lasts

theorem NumberedByPosition.record (numbered : NumberedByPosition records) (ts : ℚ)
    (symbol reason side : String) (refPrice sizeUsd : ℚ) :
    NumberedByPosition (record records ts symbol reason side refPrice sizeUsd) := by
  rcases List.eq_nil_or_concat records with rfl | ⟨init, last, concat⟩
  · rfl
  · rw [List.concat_eq_append] at concat
    have found : records.getLast? = some last := by rw [concat, List.getLast?_concat]
    have next : last.seq + 1 = (records.length : ℤ) := by
      rw [concat] at numbered
      rw [concat, List.length_append, List.length_singleton, numbered.last]
      rfl
    unfold NumberedByPosition at numbered ⊢
    rw [AbstentionLedger.record, found, List.map_append, List.length_append, List.length_singleton,
      List.range_succ, List.map_append, numbered, List.map_singleton, List.map_singleton]
    exact congrArg (fun seq : ℤ => (List.range records.length).map Nat.cast ++ [seq]) next

theorem numberedByPosition_after (calls : List Call) : NumberedByPosition (after calls) := by
  induction calls using List.reverseRecOn with
  | nil => rfl
  | append_singleton calls last ih =>
      rw [after_concat]
      cases last with
      | record ts symbol reason side refPrice sizeUsd => exact ih.record ..
      | markToMarket prices nowTs minAgeS =>
          have same : Abstention.seq ∘ mark prices nowTs minAgeS = Abstention.seq := by
            funext r
            exact (kept_mark prices nowTs minAgeS r).seq
          unfold NumberedByPosition
          rw [call, markToMarket, List.map_map, same, List.length_map]
          exact ih

/-- What the marked abstentions would have earned. -/
def totalPnl (records : List Abstention) : ℚ :=
  ((records.filter Abstention.marked).map fun r => r.hypotheticalPnlUsd.getD 0).sum

theorem sum_markedPnls (settled : Settled records) : (markedPnls records).sum = totalPnl records := by
  induction records with
  | nil => rfl
  | cons r records ih =>
      have others := ih fun other mem => settled other (List.mem_cons_of_mem r mem)
      cases marked : r.marked with
      | false => simpa [markedPnls, totalPnl, marked] using others
      | true =>
          rcases Option.isSome_iff_exists.1 (settled r List.mem_cons_self marked) with ⟨pnl, result⟩
          simpa [markedPnls, totalPnl, marked, result] using others

/-- Losses and gains together are all results, since a result of zero is neither. -/
theorem avoided_sub_missed (pnls : List ℚ) :
    ((pnls.filter fun pnl => pnl < 0).map fun pnl => -pnl).sum -
      (pnls.filter fun pnl => 0 < pnl).sum = -pnls.sum := by
  induction pnls with
  | nil => simp
  | cons pnl pnls ih =>
      rw [List.sum_cons, neg_add, ← ih]
      rcases lt_trichotomy pnl 0 with loss | rfl | gain
      · simp [loss, loss.le]
        ring
      · simp
      · simp [gain, gain.le]
        ring

/-- Counting one more record under its reason. -/
def countReason (counts : Dict String ℕ) (r : Abstention) : Dict String ℕ :=
  counts.set r.reason ((counts.get? r.reason).getD 0 + 1)

/-- The number of counted records. -/
def counted (counts : Dict String ℕ) : ℤ := counts.total fun (_ : String) (count : ℕ) => (count : ℤ)

theorem counted_countReason (counts : Dict String ℕ) (r : Abstention) :
    counted (countReason counts r) = counted counts + 1 := by
  unfold counted countReason
  cases found : counts.get? r.reason with
  | none =>
      rw [Dict.total_set_of_none _ _ found]
      simp
  | some count =>
      rw [Dict.total_set_of_some _ _ found, Option.getD_some]
      push_cast
      ring

theorem counted_foldl (records : List Abstention) (counts : Dict String ℕ) :
    counted (records.foldl countReason counts) = counted counts + records.length := by
  induction records generalizing counts with
  | nil => simp
  | cons r records ih =>
      rw [List.foldl_cons, ih, counted_countReason, List.length_cons]
      push_cast
      ring

theorem counted_byReason (records : List Abstention) :
    counted (summary records).byReason = records.length := by
  change counted (records.foldl countReason Dict.empty) = _
  rw [counted_foldl]
  simp [counted, Dict.total, Dict.empty]

/-- The figures of a summary, and how they add up. -/
structure Accounts (records : List Abstention) : Prop where
  abstentions : (summary records).abstentions = records.length
  byReason : counted (summary records).byReason = records.length
  avoidedLossUsd : (summary records).avoidedLossUsd = Py.roundTo 2 (avoidedLoss records)
  missedGainUsd : (summary records).missedGainUsd = Py.roundTo 2 (missedGain records)
  netRestraintUsd : (summary records).netRestraintUsd =
    Py.roundTo 2 (avoidedLoss records - missedGain records)
  balance : avoidedLoss records - missedGain records = -totalPnl records

theorem Settled.accounts (settled : Settled records) : Accounts records where
  abstentions := rfl
  byReason := counted_byReason records
  avoidedLossUsd := rfl
  missedGainUsd := rfl
  netRestraintUsd := rfl
  balance := by
    rw [← sum_markedPnls settled]
    exact avoided_sub_missed (markedPnls records)

/-- What holds of the ledger after any calls. -/
structure Invariants (calls : List Call) : Prop where
  numbered : NumberedByPosition (after calls)
  declined : (after calls).map Abstention.declined = calls.filterMap Call.declined?
  reasons : ∀ r ∈ after calls, r.reason ∈ validReasons
  kept : ∀ earlier others, calls = earlier ++ others → AllKept (after earlier) (after calls)
  aged : ∀ (i : ℕ) r, (after calls)[i]? = some r → r.marked = true →
    ∃ earlier prices nowTs minAgeS others r',
      calls = earlier ++ .markToMarket prices nowTs minAgeS :: others ∧
        (after earlier)[i]? = some r' ∧ r'.marked = false ∧ minAgeS ≤ nowTs - r.ts ∧
        r.markTs = some nowTs
  settled : Settled (after calls)
  accounts : Accounts (after calls)

theorem reason_mem_of_declined {next : Call} {entry : Declined} (declined : next.declined? = some entry) :
    entry.reason ∈ validReasons := by
  cases next with
  | record ts symbol reason side refPrice sizeUsd =>
      cases declined
      dsimp only
      split
      · assumption
      · decide
  | markToMarket prices nowTs minAgeS => cases declined

theorem reason_mem_after (calls : List Call) : ∀ r ∈ after calls, r.reason ∈ validReasons := by
  intro r mem
  have declined := List.mem_map_of_mem (f := Abstention.declined) mem
  rw [declined_after, List.mem_filterMap] at declined
  rcases declined with ⟨next, -, entry⟩
  exact reason_mem_of_declined entry

/-- **The ledger loses, reorders and rewrites nothing**, marks each record at most once and not
before its age, and its summary adds up, after any calls. -/
theorem ledger_invariants (calls : List Call) : Invariants calls where
  numbered := numberedByPosition_after calls
  declined := declined_after calls
  reasons := reason_mem_after calls
  kept := by
    rintro earlier others rfl
    exact allKept_after earlier others
  aged := fun _ _ found marked => marked_by_call found marked
  settled := settled_after calls
  accounts := (settled_after calls).accounts

end AbstentionLedger

end SumplusTrader
