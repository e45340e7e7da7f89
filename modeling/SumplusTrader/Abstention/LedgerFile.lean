import SumplusTrader.Abstention.Ledger
import SumplusTrader.Json.LogText
import SumplusTrader.Policy.Receipt

/-!
# The file of the abstention ledger

This file models `agent/abstention/ledger.py` on its file, a log of JSON lines. Recording reads
the whole file and appends one line. Marking reads the whole file and, if it has marked anything,
writes the whole file anew.

A number is what Python prints for it. What a record says is in `Entry`, and the file that any
calls leave is the text of such records (`exists_entries_after`).
-/

namespace SumplusTrader

namespace LedgerFile

open Json (Number logText)

/-- The fields of `Abstention`. -/
structure Entry where
  seq : Number
  ts : Number
  symbol : String
  reason : String
  side : String
  refPrice : Number
  sizeUsd : Number
  marked : Bool
  markTs : Option Number
  markPrice : Option Number
  hypotheticalPnlUsd : Option Number

/-- A number, or `None`. -/
def optionalNumber : Option Number → Json
  | none => .null
  | some n => .num n

/-- `Abstention.to_dict`. -/
def Entry.toDict (e : Entry) : Json :=
  .obj [("seq", .num e.seq), ("ts", .num e.ts), ("symbol", .str e.symbol),
    ("reason", .str e.reason), ("side", .str e.side), ("ref_price", .num e.refPrice),
    ("size_usd", .num e.sizeUsd),
    ("marked", .bool e.marked), ("mark_ts", optionalNumber e.markTs),
    ("mark_price", optionalNumber e.markPrice),
    ("hypothetical_pnl_usd", optionalNumber e.hypotheticalPnlUsd)]

/-- The arguments of `record`. -/
structure RecordArgs where
  ts : Number
  symbol : String
  reason : String
  side : String
  refPrice : Number
  sizeUsd : Number

/-- The arguments of `mark_to_market`. -/
structure MarkArgs where
  prices : Dict String Number
  nowTs : Number
  minAgeS : Number

/-- `_all`. -/
def readAll (log : List Char) : Except PyError (List Json) :=
  match Json.readLines log with
  | none => .error .jsonDecode
  | some records => .ok records

/-- The sequence number behind some records. -/
def nextSeqOf (records : List Json) : Except PyError Json :=
  match records.getLast? with
  | none => .ok (.num (.int 0))
  | some last => do
      let seq ← index last "seq"
      nextSeq seq

def newEntry (seq : Number) (args : RecordArgs) : Entry where
  seq := seq
  ts := args.ts
  symbol := Py.upper args.symbol
  reason := if args.reason ∈ AbstentionLedger.validReasons then args.reason else "regime_conflict"
  side := args.side
  refPrice := args.refPrice
  sizeUsd := args.sizeUsd
  marked := false
  markTs := none
  markPrice := none
  hypotheticalPnlUsd := none

def record (log : List Char) (args : RecordArgs) : Except PyError (List Char × Entry) := do
  let records ← readAll log
  match ← nextSeqOf records with
  | .num seq =>
      let a := newEntry seq args
      return (Json.appendLine log a.toDict, a)
  | _ => .error .typeError

/-- `r.get(key)`. -/
def getKey (r : Json) (key : String) : Except PyError Json :=
  match r with
  | .obj fields => .ok ((fields.lookup key).getD .null)
  | _ => .error .attributeError

/-- An operand of an arithmetic operation. -/
def operand : Json → Except PyError ℚ
  | .num n => .ok n.value
  | .bool b => .ok (if b then 1 else 0)
  | _ => .error .typeError

/-- The fields that marking stores. -/
def store (r : Json) (pnl : ℚ) (px nowTs : Number) : Json :=
  match r with
  | .obj fields =>
      let fields := Json.setField fields "hypothetical_pnl_usd" (Py.floatJson pnl)
      let fields := Json.setField fields "mark_price" (.num px)
      let fields := Json.setField fields "mark_ts" (.num nowTs)
      .obj (Json.setField fields "marked" (.bool true))
  | other => other

/-- One step of `mark_to_market`: the record afterwards, and whether it was marked now. -/
def markRecord (args : MarkArgs) (r : Json) : Except PyError (Json × Bool) := do
  let marked ← getKey r "marked"
  if marked.truthy then return (r, false)
  let ts ← operand (← index r "ts")
  if args.nowTs.value - ts < args.minAgeS.value then return (r, false)
  match ← index r "symbol" with
  | .str symbol =>
      match args.prices.get? (Py.upper symbol) with
      | none => return (r, false)
      | some px =>
          let reference ← getKey r "ref_price"
          if ¬reference.truthy then return (r, false)
          let refPrice ← operand reference
          let move := (px.value - refPrice) / refPrice
          let side ← index r "side"
          let sign : ℚ := if isStr side "buy" then 1 else -1
          let sizeUsd ← operand (← index r "size_usd")
          return (store r (Py.roundTo 4 (sign * move * sizeUsd)) px args.nowTs, true)
  | _ => .error .attributeError

/-- The file afterwards, and the number of records that were marked. -/
def markToMarket (log : List Char) (args : MarkArgs) : Except PyError (List Char × ℕ) := do
  let records ← readAll log
  let results ← records.mapM (markRecord args)
  let marked := results.countP fun result => result.2
  if marked = 0 then return (log, 0)
  else return (logText (results.map Prod.fst), marked)

/-- The file of some records. -/
def ledgerText (entries : List Entry) : List Char := logText (entries.map Entry.toDict)

/-- A record that a call marks. -/
def Entry.Due (args : MarkArgs) (e : Entry) : Prop :=
  e.marked = false ∧ args.minAgeS.value ≤ args.nowTs.value - e.ts.value ∧
    (args.prices.get? (Py.upper e.symbol)).isSome = true ∧ e.refPrice.value ≠ 0

instance (args : MarkArgs) (e : Entry) : Decidable (e.Due args) :=
  inferInstanceAs (Decidable (_ ∧ _))

/-- A record after a call of `mark_to_market`. -/
def Entry.mark (args : MarkArgs) (e : Entry) : Entry :=
  match args.prices.get? (Py.upper e.symbol) with
  | none => e
  | some px =>
      if e.Due args then
        let move := (px.value - e.refPrice.value) / e.refPrice.value
        let sign : ℚ := if e.side = "buy" then 1 else -1
        { e with
          hypotheticalPnlUsd := some (.float (Py.floatLit (Py.roundTo 4
            (sign * move * e.sizeUsd.value))))
          markPrice := some px
          markTs := some args.nowTs
          marked := true }
      else e

variable {entries : List Entry} {e : Entry} {args : MarkArgs}

theorem isRecord_toDict (e : Entry) : e.toDict.IsRecord := by
  refine ⟨⟨_, rfl⟩, ?_⟩
  rcases e with ⟨seq, ts, symbol, reason, side, refPrice, sizeUsd, marked, markTs, markPrice, pnl⟩
  cases markTs <;> cases markPrice <;> cases pnl <;>
    simp [Entry.toDict, optionalNumber, Json.DistinctKeys, Json.DistinctKeysFields]

theorem isRecord_of_mem (entries : List Entry) :
    ∀ value ∈ entries.map Entry.toDict, value.IsRecord := by
  intro value mem
  rcases List.mem_map.1 mem with ⟨e, -, rfl⟩
  exact isRecord_toDict e

theorem readAll_ledgerText (entries : List Entry) :
    readAll (ledgerText entries) = .ok (entries.map Entry.toDict) := by
  rw [readAll, ledgerText, Json.readLines_logText (isRecord_of_mem entries)]

/-- A marked record is stored over the old one. -/
theorem store_toDict (e : Entry) (pnl : ℚ) (px nowTs : Number) :
    store e.toDict pnl px nowTs =
      Entry.toDict { e with
        hypotheticalPnlUsd := some (.float (Py.floatLit pnl))
        markPrice := some px
        markTs := some nowTs
        marked := true } := by
  simp [store, Entry.toDict, Json.setField, optionalNumber, Py.floatJson]

theorem mark_of_not_due (idle : ¬e.Due args) : e.mark args = e := by
  unfold Entry.mark
  split
  · rfl
  · rw [if_neg idle]

/-- On a record of the ledger no step raises. -/
theorem markRecord_toDict (args : MarkArgs) (e : Entry) :
    markRecord args e.toDict = .ok ((e.mark args).toDict, decide (e.Due args)) := by
  have marked : getKey e.toDict "marked" = .ok (.bool e.marked) := rfl
  have ts : index e.toDict "ts" = .ok (.num e.ts) := rfl
  have symbol : index e.toDict "symbol" = .ok (.str e.symbol) := rfl
  have reference : getKey e.toDict "ref_price" = .ok (.num e.refPrice) := rfl
  have side : index e.toDict "side" = .ok (.str e.side) := rfl
  have size : index e.toDict "size_usd" = .ok (.num e.sizeUsd) := rfl
  have idle : ¬e.Due args → (Except.ok (e.toDict, false) : Except PyError (Json × Bool)) =
      .ok ((e.mark args).toDict, decide (e.Due args)) := by
    intro idle
    rw [mark_of_not_due idle, decide_eq_false idle]
  unfold markRecord
  rw [marked]
  dsimp only [bind, Except.bind, pure, Except.pure]
  by_cases done : (Json.bool e.marked).truthy = true
  · rw [if_pos done]
    apply idle
    rintro ⟨unmarked, -⟩
    rw [unmarked] at done
    cases done
  rw [if_neg done, ts]
  dsimp only [operand]
  by_cases young : args.nowTs.value - e.ts.value < args.minAgeS.value
  · rw [if_pos young]
    apply idle
    rintro ⟨-, aged, -⟩
    exact absurd young (not_lt.2 aged)
  rw [if_neg young, symbol]
  dsimp only
  cases priced : args.prices.get? (Py.upper e.symbol) with
  | none =>
      apply idle
      rintro ⟨-, -, price, -⟩
      rw [priced] at price
      cases price
  | some px =>
      rw [reference]
      dsimp only
      by_cases zero : e.refPrice.value = 0
      · rw [if_pos (by simp [Json.truthy, zero])]
        apply idle
        rintro ⟨-, -, -, nonzero⟩
        exact nonzero zero
      · have due : e.Due args := by
          refine ⟨Bool.eq_false_of_not_eq_true done, not_lt.1 young, ?_, zero⟩
          rw [priced]
          rfl
        rw [if_neg (by simp [Json.truthy, zero]), side, size]
        dsimp only [operand]
        rw [store_toDict, Entry.mark, priced, decide_eq_true due]
        dsimp only
        rw [if_pos due]
        simp [isStr]

theorem mapM_markRecord (args : MarkArgs) (entries : List Entry) :
    (entries.map Entry.toDict).mapM (markRecord args) =
      .ok (entries.map fun e => ((e.mark args).toDict, decide (e.Due args))) := by
  induction entries with
  | nil => rfl
  | cons e entries ih =>
      rw [List.map_cons, List.mapM_cons, markRecord_toDict, ih]
      rfl

theorem countP_due_ne_zero (due : ∃ e ∈ entries, e.Due args) :
    entries.countP (fun e => decide (e.Due args)) ≠ 0 := by
  apply Nat.pos_iff_ne_zero.1
  rw [List.countP_pos_iff]
  rcases due with ⟨e, mem, due⟩
  exact ⟨e, mem, decide_eq_true due⟩

/-- Marking rewrites the file when a record is due. -/
theorem markToMarket_ledgerText (args : MarkArgs) (entries : List Entry) :
    markToMarket (ledgerText entries) args =
      if ∃ e ∈ entries, e.Due args then
        .ok (ledgerText (entries.map (Entry.mark args)),
          entries.countP fun e => decide (e.Due args))
      else .ok (ledgerText entries, 0) := by
  have counted : (entries.map fun e => ((e.mark args).toDict, decide (e.Due args))).countP
      (fun result => result.2) = entries.countP fun e => decide (e.Due args) := by
    rw [List.countP_map]
    rfl
  have rewritten : (entries.map fun e => ((e.mark args).toDict, decide (e.Due args))).map Prod.fst =
      (entries.map (Entry.mark args)).map Entry.toDict := by
    rw [List.map_map, List.map_map]
    rfl
  rw [markToMarket, readAll_ledgerText]
  dsimp only [bind, Except.bind, pure, Except.pure]
  rw [mapM_markRecord]
  dsimp only
  rw [counted, rewritten]
  by_cases due : ∃ e ∈ entries, e.Due args
  · rw [if_neg (countP_due_ne_zero due), if_pos due]
    rfl
  · have none : entries.countP (fun e => decide (e.Due args)) = 0 := by
      rw [List.countP_eq_zero]
      intro e mem marks
      exact due ⟨e, mem, of_decide_eq_true marks⟩
    rw [if_pos none, if_neg due]

theorem exists_nextSeqOf (entries : List Entry) :
    ∃ seq, nextSeqOf (entries.map Entry.toDict) = .ok (.num seq) := by
  rcases List.eq_nil_or_concat' entries with rfl | ⟨entries, e, rfl⟩
  · exact ⟨.int 0, rfl⟩
  · have found : index e.toDict "seq" = .ok (.num e.seq) := rfl
    rw [nextSeqOf, List.map_append, List.map_singleton, List.getLast?_concat]
    dsimp only [bind, Except.bind]
    rw [found]
    dsimp only
    cases e.seq with
    | int n => exact ⟨.int (n + 1), rfl⟩
    | float lit => exact ⟨.float (Py.floatLit (lit.value + 1)), rfl⟩

/-- Recording appends one record. -/
theorem record_ledgerText (entries : List Entry) (args : RecordArgs) :
    ∃ e, record (ledgerText entries) args = .ok (ledgerText (entries ++ [e]), e) := by
  rcases exists_nextSeqOf entries with ⟨seq, next⟩
  refine ⟨newEntry seq args, ?_⟩
  rw [record, readAll_ledgerText]
  dsimp only [bind, Except.bind, pure, Except.pure]
  rw [next]
  dsimp only
  rw [ledgerText, ledgerText, List.map_append, List.map_singleton, Json.logText_concat]

inductive Call where
  | record (args : RecordArgs)
  | markToMarket (args : MarkArgs)

/-- The file after a call. -/
def call (log : List Char) : Call → Except PyError (List Char)
  | .record args => (record log args).map Prod.fst
  | .markToMarket args => (markToMarket log args).map Prod.fst

/-- The file after some calls on one that does not exist. -/
def after (calls : List Call) : Except PyError (List Char) := calls.foldlM call []

/-- Every call on a file of the ledger succeeds, and leaves one. -/
theorem exists_entries_call (entries : List Entry) (c : Call) :
    ∃ entries', call (ledgerText entries) c = .ok (ledgerText entries') := by
  cases c with
  | record args =>
      rcases record_ledgerText entries args with ⟨e, recorded⟩
      refine ⟨entries ++ [e], ?_⟩
      rw [call, recorded]
      rfl
  | markToMarket args =>
      rw [call, markToMarket_ledgerText]
      split
      · exact ⟨_, rfl⟩
      · exact ⟨_, rfl⟩

theorem exists_entries_foldlM (entries : List Entry) (calls : List Call) :
    ∃ entries', calls.foldlM call (ledgerText entries) = .ok (ledgerText entries') := by
  induction calls generalizing entries with
  | nil => exact ⟨entries, rfl⟩
  | cons c calls ih =>
      rcases exists_entries_call entries c with ⟨next, called⟩
      rw [List.foldlM_cons, called]
      exact ih next

/-- **Every file of the ledger is the text of its records.** -/
theorem exists_entries_after (calls : List Call) :
    ∃ entries, after calls = .ok (ledgerText entries) :=
  exists_entries_foldlM [] calls

end LedgerFile

end SumplusTrader
