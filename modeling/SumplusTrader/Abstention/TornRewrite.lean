import SumplusTrader.Abstention.LedgerFile

/-!
# A crash while the ledger is rewritten

`mark_to_market` truncates the file and writes all records anew. This file models a process that
dies after some beginning of the new contents has been written, and the processes that read the
ledger and record in it afterwards.

A file that stops within a line cannot be read any more, and one that stops behind a line has
lost the records that follow. If only the last newline is missing, everything is read once more,
but the next record goes into the last line and spoils the file. So the ledger survives exactly
when the call marks nothing, or the whole of the new contents was written.
-/

namespace SumplusTrader

namespace LedgerFile

/-- The file a process leaves that dies while it marks. -/
def tornLedger (log : List Char) (args : MarkArgs) (cut : ℕ) : List Char :=
  match markToMarket log args with
  | .ok (text, marked) => if marked = 0 then log else text.take cut
  | .error _ => log

/-- Records one abstention after the other. -/
def recordAll (log : List Char) (calls : List RecordArgs) : Except PyError (List Char) :=
  calls.foldlM (fun log args => (record log args).map Prod.fst) log

/-- After the restart every record can be read, in its old form or as it is marked, and every
later call of `record` succeeds. -/
structure SurvivesMarking (entries : List Entry) (args : MarkArgs) (cut : ℕ) : Prop where
  readable : ∃ kept, readAll (tornLedger (ledgerText entries) args cut) = .ok kept ∧
    ∀ (i : ℕ) e, entries[i]? = some e →
      kept[i]? = some e.toDict ∨ kept[i]? = some (e.mark args).toDict
  records : ∀ calls, ∃ log, recordAll (tornLedger (ledgerText entries) args cut) calls = .ok log

variable {entries : List Entry} {args : MarkArgs} {cut : ℕ} {log : List Char}

theorem tornLedger_of_idle (idle : ∀ e ∈ entries, ¬e.Due args) (cut : ℕ) :
    tornLedger (ledgerText entries) args cut = ledgerText entries := by
  have none : ¬∃ e ∈ entries, e.Due args := by
    rintro ⟨e, mem, due⟩
    exact idle e mem due
  rw [tornLedger, markToMarket_ledgerText, if_neg none]
  rfl

theorem tornLedger_of_due (due : ∃ e ∈ entries, e.Due args) (cut : ℕ) :
    tornLedger (ledgerText entries) args cut =
      (ledgerText (entries.map (Entry.mark args))).take cut := by
  rw [tornLedger, markToMarket_ledgerText, if_pos due]
  dsimp only
  rw [if_neg (countP_due_ne_zero due)]

/-- Recording goes on for ever behind a file of the ledger. -/
theorem exists_recordAll (entries : List Entry) (calls : List RecordArgs) :
    ∃ log, recordAll (ledgerText entries) calls = .ok log := by
  rcases exists_entries_foldlM entries (calls.map Call.record) with ⟨entries', recorded⟩
  refine ⟨ledgerText entries', ?_⟩
  rw [List.foldlM_map] at recorded
  exact recorded

/-- A whole file of old or of marked records survives. -/
theorem survivesMarking_of_whole {entries' : List Entry}
    (whole : tornLedger (ledgerText entries) args cut = ledgerText entries')
    (forms : entries' = entries ∨ entries' = entries.map (Entry.mark args)) :
    SurvivesMarking entries args cut where
  readable := by
    rw [whole]
    refine ⟨_, readAll_ledgerText entries', ?_⟩
    intro i e found
    rcases forms with rfl | rfl
    · left
      rw [List.getElem?_map, found]
      rfl
    · right
      rw [List.getElem?_map, List.getElem?_map, found]
      rfl
  records := by
    intro calls
    rw [whole]
    exact exists_recordAll entries' calls

theorem readLines_of_readAll {kept : List Json} (read : readAll log = .ok kept) :
    Json.readLines log = some kept := by
  unfold readAll at read
  cases lines : Json.readLines log with
  | none =>
      rw [lines] at read
      cases read
  | some records =>
      rw [lines] at read
      cases read
      rfl

theorem record_eq_ok {args : RecordArgs} {log' : List Char} {e : Entry}
    (recorded : record log args = .ok (log', e)) : log' = Json.appendLine log e.toDict := by
  rcases bind_eq_ok_iff.1 recorded with ⟨records, -, recorded⟩
  rcases bind_eq_ok_iff.1 recorded with ⟨seq, -, recorded⟩
  cases seq with
  | num seq =>
      cases recorded
      rfl
  | _ => cases recorded

theorem record_of_unreadable (unreadable : Json.Unreadable log) (args : RecordArgs) :
    record log args = .error .jsonDecode := by
  rw [record, readAll, unreadable.readLines]
  rfl

/-- Behind an open line the second record fails at the latest. -/
theorem not_recordAll_of_open {kept : List Json} (read : readAll log = .ok kept)
    (objects : ∀ value ∈ kept, value.IsRecord) (notBlank : ¬Json.Blank (Json.openLine log))
    (args : RecordArgs) (log' : List Char) : recordAll log [args, args] ≠ .ok log' := by
  intro recorded
  rw [recordAll, List.foldlM_cons] at recorded
  rcases bind_eq_ok_iff.1 recorded with ⟨glued, first, recorded⟩
  rw [List.foldlM_cons] at recorded
  rcases bind_eq_ok_iff.1 recorded with ⟨last, second, -⟩
  cases outcome : record log args with
  | error error =>
      rw [outcome] at first
      cases first
  | ok result =>
      rcases result with ⟨text, e⟩
      rw [outcome] at first
      cases first
      have spoiled : Json.Unreadable (Json.appendLine log e.toDict) := by
        apply Json.unreadable_appendLine_of_open (readLines_of_readAll read) _ notBlank
        intro value mem n isNumber
        rcases (objects value mem).1 with ⟨fields, isObject⟩
        rw [isObject] at isNumber
        cases isNumber
      rw [record_eq_ok outcome, record_of_unreadable spoiled] at second
      cases second

theorem not_survivesMarking_of_torn (due : ∃ e ∈ entries, e.Due args)
    (short : cut < (ledgerText (entries.map (Entry.mark args))).length) :
    ¬SurvivesMarking entries args cut := by
  rintro ⟨⟨kept, read, found⟩, records⟩
  rw [tornLedger_of_due due] at read records
  have marked := isRecord_of_mem (entries.map (Entry.mark args))
  rcases Json.readLines_take marked short (readLines_of_readAll read) with fewer | ⟨rfl, notBlank⟩
  · rw [List.length_map, List.length_map] at fewer
    rcases found kept.length entries[kept.length] (List.getElem?_eq_getElem fewer) with old | new
    · simp at old
    · simp at new
  · rcases records [⟨.int 0, "", "", "", .int 0, .int 0⟩, ⟨.int 0, "", "", "", .int 0, .int 0⟩] with
      ⟨log', recorded⟩
    exact not_recordAll_of_open read marked notBlank _ log' recorded

/-- **Marking to market can lose the ledger**: it survives a crash exactly when the call marks
nothing, or the whole of the new contents was written. -/
theorem survivesMarking_iff (entries : List Entry) (args : MarkArgs) (cut : ℕ) :
    SurvivesMarking entries args cut ↔
      (∀ e ∈ entries, ¬e.Due args) ∨
        (ledgerText (entries.map (Entry.mark args))).length ≤ cut := by
  constructor
  · intro survives
    by_cases due : ∃ e ∈ entries, e.Due args
    · right
      by_contra short
      exact not_survivesMarking_of_torn due (not_le.1 short) survives
    · left
      intro e mem marks
      exact due ⟨e, mem, marks⟩
  · rintro (idle | whole)
    · exact survivesMarking_of_whole (tornLedger_of_idle idle cut) (Or.inl rfl)
    · by_cases due : ∃ e ∈ entries, e.Due args
      · apply survivesMarking_of_whole _ (Or.inr rfl)
        rw [tornLedger_of_due due, List.take_of_length_le whole]
      · apply survivesMarking_of_whole (tornLedger_of_idle _ cut) (Or.inl rfl)
        intro e mem marks
        exact due ⟨e, mem, marks⟩

/-- An entry that was declined a day ago, and its price now. -/
def declinedEntry : Entry :=
  newEntry (.int 0) ⟨.int 0, "INJ", "vol_spike", "buy", .int 20, .int 50⟩

def dayLater : MarkArgs := ⟨⟨[("INJ", .int 18)], by decide⟩, .int 86400, .int 86400⟩

/-- When the process dies behind the first byte, the record is gone and none can follow. -/
theorem first_byte_loses_ledger :
    tornLedger (ledgerText [declinedEntry]) dayLater 1 = ['{'] ∧
      readAll ['{'] = .error .jsonDecode ∧
      ¬SurvivesMarking [declinedEntry] dayLater 1 := by
  have torn : tornLedger (ledgerText [declinedEntry]) dayLater 1 = ['{'] := by decide +kernel
  refine ⟨torn, rfl, ?_⟩
  rintro ⟨⟨kept, read, -⟩, -⟩
  rw [torn] at read
  cases read

end LedgerFile

end SumplusTrader
