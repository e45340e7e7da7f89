import SumplusTrader.Json.LogText
import SumplusTrader.Policy.ReceiptChain

/-!
# A crash while a receipt is appended

`ReceiptChain.append` opens the log for appending and writes the line of the new
receipt. This file models a process that dies after some of that line has been
written, and the next process that appends a receipt to what is left. The line is
ASCII text, so its characters are its bytes.

Before it appends, a process parses every line of the log. A line that was cut
anywhere inside its text therefore stops all later appends
(`append_torn_eq_error`); a line that only lacks its newline is continued by the
next receipt and makes the log unreadable. The log survives exactly when nothing
or everything had been written, and no earlier line was left open.
-/

namespace SumplusTrader

/-- What `ReceiptChain.append` writes for a receipt. -/
def receiptLine (r : Receipt) : List Char := Json.render .spaced r.toDict ++ ['\n']

/-- The line that an append writes; one that raises writes nothing. -/
def newLine (log : List Char) (args : ReceiptArgs) : List Char :=
  match ReceiptChain.append log args with
  | .ok (_, r) => receiptLine r
  | .error _ => []

/-- The log a process leaves that dies after writing part of the new line. -/
def tornLog (log : List Char) (args : ReceiptArgs) (cut : ℕ) : List Char :=
  log ++ (newLine log args).take cut

/-- After the restart the next append succeeds, the verifier accepts the log, and
every receipt that was complete before the crash is still there. -/
def SurvivesCrash (log : List Char) (records : List Json) (args : ReceiptArgs) (cut : ℕ)
    (next : ReceiptArgs) : Prop :=
  ∃ log' r kept, ReceiptChain.append (tornLog log args cut) next = .ok (log', r) ∧
    ReceiptChain.readAll log' = .ok kept ∧ Verified kept ∧ records <+: kept ∧
    ((newLine log args).length ≤ cut → ∀ log'' written,
      ReceiptChain.append log args = .ok (log'', written) → written.toDict ∈ kept)

theorem append_ok {log log' : List Char} {args : ReceiptArgs} {r : Receipt}
    (appended : ReceiptChain.append log args = .ok (log', r)) :
    log' = Json.appendLine log r.toDict := by
  rw [ReceiptChain.append] at appended
  rcases bind_eq_ok_iff.1 appended with ⟨⟨seq, prev⟩, -, appended⟩
  cases prev with
  | str prev =>
      cases appended
      rfl
  | _ => cases appended

/-- What was unreadable before an append is unreadable after it. -/
theorem not_survivesCrash_of_unreadable {log : List Char} {records : List Json}
    {args : ReceiptArgs} {cut : ℕ} {next : ReceiptArgs}
    (spoils : ∀ r : Receipt, Json.Unreadable (Json.appendLine (tornLog log args cut) r.toDict)) :
    ¬SurvivesCrash log records args cut next := by
  rintro ⟨log', r, kept, appended, read, -⟩
  rw [append_ok appended, readAll_eq_ok_iff, (spoils r).readLines] at read
  cases read

theorem exists_fields_toDict (r : Receipt) : ∃ fields, r.toDict = .obj fields := ⟨_, rfl⟩

section

variable {log : List Char} {records : List Json}
  {links : List (HashChain.Link ReceiptBody String)}

theorem LogOf.newLine_eq (valid : LogOf log records links) (args : ReceiptArgs) :
    newLine log args = receiptLine (nextReceipt records links args) := by
  rw [newLine, valid.append_eq args]

/-- A line that was cut inside its text stops every later append. -/
theorem append_torn_eq_error (valid : LogOf log records links)
    (blank : Json.Blank (Json.openLine log)) {args : ReceiptArgs} {cut : ℕ} (written : 0 < cut)
    (inside : cut + 1 < (newLine log args).length) (next : ReceiptArgs) :
    ReceiptChain.append (tornLog log args cut) next = .error .jsonDecode := by
  rw [valid.newLine_eq args] at inside
  rw [tornLog, valid.newLine_eq args]
  rcases exists_fields_toDict (nextReceipt records links args) with ⟨fields, isObject⟩
  rw [receiptLine, isObject, List.length_append, List.length_singleton] at inside
  rw [receiptLine, isObject, List.take_append_of_le_length (by omega)]
  have length : ((Json.render .spaced (.obj fields)).take cut).length = cut := by
    rw [List.length_take]
    omega
  have hidden : Json.lastLine (log ++ (Json.render .spaced (.obj fields)).take cut) = none := by
    apply Json.lastLine_torn blank _ (List.take_prefix _ _)
    · intro whole
      rw [whole] at length
      omega
    · intro empty
      rw [empty, List.length_nil] at length
      omega
  rw [ReceiptChain.append, ReceiptChain.head, ReceiptChain.last, hidden]
  rfl

/-- The receipt behind a line that only lacks its newline spoils the log. -/
theorem unreadable_of_unclosed (valid : LogOf log records links)
    (blank : Json.Blank (Json.openLine log)) {args : ReceiptArgs} {cut : ℕ}
    (unclosed : cut + 1 = (newLine log args).length) (r : Receipt) :
    Json.Unreadable (Json.appendLine (tornLog log args cut) r.toDict) := by
  rw [valid.newLine_eq args] at unclosed
  rw [tornLog, valid.newLine_eq args]
  have extended := (valid.append blank args).objects
  have distinct : (nextReceipt records links args).toDict.DistinctKeys :=
    distinctKeys_receiptOf records.length (HashChain.head genesis links) args
  rcases exists_fields_toDict (nextReceipt records links args) with ⟨fields, isObject⟩
  rw [isObject] at extended distinct
  rw [receiptLine, isObject, List.length_append, List.length_singleton,
    Nat.add_right_cancel_iff] at unclosed
  rw [receiptLine, isObject, unclosed, List.take_left]
  apply Json.unreadable_appendLine_of_open
    (Json.readLines_unclosed valid.read blank distinct) extended
  intro space
  rcases Json.render_obj_head .spaced fields with ⟨body, shape⟩
  rw [Json.openLine_append (Json.render_unbroken .spaced _), shape] at space
  exact absurd (space '{' (by simp)) (by decide)

/-- An open line that is not white space is spoiled wherever the new line is cut. -/
theorem unreadable_of_open (valid : LogOf log records links)
    (notBlank : ¬Json.Blank (Json.openLine log)) (args : ReceiptArgs) (cut : ℕ) (r : Receipt) :
    Json.Unreadable (Json.appendLine (tornLog log args cut) r.toDict) := by
  rw [tornLog, valid.newLine_eq args]
  rcases Nat.lt_or_ge cut (receiptLine (nextReceipt records links args)).length with inside | whole
  · rcases exists_fields_toDict (nextReceipt records links args) with ⟨fields, isObject⟩
    rw [receiptLine, isObject, List.length_append, List.length_singleton] at inside
    rw [receiptLine, isObject, List.take_append_of_le_length (by omega)]
    apply Json.unreadable_of_torn valid.read valid.objects notBlank (List.take_prefix _ _)
  · rw [List.take_of_length_le whole]
    exact (Json.unreadable_appendLine_of_open valid.read valid.objects notBlank _).appendLine _

theorem survivesCrash_of_closed (valid : LogOf log records links)
    (blank : Json.Blank (Json.openLine log)) {args : ReceiptArgs} {cut : ℕ}
    (whole : cut = 0 ∨ (newLine log args).length ≤ cut) (next : ReceiptArgs) :
    SurvivesCrash log records args cut next := by
  have nonempty : 0 < (newLine log args).length := by
    rw [valid.newLine_eq args, receiptLine, List.length_append, List.length_singleton]
    omega
  have extended := valid.append blank args
  rcases whole with rfl | complete
  · have torn : tornLog log args 0 = log := by simp [tornLog]
    have reread := valid.append blank next
    refine ⟨_, _, _, by rw [torn]; exact valid.append_eq next,
      readAll_eq_ok_iff.2 reread.read, reread.verified, List.prefix_append _ _, ?_⟩
    omega
  · have torn : tornLog log args cut =
        Json.appendLine log (nextReceipt records links args).toDict := by
      rw [tornLog, List.take_of_length_le complete, valid.newLine_eq args]
      rfl
    have closed : Json.Blank (Json.openLine
        (Json.appendLine log (nextReceipt records links args).toDict)) := by
      rw [Json.openLine_appendLine]
      exact Json.blank_nil
    have reread := extended.append closed next
    refine ⟨_, _, _, by rw [torn]; exact extended.append_eq next,
      readAll_eq_ok_iff.2 reread.read, reread.verified, ?_, ?_⟩
    · rw [List.append_assoc]
      exact List.prefix_append _ _
    · intro _ log'' written appended
      rw [valid.append_eq args] at appended
      cases appended
      simp

end

/-- **A crash during append.** For every valid receipts file, every append, every
number of bytes that were written and every later append, the log survives
exactly when its last line was closed and the crash left none or all of the bytes. -/
theorem survives_crash_iff (log : List Char) (records : List Json) (valid : ValidLog log records)
    (args : ReceiptArgs) (cut : ℕ) (next : ReceiptArgs) :
    SurvivesCrash log records args cut next ↔
      Json.Blank (Json.openLine log) ∧ (cut = 0 ∨ (newLine log args).length ≤ cut) := by
  rcases valid.exists_logOf with ⟨links, logOf⟩
  constructor
  · intro survives
    by_cases blank : Json.Blank (Json.openLine log)
    · refine ⟨blank, ?_⟩
      by_contra partly
      rw [not_or] at partly
      rcases Nat.lt_or_ge (cut + 1) (newLine log args).length with inside | unclosed
      · rcases survives with ⟨log', r, kept, appended, -⟩
        rw [append_torn_eq_error logOf blank (by omega) inside next] at appended
        cases appended
      · exact not_survivesCrash_of_unreadable
          (unreadable_of_unclosed logOf blank (by omega)) survives
    · exact absurd survives (not_survivesCrash_of_unreadable
        (unreadable_of_open logOf blank args cut))
  · rintro ⟨blank, whole⟩
    exact survivesCrash_of_closed logOf blank whole next

theorem validLog_nil : ValidLog [] [] := ⟨rfl, ⟨_, rfl, rfl⟩, rfl⟩

/-- The crash comes when the line of a second receipt is written. -/
theorem survives_crash_iff_wholeLine : SurvivesCrash holdLog [holdReceipt.toDict] laterArgs
    (newLine holdLog laterArgs).length holdArgs :=
  (survives_crash_iff holdLog [holdReceipt.toDict] validLog_holdLog laterArgs _ holdArgs).2
    ⟨blank_openLine_holdLog, .inr le_rfl⟩

/-- After a crash behind the first byte no receipt is appended any more. -/
theorem first_byte_stops_log :
    ValidLog [] [] ∧ tornLog [] holdArgs 1 = ['{'] ∧
      ¬SurvivesCrash [] [] holdArgs 1 holdArgs := by
  have torn : tornLog [] holdArgs 1 = ['{'] := by decide +kernel
  refine ⟨validLog_nil, torn, ?_⟩
  rintro ⟨log', r, kept, appended, -⟩
  have hidden : ReceiptChain.last ['{'] = .error .jsonDecode := rfl
  rw [torn, ReceiptChain.append, ReceiptChain.head, hidden] at appended
  cases appended

end SumplusTrader
