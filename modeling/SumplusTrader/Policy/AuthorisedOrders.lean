import SumplusTrader.Policy.BoundLogs

/-!
# What the verifier of executions establishes

This file characterises `verify_executions`: it returns ok exactly when every execution record
is authorised by a receipt, each on its own (`verifyExecutions_ok_iff`). The records are not
compared with one another, so two orders of one receipt pass. That a receipt has at most one
execution is a property of the logs that ticks write (`BoundLogs.referencedOnce`).
-/

namespace SumplusTrader

namespace ExecLog

/-- `rec.get("receipt_hash", "")`. -/
def receiptHashOf (record : Json) : Json := (record.get? "receipt_hash").getD (.str "")

/-- The last receipt with a hash. -/
def lastWithHash (receipts : List Json) (hash : String) : Option Json :=
  receipts.reverse.find? fun receipt => (receipt.get? "hash").any (isStr · hash)

/-- The receipts can be indexed by their hashes. -/
def Indexable (receipts : List Json) : Prop := ∃ byHash, hashIndex receipts = .ok byHash

/-- The record carries the cid of its receipt hash, and the receipt with this hash lets an order
through. -/
def Authorised (receipts : List Json) (record : Json) : Prop :=
  ∃ hash receipt, receiptHashOf record = .str hash ∧
    record.get? "cid" = some (.str (receiptCid hash)) ∧
    lastWithHash receipts hash = some receipt ∧
    (receipt.get? "verdict" = some (.str "allow") ∨ receipt.get? "verdict" = some (.str "clamp"))

variable {records receipts : List Json} {record receipt : Json} {byHash : List (Json × Json)}
  {hash : String}

/-- One entry of the index. -/
def hashEntry (receipt : Json) : Except PyError (Json × Json) := do
  match ← index receipt "hash" with
  | .arr _ => .error .typeError
  | .obj _ => .error .typeError
  | hash => return (hash, receipt)

theorem hashEntry_eq_ok {entry : Json × Json} (entered : hashEntry receipt = .ok entry) :
    receipt.get? "hash" = some entry.1 ∧ entry.2 = receipt := by
  rcases bind_eq_ok_iff.1 entered with ⟨hash, stored, entered⟩
  rw [index_eq_ok_iff] at stored
  cases hash with
  | arr items => cases entered
  | obj fields => cases entered
  | null | bool | num | str =>
      cases entered
      exact ⟨stored, rfl⟩

theorem mapM_cons_eq_ok {α β : Type} {f : α → Except PyError β} {x : α} {xs : List α} {ys : List β}
    (all : (x :: xs).mapM f = .ok ys) :
    ∃ y rest, f x = .ok y ∧ xs.mapM f = .ok rest ∧ ys = y :: rest := by
  rw [List.mapM_cons] at all
  rcases bind_eq_ok_iff.1 all with ⟨y, first, all⟩
  rcases bind_eq_ok_iff.1 all with ⟨rest, others, all⟩
  cases all
  exact ⟨y, rest, first, others, rfl⟩

/-- The entries of the index are the receipts with their hashes, in order. -/
theorem entries_of_hashIndex (indexed : hashIndex receipts = .ok byHash) :
    receipts = byHash.map Prod.snd ∧ ∀ entry ∈ byHash, entry.2.get? "hash" = some entry.1 := by
  induction receipts generalizing byHash with
  | nil =>
      cases indexed
      simp
  | cons receipt receipts ih =>
      rcases mapM_cons_eq_ok indexed with ⟨entry, rest, first, others, rfl⟩
      rcases hashEntry_eq_ok first with ⟨stored, same⟩
      rcases ih others with ⟨rfl, stores⟩
      rw [← same] at stored
      refine ⟨by rw [List.map_cons, same], ?_⟩
      exact List.forall_mem_cons.2 ⟨stored, stores⟩

theorem findReceipt_eq (indexed : hashIndex receipts = .ok byHash) (hash : String) :
    findReceipt byHash hash = lastWithHash receipts hash := by
  rcases entries_of_hashIndex indexed with ⟨rfl, stores⟩
  unfold findReceipt lastWithHash
  rw [← List.map_reverse, List.find?_map, ← List.head?_filter, ← List.head?_filter]
  congr 2
  apply List.filter_congr
  intro entry mem
  simp [stores entry (List.mem_reverse.1 mem)]

theorem isStr_getOrNull_iff {key s : String} :
    isStr (getOrNull record key) s = true ↔ record.get? key = some (.str s) := by
  unfold getOrNull
  rw [isStr_iff]
  cases record.get? key <;> simp

theorem isTradeVerdict_iff : isTradeVerdict (getOrNull receipt "verdict") = true ↔
    receipt.get? "verdict" = some (.str "allow") ∨ receipt.get? "verdict" = some (.str "clamp") := by
  unfold isTradeVerdict
  rw [Bool.or_eq_true, isStr_getOrNull_iff, isStr_getOrNull_iff]

/-- The verifier finds nothing wrong with a record exactly when it is authorised. -/
theorem judge_eq_none_iff (indexed : hashIndex receipts = .ok byHash) :
    judge byHash record = .ok none ↔ Authorised receipts record := by
  cases record with
  | obj fields =>
      have asked : receiptHashOf (.obj fields) = (fields.lookup "receipt_hash").getD (.str "") := rfl
      unfold Authorised judge
      rw [asked]
      dsimp only
      cases (fields.lookup "receipt_hash").getD (.str "") with
      | str hash =>
          have cidIs := @isStr_getOrNull_iff (.obj fields) "cid" (receiptCid hash)
          dsimp only
          rw [findReceipt_eq indexed]
          by_cases bound : (Json.obj fields).get? "cid" = some (.str (receiptCid hash))
          · rw [if_neg (not_not.2 (cidIs.2 bound))]
            cases found : lastWithHash receipts hash with
            | none => simp [found]
            | some receipt =>
                dsimp only
                by_cases trade : isTradeVerdict (getOrNull receipt "verdict") = true
                · rw [if_pos trade]
                  exact iff_of_true rfl ⟨hash, receipt, rfl, bound, found, isTradeVerdict_iff.1 trade⟩
                · rw [if_neg trade]
                  refine iff_of_false (by simp) ?_
                  rintro ⟨other, receipt', same, -, found', verdict⟩
                  cases same
                  rw [found, Option.some.injEq] at found'
                  subst found'
                  exact trade (isTradeVerdict_iff.2 verdict)
          · rw [if_pos (fun same => bound (cidIs.1 same))]
            refine iff_of_false (by simp) ?_
            rintro ⟨other, receipt, same, carried, -⟩
            cases same
            exact bound carried
      | null | bool | num | arr | obj => simp
  | null | bool | num | str | arr => simp [judge, Authorised, Json.get?]

/-- Judging all records finds nothing exactly when judging each of them does. -/
theorem mapM_judge_clean_iff (judgeOne : Json → Except PyError (Option BadExecution)) :
    (∃ judged, records.mapM judgeOne = .ok judged ∧ judged.filterMap id = []) ↔
      ∀ record ∈ records, judgeOne record = .ok none := by
  induction records with
  | nil => simp [pure, Except.pure]
  | cons record records ih =>
      rw [List.forall_mem_cons, ← ih]
      constructor
      · rintro ⟨judged, all, clean⟩
        rcases mapM_cons_eq_ok all with ⟨first, rest, firstEq, restEq, rfl⟩
        cases first with
        | none => exact ⟨firstEq, rest, restEq, by simpa using clean⟩
        | some bad => simp at clean
      · rintro ⟨firstEq, rest, restEq, clean⟩
        refine ⟨none :: rest, ?_, by simpa using clean⟩
        rw [List.mapM_cons, firstEq, restEq]
        rfl

theorem any_or_any_not {α : Type} (p : α → Bool) (xs : List α) :
    (!xs.any p && !xs.any fun x => !p x) = true ↔ xs = [] := by
  cases xs with
  | nil => simp
  | cons x xs => cases h : p x <;> simp [h]

/-- **The verifier of executions checks each record on its own**: it returns ok exactly when the
receipts can be indexed and every record is authorised. -/
theorem verifyExecutions_ok_iff (records receipts : List Json) :
    (∃ verdict, verifyExecutions records receipts = .ok verdict ∧ verdict.ok = true) ↔
      Indexable receipts ∧ ∀ record ∈ records, Authorised receipts record := by
  unfold verifyExecutions Indexable
  constructor
  · rintro ⟨verdict, verified, ok⟩
    rcases bind_eq_ok_iff.1 verified with ⟨byHash, indexed, verified⟩
    rcases bind_eq_ok_iff.1 verified with ⟨judged, judgedEq, verified⟩
    cases verified
    refine ⟨⟨byHash, indexed⟩, ?_⟩
    have clean := (mapM_judge_clean_iff (judge byHash)).1
      ⟨judged, judgedEq, (any_or_any_not isCidMismatch _).1 ok⟩
    intro record mem
    exact (judge_eq_none_iff indexed).1 (clean record mem)
  · rintro ⟨⟨byHash, indexed⟩, authorised⟩
    have clean : ∀ record ∈ records, judge byHash record = .ok none := by
      intro record mem
      exact (judge_eq_none_iff indexed).2 (authorised record mem)
    rcases (mapM_judge_clean_iff (judge byHash)).2 clean with ⟨judged, judgedEq, none⟩
    simp only [indexed, judgedEq, bind, Except.bind]
    exact ⟨_, rfl, (any_or_any_not isCidMismatch _).2 none⟩

/-- A receipt that lets an order through. -/
def allowedReceipt : Receipt :=
  ReceiptChain.receiptOf (.num (.int 0)) genesis
    { holdArgs with kind := .ofString "trade", verdict := .ofString "allow" }

/-- An executed order of that receipt. -/
def orderRecord (tx : String) : ExecutionRecord :=
  executionRecord (.num (.int 0)) allowedReceipt.hash (receiptCid allowedReceipt.hash)
    "2026-01-01T00:00:00Z" true (.obj [("source", .str "injective"), ("tx", .str tx)]) none

/-- Two executed orders of one receipt pass the verifier. -/
theorem order_sent_twice_verifies :
    Verified [allowedReceipt.toDict] ∧
      (verifyExecutions [(orderRecord "0x1").toDict, (orderRecord "0x2").toDict]
        [allowedReceipt.toDict]).map ExecVerdict.ok = .ok true ∧
      (orderRecord "0x1").executed = true ∧ (orderRecord "0x2").executed = true ∧
      References (orderRecord "0x1").toDict allowedReceipt.toDict ∧
      References (orderRecord "0x2").toDict allowedReceipt.toDict := by
  refine ⟨(verified_iff _).2 ⟨_, rfl, rfl, rfl, trivial⟩, ?_, rfl, rfl, ⟨_, rfl, rfl⟩, ⟨_, rfl, rfl⟩⟩
  have nodup : ([allowedReceipt].map Receipt.hash).Nodup := List.nodup_singleton _
  have cids : ∀ e ∈ [orderRecord "0x1", orderRecord "0x2"], e.cid = receiptCid e.receiptHash := by
    simp [orderRecord, executionRecord]
  have traded : ∀ e ∈ [orderRecord "0x1", orderRecord "0x2"],
      e.receiptHash ∈ tradeHashes [allowedReceipt] := by
    have hashes : tradeHashes [allowedReceipt] = [allowedReceipt.hash] := rfl
    simp [orderRecord, executionRecord, hashes]
  exact congrArg (Except.map ExecVerdict.ok) (verifyExecutions_bound nodup cids traded)

end ExecLog

end SumplusTrader
