import SumplusTrader.Policy.Commit
import SumplusTrader.Policy.HeadCommitment

/-!
# Logs that are bound to each other

This file states when the log of the executions is bound to the log of the receipts, and
what the public verifier reports on such logs. The receipts are a chain that carries one
policy hash. Every execution carries the client id that belongs to its receipt, and the
hashes of the executions are a sublist of the hashes of the receipts that let a trade
through.

The verifier finds a receipt again by its hash, so its report depends on the hashes being
distinct. They are, because receipts are numbered and no two of the hashed inputs collide.
-/

namespace SumplusTrader

/-- The receipt lets a trade through. -/
def Receipt.isTrade (r : Receipt) : Bool := ExecLog.isTradeVerdict r.verdict

def tradeHashes (receipts : List Receipt) : List String :=
  (receipts.filter Receipt.isTrade).map Receipt.hash

/-- The logs hold the receipts and the executions, the receipts are a chain under the
policy hash, and every execution has a trade of the chain to itself. -/
structure BoundLogs (hash : String) (receiptLog executionLog : List Char)
    (receipts : List Receipt) (executions : List ExecutionRecord) : Prop where
  chain : LogOf receiptLog (receipts.map Receipt.toDict) (receipts.map Receipt.link)
  chainClosed : Json.Blank (Json.openLine receiptLog)
  policy : ∀ r ∈ receipts, r.policyHash = .str hash
  read : Json.readLines executionLog = some (executions.map ExecutionRecord.toDict)
  readClosed : Json.Blank (Json.openLine executionLog)
  cids : ∀ e ∈ executions, e.cid = receiptCid e.receiptHash
  bound : (executions.map ExecutionRecord.receiptHash).Sublist (tradeHashes receipts)

section Append

variable {hash : String} {receiptLog executionLog : List Char} {receipts : List Receipt}
  {executions : List ExecutionRecord}

theorem boundLogs_nil (hash : String) : BoundLogs hash [] [] [] [] where
  chain := logOf_nil
  chainClosed := Json.blank_nil
  policy := by simp
  read := rfl
  readClosed := Json.blank_nil
  cids := by simp
  bound := List.Sublist.refl []

theorem tradeHashes_append (receipts others : List Receipt) :
    tradeHashes (receipts ++ others) = tradeHashes receipts ++ tradeHashes others := by
  simp [tradeHashes]

/-- One more receipt under the policy hash. -/
theorem BoundLogs.append (bound : BoundLogs hash receiptLog executionLog receipts executions)
    {args : ReceiptArgs} (policy : args.policyHash.tree = .str hash) :
    ∃ r, ReceiptChain.append receiptLog args = .ok (Json.appendLine receiptLog r.toDict, r) ∧
      r.verdict = args.verdict.tree ∧ r.seq.DistinctKeys ∧
      BoundLogs hash (Json.appendLine receiptLog r.toDict) executionLog (receipts ++ [r])
        executions := by
  let r := nextReceipt (receipts.map Receipt.toDict) (receipts.map Receipt.link) args
  refine ⟨r, bound.chain.append_eq args, rfl, trivial, ?_⟩
  constructor
  · have chained := bound.chain.append bound.chainClosed args
    simpa using chained
  · rw [Json.openLine_appendLine]
    exact Json.blank_nil
  · intro other mem
    rcases List.mem_append.1 mem with earlier | last
    · exact bound.policy other earlier
    · rw [List.mem_singleton] at last
      subst last
      exact policy
  · exact bound.read
  · exact bound.readClosed
  · exact bound.cids
  · rw [tradeHashes_append]
    exact bound.bound.trans (List.sublist_append_left _ _)

/-- One more execution, of the trade that the last receipt lets through. -/
theorem BoundLogs.record {r : Receipt} {e : ExecutionRecord}
    (bound : BoundLogs hash receiptLog executionLog (receipts ++ [r]) executions)
    (unused : (executions.map ExecutionRecord.receiptHash).Sublist (tradeHashes receipts))
    (trade : r.isTrade = true) (receiptHash : e.receiptHash = r.hash)
    (cid : e.cid = receiptCid e.receiptHash) (distinct : e.toDict.DistinctKeys) :
    BoundLogs hash receiptLog (ExecLog.recordExecution executionLog e) (receipts ++ [r])
      (executions ++ [e]) := by
  constructor
  · exact bound.chain
  · exact bound.chainClosed
  · exact bound.policy
  · have read := Json.readLines_appendLine bound.read bound.readClosed distinct
    simpa [ExecLog.recordExecution] using read
  · rw [ExecLog.recordExecution, Json.openLine_appendLine]
    exact Json.blank_nil
  · intro other mem
    rcases List.mem_append.1 mem with earlier | last
    · exact bound.cids other earlier
    · rw [List.mem_singleton] at last
      subst last
      exact cid
  · rw [tradeHashes_append, List.map_append]
    have last : tradeHashes [r] = [r.hash] := by simp [tradeHashes, trade]
    rw [last, List.map_singleton, receiptHash]
    exact unused.append (List.Sublist.refl [r.hash])

end Append

theorem distinctKeys_of_lookup {fields : List (String × Json)} {key : String} {value : Json}
    (distinct : Json.DistinctKeysFields fields) (found : fields.lookup key = some value) :
    value.DistinctKeys := by
  induction fields with
  | nil => simp at found
  | cons field fields ih =>
      rw [List.lookup_cons] at found
      split at found
      · rw [← Option.some.inj found]
        exact distinct.1
      · exact ih distinct.2 found

theorem distinctKeys_getOrNull (detail : JsonValue) (key : String) :
    (ExecLog.getOrNull detail.tree key).DistinctKeys := by
  rcases detail with ⟨tree, distinct⟩
  unfold ExecLog.getOrNull
  cases found : tree.get? key with
  | none => trivial
  | some value =>
      cases tree with
      | obj fields => exact distinctKeys_of_lookup distinct.2 found
      | _ => simp [Json.get?] at found

theorem distinctKeys_executionRecord {seq : Json} (distinct : seq.DistinctKeys)
    (receiptHash cid ts : String) (executed : Bool) (detail : JsonValue) (error : Option String) :
    (ExecLog.executionRecord seq receiptHash cid ts executed detail.tree
      error).toDict.DistinctKeys := by
  have null : ((error.map Json.str).getD .null).DistinctKeys := by
    cases error <;> trivial
  simp [ExecutionRecord.toDict, ExecLog.executionRecord, Json.DistinctKeys,
    Json.DistinctKeysFields, distinctKeys_getOrNull, distinct, null]

theorem preimages_receipts (receipts : List Receipt) :
    preimages (receipts.map Receipt.toDict) = (receipts.map Receipt.link).map preimage := by
  induction receipts with
  | nil => rfl
  | cons r receipts ih =>
      simp only [preimages, List.map_cons] at ih ⊢
      rw [List.filterMap_cons_some (Receipt.recordLink?_toDict r), List.map_cons, ih]

/-- Numbers are the same up to comments only if they are equal. -/
theorem eq_of_sameUpToComments_num {n m : Json.Number}
    (same : SameUpToComments (.num n) (.num m)) : n = m := by
  cases same
  rfl

theorem seq_of_numbered {receipts : List Receipt}
    (numbered : Numbered (receipts.map Receipt.toDict)) :
    receipts.map (fun r => r.seq) =
      (List.range receipts.length).map fun i : ℕ => Json.num (.int (i : ℤ)) := by
  unfold Numbered at numbered
  rw [List.length_map, List.map_map] at numbered
  apply List.map_injective_iff.2 (Option.some_injective Json)
  rw [List.map_map, List.map_map]
  exact numbered

theorem pairwise_not_sameBody {receipts : List Receipt}
    (numbered : Numbered (receipts.map Receipt.toDict)) :
    (receipts.map Receipt.link).Pairwise fun link other => ¬SameBody link.body other.body := by
  have increasing : ((List.range receipts.length).map fun i : ℕ => Json.num (.int (i : ℤ))).Pairwise
      fun seq other => ¬SameUpToComments seq other := by
    rw [List.pairwise_map]
    apply List.Pairwise.imp _ List.pairwise_lt_range
    intro i j less same
    have equal := eq_of_sameUpToComments_num same
    simp only [Json.Number.int.injEq, Nat.cast_inj] at equal
    omega
  rw [← seq_of_numbered numbered, List.pairwise_map] at increasing
  rw [List.pairwise_map]
  apply increasing.imp
  intro r other distinct same
  exact distinct same.seq

theorem nodup_hash_of_chain {receipts : List Receipt} {log : List Char}
    (chain : LogOf log (receipts.map Receipt.toDict) (receipts.map Receipt.link))
    (noCollision : NoCollision (preimages (receipts.map Receipt.toDict))) :
    (receipts.map Receipt.hash).Nodup := by
  rw [preimages_receipts] at noCollision
  have twice : NoCollision ((receipts.map Receipt.link).map preimage ++
      (receipts.map Receipt.link).map preimage) := by
    intro input mem other otherMem
    rw [List.mem_append, or_self] at mem otherMem
    exact noCollision input mem other otherMem
  have separates := separates_of_noCollision length_genesis chain.chained chain.chained twice
  have nodup := HashChain.nodup_hash separates (pairwise_not_sameBody chain.numbered)
  rw [List.map_map] at nodup
  exact nodup

section Report

variable {receipts : List Receipt}

/-- The receipts under their hashes. -/
def hashEntries (receipts : List Receipt) : List (Json × Json) :=
  receipts.map fun r => (.str r.hash, r.toDict)

theorem hashIndex_receipts (receipts : List Receipt) :
    ExecLog.hashIndex (receipts.map Receipt.toDict) = .ok (hashEntries receipts) := by
  induction receipts with
  | nil => rfl
  | cons r receipts ih =>
      unfold ExecLog.hashIndex at ih ⊢
      rw [List.map_cons, List.mapM_cons, ih]
      rfl

theorem findReceipt_of_mem (nodup : (receipts.map Receipt.hash).Nodup) {r : Receipt}
    (mem : r ∈ receipts) : ExecLog.findReceipt (hashEntries receipts) r.hash = some r.toDict := by
  unfold ExecLog.findReceipt
  cases found : (hashEntries receipts).reverse.find? fun entry => isStr entry.1 r.hash with
  | none =>
      rw [List.find?_eq_none] at found
      have missed := found (.str r.hash, r.toDict) (by
        rw [List.mem_reverse]
        exact List.mem_map_of_mem mem)
      simp [isStr] at missed
  | some entry =>
      have matched := List.find?_some found
      have stored := List.mem_reverse.1 (List.mem_of_find?_eq_some found)
      rcases List.mem_map.1 stored with ⟨other, otherMem, rfl⟩
      simp only [isStr, decide_eq_true_eq] at matched
      rw [List.inj_on_of_nodup_map nodup otherMem mem matched]
      rfl

/-- The verifier on a record that was written from an execution. -/
theorem judge_toDict (byHash : List (Json × Json)) (e : ExecutionRecord) :
    ExecLog.judge byHash e.toDict =
      if ¬isStr (.str e.cid) (receiptCid e.receiptHash) then
        .ok (some ⟨e.receiptHash, .cidMismatch⟩)
      else
        match ExecLog.findReceipt byHash e.receiptHash with
        | none => .ok (some ⟨e.receiptHash, .receiptNotFound⟩)
        | some src =>
            let verdict := ExecLog.getOrNull src "verdict"
            if ExecLog.isTradeVerdict verdict then .ok none
            else .ok (some ⟨e.receiptHash, .notATrade verdict⟩) :=
  rfl

theorem judge_execution (nodup : (receipts.map Receipt.hash).Nodup) {e : ExecutionRecord}
    (cid : e.cid = receiptCid e.receiptHash) (traded : e.receiptHash ∈ tradeHashes receipts) :
    ExecLog.judge (hashEntries receipts) e.toDict = .ok none := by
  rcases List.mem_map.1 traded with ⟨r, allowed, same⟩
  rcases List.mem_filter.1 allowed with ⟨mem, trade⟩
  have verdict : ExecLog.isTradeVerdict (ExecLog.getOrNull r.toDict "verdict") = true := trade
  rw [judge_toDict, ← same, findReceipt_of_mem nodup mem]
  simp [isStr, cid, same, verdict]

theorem mapM_judge (nodup : (receipts.map Receipt.hash).Nodup) {executions : List ExecutionRecord}
    (cids : ∀ e ∈ executions, e.cid = receiptCid e.receiptHash)
    (traded : ∀ e ∈ executions, e.receiptHash ∈ tradeHashes receipts) :
    (executions.map ExecutionRecord.toDict).mapM (ExecLog.judge (hashEntries receipts)) =
      .ok (executions.map fun _ => none) := by
  induction executions with
  | nil => rfl
  | cons e executions ih =>
      rw [List.forall_mem_cons] at cids traded
      rw [List.map_cons, List.mapM_cons, judge_execution nodup cids.1 traded.1,
        ih cids.2 traded.2]
      rfl

theorem verifyExecutions_bound (nodup : (receipts.map Receipt.hash).Nodup)
    {executions : List ExecutionRecord} (cids : ∀ e ∈ executions, e.cid = receiptCid e.receiptHash)
    (traded : ∀ e ∈ executions, e.receiptHash ∈ tradeHashes receipts) :
    ExecLog.verifyExecutions (executions.map ExecutionRecord.toDict)
        (receipts.map Receipt.toDict) =
      .ok ⟨executions.length, true, true, []⟩ := by
  have none : (executions.map fun _ => (none : Option ExecLog.BadExecution)).filterMap id = [] := by
    simp
  simp only [ExecLog.verifyExecutions, hashIndex_receipts, mapM_judge nodup cids traded, bind,
    Except.bind, pure, Except.pure, none]
  simp

/-- What the public verifier reports on bound logs. -/
def cleanReport (hash : String) (receipts : List Receipt) (executions : List ExecutionRecord) :
    LiveReport where
  committedPolicyHash := hash
  receipts := receipts.length
  chainIntact := true
  allReferenceCommittedHash := true
  brokenAt := none
  executions := executions.length
  executionsBound := true
  executionsBad := []

theorem BoundLogs.readAll {hash : String} {receiptLog executionLog : List Char}
    {executions : List ExecutionRecord}
    (bound : BoundLogs hash receiptLog executionLog receipts executions) :
    ExecLog.readAll executionLog = .ok (executions.map ExecutionRecord.toDict) := by
  simp only [ExecLog.readAll, bound.read]

/-- The public verifier has nothing to object to in bound logs under the committed hash. -/
theorem BoundLogs.verifyLive_eq {configFile : Option String} {hash : String}
    {receiptLog executionLog : List Char} {executions : List ExecutionRecord}
    (bound : BoundLogs hash receiptLog executionLog receipts executions)
    (committed : committedPolicyHash configFile = .ok hash)
    (nodup : (receipts.map Receipt.hash).Nodup) :
    verifyLive configFile receiptLog executionLog = .ok (cleanReport hash receipts executions) := by
  have receiptsRead := readAll_eq_ok_iff.2 bound.chain.read
  have policy : ((receipts.map Receipt.link).all fun link =>
      referencesPolicy (some hash) link.body.policyHash) = true := by
    rw [all_referencesPolicy_iff bound.chain.linked]
    intro record mem
    rcases List.mem_map.1 mem with ⟨r, stored, rfl⟩
    rw [Receipt.get?_toDict_policyHash, bound.policy r stored]
  have walked := verifyFrom_of_chained (some hash) (receipts.map Receipt.toDict).length
    bound.chain.linked bound.chain.chained 0 true
  rw [policy, List.length_map, Bool.true_and] at walked
  have traded : ∀ e ∈ executions, e.receiptHash ∈ tradeHashes receipts := by
    intro e mem
    exact bound.bound.subset (List.mem_map_of_mem mem)
  simp only [verifyLive, committed, receiptsRead, bound.readAll, verifyChain, List.length_map,
    walked, verifyExecutions_bound nodup bound.cids traded, bind, Except.bind]
  rfl

/-- The execution was logged for the receipt. -/
def References (execution receipt : Json) : Prop :=
  ∃ hash, execution.get? "receipt_hash" = some hash ∧ receipt.get? "hash" = some hash

/-- No receipt is referenced by two executions. -/
def ReferencedOnce (receipts executions : List Json) : Prop :=
  ∀ receipt ∈ receipts, executions.Pairwise fun first second =>
    ¬(References first receipt ∧ References second receipt)

theorem BoundLogs.referencedOnce {hash : String} {receiptLog executionLog : List Char}
    {executions : List ExecutionRecord}
    (bound : BoundLogs hash receiptLog executionLog receipts executions)
    (nodup : (receipts.map Receipt.hash).Nodup) :
    ReferencedOnce (receipts.map Receipt.toDict) (executions.map ExecutionRecord.toDict) := by
  have trades : (tradeHashes receipts).Sublist (receipts.map Receipt.hash) :=
    List.filter_sublist.map Receipt.hash
  have distinct := (nodup.sublist trades).sublist bound.bound
  rw [List.Nodup, List.pairwise_map] at distinct
  intro receipt _
  rw [List.pairwise_map]
  apply distinct.imp
  rintro first second different ⟨⟨hash, firstHash, found⟩, other, secondHash, otherFound⟩
  rw [found, Option.some.injEq] at otherFound
  subst otherFound
  apply different
  exact Json.str.inj (Option.some.inj (firstHash.trans secondHash.symm))

end Report

end SumplusTrader
