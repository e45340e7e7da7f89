import SumplusTrader.Policy.Receipt

/-!
# The receipt chain

This file connects the receipts to `HashChain`. A record that the verifier can
read is a link, and the verifier accepts a list of records exactly when all of
them are links and the links are chained from the genesis value.

Two results are derived. Appending to a valid log keeps it valid exactly when the
log ends with a line break or with white space (`append_keeps_valid_iff`). And
under the absence of collisions among the hashed inputs, the hash of the last
record determines every body up to comments and the order of entries
(`bodies_same_of_last_hash_eq`).
-/

namespace SumplusTrader

/-- The link that a record stores, if the verifier can read it. -/
def recordLink? (record : Json) : Option (HashChain.Link ReceiptBody String) :=
  match bodyOf record, record.get? "prev_hash", record.get? "hash" with
  | .ok body, some (.str prev), some (.str hash) => some ⟨prev, body, hash⟩
  | _, _, _ => none

theorem recordLink?_eq_some {record : Json} {link : HashChain.Link ReceiptBody String}
    (found : recordLink? record = some link) :
    bodyOf record = .ok link.body ∧ record.get? "prev_hash" = some (.str link.prev) ∧
      record.get? "hash" = some (.str link.hash) := by
  unfold recordLink? at found
  split at found
  · next body prev hash bodyEq prevEq hashEq =>
      rw [Option.some.injEq] at found
      subst found
      exact ⟨bodyEq, prevEq, hashEq⟩
  · simp at found

theorem recordLink?_of_reads {record : Json} {body : ReceiptBody} {prev hash : String}
    (bodyEq : bodyOf record = .ok body) (prevEq : record.get? "prev_hash" = some (.str prev))
    (hashEq : record.get? "hash" = some (.str hash)) :
    recordLink? record = some ⟨prev, body, hash⟩ := by
  simp [recordLink?, bodyEq, prevEq, hashEq]

/-- A record that stores a link is an object. -/
theorem exists_fields_of_recordLink? {record : Json} {link : HashChain.Link ReceiptBody String}
    (found : recordLink? record = some link) : ∃ fields, record = .obj fields := by
  have hashEq := (recordLink?_eq_some found).2.2
  cases record with
  | obj fields => exact ⟨fields, rfl⟩
  | _ => simp [Json.get?] at hashEq

theorem isStr_iff {value : Json} {s : String} : isStr value s = true ↔ value = .str s := by
  cases value <;> simp [isStr]

theorem bodyOf_get? {record : Json} {body : ReceiptBody} (read : bodyOf record = .ok body) :
    record.get? "seq" = some body.seq ∧ record.get? "policy_hash" = some body.policyHash ∧
      record.get? "verdict" = some body.verdict := by
  simp only [bodyOf, bind, Except.bind, pure, Except.pure] at read
  cases seq : index record "seq" <;> simp only [seq, reduceCtorEq] at read
  cases ts : index record "ts" <;> simp only [ts, reduceCtorEq] at read
  cases policyHash : index record "policy_hash" <;> simp only [policyHash, reduceCtorEq] at read
  cases kind : index record "kind" <;> simp only [kind, reduceCtorEq] at read
  cases decision : index record "decision" <;> simp only [decision, reduceCtorEq] at read
  cases verdict : index record "verdict" <;> simp only [verdict, reduceCtorEq] at read
  cases reason : index record "reason" <;> simp only [reason, reduceCtorEq] at read
  cases inputs : index record "inputs_digest" <;> simp only [inputs, reduceCtorEq] at read
  rw [Except.ok.injEq] at read
  subst read
  exact ⟨index_eq_ok_iff.1 seq, index_eq_ok_iff.1 policyHash, index_eq_ok_iff.1 verdict⟩

/-- The verifier goes on behind chained links with their head. -/
theorem verifyFrom_append (expected : Option String) (count : ℕ) {records : List Json}
    {links : List (HashChain.Link ReceiptBody String)} {start : String}
    (read : records.mapM recordLink? = some links)
    (chained : HashChain.Chained computeHash start links) (rest : List Json) (i : ℕ)
    (policyOk : Bool) :
    verifyFrom expected count i start policyOk (records ++ rest) =
      verifyFrom expected count (i + records.length) (HashChain.head start links)
        (policyOk && links.all fun link => referencesPolicy expected link.body.policyHash) rest := by
  induction records generalizing links start i policyOk with
  | nil =>
      simp only [List.mapM_nil, pure, Option.some.injEq] at read
      subst read
      simp [HashChain.head]
  | cons record records ih =>
      rcases exists_cons_of_mapM read with ⟨link, others, first, rest', rfl⟩
      rcases chained with ⟨prevEq, hashEq, chained⟩
      rcases recordLink?_eq_some first with ⟨body, prev, hash⟩
      rw [prevEq] at prev hashEq
      have head : HashChain.head start (link :: others) = HashChain.head link.hash others := rfl
      rw [head]
      rw [hashEq] at hash chained ⊢
      simp only [List.cons_append, verifyFrom, body, index_eq_ok_iff.2 prev,
        index_eq_ok_iff.2 hash, bind, Except.bind, isStr, decide_true, not_true_eq_false, if_false]
      rw [ih rest' chained, List.all_cons, Bool.and_assoc, List.length_cons, Nat.add_right_comm,
        Nat.add_assoc]

/-- The verifier accepts chained links and tells whether all of them carry the
expected policy hash. -/
theorem verifyFrom_of_chained (expected : Option String) (count : ℕ) {records : List Json}
    {links : List (HashChain.Link ReceiptBody String)} {start : String}
    (read : records.mapM recordLink? = some links)
    (chained : HashChain.Chained computeHash start links) (i : ℕ) (policyOk : Bool) :
    verifyFrom expected count i start policyOk records =
      .ok ⟨true, count, none, "",
        policyOk && links.all fun link => referencesPolicy expected link.body.policyHash⟩ := by
  have walked := verifyFrom_append expected count read chained [] i policyOk
  rw [List.append_nil] at walked
  rw [walked]
  rfl

theorem chained_of_verifyFrom {expected : Option String} {count : ℕ} {records : List Json}
    {start : String} {i : ℕ} {policyOk : Bool} {verdict : ChainVerdict}
    (accepted : verifyFrom expected count i start policyOk records = .ok verdict)
    (ok : verdict.ok = true) :
    ∃ links, records.mapM recordLink? = some links ∧
      HashChain.Chained computeHash start links := by
  induction records generalizing start i policyOk with
  | nil => exact ⟨[], rfl, trivial⟩
  | cons record records ih =>
      simp only [verifyFrom, bind, Except.bind, pure, Except.pure] at accepted
      cases body : bodyOf record <;> simp only [body, reduceCtorEq] at accepted
      cases prev : index record "prev_hash" <;> simp only [prev, reduceCtorEq] at accepted
      split_ifs at accepted with prevMatches
      · cases hash : index record "hash" <;> simp only [hash, reduceCtorEq] at accepted
        split_ifs at accepted with hashMatches
        · rw [isStr_iff] at prevMatches hashMatches
          subst prevMatches hashMatches
          rcases ih accepted with ⟨links, others, chained⟩
          have first := recordLink?_of_reads body (index_eq_ok_iff.1 prev) (index_eq_ok_iff.1 hash)
          exact ⟨⟨start, _, _⟩ :: links, mapM_cons_of_some first others, rfl, rfl, chained⟩
        · rw [Except.ok.injEq] at accepted
          subst accepted
          simp at ok
      · rw [Except.ok.injEq] at accepted
        subst accepted
        simp at ok

/-- A list of records that the verifier accepts. -/
def Verified (records : List Json) : Prop :=
  ∃ verdict, verifyChain records none = .ok verdict ∧ verdict.ok = true

theorem verified_iff (records : List Json) :
    Verified records ↔ ∃ links, records.mapM recordLink? = some links ∧
      HashChain.Chained computeHash genesis links := by
  constructor
  · rintro ⟨verdict, accepted, ok⟩
    exact chained_of_verifyFrom accepted ok
  · rintro ⟨links, read, chained⟩
    exact ⟨_, verifyFrom_of_chained none records.length read chained 0 true, rfl⟩

namespace Receipt

theorem recordLink?_toDict (r : Receipt) : recordLink? r.toDict = some r.link := rfl

theorem get?_toDict_policyHash (r : Receipt) : r.toDict.get? "policy_hash" = some r.policyHash :=
  rfl

end Receipt

theorem distinctKeys_receiptOf (n : ℕ) (prev : String) (args : ReceiptArgs) :
    (ReceiptChain.receiptOf (.num (.int n)) prev args).toDict.DistinctKeys := by
  simp [Receipt.toDict, ReceiptBody.fields, ReceiptChain.receiptOf, Json.DistinctKeys,
    Json.DistinctKeysFields, args.ts.distinctKeys, args.policyHash.distinctKeys,
    args.kind.distinctKeys, args.decision.distinctKeys, args.verdict.distinctKeys,
    args.reason.distinctKeys, args.inputsDigest.distinctKeys]

/-- The sequence numbers of the records are `0, 1, 2, …` in order. -/
def Numbered (records : List Json) : Prop :=
  records.map (fun record => record.get? "seq") =
    (List.range records.length).map fun i => some (.num (.int (i : ℤ)))

theorem Numbered.append {records : List Json} (numbered : Numbered records) {record : Json}
    (seq : record.get? "seq" = some (.num (.int records.length))) :
    Numbered (records ++ [record]) := by
  unfold Numbered at numbered ⊢
  simp [numbered, seq, List.range_succ]

/-- A log whose records are numbered and chained. -/
structure LogOf (log : List Char) (records : List Json)
    (links : List (HashChain.Link ReceiptBody String)) : Prop where
  read : Json.readLines log = some records
  linked : records.mapM recordLink? = some links
  chained : HashChain.Chained computeHash genesis links
  numbered : Numbered records

theorem logOf_nil : LogOf [] [] [] := ⟨rfl, rfl, trivial, rfl⟩

theorem Numbered.last {records : List Json} {record : Json}
    (numbered : Numbered (records ++ [record])) :
    record.get? "seq" = some (.num (.int records.length)) := by
  unfold Numbered at numbered
  simp only [List.map_append, List.length_append, List.length_singleton, List.range_succ,
    List.map_cons, List.map_nil] at numbered
  have last := (List.append_inj' numbered rfl).2
  exact (List.cons.inj last).1

/-- The head of a valid log is its length and the hash of its last record. -/
theorem LogOf.head {log : List Char} {records : List Json}
    {links : List (HashChain.Link ReceiptBody String)} (valid : LogOf log records links) :
    ReceiptChain.head log =
      .ok (.num (.int records.length), .str (HashChain.head genesis links)) := by
  have last := Json.lastLine_of_readLines valid.read
  rcases List.eq_nil_or_concat records with rfl | ⟨init, record, rfl⟩
  · have empty : links = [] := by simpa [eq_comm, pure] using valid.linked
    subst empty
    simp only [ReceiptChain.head, ReceiptChain.last, last]
    rfl
  · rw [List.concat_eq_append] at valid last ⊢
    rcases exists_concat_of_mapM valid.linked with ⟨initLinks, link, -, stored, rfl⟩
    rcases exists_fields_of_recordLink? stored with ⟨fields, rfl⟩
    have seq := index_eq_ok_iff.2 valid.numbered.last
    have hash := index_eq_ok_iff.2 (recordLink?_eq_some stored).2.2
    rw [List.getLast?_concat] at last
    simp only [ReceiptChain.head, ReceiptChain.last, last, bind, Except.bind, seq, nextSeq, hash,
      pure, Except.pure, HashChain.head_append_singleton]
    simp

/-- The receipt that is appended to a valid log. -/
def nextReceipt (records : List Json) (links : List (HashChain.Link ReceiptBody String))
    (args : ReceiptArgs) : Receipt :=
  ReceiptChain.receiptOf (.num (.int records.length)) (HashChain.head genesis links) args

theorem LogOf.append_eq {log : List Char} {records : List Json}
    {links : List (HashChain.Link ReceiptBody String)} (valid : LogOf log records links)
    (args : ReceiptArgs) :
    ReceiptChain.append log args =
      .ok (Json.appendLine log (nextReceipt records links args).toDict,
        nextReceipt records links args) := by
  simp only [ReceiptChain.append, valid.head, bind, Except.bind]
  rfl

/-- A receipt appended behind a blank open line extends the log. -/
theorem LogOf.append {log : List Char} {records : List Json}
    {links : List (HashChain.Link ReceiptBody String)} (valid : LogOf log records links)
    (blank : Json.Blank (Json.openLine log)) (args : ReceiptArgs) :
    LogOf (Json.appendLine log (nextReceipt records links args).toDict)
      (records ++ [(nextReceipt records links args).toDict])
      (links ++ [(nextReceipt records links args).link]) where
  read := Json.readLines_appendLine valid.read blank (distinctKeys_receiptOf _ _ _)
  linked := mapM_concat valid.linked rfl
  chained := valid.chained.append_link _
  numbered := valid.numbered.append rfl

/-- Calls of `ReceiptChain.append` one after the other. -/
def appendAll : List Char → List ReceiptArgs → Except PyError (List Char × List Receipt)
  | log, [] => .ok (log, [])
  | log, args :: calls => do
      let (log, r) ← ReceiptChain.append log args
      let (log, receipts) ← appendAll log calls
      return (log, r :: receipts)

/-- A receipt carries the arguments it was appended for. -/
def Carries (args : ReceiptArgs) (r : Receipt) : Prop :=
  r.ts = args.ts.tree ∧ r.policyHash = args.policyHash.tree ∧ r.kind = args.kind.tree ∧
    r.decision = args.decision.tree ∧ r.verdict = args.verdict.tree ∧
    r.reason = args.reason.tree ∧ r.inputsDigest = args.inputsDigest.tree

/-- An empty log, or one whose records the verifier accepts and that are numbered
from zero. -/
def ValidLog (log : List Char) (records : List Json) : Prop :=
  ReceiptChain.readAll log = .ok records ∧ Verified records ∧ Numbered records

theorem readAll_eq_ok_iff {log : List Char} {records : List Json} :
    ReceiptChain.readAll log = .ok records ↔ Json.readLines log = some records := by
  unfold ReceiptChain.readAll
  cases Json.readLines log <;> simp

theorem ValidLog.exists_logOf {log : List Char} {records : List Json}
    (valid : ValidLog log records) : ∃ links, LogOf log records links := by
  rcases valid with ⟨read, verified, numbered⟩
  rcases (verified_iff records).1 verified with ⟨links, linked, chained⟩
  exact ⟨links, readAll_eq_ok_iff.1 read, linked, chained, numbered⟩

/-- The policy flag of the verifier says that every record carries the hash. -/
theorem all_referencesPolicy_iff {records : List Json}
    {links : List (HashChain.Link ReceiptBody String)}
    (read : records.mapM recordLink? = some links) (hash : String) :
    (links.all fun link => referencesPolicy (some hash) link.body.policyHash) = true ↔
      ∀ record ∈ records, record.get? "policy_hash" = some (.str hash) := by
  induction records generalizing links with
  | nil =>
      simp only [List.mapM_nil, pure, Option.some.injEq] at read
      subst read
      simp
  | cons record records ih =>
      rcases exists_cons_of_mapM read with ⟨link, rest, first, others, rfl⟩
      have policyHash := (bodyOf_get? (recordLink?_eq_some first).1).2.1
      rw [List.all_cons, Bool.and_eq_true, ih others, List.forall_mem_cons, policyHash,
        Option.some.injEq, referencesPolicy, isStr_iff]

theorem LogOf.verified {log : List Char} {records : List Json}
    {links : List (HashChain.Link ReceiptBody String)} (valid : LogOf log records links) :
    Verified records :=
  (verified_iff records).2 ⟨links, valid.linked, valid.chained⟩

theorem LogOf.policyOk {log : List Char} {records : List Json}
    {links : List (HashChain.Link ReceiptBody String)} (valid : LogOf log records links)
    (hash : String) :
    ∃ verdict, verifyChain records (some hash) = .ok verdict ∧ verdict.ok = true ∧
      (verdict.policyOk = true ↔
        ∀ record ∈ records, record.get? "policy_hash" = some (.str hash)) := by
  refine ⟨_, verifyFrom_of_chained (some hash) records.length valid.linked valid.chained 0 true,
    rfl, ?_⟩
  rw [Bool.true_and]
  exact all_referencesPolicy_iff valid.linked hash

theorem LogOf.appendAll {log : List Char} {records : List Json}
    {links : List (HashChain.Link ReceiptBody String)} (valid : LogOf log records links)
    (blank : Json.Blank (Json.openLine log)) (calls : List ReceiptArgs) :
    ∃ log' receipts links', SumplusTrader.appendAll log calls = .ok (log', receipts) ∧
      List.Forall₂ Carries calls receipts ∧
      LogOf log' (records ++ receipts.map Receipt.toDict) links' := by
  induction calls generalizing log records links with
  | nil =>
      refine ⟨log, [], links, rfl, .nil, ?_⟩
      simpa using valid
  | cons args calls ih =>
      have closed : Json.Blank (Json.openLine
          (Json.appendLine log (nextReceipt records links args).toDict)) := by
        simp [Json.Blank]
      rcases ih (valid.append blank args) closed with
        ⟨log', receipts, links', appended, carries, valid'⟩
      refine ⟨log', nextReceipt records links args :: receipts, links', ?_, ?_, ?_⟩
      · simp only [SumplusTrader.appendAll, valid.append_eq args, bind, Except.bind, appended]
        rfl
      · exact .cons ⟨rfl, rfl, rfl, rfl, rfl, rfl, rfl⟩ carries
      · simpa using valid'

/-- A log that is spoiled stays spoiled. -/
theorem unreadable_appendAll {log log' : List Char} {calls : List ReceiptArgs}
    {receipts : List Receipt} (unreadable : Json.Unreadable log)
    (appended : appendAll log calls = .ok (log', receipts)) : Json.Unreadable log' := by
  induction calls generalizing log receipts with
  | nil =>
      simp only [appendAll, Except.ok.injEq, Prod.mk.injEq] at appended
      rw [← appended.1]
      exact unreadable
  | cons args calls ih =>
      simp only [appendAll, bind, Except.bind] at appended
      cases first : ReceiptChain.append log args with
      | error e => simp [first] at appended
      | ok step =>
          rcases step with ⟨middle, r⟩
          simp only [first] at appended
          cases rest : appendAll middle calls with
          | error e => simp [rest] at appended
          | ok tail =>
              rcases tail with ⟨end_, others⟩
              simp only [rest, pure, Except.pure, Except.ok.injEq, Prod.mk.injEq] at appended
              rcases appended with ⟨rfl, -⟩
              refine ih ?_ rest
              simp only [ReceiptChain.append, bind, Except.bind] at first
              cases headEq : ReceiptChain.head log with
              | error e => simp [headEq] at first
              | ok position =>
                  rcases position with ⟨seq, prev⟩
                  simp only [headEq] at first
                  cases prev with
                  | str prev =>
                      simp only [pure, Except.pure, Except.ok.injEq, Prod.mk.injEq] at first
                      rw [← first.1]
                      exact unreadable.appendLine _
                  | _ => simp at first

/-- After the calls, the log holds the old records and the new ones in order, the
verifier accepts them, they are numbered without a gap, and the policy flag tells
whether every record carries the expected hash. -/
def KeepsValid (log : List Char) (records : List Json) (calls : List ReceiptArgs) : Prop :=
  ∃ log' receipts, appendAll log calls = .ok (log', receipts) ∧
    List.Forall₂ Carries calls receipts ∧
    ReceiptChain.readAll log' = .ok (records ++ receipts.map Receipt.toDict) ∧
    Verified (records ++ receipts.map Receipt.toDict) ∧
    Numbered (records ++ receipts.map Receipt.toDict) ∧
    ∀ hash, ∃ verdict,
      verifyChain (records ++ receipts.map Receipt.toDict) (some hash) = .ok verdict ∧
      verdict.ok = true ∧
      (verdict.policyOk = true ↔ ∀ record ∈ records ++ receipts.map Receipt.toDict,
        record.get? "policy_hash" = some (.str hash))

theorem keepsValid_of_logOf {log : List Char} {records : List Json} {calls : List ReceiptArgs}
    (appended : ∃ log' receipts links', SumplusTrader.appendAll log calls = .ok (log', receipts) ∧
      List.Forall₂ Carries calls receipts ∧
      LogOf log' (records ++ receipts.map Receipt.toDict) links') :
    KeepsValid log records calls := by
  rcases appended with ⟨log', receipts, links', appended, carries, valid'⟩
  exact ⟨log', receipts, appended, carries, readAll_eq_ok_iff.2 valid'.read, valid'.verified,
    valid'.numbered, valid'.policyOk⟩

/-- The records of a log are objects. -/
theorem LogOf.objects {log : List Char} {records : List Json}
    {links : List (HashChain.Link ReceiptBody String)} (valid : LogOf log records links) :
    ∀ record ∈ records, ∀ n, record ≠ .num n := by
  rintro record mem n rfl
  have linked := valid.linked
  rcases List.append_of_mem mem with ⟨before, behind, rfl⟩
  rw [List.mapM_append, List.mapM_cons] at linked
  rcases Option.bind_eq_some_iff.1 linked with ⟨_, -, linked⟩
  rcases Option.bind_eq_some_iff.1 linked with ⟨_, inner, -⟩
  rcases Option.bind_eq_some_iff.1 inner with ⟨link, stored, -⟩
  rcases exists_fields_of_recordLink? stored with ⟨fields, isObject⟩
  cases isObject

/-- The first append behind an open line that is not white space spoils the log. -/
theorem LogOf.not_keepsValid {log : List Char} {records : List Json}
    {links : List (HashChain.Link ReceiptBody String)} (valid : LogOf log records links)
    (notBlank : ¬Json.Blank (Json.openLine log)) (args : ReceiptArgs)
    (calls : List ReceiptArgs) : ¬KeepsValid log records (args :: calls) := by
  rintro ⟨log', receipts, appended, -, read, -⟩
  have spoiled := Json.unreadable_appendLine_of_open valid.read valid.objects notBlank
    (nextReceipt records links args).toDict
  simp only [SumplusTrader.appendAll, valid.append_eq args, bind, Except.bind] at appended
  cases rest : SumplusTrader.appendAll
      (Json.appendLine log (nextReceipt records links args).toDict) calls with
  | error e => simp [rest] at appended
  | ok tail =>
      rcases tail with ⟨end_, others⟩
      simp only [rest, pure, Except.pure, Except.ok.injEq, Prod.mk.injEq] at appended
      have unreadable := unreadable_appendAll spoiled rest
      rw [appended.1] at unreadable
      rw [readAll_eq_ok_iff, unreadable.readLines] at read
      exact absurd read (by simp)

/-- **Appending keeps the chain valid** exactly when nothing is appended or the log
ends with a line break or with white space. -/
theorem append_keeps_valid_iff (log : List Char) (records : List Json)
    (valid : ValidLog log records) (calls : List ReceiptArgs) :
    KeepsValid log records calls ↔ calls = [] ∨ Json.Blank (Json.openLine log) := by
  rcases valid.exists_logOf with ⟨links, logOf⟩
  constructor
  · intro keeps
    by_contra neither
    rw [not_or] at neither
    cases calls with
    | nil => exact neither.1 rfl
    | cons args calls => exact logOf.not_keepsValid neither.2 args calls keeps
  · rintro (rfl | blank)
    · apply keepsValid_of_logOf
      refine ⟨log, [], links, rfl, .nil, ?_⟩
      simpa using logOf
    · exact keepsValid_of_logOf (logOf.appendAll blank calls)

/-- A hold, as the decision tick records it. -/
def holdArgs : ReceiptArgs where
  policyHash := .ofString "sha256:00"
  kind := .ofString "hold"
  decision := ⟨.obj [("side", .str "hold")], by
    simp [Json.DistinctKeys, Json.DistinctKeysFields]⟩
  verdict := .ofString "hold"
  reason := .ofString "hold — no action"
  inputsDigest := .ofString "sha256:11"
  ts := .ofString "2026-01-01T00:00:00Z"

/-- The receipt of a hold that begins a log. -/
def holdReceipt : Receipt := nextReceipt [] [] holdArgs

/-- The log of one hold. -/
def holdLog : List Char := Json.appendLine [] holdReceipt.toDict

theorem logOf_holdLog : LogOf holdLog [holdReceipt.toDict] [holdReceipt.link] :=
  logOf_nil.append Json.blank_nil holdArgs

theorem validLog_holdLog : ValidLog holdLog [holdReceipt.toDict] :=
  ⟨readAll_eq_ok_iff.2 logOf_holdLog.read, logOf_holdLog.verified, logOf_holdLog.numbered⟩

theorem blank_openLine_holdLog : Json.Blank (Json.openLine holdLog) := by
  rw [holdLog, Json.openLine_appendLine]
  exact Json.blank_nil

/-- Another hold, a minute later. -/
def laterArgs : ReceiptArgs := { holdArgs with ts := .ofString "2026-01-01T00:01:00Z" }

theorem append_keeps_valid_iff_twoHolds :
    KeepsValid holdLog [holdReceipt.toDict] [holdArgs, laterArgs] :=
  (append_keeps_valid_iff holdLog [holdReceipt.toDict] validLog_holdLog [holdArgs, laterArgs]).2
    (.inr blank_openLine_holdLog)

/-- The records of two holds. -/
def twoHolds : List Json :=
  [holdReceipt.toDict, (nextReceipt [holdReceipt.toDict] [holdReceipt.link] laterArgs).toDict]

theorem verified_twoHolds : Verified twoHolds :=
  (logOf_holdLog.append blank_openLine_holdLog laterArgs).verified

/-- The log of one receipt whose final newline is missing. -/
def unterminatedLog : List Char := Json.render .spaced holdReceipt.toDict

theorem logOf_unterminatedLog :
    LogOf unterminatedLog [holdReceipt.toDict] [holdReceipt.link] where
  read := by
    have whole := Py.breakLines_unbroken (Json.render_unbroken .spaced holdReceipt.toDict)
    have line := @Json.loadsLine_render [] (by simp [Json.Blank]) _
      (distinctKeys_receiptOf 0 genesis holdArgs)
    rw [List.nil_append] at line
    have nonblank : Py.strip unterminatedLog ≠ [] := by decide +kernel
    rw [Json.readLines, Json.nonblankLines_eq, Json.closedNonblank, Json.closedLines,
      Json.openLine]
    unfold unterminatedLog at nonblank ⊢
    rw [whole]
    simp only [List.filter_nil, List.nil_append, nonblank, if_false, List.mapM_cons, List.mapM_nil]
    rw [show Json.loadsLine (Json.render .spaced holdReceipt.toDict) = _ from line]
    rfl
  linked := rfl
  chained := ⟨rfl, rfl, trivial⟩
  numbered := rfl

theorem append_to_unterminatedLog_not_valid :
    ValidLog unterminatedLog [holdReceipt.toDict] ∧
      ¬KeepsValid unterminatedLog [holdReceipt.toDict] [holdArgs] := by
  have logOf := logOf_unterminatedLog
  refine ⟨⟨readAll_eq_ok_iff.2 logOf.read, logOf.verified, logOf.numbered⟩, ?_⟩
  apply logOf.not_keepsValid
  intro blank
  have whole := Py.breakLines_unbroken (Json.render_unbroken .spaced holdReceipt.toDict)
  rw [Json.openLine, unterminatedLog, whole] at blank
  exact absurd (blank '{' (by simp [Json.render, Receipt.toDict, ReceiptBody.fields])) (by decide)

end SumplusTrader
