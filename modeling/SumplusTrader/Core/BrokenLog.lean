import SumplusTrader.Core.CrashPoints

/-!
# What an agent can do to a receipt log

The agent appends to whatever log it finds on disk, and never looks back. This file follows a log
that anybody may have written through the runs of the ticks, with deaths between any two effects.

A receipt is chained to the last line alone. A log that the verifier accepts therefore stays
accepted, and one that it rejects is never healed: `append_verified_iff` says so of one receipt and
`evidence_lasts` of every run, where the verifier goes on naming the same record.
-/

namespace SumplusTrader

section Append

variable {log log' : List Char} {args : ReceiptArgs} {r : Receipt} {records : List Json}

theorem exists_num_of_nextSeq {seq next : Json} (counted : nextSeq seq = .ok next) :
    ∃ n, next = .num n := by
  unfold nextSeq at counted
  split at counted
  · cases counted
    exact ⟨_, rfl⟩
  · cases counted
    exact ⟨_, rfl⟩
  · cases counted
    exact ⟨_, rfl⟩
  · cases counted

/-- The number that follows, and the hash to chain from, which is the one of the last record. -/
theorem head_spec {seq prev : Json} (read : Json.readLines log = some records)
    (found : ReceiptChain.head log = .ok (seq, prev)) :
    (∃ n, seq = .num n) ∧ (records = [] → prev = .str genesis) ∧
      ∀ record, records.getLast? = some record → record ≠ .null →
        record.get? "hash" = some prev := by
  have last := Json.lastLine_of_readLines read
  rcases bind_eq_ok_iff.1 found with ⟨record?, taken, found⟩
  unfold ReceiptChain.last at taken
  rw [last] at taken
  split at taken
  · cases taken
  · next none =>
    cases taken
    cases found
    refine ⟨⟨_, rfl⟩, fun _ => rfl, ?_⟩
    intro record some
    rw [Option.some.inj none] at some
    cases some
  · next null =>
    cases taken
    cases found
    refine ⟨⟨_, rfl⟩, fun _ => rfl, ?_⟩
    intro record some proper
    rw [Option.some.inj null] at some
    exact absurd (Option.some.inj some).symm proper
  · next record present =>
    cases taken
    rcases bind_eq_ok_iff.1 found with ⟨old, -, found⟩
    rcases bind_eq_ok_iff.1 found with ⟨next, counted, found⟩
    rcases bind_eq_ok_iff.1 found with ⟨hash, hashed, found⟩
    cases found
    refine ⟨exists_num_of_nextSeq counted, ?_, ?_⟩
    · rintro rfl
      cases Option.some.inj present
    · intro other some _
      rw [Option.some.inj present, Option.some.injEq] at some
      exact some ▸ index_eq_ok_iff.1 hashed

/-- The receipt that an append writes behind the records of a log. -/
theorem append_spec (read : Json.readLines log = some records)
    (appended : ReceiptChain.append log args = .ok (log', r)) :
    ∃ n prev, ReceiptChain.head log = .ok (.num n, .str prev) ∧
      r = ReceiptChain.receiptOf (.num n) prev args ∧ log' = Json.appendLine log r.toDict := by
  rcases bind_eq_ok_iff.1 appended with ⟨⟨seq, prev⟩, found, written⟩
  rcases (head_spec read found).1 with ⟨n, rfl⟩
  cases prev with
  | str prev =>
      cases written
      exact ⟨n, prev, found, rfl, rfl⟩
  | null | bool | num | arr | obj => cases written

theorem distinctKeys_numbered (n : Json.Number) (prev : String) (args : ReceiptArgs) :
    (ReceiptChain.receiptOf (.num n) prev args).toDict.DistinctKeys := by
  simp [Receipt.toDict, ReceiptBody.fields, ReceiptChain.receiptOf, Json.DistinctKeys,
    Json.DistinctKeysFields, args.ts.distinctKeys, args.policyHash.distinctKeys,
    args.kind.distinctKeys, args.decision.distinctKeys, args.verdict.distinctKeys,
    args.reason.distinctKeys, args.inputsDigest.distinctKeys]

/-- What an append writes is read back behind the records before it. -/
theorem readLines_of_append (read : Json.readLines log = some records)
    (closed : Json.Blank (Json.openLine log))
    (appended : ReceiptChain.append log args = .ok (log', r)) :
    Json.readLines (Json.appendLine log r.toDict) = some (records ++ [r.toDict]) := by
  rcases append_spec read appended with ⟨n, prev, -, rfl, -⟩
  exact Json.readLines_appendLine read closed (distinctKeys_numbered n prev args)

/-- The receipt behind chained records is chained to them. -/
theorem prevHash_of_append {links : List (HashChain.Link ReceiptBody String)}
    (read : Json.readLines log = some records) (linked : records.mapM recordLink? = some links)
    (chained : HashChain.Chained computeHash genesis links)
    (appended : ReceiptChain.append log args = .ok (log', r)) :
    r.prevHash = HashChain.head genesis links ∧
      r.hash = computeHash r.prevHash r.toReceiptBody := by
  rcases append_spec read appended with ⟨n, prev, found, rfl, -⟩
  refine ⟨?_, rfl⟩
  rcases head_spec read found with ⟨-, empty, last⟩
  rcases List.eq_nil_or_concat records with rfl | ⟨init, record, rfl⟩
  · have none : links = [] := by simpa [eq_comm, pure] using linked
    subst none
    exact Json.str.inj (empty rfl)
  · rw [List.concat_eq_append] at linked last
    rcases exists_concat_of_mapM linked with ⟨initLinks, link, -, stored, rfl⟩
    rcases exists_fields_of_recordLink? stored with ⟨fields, rfl⟩
    have hash := last (.obj fields) (by rw [List.getLast?_concat]) (by rintro ⟨⟩)
    rw [(recordLink?_eq_some stored).2.2, Option.some.injEq] at hash
    rw [HashChain.head_append_singleton]
    exact (Json.str.inj hash).symm

/-- **A receipt neither heals nor breaks the log it is appended to.** -/
theorem append_verified_iff (read : Json.readLines log = some records)
    (appended : ReceiptChain.append log args = .ok (log', r)) :
    Verified (records ++ [r.toDict]) ↔ Verified records := by
  rw [verified_iff, verified_iff]
  constructor
  · rintro ⟨links, linked, chained⟩
    rcases exists_append_of_mapM linked with ⟨earlier, later, linked', -, rfl⟩
    exact ⟨earlier, linked', ((HashChain.chained_append _ _ _ _).1 chained).1⟩
  · rintro ⟨links, linked, chained⟩
    rcases prevHash_of_append read linked chained appended with ⟨prev, hash⟩
    refine ⟨links ++ [r.link], mapM_concat linked r.recordLink?_toDict, ?_⟩
    rw [HashChain.chained_append, HashChain.chained_singleton]
    exact ⟨chained, prev, hash⟩

end Append

/-- The verifier stops at the first broken record, whatever comes after it. -/
theorem verifyFrom_of_broken {expected expected' : Option String} {count count' i : ℕ}
    {prev : String} {policyOk policyOk' : Bool} {records : List Json} {verdict : ChainVerdict}
    (walked : verifyFrom expected count i prev policyOk records = .ok verdict)
    (broken : verdict.ok = false) (more : List Json) :
    verifyFrom expected' count' i prev policyOk' (records ++ more) =
      .ok { verdict with count := count' } := by
  induction records generalizing i prev policyOk policyOk' with
  | nil =>
      cases walked
      cases broken
  | cons record records ih =>
      simp only [List.cons_append, verifyFrom, bind, Except.bind, pure, Except.pure] at walked ⊢
      cases body : bodyOf record <;> simp only [body, reduceCtorEq] at walked ⊢
      cases prevHash : index record "prev_hash" <;> simp only [prevHash, reduceCtorEq] at walked ⊢
      split_ifs at walked ⊢ with prevMatches
      · cases hash : index record "hash" <;> simp only [hash, reduceCtorEq] at walked ⊢
        split_ifs at walked ⊢ with hashMatches
        · exact ih walked
        · cases walked
          rfl
      · cases walked
        rfl

/-- Only the next effect may append a receipt, and then the one that the tick made for the log. -/
def AppendsNext (log : List Char) : List Event → Prop
  | .receiptAppended receipt :: later =>
      (∃ log' args, ReceiptChain.append log args = .ok (log', receipt)) ∧
        ∀ other, .receiptAppended other ∉ later
  | todo => ∀ other, .receiptAppended other ∉ todo

/-- The log holds the records of before and the receipts of a history, and the verifier has not
changed its mind. -/
structure Lasts (records : List Json) (history : List Event) (world : World) : Prop where
  read : Json.readLines world.receipts =
    some (records ++ (receiptsOf history).map Receipt.toDict)
  closed : Json.Blank (Json.openLine world.receipts)
  verified : Verified (records ++ (receiptsOf history).map Receipt.toDict) ↔ Verified records

namespace Core

section Runs

variable {records : List Json} {history : List Event} {world : World} {event : Event}
  {todo : List Event} {recorder next start reached : Recorder} {action : Recorder.Action}
  {noted : List Event}

theorem appendsNext_tick (world : World) (turn : Turn) :
    AppendsNext world.receipts (takeTurn world turn).1.events := by
  unfold takeTurn
  rcases tick_cases { world with configFile := turn.configFile } turn.state turn.input with
    ⟨e, raised⟩ | ⟨ph, j, log, receipt, -, appended, acts⟩
  · rw [raised]
    simp [AppendsNext]
  · rw [acts]
    rcases (act_extends ⟨_, [.receiptAppended receipt]⟩ turn.state turn.input j receipt).events with
      ⟨later, events, permitted⟩
    rw [events]
    exact ⟨⟨log, _, appended⟩, fun other mem => permitted _ mem⟩

theorem appendsNext_of_silent (log : List Char)
    (silent : ∀ receipt, .receiptAppended receipt ∉ todo) : AppendsNext log todo := by
  rcases todo with _ | ⟨event, todo⟩
  · exact silent
  · cases event with
    | receiptAppended receipt => exact absurd List.mem_cons_self (silent receipt)
    | _ => exact silent

theorem silent_of_appendsNext {log : List Char} (appends : AppendsNext log (event :: todo))
    (receipt : Receipt) : .receiptAppended receipt ∉ todo := by
  cases event with
  | receiptAppended first => exact appends.2 receipt
  | _ => exact fun mem => appends receipt (List.mem_cons_of_mem _ mem)

/-- **One effect.** -/
theorem lasts_write (lasts : Lasts records history world)
    (appends : AppendsNext world.receipts (event :: todo)) :
    Lasts records (history ++ [event]) (world.write event) := by
  have receipts := receiptsOf_concat history event
  cases event with
  | receiptAppended receipt =>
      rcases appends.1 with ⟨log', args, appended⟩
      simp only [Event.receipt?, Option.toList_some] at receipts
      refine ⟨?_, ?_, ?_⟩
      · rw [receipts, List.map_append, ← List.append_assoc]
        exact readLines_of_append lasts.read lasts.closed appended
      · rw [World.write, Json.openLine_appendLine]
        exact Json.blank_nil
      · rw [receipts, List.map_append, ← List.append_assoc]
        exact (append_verified_iff lasts.read appended).trans lasts.verified
  | abstentionRecorded | intentPersisted | orderSent | executionLogged | executionLogFailed =>
      simp only [Event.receipt?, Option.toList_none, List.append_nil] at receipts
      have read := lasts.read
      have verified := lasts.verified
      rw [← receipts] at read verified
      exact ⟨read, lasts.closed, verified⟩

theorem lasts_step (lasts : Lasts records history recorder.world)
    (appends : AppendsNext recorder.world.receipts recorder.todo)
    (stepped : record recorder action = some (next, noted)) :
    Lasts records (history ++ noted) next.world ∧ AppendsNext next.world.receipts next.todo := by
  cases action with
  | call turn =>
      dsimp only [record] at stepped
      split at stepped
      · cases stepped
        rw [List.append_nil]
        exact ⟨lasts, appendsNext_tick recorder.world turn⟩
      · cases stepped
  | perform =>
      dsimp only [record] at stepped
      split at stepped
      · next event todo pending =>
        cases stepped
        rw [pending] at appends
        exact ⟨lasts_write lasts appends, appendsNext_of_silent _ (silent_of_appendsNext appends)⟩
      · cases stepped
  | die =>
      cases stepped
      rw [List.append_nil]
      exact ⟨lasts, appendsNext_of_silent _ (by simp)⟩
  | others elsewhere =>
      cases stepped
      rw [List.append_nil]
      exact ⟨⟨lasts.read, lasts.closed, lasts.verified⟩, appends⟩

end Runs

/-- **Evidence lasts.** On whatever readable log a run starts, with deaths between any two effects,
the records stay where they are and the receipts of the run come behind them. The verifier accepts
the log exactly when it accepted it at the start, and where it rejected it, it goes on naming the
same record. -/
theorem evidence_lasts (start last : Recorder) (records : List Json)
    (read : ReceiptChain.readAll start.world.receipts = .ok records)
    (closed : Json.Blank (Json.openLine start.world.receipts)) (idle : start.todo = [])
    (allowed : Recorder → Recorder.Action → Bool) (history : List Event)
    (run : Run (movesOf record allowed) start history last) :
    ∃ later, later = records ++ (receiptsOf history).map Receipt.toDict ∧
      ReceiptChain.readAll last.world.receipts = .ok later ∧ (Verified later ↔ Verified records) ∧
      ∀ expected verdict, verifyChain records expected = .ok verdict → verdict.ok = false →
        verifyChain later expected = .ok { verdict with count := later.length } := by
  have held : Lasts records history last.world ∧ AppendsNext last.world.receipts last.todo := by
    refine run.invariant (fun history recorder => Lasts records history recorder.world ∧
      AppendsNext recorder.world.receipts recorder.todo) ⟨⟨?_, closed, ?_⟩, ?_⟩ ?_
    · rw [receiptsOf, List.filterMap_nil, List.map_nil, List.append_nil]
      exact readAll_eq_ok_iff.1 read
    · rw [receiptsOf, List.filterMap_nil, List.map_nil, List.append_nil]
    · rw [idle]
      exact appendsNext_of_silent _ (by simp)
    · rintro history recorder events next ⟨lasts, appends⟩ ⟨action, -, stepped⟩
      exact lasts_step lasts appends stepped
  refine ⟨_, rfl, readAll_eq_ok_iff.2 held.1.read, held.1.verified, ?_⟩
  intro expected verdict walked broken
  exact verifyFrom_of_broken walked broken _

/-- A record with a hash that it does not have. -/
def forgedRecord : Json :=
  .obj [("seq", .num (.int 0)), ("ts", .str ""), ("policy_hash", .str ""), ("kind", .str "trade"),
    ("decision", .obj []), ("verdict", .str "allow"), ("reason", .str ""),
    ("inputs_digest", .str ""), ("prev_hash", .str genesis), ("hash", .str "sha256:forged")]

def forgedWorld : World := { emptyWorld with receipts := Json.appendLine [] forgedRecord }

/-- The agent chains its receipt to a forged one, and the verifier still names the forgery. -/
theorem evidence_lasts_forged : ∃ last history later,
    trace record (fun _ _ => true) ⟨forgedWorld, []⟩ lostBinding = some (last, history) ∧
      (receiptsOf history).length = 1 ∧ ReceiptChain.readAll last.world.receipts = .ok later ∧
      verifyChain later none = .ok ⟨false, 2, some 0, "hash mismatch", false⟩ := by
  have distinct : forgedRecord.DistinctKeys := by
    simp [forgedRecord, Json.DistinctKeys, Json.DistinctKeysFields]
  have read : ReceiptChain.readAll forgedWorld.receipts = .ok [forgedRecord] :=
    readAll_eq_ok_iff.2 (Json.readLines_appendLine Json.readLines_nil Json.blank_nil distinct)
  have closed : Json.Blank (Json.openLine forgedWorld.receipts) := by
    rw [forgedWorld, Json.openLine_appendLine]
    exact Json.blank_nil
  have rejected : verifyChain [forgedRecord] none =
      .ok ⟨false, 1, some 0, "hash mismatch", false⟩ := by
    have judged : (verifyChain [forgedRecord] none).toOption =
        some ⟨false, 1, some 0, "hash mismatch", false⟩ := by
      decide +kernel
    exact toOption_eq_some_iff.1 judged
  have traced : (trace record (fun _ _ => true) ⟨forgedWorld, []⟩ lostBinding).map
      (fun run => decide ((receiptsOf run.2).length = 1)) = some true := by
    decide +kernel
  rcases Option.map_eq_some_iff.1 traced with ⟨⟨last, history⟩, ran, told⟩
  rw [decide_eq_true_eq] at told
  rcases evidence_lasts ⟨forgedWorld, []⟩ last [forgedRecord] read closed rfl (fun _ _ => true)
    history (.of_trace ran) with ⟨later, grown, readLater, -, names⟩
  have named := names none _ rejected rfl
  have two : later.length = 2 := by simp [grown, told]
  rw [two] at named
  exact ⟨last, history, later, ran, told, readLater, named⟩

end Core

end SumplusTrader
