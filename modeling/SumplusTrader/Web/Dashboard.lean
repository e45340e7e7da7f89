import SumplusTrader.Core.CrashPoints
import SumplusTrader.Core.OnChainOrders
import SumplusTrader.Policy.AuthorisedOrders

/-!
# The panel of the on-chain orders

This file models `_executions` and `api_executions` of `agent/web.py`, which join the execution log
to the receipts, and the count of trades that `api_overview` shows.

The panel checks an execution once more, in its own way: it compares the client id and looks the
verdict up under the receipt hash. `panel_agrees` says when this comes to what the public verifier
says. The badge `all_bound` looks at the client ids only, so that it is also shown for an execution
whose receipt does not exist. `dashboard_at_every_point` is about the logs that ticks leave behind,
wherever the process dies.
-/

namespace SumplusTrader

/-- A row of the panel. -/
structure ExecutionRow where
  seq : Json
  ts : Json
  side : Json
  amountUsd : Json
  quantityBase : Json
  cid : Json
  receiptHash : Json
  cidOk : Bool
  verdict : Json
  tx : Json
  orderHash : Json
  explorer : String
  executed : Bool

/-- The answer of `api_executions`. -/
structure ExecutionsPage where
  executions : List ExecutionRow
  total : ℕ
  allBound : Bool
  chain : String

namespace Dashboard

open ExecLog (hashIndex getOrNull isTradeVerdict)

/-- The value of a number or a truth value. -/
def numeric? : Json → Option ℚ
  | .num n => some n.value
  | .bool b => some (if b then 1 else 0)
  | _ => none

/-- Two values that can be keys of a dictionary are the same key. -/
def sameKey : Json → Json → Bool
  | .null, .null => true
  | .str s, .str t => s = t
  | a, b => (numeric? a).isSome && numeric? a = numeric? b

/-- `record.get(key, default)`. -/
def getOr (record : Json) (key : String) (fallback : Json) : Json :=
  (record.get? key).getD fallback

/-- `_is_injective`. -/
def isInjective (env : Environ) : Bool := Py.lower (env.text "EXECUTION_BACKEND" "") = "injective"

/-- `_explorer_tx_base`. -/
def explorerTxBase (env : Environ) : String :=
  if isInjective env then
    env.text "INJ_EXPLORER_TX" "https://testnet.blockscout.injective.network/tx/"
  else "https://bscscan.com/tx/"

/-- The link to a transaction, if there is one. -/
def explorerLink (base : String) (tx : Json) : Except PyError String :=
  if ¬tx.truthy then .ok ""
  else
    match tx with
    | .str hash => .ok (base ++ if hash.startsWith "0x" then hash else "0x" ++ hash)
    | _ => .error .attributeError

/-- `recs.get(hash, {})`: the last receipt under a key. -/
def receiptUnder (byHash : List (Json × Json)) (hash : Json) : Except PyError (Option Json) :=
  match hash with
  | .arr _ => .error .typeError
  | .obj _ => .error .typeError
  | hash => .ok ((byHash.reverse.find? fun entry => sameKey entry.1 hash).map Prod.snd)

/-- `bool(cid) and cid == receipt_cid(hash)`. -/
def cidMatches (cid hash : Json) : Except PyError Bool :=
  if ¬cid.truthy then .ok false
  else
    match hash with
    | .str text => .ok (isStr cid (receiptCid text))
    | _ => .error .attributeError

/-- One turn of the loop of `_executions`. -/
def executionRow (base : String) (byHash : List (Json × Json)) (e : Json) :
    Except PyError ExecutionRow :=
  match e with
  | .obj _ => do
      let hash := getOr e "receipt_hash" (.str "")
      let receipt ← receiptUnder byHash hash
      let cid := getOr e "cid" (.str "")
      let tx := getOr e "tx" (.str "")
      let cidOk ← cidMatches cid hash
      let explorer ← explorerLink base tx
      return {
        seq := getOrNull e "receipt_seq"
        ts := getOr e "ts" (.str "")
        side := getOr e "order_type" (.str "")
        amountUsd := getOrNull e "amount_usd"
        quantityBase := getOrNull e "quantity_base"
        cid := cid
        receiptHash := hash
        cidOk := cidOk
        verdict := (receipt.map fun r => getOr r "verdict" (.str "")).getD (.str "")
        tx := tx
        orderHash := getOr e "order_hash" (.str "")
        explorer := explorer
        executed := (getOrNull e "executed").truthy }
  | _ => .error .attributeError

/-- `_executions`. -/
def executionRows (env : Environ) (receipts executions : List Char) :
    Except PyError (List ExecutionRow) := do
  let records ← ReceiptChain.readAll receipts
  let byHash ← hashIndex records
  let entries ← ExecLog.readAll executions
  entries.mapM (executionRow (explorerTxBase env) byHash)

/-- `api_executions`. -/
def apiExecutions (env : Environ) (receipts executions : List Char) :
    Except PyError ExecutionsPage := do
  let rows ← executionRows env receipts executions
  return {
    executions := rows.reverse
    total := rows.length
    allBound := rows.all ExecutionRow.cidOk
    chain := if isInjective env then "injective" else "bsc" }

/-- The kinds that count as a trade. -/
def isTradeKind (kind : Json) : Bool :=
  isStr kind "trade" || isStr kind "clamp" || isStr kind "exit"

/-- The count of trades in `api_overview`. -/
def tradesShown (receipts : List Char) : Except PyError ℕ := do
  let records ← ReceiptChain.readAll receipts
  let kinds ← records.mapM fun record => index record "kind"
  return kinds.countP isTradeKind

section Row

variable {base : String} {byHash : List (Json × Json)} {receipts entries : List Json} {e : Json}
  {row : ExecutionRow} {rows : List ExecutionRow}

theorem sameKey_str (key : Json) (hash : String) : sameKey key (.str hash) = isStr key hash := by
  cases key <;> simp [sameKey, numeric?, isStr]

theorem cidMatches_eq_true_iff {cid hash : Json} : cidMatches cid hash = .ok true ↔
    ∃ text, hash = .str text ∧ cid = .str (receiptCid text) ∧ receiptCid text ≠ "" := by
  unfold cidMatches
  constructor
  · intro matched
    split at matched
    · cases matched
    · next truthy =>
      split at matched
      · next text =>
        rw [Except.ok.injEq, isStr_iff] at matched
        subst matched
        refine ⟨text, rfl, rfl, ?_⟩
        intro empty
        simp [Json.truthy, empty] at truthy
      · cases matched
  · rintro ⟨text, rfl, rfl, nonempty⟩
    simp [Json.truthy, nonempty, isStr]

/-- The receipts of an accepted chain have client ids. -/
theorem receiptCid_ne_empty_of_verified (verified : Verified receipts) {receipt : Json}
    (mem : receipt ∈ receipts) {hash : String} (stored : receipt.get? "hash" = some (.str hash)) :
    receiptCid hash ≠ "" := by
  rcases (verified_iff receipts).1 verified with ⟨links, linked, chained⟩
  rcases List.append_of_mem mem with ⟨early, late, rfl⟩
  rcases exists_append_of_mapM linked with ⟨_, others, -, tail, rfl⟩
  rcases exists_cons_of_mapM tail with ⟨link, _, first, -, rfl⟩
  have hashed := chained.hash_eq (List.mem_append_right _ List.mem_cons_self)
  rw [(recordLink?_eq_some first).2.2, Option.some.injEq] at stored
  rw [← Json.str.inj stored, hashed]
  exact receiptCid_ne_empty _

theorem receiptUnder_str (indexed : hashIndex receipts = .ok byHash) (hash : String) :
    receiptUnder byHash (.str hash) = .ok (ExecLog.lastWithHash receipts hash) := by
  rw [← ExecLog.findReceipt_eq indexed]
  unfold receiptUnder ExecLog.findReceipt
  simp only [sameKey_str]

theorem mem_of_lastWithHash {hash : String} {receipt : Json}
    (found : ExecLog.lastWithHash receipts hash = some receipt) :
    receipt ∈ receipts ∧ receipt.get? "hash" = some (.str hash) := by
  refine ⟨List.mem_reverse.1 (List.mem_of_find?_eq_some found), ?_⟩
  have stored := List.find?_some found
  rcases hashed : receipt.get? "hash" with _ | value
  · simp [hashed] at stored
  · rw [hashed, Option.any_some, isStr_iff] at stored
    rw [stored]

theorem isTradeVerdict_getOr {receipt : Json} :
    isTradeVerdict (getOr receipt "verdict" (.str "")) = true ↔
      receipt.get? "verdict" = some (.str "allow") ∨
        receipt.get? "verdict" = some (.str "clamp") := by
  unfold getOr isTradeVerdict
  rw [Bool.or_eq_true, isStr_iff, isStr_iff]
  cases receipt.get? "verdict" <;> simp

/-- The execution carries the client id of the receipt hash that it names. -/
def CarriesCid (e : Json) : Prop :=
  ∃ hash, ExecLog.receiptHashOf e = .str hash ∧ e.get? "cid" = some (.str (receiptCid hash)) ∧
    receiptCid hash ≠ ""

theorem cid_eq_iff {cid : String} (nonempty : cid ≠ "") :
    getOr e "cid" (.str "") = .str cid ↔ e.get? "cid" = some (.str cid) := by
  unfold getOr
  rcases e.get? "cid" with _ | value
  · simp [nonempty.symm]
  · simp

theorem cidOk_iff (shown : executionRow base byHash e = .ok row) :
    row.cidOk = true ↔ CarriesCid e := by
  cases e with
  | obj fields =>
      rcases bind_eq_ok_iff.1 shown with ⟨receipt?, -, shown⟩
      rcases bind_eq_ok_iff.1 shown with ⟨cidOk, matched, shown⟩
      rcases bind_eq_ok_iff.1 shown with ⟨explorer, -, shown⟩
      cases shown
      have ok : cidOk = true ↔ cidMatches (getOr (.obj fields) "cid" (.str ""))
          (ExecLog.receiptHashOf (.obj fields)) = .ok true := by
        rw [show ExecLog.receiptHashOf (.obj fields) =
          getOr (.obj fields) "receipt_hash" (.str "") from rfl, matched, Except.ok.injEq]
      rw [ok, cidMatches_eq_true_iff]
      apply exists_congr
      intro hash
      apply and_congr_right
      intro _
      exact and_congr_left cid_eq_iff
  | null | bool | num | str | arr => cases shown

/-- The verdict of a row is that of the receipt which the execution names. -/
theorem verdict_iff (indexed : hashIndex receipts = .ok byHash)
    (shown : executionRow base byHash e = .ok row) {hash : String}
    (named : ExecLog.receiptHashOf e = .str hash) :
    isTradeVerdict row.verdict = true ↔ ∃ receipt,
      ExecLog.lastWithHash receipts hash = some receipt ∧
        (receipt.get? "verdict" = some (.str "allow") ∨
          receipt.get? "verdict" = some (.str "clamp")) := by
  cases e with
  | obj fields =>
      rcases bind_eq_ok_iff.1 shown with ⟨receipt?, found, shown⟩
      rcases bind_eq_ok_iff.1 shown with ⟨cidOk, -, shown⟩
      rcases bind_eq_ok_iff.1 shown with ⟨explorer, -, shown⟩
      cases shown
      have asked : getOr (.obj fields) "receipt_hash" (.str "") = .str hash := named
      rw [asked, receiptUnder_str indexed, Except.ok.injEq] at found
      dsimp only
      rw [← found]
      rcases ExecLog.lastWithHash receipts hash with _ | receipt
      · simp [isTradeVerdict, isStr]
      · simp [isTradeVerdict_getOr]
  | null | bool | num | str | arr => cases shown

/-- A row on which the panel has nothing to object to. -/
def Clean (row : ExecutionRow) : Prop :=
  row.cidOk = true ∧ isTradeVerdict row.verdict = true

/-- Nothing is wrong with a row exactly when its execution is authorised. -/
theorem clean_iff (verified : Verified receipts) (indexed : hashIndex receipts = .ok byHash)
    (shown : executionRow base byHash e = .ok row) :
    Clean row ↔ ExecLog.Authorised receipts e := by
  unfold Clean
  rw [cidOk_iff shown]
  constructor
  · rintro ⟨⟨hash, named, cid, -⟩, trade⟩
    rcases (verdict_iff indexed shown named).1 trade with ⟨receipt, found, verdict⟩
    exact ⟨hash, receipt, named, cid, found, verdict⟩
  · rintro ⟨hash, receipt, named, cid, found, verdict⟩
    rcases mem_of_lastWithHash found with ⟨mem, stored⟩
    have nonempty := receiptCid_ne_empty_of_verified verified mem stored
    exact ⟨⟨hash, named, cid, nonempty⟩,
      (verdict_iff indexed shown named).2 ⟨receipt, found, verdict⟩⟩

/-- What the rows say of their entries, the rows say together of all entries. -/
theorem forall_rows_iff {P : ExecutionRow → Prop} {Q : Json → Prop}
    (one : ∀ e row, executionRow base byHash e = .ok row → (P row ↔ Q e))
    (shown : entries.mapM (executionRow base byHash) = .ok rows) :
    (∀ row ∈ rows, P row) ↔ ∀ e ∈ entries, Q e := by
  induction entries generalizing rows with
  | nil =>
      cases shown
      simp
  | cons e entries ih =>
      rcases ExecLog.mapM_cons_eq_ok shown with ⟨row, rest, first, others, rfl⟩
      rw [List.forall_mem_cons, List.forall_mem_cons, one e row first, ih others]

theorem length_rows (shown : entries.mapM (executionRow base byHash) = .ok rows) :
    rows.length = entries.length := by
  induction entries generalizing rows with
  | nil =>
      cases shown
      rfl
  | cons e entries ih =>
      rcases ExecLog.mapM_cons_eq_ok shown with ⟨row, rest, -, others, rfl⟩
      rw [List.length_cons, List.length_cons, ih others]

end Row

section Page

variable {env : Environ} {receipts executions : List Char} {records entries : List Json}
  {page : ExecutionsPage}

theorem rows_of_shown (receiptsRead : ReceiptChain.readAll receipts = .ok records)
    (executionsRead : ExecLog.readAll executions = .ok entries)
    (shown : apiExecutions env receipts executions = .ok page) :
    ∃ byHash rows, hashIndex records = .ok byHash ∧
      entries.mapM (executionRow (explorerTxBase env) byHash) = .ok rows ∧
      page.executions = rows.reverse ∧ page.total = rows.length ∧
      page.allBound = rows.all ExecutionRow.cidOk := by
  rcases bind_eq_ok_iff.1 shown with ⟨rows, joined, built⟩
  rcases bind_eq_ok_iff.1 joined with ⟨_, read, joined⟩
  rw [receiptsRead, Except.ok.injEq] at read
  subst read
  rcases bind_eq_ok_iff.1 joined with ⟨byHash, indexed, joined⟩
  rcases bind_eq_ok_iff.1 joined with ⟨_, read, joined⟩
  rw [executionsRead, Except.ok.injEq] at read
  subst read
  cases built
  exact ⟨byHash, rows, indexed, joined, rfl, rfl, rfl⟩

theorem total_of_shown (receiptsRead : ReceiptChain.readAll receipts = .ok records)
    (executionsRead : ExecLog.readAll executions = .ok entries)
    (shown : apiExecutions env receipts executions = .ok page) : page.total = entries.length := by
  rcases rows_of_shown receiptsRead executionsRead shown with
    ⟨_, rows, -, joined, -, total, -⟩
  rw [total, length_rows joined]

/-- Every execution is shown as bound and approved exactly when the verifier accepts the log. -/
theorem accepted_of_shown (receiptsRead : ReceiptChain.readAll receipts = .ok records)
    (executionsRead : ExecLog.readAll executions = .ok entries) (verified : Verified records)
    (shown : apiExecutions env receipts executions = .ok page) :
    (page.allBound = true ∧ ∀ row ∈ page.executions, isTradeVerdict row.verdict = true) ↔
      ∃ verdict, ExecLog.verifyExecutions entries records = .ok verdict ∧ verdict.ok = true := by
  rcases rows_of_shown receiptsRead executionsRead shown with
    ⟨byHash, rows, indexed, joined, listed, -, badge⟩
  have clean := forall_rows_iff (fun _ _ built => clean_iff verified indexed built) joined
  have indexable : ExecLog.Indexable records := ⟨byHash, indexed⟩
  rw [ExecLog.verifyExecutions_ok_iff, ← clean, badge, listed]
  simp [Clean, forall_and, indexable]

/-- **The panel and the public verifier agree.** On receipts that the verifier of the chain accepts
and any execution log for which the page is shown, every execution is shown as bound and with the
verdict of an approval exactly when the verifier of the executions accepts the log. The badge itself
looks at the client ids only. -/
theorem panel_agrees (env : Environ) (receipts executions : List Char) (records entries : List Json)
    (page : ExecutionsPage) (receiptsRead : ReceiptChain.readAll receipts = .ok records)
    (executionsRead : ExecLog.readAll executions = .ok entries) (verified : Verified records)
    (shown : apiExecutions env receipts executions = .ok page) :
    page.total = entries.length ∧
      (page.allBound = true ↔ ∀ e ∈ entries, CarriesCid e) ∧
      ((page.allBound = true ∧ ∀ row ∈ page.executions, isTradeVerdict row.verdict = true) ↔
        ∃ verdict, ExecLog.verifyExecutions entries records = .ok verdict ∧ verdict.ok = true) := by
  refine ⟨total_of_shown receiptsRead executionsRead shown, ?_,
    accepted_of_shown receiptsRead executionsRead verified shown⟩
  rcases rows_of_shown receiptsRead executionsRead shown with ⟨_, rows, -, joined, -, -, badge⟩
  rw [badge, List.all_eq_true]
  exact forall_rows_iff (fun _ _ => cidOk_iff) joined

end Page

/-- An execution that names a receipt which does not exist. -/
def unreceipted : Json :=
  .obj [("receipt_hash", .str "sha256:ab"), ("cid", .str "ab"), ("tx", .str "0x1")]

def unreceiptedLog : List Char := Json.appendLine [] unreceipted

/-- The badge is shown for it, and the verdict is missing. -/
theorem panel_agrees_unreceipted : ∃ page,
    apiExecutions (fun _ => none) [] unreceiptedLog = .ok page ∧
      page.total = 1 ∧ page.allBound = true ∧
      ¬∃ verdict, ExecLog.verifyExecutions [unreceipted] [] = .ok verdict ∧ verdict.ok = true := by
  have distinct : unreceipted.DistinctKeys := by
    simp [unreceipted, Json.DistinctKeys, Json.DistinctKeysFields]
  have read : ExecLog.readAll unreceiptedLog = .ok [unreceipted] := by
    have line : Json.readLines unreceiptedLog = some ([] ++ [unreceipted]) :=
      Json.readLines_appendLine rfl Json.blank_nil distinct
    rw [ExecLog.readAll, line]
    rfl
  have shown : ∃ page, apiExecutions (fun _ => none) [] unreceiptedLog = .ok page ∧
      page.allBound = true ∧ ∃ row ∈ page.executions, row.verdict = .str "" := by
    unfold apiExecutions executionRows
    rw [read]
    exact ⟨_, rfl, rfl, _, List.mem_cons_self, rfl⟩
  rcases shown with ⟨page, shown, badge, row, mem, verdict⟩
  have verified : Verified [] := ⟨_, rfl, rfl⟩
  rcases panel_agrees (fun _ => none) [] unreceiptedLog [] [unreceipted] page rfl read verified
    shown with ⟨total, -, agrees⟩
  refine ⟨page, shown, total, badge, ?_⟩
  intro accepted
  have trade := (agrees.2 accepted).2 row mem
  rw [verdict] at trade
  cases trade

section Runs

open SumplusTrader.Core

variable {configFile : Option String} {history : List Event} {start last : Recorder}
  {receipts : List Receipt}

/-- A receipt counts as a trade exactly when it lets a trade through. -/
def Labelled (receipt : Receipt) : Prop := isTradeKind receipt.kind = receipt.isTrade

def LabelledEvent (event : Event) : Prop := ∀ receipt ∈ event.receipt?, Labelled receipt

/-- The kind and the verdict that the engine gives agree on what is a trade. -/
theorem isTradeKind_check (engine : PolicyEngine) (decision : Decision) (portfolio : PortfolioView)
    (market : MarketView) :
    isTradeKind (.str (engine.check decision portfolio market).kind.text) =
      isTradeVerdict (.str (receiptVerdict (engine.check decision portfolio market))) := by
  have finalised : ∀ amount rung reason,
      isTradeKind (.str (engine.finalise portfolio amount rung reason).kind.text) =
        isTradeVerdict (.str (receiptVerdict (engine.finalise portfolio amount rung reason))) := by
    intro amount rung reason
    unfold PolicyEngine.finalise
    dsimp only
    split <;> rfl
  by_cases trade : decision.isTrade
  · rcases PolicyEngine.check_cases engine portfolio market trade with
      ⟨reason, rung, verdict⟩ | ⟨-, -, verdict⟩ | ⟨-, -, -, verdict⟩
    · rw [verdict]
      rfl
    · rw [verdict, PolicyEngine.exposureClamp]
      exact finalised _ _ _
    · rw [verdict]
      exact finalised _ _ _
  · rw [PolicyEngine.check_of_not_isTrade trade]
    rfl

/-- The receipts of a tick are labelled. -/
theorem labelled_takeTurn (world : World) (turn : Turn) :
    ∀ event ∈ (takeTurn world turn).1.events, LabelledEvent event := by
  intro event mem receipt appends
  cases event with
  | receiptAppended appended =>
      cases appends
      rcases receipt_of_tick mem with ⟨ph, j, log, prepared, append⟩
      rcases carries_of_append append with ⟨-, -, kind, -, verdict, -⟩
      rcases prepare_eq_ok_iff.1 prepared with ⟨_, _, _, _, -, -, -, -, judged⟩
      rcases judge_eq_ok_iff.1 judged with ⟨_, _, _, -, -, -, rfl⟩
      rw [Labelled, Receipt.isTrade, kind, verdict]
      exact isTradeKind_check _ _ _ _
  | _ => cases appends

/-- **One move.** -/
theorem labelled_step {recorder next : Recorder} {action : Recorder.Action} {noted : List Event}
    (labelled : ∀ event ∈ history ++ recorder.todo, LabelledEvent event)
    (stepped : record recorder action = some (next, noted)) :
    ∀ event ∈ (history ++ noted) ++ next.todo, LabelledEvent event := by
  rcases recorder with ⟨world, todo⟩
  rw [List.forall_mem_append] at labelled
  cases action with
  | call turn =>
      cases todo with
      | nil =>
          cases stepped
          rw [List.append_nil, List.forall_mem_append]
          exact ⟨labelled.1, labelled_takeTurn world turn⟩
      | cons event todo => cases stepped
  | perform =>
      cases todo with
      | nil => cases stepped
      | cons event todo =>
          cases stepped
          rw [List.append_assoc, List.singleton_append, List.forall_mem_append]
          exact labelled
  | die =>
      cases stepped
      rw [List.append_nil, List.append_nil]
      exact labelled.1
  | others elsewhere =>
      cases stepped
      rw [List.append_nil, List.forall_mem_append]
      exact labelled

/-- Every receipt that a run has appended is labelled. -/
theorem labelled_run {allowed : Recorder → Recorder.Action → Bool} (idle : start.todo = [])
    (run : Run (movesOf record allowed) start history last) :
    ∀ receipt ∈ receiptsOf history, Labelled receipt := by
  have labelled : ∀ event ∈ history ++ last.todo, LabelledEvent event := by
    refine run.invariant (fun history recorder =>
      ∀ event ∈ history ++ recorder.todo, LabelledEvent event) ?_ ?_
    · simp [idle]
    · rintro history recorder events next labelled ⟨action, -, stepped⟩
      exact labelled_step labelled stepped
  intro receipt mem
  rcases List.mem_filterMap.1 mem with ⟨event, happened, appends⟩
  exact labelled event (List.mem_append_left _ happened) receipt appends

theorem mapM_kind (receipts : List Receipt) :
    (receipts.map Receipt.toDict).mapM (fun record => index record "kind") =
      .ok (receipts.map fun receipt => receipt.kind) := by
  induction receipts with
  | nil => rfl
  | cons receipt receipts ih =>
      rw [List.map_cons, List.mapM_cons, ih]
      rfl

/-- The trades shown are the receipts that let a trade through. -/
theorem tradesShown_eq {log : List Char} (labelled : ∀ receipt ∈ receipts, Labelled receipt)
    (read : ReceiptChain.readAll log = .ok (receipts.map Receipt.toDict)) :
    tradesShown log = .ok (tradeHashes receipts).length := by
  have counted : (receipts.map fun receipt => receipt.kind).countP isTradeKind =
      (tradeHashes receipts).length := by
    rw [List.countP_map, tradeHashes, List.length_map, ← List.countP_eq_length_filter]
    exact List.countP_congr fun receipt mem => by rw [Function.comp_apply, labelled receipt mem]
  simp only [tradesShown, read, mapM_kind, bind, Except.bind, pure, Except.pure, counted]

/-- **The dashboard during a run.** Under a fixed configuration file, with deaths between any two
effects, the dashboard shows at least as many trades as orders were sent, and the panel as many
executions as were logged, which are no more than were sent. While no two of the hashed inputs
collide, each of them is shown as bound and with the verdict of an approval. -/
theorem dashboard_at_every_point (env : Environ) (configFile : Option String) (committed : Json)
    (loaded : loadConfig configFile = .ok committed) (start last : Recorder)
    (noReceipts : start.world.receipts = []) (noExecutions : start.world.executions = [])
    (idle : start.todo = []) (history : List Event)
    (run : Run (movesOf record (underFile configFile)) start history last) :
    ∃ trades, tradesShown last.world.receipts = .ok trades ∧ (sentCids history).length ≤ trades ∧
      ∀ page, apiExecutions env last.world.receipts last.world.executions = .ok page →
        page.total = (executionsOf history).length ∧ page.total ≤ (sentCids history).length ∧
        (NoCollision (hashedInputs last.world) →
          page.allBound = true ∧ ∀ row ∈ page.executions, isTradeVerdict row.verdict = true) := by
  have hashed : committedPolicyHash configFile = .ok (policyHash committed) :=
    committedPolicyHash_eq_ok_iff.2 ⟨committed, loaded, rfl⟩
  rcases audited_run hashed noReceipts noExecutions idle run with ⟨⟨bound, sent, logged⟩, -⟩
  have read := readAll_eq_ok_iff.2 bound.chain.read
  refine ⟨_, tradesShown_eq (labelled_run idle run) read, ?_, ?_⟩
  · have fewer := sent.length_le
    rwa [List.length_map] at fewer
  intro page shown
  have verified : Verified ((receiptsOf history).map Receipt.toDict) :=
    (verified_iff _).2 ⟨_, bound.chain.linked, bound.chain.chained⟩
  have total := total_of_shown read bound.readAll shown
  rw [List.length_map] at total
  refine ⟨total, ?_, ?_⟩
  · have fewer := logged.length_le
    rwa [List.length_map, ← total] at fewer
  · intro noCollision
    rw [hashedInputs, bound.chain.read, Option.getD_some] at noCollision
    have nodup := nodup_hash_of_chain bound.chain noCollision
    have traded : ∀ e ∈ executionsOf history, e.receiptHash ∈ tradeHashes (receiptsOf history) := by
      intro e mem
      exact bound.bound.subset (List.mem_map_of_mem mem)
    exact (accepted_of_shown read bound.readAll verified shown).2
      ⟨_, verifyExecutions_bound nodup bound.cids traded, rfl⟩

/-- One turn with its order bound, and the death of the process in the turn after it. -/
def boundThenLost : List Recorder.Action :=
  [.call liveTurn, .perform, .perform, .perform, .call liveTurn, .perform, .die]

theorem dashboard_at_every_point_boundThenLost : ∃ last history page,
    trace record (underFile (some "\x7b\x7d")) ⟨emptyWorld, []⟩ boundThenLost =
        some (last, history) ∧
      apiExecutions (fun _ => none) last.world.receipts last.world.executions = .ok page ∧
      page.total = 1 ∧ (sentCids history).length = 1 ∧
      ∃ trades, tradesShown last.world.receipts = .ok trades ∧ 1 ≤ trades := by
  have traced : (trace record (underFile (some "\x7b\x7d")) ⟨emptyWorld, []⟩ boundThenLost).map
      (fun run => (decide ((executionsOf run.2).length = 1), decide ((sentCids run.2).length = 1),
        (apiExecutions (fun _ => none) run.1.world.receipts run.1.world.executions).isOk)) =
      some (true, true, true) := by
    decide +kernel
  rcases Option.map_eq_some_iff.1 traced with ⟨⟨last, history⟩, ran, told⟩
  simp only [Prod.mk.injEq, decide_eq_true_eq] at told
  rcases told with ⟨logged, sent, ok⟩
  rcases shown : apiExecutions (fun _ => none) last.world.receipts last.world.executions with
    e | page
  · rw [shown] at ok
    cases ok
  rcases dashboard_at_every_point (fun _ => none) (some "\x7b\x7d") (.obj []) rfl
    ⟨emptyWorld, []⟩ last rfl rfl rfl history (.of_trace ran) with ⟨trades, counted, atLeast, pages⟩
  rw [sent] at atLeast
  exact ⟨last, history, page, ran, shown, logged ▸ (pages page shown).1, sent, trades, counted,
    atLeast⟩

end Runs

end Dashboard

end SumplusTrader
