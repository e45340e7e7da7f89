import SumplusTrader.Policy.Receipt

/-!
# The execution log

This file models `agent/policy/execlog.py`: the record that binds an order to the
receipt it came from, and the verifier that checks every record against the
receipts. As for receipts, the log is its text and the verifier reads arbitrary
JSON values.
-/

namespace SumplusTrader

structure ExecutionRecord where
  receiptSeq : Json
  receiptHash : String
  cid : String
  ts : String
  executed : Bool
  source : Json
  market : Json
  orderType : Json
  tx : Json
  orderHash : Json
  refPrice : Json
  quantityBase : Json
  amountUsd : Json
  error : Json

/-- `ExecutionRecord.to_dict`. -/
def ExecutionRecord.toDict (r : ExecutionRecord) : Json :=
  .obj [("receipt_seq", r.receiptSeq), ("receipt_hash", .str r.receiptHash), ("cid", .str r.cid),
    ("ts", .str r.ts), ("executed", .bool r.executed), ("source", r.source),
    ("market", r.market), ("order_type", r.orderType), ("tx", r.tx),
    ("order_hash", r.orderHash), ("ref_price", r.refPrice), ("quantity_base", r.quantityBase),
    ("amount_usd", r.amountUsd), ("error", r.error)]

namespace ExecLog

/-- `detail.get(key)`. -/
def getOrNull (detail : Json) (key : String) : Json := (detail.get? key).getD .null

def executionRecord (receiptSeq : Json) (receiptHash cid ts : String) (executed : Bool)
    (detail : Json) (error : Option String) : ExecutionRecord where
  receiptSeq := receiptSeq
  receiptHash := receiptHash
  cid := cid
  ts := ts
  executed := executed
  source := getOrNull detail "source"
  market := getOrNull detail "market"
  orderType := getOrNull detail "order_type"
  tx := getOrNull detail "tx"
  orderHash := getOrNull detail "order_hash"
  refPrice := getOrNull detail "ref_price"
  quantityBase := getOrNull detail "quantity_base"
  amountUsd := getOrNull detail "amount_usd"
  error := (error.map Json.str).getD .null

/-- `record_execution`: the log with one more record. -/
def recordExecution (log : List Char) (r : ExecutionRecord) : List Char :=
  Json.appendLine log r.toDict

def readAll (log : List Char) : Except PyError (List Json) :=
  match Json.readLines log with
  | none => .error .jsonDecode
  | some records => .ok records

inductive BadReason where
  | cidMismatch
  | receiptNotFound
  | notATrade (verdict : Json)

structure BadExecution where
  receiptHash : String
  why : BadReason

structure ExecVerdict where
  count : ℕ
  cidOk : Bool
  receiptOk : Bool
  bad : List BadExecution

def ExecVerdict.ok (verdict : ExecVerdict) : Bool := verdict.cidOk && verdict.receiptOk

/-- The hashes of the receipts, which must be usable as dictionary keys. -/
def hashIndex (receipts : List Json) : Except PyError (List (Json × Json)) :=
  receipts.mapM fun receipt => do
    match ← index receipt "hash" with
    | .arr _ => .error .typeError
    | .obj _ => .error .typeError
    | hash => return (hash, receipt)

/-- `by_hash.get(hash)`: the last receipt with a hash. -/
def findReceipt (byHash : List (Json × Json)) (hash : String) : Option Json :=
  (byHash.reverse.find? fun entry => isStr entry.1 hash).map Prod.snd

/-- A receipt that lets an order through. -/
def isTradeVerdict (verdict : Json) : Bool := isStr verdict "allow" || isStr verdict "clamp"

/-- What is wrong with one execution record. -/
def judge (byHash : List (Json × Json)) (record : Json) : Except PyError (Option BadExecution) :=
  match record with
  | .obj fields =>
      match (fields.lookup "receipt_hash").getD (.str "") with
      | .str rh =>
          if ¬isStr (getOrNull record "cid") (receiptCid rh) then
            .ok (some ⟨rh, .cidMismatch⟩)
          else
            match findReceipt byHash rh with
            | none => .ok (some ⟨rh, .receiptNotFound⟩)
            | some src =>
                let verdict := getOrNull src "verdict"
                if isTradeVerdict verdict then .ok none
                else .ok (some ⟨rh, .notATrade verdict⟩)
      | _ => .error .attributeError
  | _ => .error .attributeError

def isCidMismatch (bad : BadExecution) : Bool :=
  match bad.why with
  | .cidMismatch => true
  | _ => false

def verifyExecutions (records receipts : List Json) : Except PyError ExecVerdict := do
  let byHash ← hashIndex receipts
  let judged ← records.mapM (judge byHash)
  let bad := judged.filterMap id
  return {
    count := records.length
    cidOk := !bad.any isCidMismatch
    receiptOk := !bad.any fun entry => !isCidMismatch entry
    bad := bad }

end ExecLog

end SumplusTrader
