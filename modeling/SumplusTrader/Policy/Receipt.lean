import SumplusTrader.Policy.Canonical
import SumplusTrader.Json.Lines
import SumplusTrader.Crypto.HashChain

/-!
# Decision receipts

This file models `agent/policy/receipt.py`: receipts, the append-only chain kept
in a log of JSON lines, and the verifier that walks a chain again.

The log is its text; a missing file and an empty one behave alike. The records
the verifier walks are arbitrary JSON values, and reading a key that is not there
raises. `verifyChain_eq_ok_iff` relates the verifier to `HashChain.Chained`.
-/

namespace SumplusTrader

def genesis : String := "sha256:" ++ String.ofList (List.replicate 64 '0')

/-- `receipt_hash.split(":", 1)[-1]`: what follows the first colon. -/
def afterColon (cs : List Char) : List Char :=
  match cs.dropWhile (· ≠ ':') with
  | [] => cs
  | _ :: rest => rest

def cidHexLen : ℕ := 32

def receiptCid (receiptHash : String) : String :=
  String.ofList ((afterColon receiptHash.toList).take cidHexLen)

structure ReceiptBody where
  seq : Json
  ts : Json
  policyHash : Json
  kind : Json
  decision : Json
  verdict : Json
  reason : Json
  inputsDigest : Json

namespace ReceiptBody

/-- The fields of `Receipt.body`, in its order. -/
def fields (body : ReceiptBody) : List (String × Json) :=
  [("seq", body.seq), ("ts", body.ts), ("policy_hash", body.policyHash), ("kind", body.kind),
    ("decision", body.decision), ("verdict", body.verdict), ("reason", body.reason),
    ("inputs_digest", body.inputsDigest)]

def toJson (body : ReceiptBody) : Json := .obj body.fields

end ReceiptBody

structure Receipt extends ReceiptBody where
  prevHash : String
  hash : String

/-- `Receipt.compute_hash`. -/
def computeHash (prevHash : String) (body : ReceiptBody) : String :=
  prefixedHash (encode prevHash ++ canonicalBytes body.toJson)

namespace Receipt

/-- `Receipt.to_dict`. -/
def toDict (r : Receipt) : Json :=
  .obj (r.toReceiptBody.fields ++ [("prev_hash", .str r.prevHash), ("hash", .str r.hash)])

def link (r : Receipt) : HashChain.Link ReceiptBody String := ⟨r.prevHash, r.toReceiptBody, r.hash⟩

end Receipt

/-- `seq + 1`. -/
def nextSeq : Json → Except PyError Json
  | .num (.int n) => .ok (.num (.int (n + 1)))
  | .num (.float lit) => .ok (Py.floatJson (lit.value + 1))
  | .bool b => .ok (.num (.int (if b then 2 else 1)))
  | _ => .error .typeError

/-- The arguments of `ReceiptChain.append`. -/
structure ReceiptArgs where
  policyHash : JsonValue
  kind : JsonValue
  decision : JsonValue
  verdict : JsonValue
  reason : JsonValue
  inputsDigest : JsonValue
  ts : JsonValue

namespace ReceiptChain

/-- `ReceiptChain._last`; a line that holds `null` counts as no receipt. -/
def last (log : List Char) : Except PyError (Option Json) :=
  match Json.lastLine log with
  | none => .error .jsonDecode
  | some none => .ok none
  | some (some .null) => .ok none
  | some (some record) => .ok (some record)

/-- The next sequence number and the hash to chain from. -/
def head (log : List Char) : Except PyError (Json × Json) := do
  match ← last log with
  | none => return (.num (.int 0), .str genesis)
  | some record =>
      let seq ← index record "seq"
      let next ← nextSeq seq
      let hash ← index record "hash"
      return (next, hash)

/-- The receipt for some arguments behind a head. -/
def receiptOf (seq : Json) (prev : String) (args : ReceiptArgs) : Receipt :=
  let body : ReceiptBody := {
    seq := seq
    ts := args.ts.tree
    policyHash := args.policyHash.tree
    kind := args.kind.tree
    decision := args.decision.tree
    verdict := args.verdict.tree
    reason := args.reason.tree
    inputsDigest := args.inputsDigest.tree }
  { body with prevHash := prev, hash := computeHash prev body }

def append (log : List Char) (args : ReceiptArgs) : Except PyError (List Char × Receipt) := do
  let (seq, prev) ← head log
  match prev with
  | .str prev =>
      let r := receiptOf seq prev args
      return (Json.appendLine log r.toDict, r)
  | _ => .error .attributeError

def readAll (log : List Char) : Except PyError (List Json) :=
  match Json.readLines log with
  | none => .error .jsonDecode
  | some records => .ok records

end ReceiptChain

/-- The result of `verify_chain`. -/
structure ChainVerdict where
  ok : Bool
  count : ℕ
  brokenAt : Option ℕ
  why : String
  policyOk : Bool
deriving DecidableEq

/-- The body of a record. -/
def bodyOf (record : Json) : Except PyError ReceiptBody := do
  return {
    seq := ← index record "seq"
    ts := ← index record "ts"
    policyHash := ← index record "policy_hash"
    kind := ← index record "kind"
    decision := ← index record "decision"
    verdict := ← index record "verdict"
    reason := ← index record "reason"
    inputsDigest := ← index record "inputs_digest" }

/-- A value that equals a string. -/
def isStr (value : Json) (s : String) : Bool :=
  match value with
  | .str t => t = s
  | _ => false

/-- The record carries the expected policy hash, if one is expected. -/
def referencesPolicy (expected : Option String) (policyHash : Json) : Bool :=
  match expected with
  | none => true
  | some hash => isStr policyHash hash

/-- The walk of `verify_chain` from a record on. -/
def verifyFrom (expected : Option String) (count : ℕ) :
    ℕ → String → Bool → List Json → Except PyError ChainVerdict
  | _, _, policyOk, [] => .ok ⟨true, count, none, "", policyOk⟩
  | i, prev, policyOk, record :: records => do
      let body ← bodyOf record
      let prevHash ← index record "prev_hash"
      if ¬isStr prevHash prev then
        return ⟨false, count, some i, "prev_hash mismatch", false⟩
      let hash ← index record "hash"
      if ¬isStr hash (computeHash prev body) then
        return ⟨false, count, some i, "hash mismatch", false⟩
      verifyFrom expected count (i + 1) (computeHash prev body)
        (policyOk && referencesPolicy expected body.policyHash) records

def verifyChain (records : List Json) (expected : Option String) :
    Except PyError ChainVerdict :=
  verifyFrom expected records.length 0 genesis true records

end SumplusTrader
