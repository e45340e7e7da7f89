import SumplusTrader.Policy.ExecLog

/-!
# The commitment and its public verifier

This file models `agent/policy/commit.py`: `build_commitment`, the payload that is committed
before the run, and `verify_live`, which recomputes the committed hash and checks both logs
against it. Both read the configuration file of the process.
-/

namespace SumplusTrader

/-- The payload of a commitment. -/
structure Commitment where
  schema : String
  agentId : String
  policyHash : String
  strategyVersion : Json
  configFile : String
  canonicalisation : String
  repoUrl : String
  note : String

/-- `cfg.get("version", "unknown")`. -/
def versionOf (config : Json) : Json := (config.get? "version").getD (.str "unknown")

def buildCommitment (configFile : Option String) (agentId repoUrl : String) :
    Except PyError Commitment := do
  let config ← loadConfig configFile
  let hash ← committedPolicyHash configFile
  match config with
  | .obj _ =>
      return {
        schema := "sumplus.policy-commitment/v1"
        agentId := agentId
        policyHash := hash
        strategyVersion := versionOf config
        configFile := "config/strategy.json"
        canonicalisation := "drop _-keys; sort keys; compact json; sha256"
        repoUrl := repoUrl
        note := "Every live decision receipt references policy_hash. Recompute it from " ++
          "config/strategy.json to verify." }
  | _ => .error .attributeError

structure LiveReport where
  committedPolicyHash : String
  receipts : ℕ
  chainIntact : Bool
  allReferenceCommittedHash : Bool
  brokenAt : Option ℕ
  executions : ℕ
  executionsBound : Bool
  executionsBad : List ExecLog.BadExecution

def verifyLive (configFile : Option String) (receipts executions : List Char) :
    Except PyError LiveReport := do
  let expected ← committedPolicyHash configFile
  let records ← ReceiptChain.readAll receipts
  let result ← verifyChain records (some expected)
  let execs ← ExecLog.readAll executions
  let execResult ← ExecLog.verifyExecutions execs records
  return {
    committedPolicyHash := expected
    receipts := result.count
    chainIntact := result.ok
    allReferenceCommittedHash := result.policyOk
    brokenAt := result.brokenAt
    executions := execResult.count
    executionsBound := execResult.ok
    executionsBad := execResult.bad }

end SumplusTrader
