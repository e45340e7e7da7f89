import SumplusTrader.Config
import SumplusTrader.Execution.Environ
import SumplusTrader.Policy.Commit
import SumplusTrader.Python.Path

/-!
# Publishing the commitment

This file models `agent/identity/commit_publish.py`. The publisher takes the wiring of a chain
from the environment, hashes the configuration file of this chain, and patches the payload that
`build_commitment` has assembled from the configuration file of the process.

The two files differ in one case: without `STRATEGY_CONFIG` the process runs on
`config/strategy.json`, while the Injective profile falls back to
`config/strategy.injective.json`. The patch replaces the hash, the file name and the note, and
leaves the version. `describesOneConfig_iff` says what follows from it.

A path leads to the text of a file, or to none; the directory of the repository is given without
a slash at its end.
-/

namespace SumplusTrader

namespace CommitPublish

def tagPrefix : String := "sumplus.policy/v1 "

def defaultConfig (root : String) : String := root ++ "/config/strategy.json"

def injDefaultConfig (root : String) : String := root ++ "/config/strategy.injective.json"

/-- `CONFIG_PATH` of `agent/policy/canonical.py`. -/
def configPath (env : Environ) (root : String) : String :=
  env.text "STRATEGY_CONFIG" (defaultConfig root)

/-- The text that is read from a path; the empty path is a directory. -/
def readText (files : String → Option String) (path : String) : Option String :=
  if path = "" then none else files path

structure Profile where
  chain : String
  chainId : ℤ
  rpc : String
  key : String
  address : String
  configPath : String
  agentId : String
  explorer : String
  need : String

/-- `_chain_profile`. -/
def chainProfile (env : Environ) (root chain : String) : Except PyError Profile :=
  if chain = "injective" then do
    let chainId ← env.int "INJ_CHAIN_ID" "1439"
    let strategy := env.text "STRATEGY_CONFIG" ""
    return {
      chain := "injective"
      chainId := chainId
      rpc := env.text "INJ_RPC" ""
      key := env.text "AGENT_WALLET_PRIVATE_KEY" ""
      address := env.text "AGENT_WALLET_ADDRESS" ""
      configPath := if strategy = "" then injDefaultConfig root else strategy
      agentId := env.text "AGENT_ID" "sumplus-trader-injective"
      explorer := env.text "INJ_EXPLORER_TX" "https://testnet.blockscout.injective.network/tx/"
      need := "set INJ_RPC + AGENT_WALLET_PRIVATE_KEY + AGENT_WALLET_ADDRESS and pass --send" }
  else do
    let chainId ← env.int "BSC_CHAIN_ID" "56"
    return {
      chain := "bsc"
      chainId := chainId
      rpc := env.text "BSC_RPC" "https://bsc-dataseed.bnbchain.org"
      key := env.text "AGENT_PRIVATE_KEY" ""
      address := env.text "AGENT_ADDRESS" ""
      configPath := env.text "STRATEGY_CONFIG" ""
      agentId := env.text "AGENT_ID" "sumplus-trader-bnb"
      explorer := "https://bscscan.com/tx/"
      need := "set AGENT_PRIVATE_KEY + AGENT_ADDRESS + BSC_RPC and pass --send to broadcast" }

/-- `_resolve_chain`. -/
def resolveChain (env : Environ) (chain : Option String) : String :=
  let named := chain.getD ""
  let chain := Py.lower (if named = "" then env.text "EXECUTION_BACKEND" "" else named)
  if chain = "injective" then "injective" else "bsc"

def hexText (bytes : List UInt8) : String :=
  let digit := fun n => "0123456789abcdef".toList.getD n '0'
  String.ofList (bytes.flatMap fun byte => [digit (byte.toNat / 16), digit (byte.toNat % 16)])

/-- The calldata of `commitment_calldata`, from its tag. -/
def calldataOf (tag : String) : String := "0x" ++ hexText (encode tag)

structure UnsignedTx where
  sender : String
  recipient : String
  value : ℤ
  data : String
  chainId : ℤ
  nonce : ℤ
  gas : ℤ
  gasPrice : ℤ

/-- `build_unsigned_tx`, with its default amount of gas. -/
def buildUnsignedTx (agentAddress calldata : String) (chainId nonce gasPriceWei : ℤ) :
    UnsignedTx where
  sender := agentAddress
  recipient := agentAddress
  value := 0
  data := calldata
  chainId := chainId
  nonce := nonce
  gas := 60000
  gasPrice := gasPriceWei

/-- The answers of an endpoint: to signing and sending it gives the hash of the transaction. -/
structure Web3 where
  transactionCount : String → Except PyError ℤ
  gasPrice : Except PyError ℤ
  signAndSend : UnsignedTx → String → Except PyError String

/-- The result of `publish`, with the transaction that was sent if there is one. -/
structure Published where
  dryRun : Bool
  chain : String
  chainId : ℤ
  policyHash : String
  tag : String
  calldata : Option String
  commitment : Commitment
  note : Option String
  txHash : Option String
  explorer : Option String
  sent : Option UnsignedTx

/-- The configuration file that is hashed for a chain. -/
def hashedPath (env : Environ) (root : String) (prof : Profile) : String :=
  if prof.configPath = "" then configPath env root else prof.configPath

/-- The file name in the payload: relative to the repository, unless the path is relative. -/
def relName (root path : String) : String :=
  if Py.isAbs path.toList then String.ofList (Py.relpath path.toList root.toList) else path

/-- Points the payload at the configuration that was hashed for the chain. -/
def patch (root : String) (prof : Profile) (hash : String) (commitment : Commitment) :
    Commitment :=
  if prof.configPath = "" then { commitment with policyHash := hash }
  else
    let rel := relName root prof.configPath
    { commitment with
      policyHash := hash
      configFile := rel
      note := "Every live decision receipt references policy_hash. Recompute it from " ++ rel ++
        " to verify." }

def publish (env : Environ) (files : String → Option String) (root : String)
    (web3 : String → Web3) (dryRun : Bool) (chain : Option String) : Except PyError Published := do
  let prof ← chainProfile env root (resolveChain env chain)
  let hash ← committedPolicyHash (readText files (hashedPath env root prof))
  let tag := tagPrefix ++ hash
  let data := calldataOf tag
  let built ← buildCommitment (readText files (configPath env root)) prof.agentId
    (env.text "REPO_URL" "")
  let commitment := patch root prof hash built
  if dryRun ∨ prof.key = "" ∨ prof.address = "" then
    return {
      dryRun := true
      chain := prof.chain
      chainId := prof.chainId
      policyHash := hash
      tag := tag
      calldata := some data
      commitment := commitment
      note := some prof.need
      txHash := none
      explorer := none
      sent := none }
  else
    let w3 := web3 prof.rpc
    let nonce ← w3.transactionCount prof.address
    let gasPrice ← w3.gasPrice
    let tx := buildUnsignedTx prof.address data prof.chainId nonce gasPrice
    let txHash ← w3.signAndSend tx prof.key
    return {
      dryRun := false
      chain := prof.chain
      chainId := prof.chainId
      policyHash := hash
      tag := tag
      calldata := none
      commitment := commitment
      note := none
      txHash := some txHash
      explorer := some (prof.explorer ++ txHash)
      sent := some tx }

/-- The name is the path as it was given, or leads to it from the directory of the repository. -/
def Names (root name path : String) : Prop :=
  name = path ∨ Py.isAbs name.toList = false ∧
    Py.normParts (root.toList ++ '/' :: name.toList) = Py.normParts path.toList

/-- Everything that is published refers to one configuration file. -/
structure Describes (root path : String) (config : Json) (p : Published) : Prop where
  hash : p.policyHash = policyHash config
  tag : p.tag = tagPrefix ++ policyHash config
  calldata : ∀ data ∈ p.calldata, data = calldataOf (tagPrefix ++ policyHash config)
  sent : ∀ tx ∈ p.sent, tx.data = calldataOf (tagPrefix ++ policyHash config)
  committedHash : p.commitment.policyHash = policyHash config
  strategyVersion : p.commitment.strategyVersion = versionOf config
  configFile : Names root p.commitment.configFile path

/-- The file whose hash is published for a chain: the Injective one without `STRATEGY_CONFIG`,
else the one of the process. -/
def publishedPath (env : Environ) (root : String) (chain : Option String) : String :=
  if resolveChain env chain = "injective" ∧ env.text "STRATEGY_CONFIG" "" = "" then
    injDefaultConfig root
  else configPath env root

/-- What is published is the configuration whose hash is published. -/
def DescribesOneConfig (env : Environ) (files : String → Option String) (root : String)
    (chain : Option String) (p : Published) : Prop :=
  ∃ config, loadConfig (readText files (publishedPath env root chain)) = .ok config ∧
    Describes root (publishedPath env root chain) config p

/-- The version of the configuration at a path. -/
def versionAt (files : String → Option String) (path : String) : Option Json :=
  (loadConfig (readText files path)).toOption.map versionOf

variable {env : Environ} {files : String → Option String} {root : String}
  {web3 : String → Web3} {dryRun : Bool} {chain : Option String} {p : Published}

theorem names_relName (root path : String) : Names root (relName root path) path := by
  unfold relName
  split
  · right
    rw [String.toList_ofList]
    exact ⟨Py.isAbs_relpath _ _, Py.normParts_relpath _ _⟩
  · exact Or.inl rfl

theorem names_default (root : String) : Names root "config/strategy.json" (defaultConfig root) := by
  right
  refine ⟨by decide +kernel, ?_⟩
  rw [defaultConfig, String.toList_append]
  rfl

theorem buildCommitment_eq_ok {configFile : Option String} {agentId repoUrl : String}
    {built : Commitment} (done : buildCommitment configFile agentId repoUrl = .ok built) :
    ∃ base, loadConfig configFile = .ok base ∧ built.strategyVersion = versionOf base ∧
      built.configFile = "config/strategy.json" := by
  rcases bind_eq_ok_iff.1 done with ⟨base, loaded, done⟩
  rcases bind_eq_ok_iff.1 done with ⟨hash, -, done⟩
  cases base with
  | obj fields =>
      cases done
      exact ⟨_, loaded, rfl, rfl⟩
  | _ => cases done

/-- What a run of the publisher has read, and how it puts the result together. -/
theorem publish_eq_ok (published : publish env files root web3 dryRun chain = .ok p) :
    ∃ prof config built, chainProfile env root (resolveChain env chain) = .ok prof ∧
      loadConfig (readText files (hashedPath env root prof)) = .ok config ∧
      buildCommitment (readText files (configPath env root)) prof.agentId
        (env.text "REPO_URL" "") = .ok built ∧
      p.policyHash = policyHash config ∧ p.tag = tagPrefix ++ policyHash config ∧
      (∀ data ∈ p.calldata, data = calldataOf (tagPrefix ++ policyHash config)) ∧
      (∀ tx ∈ p.sent, tx.data = calldataOf (tagPrefix ++ policyHash config)) ∧
      p.commitment = patch root prof (policyHash config) built := by
  rcases bind_eq_ok_iff.1 published with ⟨prof, wired, published⟩
  rcases bind_eq_ok_iff.1 published with ⟨hash, hashed, published⟩
  rcases bind_eq_ok_iff.1 published with ⟨built, assembled, published⟩
  cases loaded : loadConfig (readText files (hashedPath env root prof)) with
  | error e =>
      rw [committedPolicyHash, loaded] at hashed
      cases hashed
  | ok config =>
      rw [committedPolicyHash, loaded] at hashed
      cases hashed
      refine ⟨prof, config, built, wired, loaded, assembled, ?_⟩
      split at published
      · cases published
        refine ⟨rfl, rfl, ?_, ?_, rfl⟩
        · intro data same
          exact (Option.some.inj same).symm
        · intro tx absent
          cases absent
      · rcases bind_eq_ok_iff.1 published with ⟨nonce, -, published⟩
        rcases bind_eq_ok_iff.1 published with ⟨gasPrice, -, published⟩
        rcases bind_eq_ok_iff.1 published with ⟨txHash, -, published⟩
        cases published
        refine ⟨rfl, rfl, ?_, ?_, rfl⟩
        · intro data absent
          cases absent
        · intro tx same
          rw [← Option.some.inj same]
          rfl

/-- The profile of a chain names the file of the chain; on BSC the empty name stands for that of
the process. -/
theorem configPath_of_chainProfile {prof : Profile} {name : String}
    (wired : chainProfile env root name = .ok prof) :
    prof.configPath = if name = "injective" then
      (if env.text "STRATEGY_CONFIG" "" = "" then injDefaultConfig root
        else env.text "STRATEGY_CONFIG" "")
      else env.text "STRATEGY_CONFIG" "" := by
  unfold chainProfile at wired
  split at wired
  · next injective =>
    rcases bind_eq_ok_iff.1 wired with ⟨chainId, -, done⟩
    cases done
    rw [if_pos injective]
  · next other =>
    rcases bind_eq_ok_iff.1 wired with ⟨chainId, -, done⟩
    cases done
    rw [if_neg other]

theorem injDefaultConfig_ne_empty (root : String) : injDefaultConfig root ≠ "" := by
  intro empty
  have length := congrArg String.length empty
  rw [injDefaultConfig, String.length_append] at length
  have long : "/config/strategy.injective.json".length = 31 := by decide +kernel
  rw [long] at length
  simp at length

theorem configPath_of_set (set : env.text "STRATEGY_CONFIG" "" ≠ "") :
    configPath env root = env.text "STRATEGY_CONFIG" "" := by
  unfold configPath
  unfold Environ.text at set ⊢
  cases named : env "STRATEGY_CONFIG" with
  | none =>
      rw [named] at set
      exact absurd rfl set
  | some path => rfl

/-- The three ways in which a profile comes to its file. -/
theorem profile_cases {prof : Profile}
    (wired : chainProfile env root (resolveChain env chain) = .ok prof) :
    (env.text "STRATEGY_CONFIG" "" ≠ "" ∧ prof.configPath = configPath env root ∧
        prof.configPath ≠ "" ∧ publishedPath env root chain = configPath env root) ∨
      (env.text "STRATEGY_CONFIG" "" = "" ∧ resolveChain env chain ≠ "injective" ∧
        prof.configPath = "" ∧ publishedPath env root chain = configPath env root) ∨
      env.text "STRATEGY_CONFIG" "" = "" ∧ resolveChain env chain = "injective" ∧
        prof.configPath = injDefaultConfig root ∧
          publishedPath env root chain = injDefaultConfig root := by
  have named := configPath_of_chainProfile wired
  rw [publishedPath]
  by_cases unset : env.text "STRATEGY_CONFIG" "" = ""
  · right
    rw [if_pos unset] at named
    by_cases injective : resolveChain env chain = "injective"
    · right
      rw [if_pos injective] at named
      exact ⟨unset, injective, named, if_pos ⟨injective, unset⟩⟩
    · left
      rw [if_neg injective] at named
      exact ⟨unset, injective, named.trans unset, if_neg fun both => injective both.1⟩
  · left
    rw [if_neg unset, ite_self] at named
    refine ⟨unset, ?_, ?_, if_neg fun both => unset both.2⟩
    · rw [named, configPath_of_set unset]
    · rw [named]
      exact unset

/-- The file that is hashed is the published one. -/
theorem hashedPath_eq {prof : Profile}
    (wired : chainProfile env root (resolveChain env chain) = .ok prof) :
    hashedPath env root prof = publishedPath env root chain := by
  unfold hashedPath
  rcases profile_cases wired with ⟨-, named, visible, published⟩ | ⟨-, -, empty, published⟩ |
    ⟨-, -, named, published⟩
  · rw [if_neg visible, named, published]
  · rw [if_pos empty, published]
  · rw [named, if_neg (injDefaultConfig_ne_empty root), published]

/-- The file name in the payload is that of the published file. -/
theorem names_published {prof : Profile} {built : Commitment} {hash : String}
    (wired : chainProfile env root (resolveChain env chain) = .ok prof)
    (builtName : built.configFile = "config/strategy.json")
    (base : (loadConfig (readText files (configPath env root))).toOption.isSome) :
    Names root (patch root prof hash built).configFile (publishedPath env root chain) := by
  unfold patch
  rcases profile_cases wired with ⟨-, named, visible, published⟩ | ⟨unset, -, empty, published⟩ |
    ⟨-, -, named, published⟩
  · rw [if_neg visible, published, ← named]
    exact names_relName root prof.configPath
  · rw [if_pos empty, published]
    dsimp only
    rw [builtName]
    have standard : configPath env root = defaultConfig root := by
      unfold Environ.text at unset
      unfold configPath Environ.text
      cases named : env "STRATEGY_CONFIG" with
      | none => rfl
      | some path =>
          rw [named, Option.getD_some] at unset
          rw [configPath, Environ.text, named, Option.getD_some, unset] at base
          cases base
    rw [standard]
    exact names_default root
  · rw [named, if_neg (injDefaultConfig_ne_empty root), published]
    exact names_relName root (injDefaultConfig root)

/-- The file of the process is one that can be read. -/
theorem base_of_publish (published : publish env files root web3 dryRun chain = .ok p) :
    ∃ base, loadConfig (readText files (configPath env root)) = .ok base := by
  rcases publish_eq_ok published with ⟨_, _, _, _, _, assembled, _⟩
  rcases buildCommitment_eq_ok assembled with ⟨base, loaded, -⟩
  exact ⟨base, loaded⟩

/-- The version in the payload is that of the file of the process, all the rest belongs to the file
that is hashed. -/
theorem describesOneConfig_iff_version
    (published : publish env files root web3 dryRun chain = .ok p) :
    DescribesOneConfig env files root chain p ↔
      versionAt files (configPath env root) = versionAt files (publishedPath env root chain) := by
  rcases publish_eq_ok published with
    ⟨prof, config, built, wired, loaded, assembled, hash, tag, calldata, sent, committed⟩
  rcases buildCommitment_eq_ok assembled with ⟨base, baseLoaded, version, name⟩
  rw [hashedPath_eq wired] at loaded
  have versions : versionAt files (configPath env root) = some (versionOf base) ∧
      versionAt files (publishedPath env root chain) = some (versionOf config) := by
    unfold versionAt
    rw [baseLoaded, loaded]
    exact ⟨rfl, rfl⟩
  have patched : p.commitment.strategyVersion = versionOf base ∧
      p.commitment.policyHash = policyHash config := by
    rw [committed, patch]
    split
    · exact ⟨version, rfl⟩
    · exact ⟨version, rfl⟩
  rw [versions.1, versions.2, Option.some.injEq]
  constructor
  · rintro ⟨other, found, describes⟩
    rw [loaded, Except.ok.injEq] at found
    rw [← patched.1, describes.strategyVersion, found]
  · intro agree
    refine ⟨config, loaded, hash, tag, calldata, sent, patched.2, patched.1.trans agree, ?_⟩
    rw [committed]
    apply names_published wired name
    rw [baseLoaded]
    rfl

/-- **The published commitment describes one configuration** exactly when it does not publish the
default Injective profile, or both default files have the same version. -/
theorem describesOneConfig_iff (env : Environ) (files : String → Option String) (root : String)
    (web3 : String → Web3) (dryRun : Bool) (chain : Option String) (p : Published)
    (published : publish env files root web3 dryRun chain = .ok p) :
    DescribesOneConfig env files root chain p ↔
      (resolveChain env chain = "injective" → env "STRATEGY_CONFIG" = none →
        versionAt files (defaultConfig root) = versionAt files (injDefaultConfig root)) := by
  rw [describesOneConfig_iff_version published]
  rcases base_of_publish published with ⟨base, loaded⟩
  cases named : env "STRATEGY_CONFIG" with
  | some path =>
      -- The empty path cannot be read, and any other one is published as it is.
      have process : configPath env root = path := by
        rw [configPath, Environ.text, named]
        rfl
      have visible : path ≠ "" := by
        intro empty
        rw [process, empty] at loaded
        cases loaded
      have set : env.text "STRATEGY_CONFIG" "" = path := by
        rw [Environ.text, named]
        rfl
      have same : publishedPath env root chain = configPath env root := by
        apply if_neg
        rintro ⟨-, empty⟩
        exact visible (set.symm.trans empty)
      rw [same]
      constructor
      · intro _ _ unset
        cases unset
      · intro _
        rfl
  | none =>
      have process : configPath env root = defaultConfig root := by
        rw [configPath, Environ.text, named]
        rfl
      have unset : env.text "STRATEGY_CONFIG" "" = "" := by
        rw [Environ.text, named]
        rfl
      rw [process]
      by_cases injective : resolveChain env chain = "injective"
      · rw [publishedPath, if_pos ⟨injective, unset⟩]
        constructor
        · intro agree _ _
          exact agree
        · intro agree
          exact agree injective rfl
      · rw [publishedPath, if_neg fun both => injective both.1, process]
        constructor
        · intro _ both
          exact absurd both injective
        · intro _
          rfl

/-- The two default files of the repository, cut down to their versions. -/
def defaultFiles (path : String) : Option String :=
  if path = "/app/config/strategy.json" then some "\x7b\"version\": \"bnb-1.0.0\"\x7d"
  else if path = "/app/config/strategy.injective.json" then
    some "\x7b\"version\": \"injective-1.0.0\"\x7d"
  else none

/-- The endpoint of a dry run, which is not asked. -/
def offline (_ : String) : Web3 where
  transactionCount := fun _ => .error .osError
  gasPrice := .error .osError
  signAndSend := fun _ _ => .error .osError

def emptyEnviron : Environ := fun _ => none

/-- The Injective agent, on its own configuration. -/
def injectiveEnviron : Environ := fun name =>
  if name = "STRATEGY_CONFIG" then some "/app/config/strategy.injective.json" else none

theorem configured_describesOneConfig :
    ∃ p, publish injectiveEnviron defaultFiles "/app" offline true (some "injective") = .ok p ∧
      DescribesOneConfig injectiveEnviron defaultFiles "/app" (some "injective") p := by
  cases published :
      publish injectiveEnviron defaultFiles "/app" offline true (some "injective") with
  | error e =>
      have succeeds : (publish injectiveEnviron defaultFiles "/app" offline true
          (some "injective")).toOption.isSome = true := by decide +kernel
      rw [published] at succeeds
      cases succeeds
  | ok p =>
      refine ⟨p, rfl, (describesOneConfig_iff _ _ _ _ _ _ p published).2 ?_⟩
      intro _ unset
      cases unset

/-- Without `STRATEGY_CONFIG` the Injective commitment carries the version of the other agent. -/
theorem unset_not_describesOneConfig :
    ∃ p, publish emptyEnviron defaultFiles "/app" offline true (some "injective") = .ok p ∧
      Read.asString p.commitment.strategyVersion = some "bnb-1.0.0" ∧
      p.commitment.configFile = "config/strategy.injective.json" ∧
      ¬ DescribesOneConfig emptyEnviron defaultFiles "/app" (some "injective") p := by
  have payload : (publish emptyEnviron defaultFiles "/app" offline true
      (some "injective")).toOption.map (fun p => (Read.asString p.commitment.strategyVersion,
        p.commitment.configFile)) =
      some (some "bnb-1.0.0", "config/strategy.injective.json") := by decide +kernel
  cases published : publish emptyEnviron defaultFiles "/app" offline true (some "injective") with
  | error e =>
      rw [published] at payload
      cases payload
  | ok p =>
      rw [published] at payload
      have fields := Prod.mk.inj (Option.some.inj payload)
      refine ⟨p, rfl, fields.1, fields.2, ?_⟩
      rw [describesOneConfig_iff_version published]
      intro agree
      have versions : (versionAt defaultFiles (configPath emptyEnviron "/app")).bind Read.asString ≠
          (versionAt defaultFiles (publishedPath emptyEnviron "/app" (some "injective"))).bind
            Read.asString := by decide +kernel
      exact versions (congrArg (fun version => version.bind Read.asString) agree)

end CommitPublish

end SumplusTrader
