import SumplusTrader.Policy.ReceiptChain

/-!
# The head hash commits to the history

This file instantiates `HashChain.bodies_related_of_head_eq` with the receipts. A
receipt is hashed from the text of its predecessor's hash followed by the
canonical text of its body, without a delimiter. The predecessor's hash always
has the same length, so the two parts can be told apart, and the canonical text
determines the body up to comments and the order of entries.

That no two of the hashed inputs collide, and that none of them hashes to the
genesis value, are hypotheses about the inputs of the two lists at hand.
-/

namespace SumplusTrader

/-- What a receipt is hashed from. -/
def preimage (link : HashChain.Link ReceiptBody String) : List UInt8 :=
  encode link.prev ++ canonicalBytes link.body.toJson

/-- The hashed inputs of all records the verifier can read. -/
def preimages (records : List Json) : List (List UInt8) :=
  (records.filterMap recordLink?).map preimage

/-- SHA-256 tells the inputs of a list apart. -/
def NoCollision (inputs : List (List UInt8)) : Prop :=
  ∀ input ∈ inputs, ∀ other ∈ inputs, sha256Hex input = sha256Hex other → input = other

theorem noCollision_pair {input other : List UInt8} (apart : sha256Hex input ≠ sha256Hex other) :
    NoCollision [input, other] := by
  intro x mem y otherMem same
  simp only [List.mem_cons, List.not_mem_nil, or_false] at mem otherMem
  rcases mem with rfl | rfl
  · rcases otherMem with rfl | rfl
    · rfl
    · exact absurd same apart
  · rcases otherMem with rfl | rfl
    · exact absurd same.symm apart
    · rfl

theorem NoCollision.append_self {inputs : List (List UInt8)} (noCollision : NoCollision inputs) :
    NoCollision (inputs ++ inputs) := by
  intro x mem y otherMem
  rw [List.mem_append, or_self] at mem otherMem
  exact noCollision x mem y otherMem

/-- Two bodies with the same fields up to comments and the order of entries. -/
structure SameBody (body other : ReceiptBody) : Prop where
  seq : SameUpToComments body.seq other.seq
  ts : SameUpToComments body.ts other.ts
  policyHash : SameUpToComments body.policyHash other.policyHash
  kind : SameUpToComments body.kind other.kind
  decision : SameUpToComments body.decision other.decision
  verdict : SameUpToComments body.verdict other.verdict
  reason : SameUpToComments body.reason other.reason
  inputsDigest : SameUpToComments body.inputsDigest other.inputsDigest

/-- The bodies of two records are the same. -/
def SameRecord (record other : Json) : Prop :=
  ∃ body otherBody, bodyOf record = .ok body ∧ bodyOf other = .ok otherBody ∧
    SameBody body otherBody

/-- The stored hash of the last record. -/
def lastHash (records : List Json) : Option Json :=
  records.getLast?.bind fun record => record.get? "hash"

theorem sameBody_of_canonicalBytes_eq {body other : ReceiptBody}
    (same : canonicalBytes body.toJson = canonicalBytes other.toJson) : SameBody body other := by
  have forms := canonicalForm_eq_of_bytes_eq same
  have field : ∀ (key : String) (value otherValue : Json), isComment key = false →
      body.toJson.get? key = some value → other.toJson.get? key = some otherValue →
      SameUpToComments value otherValue := by
    intro key value otherValue kept found otherFound
    have left := get?_canonicalForm body.toJson kept
    have right := get?_canonicalForm other.toJson kept
    rw [forms, right, found, otherFound] at left
    exact sameUpToComments_of_canonicalForm_eq (Option.some.inj left).symm
  exact {
    seq := field "seq" _ _ (by decide) rfl rfl
    ts := field "ts" _ _ (by decide) rfl rfl
    policyHash := field "policy_hash" _ _ (by decide) rfl rfl
    kind := field "kind" _ _ (by decide) rfl rfl
    decision := field "decision" _ _ (by decide) rfl rfl
    verdict := field "verdict" _ _ (by decide) rfl rfl
    reason := field "reason" _ _ (by decide) rfl rfl
    inputsDigest := field "inputs_digest" _ _ (by decide) rfl rfl }

theorem length_genesis : genesis.toList.length = 71 := by
  simp [genesis]

/-- Every hash a chain continues from has the length of a prefixed digest. -/
theorem length_prev_of_chained {start : String} {links : List (HashChain.Link ReceiptBody String)}
    (startLength : start.toList.length = 71)
    (chained : HashChain.Chained computeHash start links)
    {link : HashChain.Link ReceiptBody String} (mem : link ∈ links) :
    link.prev.toList.length = 71 := by
  induction links generalizing start with
  | nil => simp at mem
  | cons first links ih =>
      rcases chained with ⟨prev, hash, chained⟩
      rcases List.mem_cons.1 mem with rfl | mem
      · rw [prev]
        exact startLength
      · apply ih _ chained mem
        rw [hash]
        exact length_prefixedHash _

/-- The two parts of a preimage can be told apart. -/
theorem preimage_inj {link other : HashChain.Link ReceiptBody String}
    (length : link.prev.toList.length = other.prev.toList.length)
    (same : preimage link = preimage other) :
    link.prev = other.prev ∧ canonicalBytes link.body.toJson = canonicalBytes other.body.toJson := by
  rw [preimage, preimage, canonicalBytes, canonicalBytes, ← encode_append, ← encode_append] at same
  have texts := congrArg String.toList (encode_injective same)
  rw [String.toList_append, String.toList_append] at texts
  rcases List.append_inj texts length with ⟨prev, body⟩
  refine ⟨String.toList_inj.1 prev, ?_⟩
  rw [canonicalBytes, canonicalBytes, String.toList_inj.1 body]

theorem separates_of_noCollision {start : String}
    {links others : List (HashChain.Link ReceiptBody String)}
    (startLength : start.toList.length = 71)
    (chained : HashChain.Chained computeHash start links)
    (otherChained : HashChain.Chained computeHash start others)
    (noCollision : NoCollision (links.map preimage ++ others.map preimage)) :
    HashChain.Separates SameBody links others := by
  intro link mem other otherMem sameHash
  rw [chained.hash_eq mem, otherChained.hash_eq otherMem] at sameHash
  have inputs := noCollision (preimage link)
    (List.mem_append_left _ (List.mem_map_of_mem mem)) (preimage other)
    (List.mem_append_right _ (List.mem_map_of_mem otherMem)) (prefixedHash_inj.1 sameHash)
  have lengths : link.prev.toList.length = other.prev.toList.length := by
    rw [length_prev_of_chained startLength chained mem,
      length_prev_of_chained startLength otherChained otherMem]
  rcases preimage_inj lengths inputs with ⟨prev, body⟩
  exact ⟨prev, sameBody_of_canonicalBytes_eq body⟩

/-- The last stored hash of a readable list is the head of its links. -/
theorem lastHash_eq_head {records : List Json}
    {links : List (HashChain.Link ReceiptBody String)} {hash : Json}
    (read : records.mapM recordLink? = some links) (last : lastHash records = some hash) :
    hash = .str (HashChain.head genesis links) := by
  rcases List.eq_nil_or_concat records with rfl | ⟨init, record, rfl⟩
  · simp [lastHash] at last
  · rw [List.concat_eq_append] at read last
    rcases exists_concat_of_mapM read with ⟨initLinks, link, -, stored, rfl⟩
    rw [lastHash, List.getLast?_concat, Option.bind_some, (recordLink?_eq_some stored).2.2,
      Option.some.injEq] at last
    rw [← last, HashChain.head_append_singleton]

theorem sameRecord_of_sameBody {records others : List Json}
    {links otherLinks : List (HashChain.Link ReceiptBody String)}
    (read : List.Forall₂ (fun record link => recordLink? record = some link) records links)
    (otherRead : List.Forall₂ (fun record link => recordLink? record = some link) others otherLinks)
    (same : List.Forall₂ (fun link other => SameBody link.body other.body) links otherLinks) :
    List.Forall₂ SameRecord records others := by
  induction same generalizing records others with
  | nil =>
      cases read
      cases otherRead
      exact .nil
  | cons bodies _ ih =>
      cases read with
      | cons first rest =>
          cases otherRead with
          | cons otherFirst otherRest =>
              exact .cons ⟨_, _, (recordLink?_eq_some first).1, (recordLink?_eq_some otherFirst).1,
                bodies⟩ (ih rest otherRest)

/-- **The head hash commits to the history.** Two lists of records that the verifier
accepts and whose last records store the same hash have the same bodies position
by position, up to comments and the order of entries. -/
theorem bodies_same_of_last_hash_eq (records others : List Json)
    (verified : Verified records) (otherVerified : Verified others)
    (noCollision : NoCollision (preimages records ++ preimages others))
    (avoidsGenesis : ∀ input ∈ preimages records ++ preimages others,
      prefixedHash input ≠ genesis)
    (hash : Json) (last : lastHash records = some hash) (otherLast : lastHash others = some hash) :
    records.length = others.length ∧ List.Forall₂ SameRecord records others := by
  rcases (verified_iff records).1 verified with ⟨links, read, chained⟩
  rcases (verified_iff others).1 otherVerified with ⟨otherLinks, otherRead, otherChained⟩
  simp only [preimages, filterMap_of_mapM read, filterMap_of_mapM otherRead] at noCollision
  simp only [preimages, filterMap_of_mapM read, filterMap_of_mapM otherRead] at avoidsGenesis
  have heads : HashChain.head genesis links = HashChain.head genesis otherLinks := by
    have same := (lastHash_eq_head read last).symm.trans (lastHash_eq_head otherRead otherLast)
    exact Json.str.inj same
  have avoids : HashChain.Avoids genesis links := by
    intro link mem
    rw [chained.hash_eq mem]
    exact avoidsGenesis _ (List.mem_append_left _ (List.mem_map_of_mem mem))
  have otherAvoids : HashChain.Avoids genesis otherLinks := by
    intro link mem
    rw [otherChained.hash_eq mem]
    exact avoidsGenesis _ (List.mem_append_right _ (List.mem_map_of_mem mem))
  have bodies := HashChain.bodies_related_of_head_eq chained otherChained
    (separates_of_noCollision length_genesis chained otherChained noCollision) avoids otherAvoids
    heads
  have same := sameRecord_of_sameBody (forall₂_of_mapM read) (forall₂_of_mapM otherRead) bodies
  exact ⟨same.length_eq, same⟩

/-- The body of a hold. -/
def holdBody (seq : ℤ) (decision : Json) : ReceiptBody where
  seq := .num (.int seq)
  ts := .str ""
  policyHash := .str "sha256:00"
  kind := .str "hold"
  decision := decision
  verdict := .str "hold"
  reason := .str ""
  inputsDigest := .str ""

/-- The records of two receipts with a given decision. -/
def decisionRecords (decision : Json) : List Json :=
  let first : Receipt :=
    { holdBody 0 decision with prevHash := genesis, hash := computeHash genesis (holdBody 0 decision) }
  let second : Receipt :=
    { holdBody 1 decision with
      prevHash := first.hash
      hash := computeHash first.hash (holdBody 1 decision) }
  [first.toDict, second.toDict]

theorem verified_decisionRecords (decision : Json) : Verified (decisionRecords decision) :=
  (verified_iff _).2 ⟨_, rfl, rfl, rfl, rfl, rfl, trivial⟩

/-- A decision, and the same one reordered and with a comment. -/
def plainDecision : Json := .obj [("side", .str "hold"), ("chain", .str "bsc")]

def annotatedDecision : Json :=
  .obj [("_note", .str "calm"), ("chain", .str "bsc"), ("side", .str "hold")]

theorem preimages_decisionRecords_eq :
    preimages (decisionRecords plainDecision) = preimages (decisionRecords annotatedDecision) := by
  decide +kernel

theorem lastHash_decisionRecords (decision : Json) :
    lastHash (decisionRecords decision) =
      (preimages (decisionRecords decision)).getLast?.map fun input => .str (prefixedHash input) := rfl

/-- The hashes of two different inputs differ from each other and from the genesis value. -/
theorem decisionRecords_hashes : ∃ input other,
    preimages (decisionRecords annotatedDecision) = [input, other] ∧ input ≠ other ∧
      sha256Hex input ≠ sha256Hex other ∧ prefixedHash input ≠ genesis ∧
      prefixedHash other ≠ genesis := by
  refine ⟨_, _, rfl, ?_⟩
  decide +kernel

theorem bodies_same_of_last_hash_eq_annotated :
    (decisionRecords plainDecision).length = (decisionRecords annotatedDecision).length ∧
      List.Forall₂ SameRecord (decisionRecords plainDecision)
        (decisionRecords annotatedDecision) := by
  have same := preimages_decisionRecords_eq
  rcases decisionRecords_hashes with ⟨input, other, inputs, -, differ, avoids, avoidsOther⟩
  rw [inputs] at same
  refine bodies_same_of_last_hash_eq _ _ (verified_decisionRecords _) (verified_decisionRecords _)
    ?_ ?_ (.str (prefixedHash other)) ?_ ?_
  · rw [same, inputs]
    exact (noCollision_pair differ).append_self
  · rw [same, inputs]
    simp [avoids, avoidsOther]
  · rw [lastHash_decisionRecords, same]
    rfl
  · rw [lastHash_decisionRecords, inputs]
    rfl

end SumplusTrader
