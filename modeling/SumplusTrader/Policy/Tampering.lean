import SumplusTrader.Policy.HeadCommitment

/-!
# Where a tampered record is found

This file replaces one record of a list that the verifier accepts. The walk reaches the
replacement with the hash that the original continued from. A replacement that does not carry
this hash, or not its own correct hash, is found there. One that carries both passes, and the
walk goes on with a hash that the next record has not stored, unless the two bodies collide.

So the verifier breaks at the replacement or right behind it (`tampering_located`).
-/

namespace SumplusTrader

/-- The replacement carries the predecessor's hash of the original, and its own correct hash. -/
def CarriesOwnHash (original replacement : Json) : Prop :=
  ∃ link, recordLink? replacement = some link ∧
    original.get? "prev_hash" = some (.str link.prev) ∧
    link.hash = computeHash link.prev link.body

/-- A body differs in its canonical form. -/
def Differs (body other : ReceiptBody) : Prop :=
  canonicalBytes body.toJson ≠ canonicalBytes other.toJson

/-- The verifier rejects the records and names a position. -/
def BrokenAt (records : List Json) (expected : Option String) (i : ℕ) : Prop :=
  ∃ verdict, verifyChain records expected = .ok verdict ∧ verdict.ok = false ∧
    verdict.brokenAt = some i

section Step

variable {expected : Option String} {count i : ℕ} {start : String} {policyOk : Bool}
  {record : Json} {records : List Json} {body : ReceiptBody} {prev hash : Json}

theorem verifyFrom_wrong_prev (bodyEq : bodyOf record = .ok body)
    (prevEq : record.get? "prev_hash" = some prev) (wrong : prev ≠ .str start) :
    verifyFrom expected count i start policyOk (record :: records) =
      .ok ⟨false, count, some i, "prev_hash mismatch", false⟩ := by
  have mismatch : ¬isStr prev start = true := fun same => wrong (isStr_iff.1 same)
  simp only [verifyFrom, bodyEq, index_eq_ok_iff.2 prevEq, bind, Except.bind, pure, Except.pure]
  rw [if_pos mismatch]

theorem verifyFrom_wrong_hash (bodyEq : bodyOf record = .ok body)
    (prevEq : record.get? "prev_hash" = some (.str start)) (hashEq : record.get? "hash" = some hash)
    (wrong : hash ≠ .str (computeHash start body)) :
    verifyFrom expected count i start policyOk (record :: records) =
      .ok ⟨false, count, some i, "hash mismatch", false⟩ := by
  have mismatch : ¬isStr hash (computeHash start body) = true := fun same => wrong (isStr_iff.1 same)
  have matching : isStr (.str start) start = true := isStr_iff.2 rfl
  simp only [verifyFrom, bodyEq, index_eq_ok_iff.2 prevEq, index_eq_ok_iff.2 hashEq, bind,
    Except.bind, pure, Except.pure]
  rw [if_neg (not_not.2 matching), if_pos mismatch]

theorem verifyFrom_correct (bodyEq : bodyOf record = .ok body)
    (prevEq : record.get? "prev_hash" = some (.str start))
    (hashEq : record.get? "hash" = some (.str (computeHash start body))) :
    verifyFrom expected count i start policyOk (record :: records) =
      verifyFrom expected count (i + 1) (computeHash start body)
        (policyOk && referencesPolicy expected body.policyHash) records := by
  have matching : ∀ s, isStr (.str s) s = true := fun s => isStr_iff.2 rfl
  simp only [verifyFrom, bodyEq, index_eq_ok_iff.2 prevEq, index_eq_ok_iff.2 hashEq, bind,
    Except.bind, matching, not_true_eq_false, if_false]

end Step

/-- A list that the verifier accepts, around one of its records. -/
structure Around (before : List Json) (original next : Json) (start : String)
    (link : HashChain.Link ReceiptBody String) : Prop where
  walked : ∀ expected count (rest : List Json), ∃ policyOk,
    verifyFrom expected count 0 genesis true (before ++ rest) =
      verifyFrom expected count before.length start policyOk rest
  original : recordLink? original = some link
  prev : link.prev = start
  hash : link.hash = computeHash start link.body
  next : ∃ body, bodyOf next = .ok body ∧ next.get? "prev_hash" = some (.str link.hash)

theorem around_of_verified {before later : List Json} {original next : Json}
    (verified : Verified (before ++ original :: next :: later)) :
    ∃ start link, Around before original next start link := by
  rcases (verified_iff _).1 verified with ⟨links, read, chained⟩
  rcases exists_append_of_mapM read with ⟨init, tail, initRead, tailRead, rfl⟩
  rcases exists_cons_of_mapM tailRead with ⟨link, others, first, othersRead, rfl⟩
  rcases exists_cons_of_mapM othersRead with ⟨nextLink, rest, second, -, rfl⟩
  rw [HashChain.chained_append] at chained
  rcases chained with ⟨initChained, prev, hash, nextPrev, -, -⟩
  rcases recordLink?_eq_some second with ⟨nextBody, nextStored, -⟩
  refine ⟨HashChain.head genesis init, link, ?_, first, prev, ?_, _, nextBody, ?_⟩
  · intro expected count rest
    have walked := verifyFrom_append expected count initRead initChained rest 0 true
    rw [Nat.zero_add] at walked
    exact ⟨_, walked⟩
  · rw [← prev]
    exact hash
  · rw [nextStored, nextPrev]

section Edit

variable {before later : List Json} {original next replacement : Json} {start : String}
  {link : HashChain.Link ReceiptBody String} {body : ReceiptBody} {prev hash : Json}

/-- A replacement without the hashes that the walk asks for is found at its own position. -/
theorem brokenAt_replacement (around : Around before original next start link)
    (bodyEq : bodyOf replacement = .ok body) (prevEq : replacement.get? "prev_hash" = some prev)
    (hashEq : replacement.get? "hash" = some hash) (expected : Option String)
    (mismatch : ¬(prev = .str start ∧ hash = .str (computeHash start body))) :
    BrokenAt (before ++ replacement :: next :: later) expected before.length := by
  rcases around.walked expected (before ++ replacement :: next :: later).length
    (replacement :: next :: later) with ⟨policyOk, walked⟩
  unfold BrokenAt verifyChain
  rw [walked]
  by_cases prevMatches : prev = .str start
  · rw [prevMatches] at prevEq
    have wrong : hash ≠ .str (computeHash start body) := fun same => mismatch ⟨prevMatches, same⟩
    rw [verifyFrom_wrong_hash bodyEq prevEq hashEq wrong]
    exact ⟨_, rfl, rfl, rfl⟩
  · rw [verifyFrom_wrong_prev bodyEq prevEq prevMatches]
    exact ⟨_, rfl, rfl, rfl⟩

/-- A replacement with both hashes is found by the next record, which has stored the hash of
the original. -/
theorem brokenAt_next (around : Around before original next start link)
    (bodyEq : bodyOf replacement = .ok body)
    (prevEq : replacement.get? "prev_hash" = some (.str start))
    (hashEq : replacement.get? "hash" = some (.str (computeHash start body)))
    (expected : Option String)
    (apart : computeHash start link.body ≠ computeHash start body) :
    BrokenAt (before ++ replacement :: next :: later) expected (before.length + 1) := by
  rcases around.walked expected (before ++ replacement :: next :: later).length
    (replacement :: next :: later) with ⟨policyOk, walked⟩
  rcases around.next with ⟨nextBody, nextBodyEq, nextPrev⟩
  rw [around.hash] at nextPrev
  unfold BrokenAt verifyChain
  rw [walked, verifyFrom_correct bodyEq prevEq hashEq, verifyFrom_wrong_prev nextBodyEq nextPrev]
  · exact ⟨_, rfl, rfl, rfl⟩
  · intro same
    exact apart (Json.str.inj same)

/-- The replacement carries its own hash exactly when the walk accepts it. -/
theorem carriesOwnHash_iff (around : Around before original next start link)
    (bodyEq : bodyOf replacement = .ok body) (prevEq : replacement.get? "prev_hash" = some prev)
    (hashEq : replacement.get? "hash" = some hash) :
    CarriesOwnHash original replacement ↔ prev = .str start ∧ hash = .str (computeHash start body) := by
  have stored := (recordLink?_eq_some around.original).2.1
  rw [around.prev] at stored
  constructor
  · rintro ⟨own, ownRead, samePrev, ownHash⟩
    rcases recordLink?_eq_some ownRead with ⟨ownBody, ownPrev, ownStored⟩
    rw [stored, Option.some.injEq] at samePrev
    rw [bodyEq, Except.ok.injEq] at ownBody
    rw [prevEq, Option.some.injEq] at ownPrev
    rw [hashEq, Option.some.injEq] at ownStored
    rw [ownPrev, ownStored, ownHash, ← samePrev, ownBody, ← Json.str.inj samePrev]
    exact ⟨rfl, rfl⟩
  · rintro ⟨rfl, rfl⟩
    exact ⟨⟨start, body, computeHash start body⟩, recordLink?_of_reads bodyEq prevEq hashEq, stored,
      rfl⟩

end Edit

/-- The hashes of two different bodies behind one hash differ, when SHA-256 tells their inputs
apart. -/
theorem computeHash_ne {start : String} {body other : ReceiptBody} {hash otherHash : String}
    (noCollision : NoCollision [preimage ⟨start, body, hash⟩, preimage ⟨start, other, otherHash⟩])
    (differs : Differs body other) : computeHash start body ≠ computeHash start other := by
  intro same
  have inputs := noCollision (preimage ⟨start, body, hash⟩) (by simp)
    (preimage ⟨start, other, otherHash⟩) (by simp) (prefixedHash_inj.1 same)
  have length : (⟨start, body, hash⟩ : HashChain.Link ReceiptBody String).prev.toList.length =
      (⟨start, other, otherHash⟩ : HashChain.Link ReceiptBody String).prev.toList.length := rfl
  exact differs (preimage_inj length inputs).2

theorem exists_around {records : List Json} {k : ℕ} {original : Json} (inner : k + 1 < records.length)
    (found : records[k]? = some original) (replacement : Json) :
    ∃ before next later, before.length = k ∧ records = before ++ original :: next :: later ∧
      records.set k replacement = before ++ replacement :: next :: later := by
  have bound : k < records.length := by omega
  have here : records[k] = original := (List.getElem?_eq_some_iff.1 found).2
  refine ⟨records.take k, records[k + 1], records.drop (k + 2), ?_, ?_, ?_⟩
  · rw [List.length_take]
    omega
  · rw [← here, List.getElem_cons_drop, List.getElem_cons_drop, List.take_append_drop]
  · rw [List.getElem_cons_drop, List.set_eq_take_append_cons_drop, if_pos bound]

/-- **Tampering is located.** When one record but the last is replaced by one with a different
body, the verifier rejects the list at the replacement, or right behind it if the replacement
carries the hash before it and its own hash. -/
theorem tampering_located (records : List Json) (verified : Verified records) (k : ℕ)
    (inner : k + 1 < records.length) (original replacement : Json)
    (found : records[k]? = some original) (body other : ReceiptBody) (prev hash : Json)
    (bodyEq : bodyOf original = .ok body) (otherEq : bodyOf replacement = .ok other)
    (prevEq : replacement.get? "prev_hash" = some prev)
    (hashEq : replacement.get? "hash" = some hash) (differs : Differs body other)
    (noCollision : NoCollision (preimages [original, replacement])) (expected : Option String) :
    (CarriesOwnHash original replacement →
        BrokenAt (records.set k replacement) expected (k + 1)) ∧
      (¬CarriesOwnHash original replacement →
        BrokenAt (records.set k replacement) expected k) := by
  rcases exists_around inner found replacement with ⟨before, next, later, rfl, rfl, edited⟩
  rw [edited]
  rcases around_of_verified verified with ⟨start, link, around⟩
  rcases recordLink?_eq_some around.original with ⟨storedBody, storedPrev, -⟩
  rw [bodyEq, Except.ok.injEq] at storedBody
  rw [carriesOwnHash_iff around otherEq prevEq hashEq]
  constructor
  · rintro ⟨rfl, rfl⟩
    apply brokenAt_next around otherEq prevEq hashEq expected
    have readable := recordLink?_of_reads otherEq prevEq hashEq
    have inputs : preimages [original, replacement] =
        [preimage link, preimage ⟨start, other, computeHash start other⟩] := by
      simp [preimages, around.original, readable]
    rw [inputs] at noCollision
    rcases link with ⟨linkPrev, linkBody, linkHash⟩
    have prevIs : linkPrev = start := around.prev
    subst prevIs
    dsimp only at storedBody
    subst storedBody
    exact computeHash_ne noCollision differs
  · exact brokenAt_replacement around otherEq prevEq hashEq expected

/-- The first receipt under another number, with a fresh hash. -/
def renumberedReceipt : Receipt := ReceiptChain.receiptOf (.num (.int 7)) genesis holdArgs

theorem tampering_located_renumbered :
    CarriesOwnHash holdReceipt.toDict renumberedReceipt.toDict ∧
      BrokenAt (twoHolds.set 0 renumberedReceipt.toDict) none 1 := by
  have carries : CarriesOwnHash holdReceipt.toDict renumberedReceipt.toDict :=
    ⟨renumberedReceipt.link, rfl, rfl, rfl⟩
  refine ⟨carries, (tampering_located twoHolds verified_twoHolds 0 (by simp [twoHolds])
    holdReceipt.toDict renumberedReceipt.toDict rfl _ _ _ _ rfl rfl rfl rfl ?_ ?_ none).1 carries⟩
  · unfold Differs
    decide +kernel
  · apply noCollision_pair
    decide +kernel

end SumplusTrader
