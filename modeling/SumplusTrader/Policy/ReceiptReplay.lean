import SumplusTrader.Policy.ReceiptChain

/-!
# Replaying one receipt

This file models `api_replay` of `agent/web.py`, which recomputes the hash of one
receipt on its own. It looks the receipt up by its sequence number and takes the
predecessor by position, where `verify_chain` walks the list and never reads a
sequence number.

Both checkers ask the same of the record at a position, `LinkedAt`: that it stores
the hash before it and its own hash. So they agree on every list whose records
are numbered by their positions, and a list that is numbered otherwise is still
accepted by the verifier when its hashes match.
-/

namespace SumplusTrader

/-- `value == n` for an integer. -/
def equalsInt (value : Json) (n : ℤ) : Bool :=
  match value with
  | .num number => number.value = n
  | .bool b => (if b then 1 else 0) = n
  | _ => false

/-- The answer of `api_replay`. -/
structure ReplayReport where
  receipt : Json
  recomputedHash : String
  hashMatch : Bool
  prevLinkOk : Bool
  committedPolicyHash : String
  referencesCommitted : Bool

/-- The first record that carries a sequence number. -/
def findSeq (seq : ℤ) : List Json → Except PyError (Option Json)
  | [] => .ok none
  | record :: records => do
      let stored ← index record "seq"
      if equalsInt stored seq then
        return some record
      findSeq seq records

/-- The predecessor's hash as `api_replay` reads it: by position. -/
def replayPrev (records : List Json) (seq : ℤ) : Except PyError Json :=
  if 0 < seq ∧ seq - 1 < records.length then
    match records[(seq - 1).toNat]? with
    | some record => index record "hash"
    | none => .error .indexError
  else .ok (.str genesis)

def apiReplay (configFile : Option String) (records : List Json) (seq : ℤ) :
    Except PyError (Option ReplayReport) := do
  match ← findSeq seq records with
  | none => return none
  | some record =>
      let body ← bodyOf record
      match ← index record "prev_hash" with
      | .str prevHash =>
          let recomputed := computeHash prevHash body
          let prev ← replayPrev records seq
          let hash ← index record "hash"
          let committed ← committedPolicyHash configFile
          return some {
            receipt := record
            recomputedHash := recomputed
            hashMatch := isStr hash recomputed
            prevLinkOk := isStr prev prevHash
            committedPolicyHash := committed
            referencesCommitted := isStr body.policyHash committed }
      | _ => .error .attributeError

/-- The replay of a sequence number reports a matching hash and link. -/
def Replays (configFile : Option String) (records : List Json) (seq : ℤ) : Prop :=
  ∃ report, apiReplay configFile records seq = .ok (some report) ∧
    report.hashMatch = true ∧ report.prevLinkOk = true

/-- The records carry consecutive sequence numbers from a first one on. -/
def NumberedFrom : ℤ → List Json → Prop
  | _, [] => True
  | n, record :: records =>
      (record.get? "seq").any (equalsInt · n) = true ∧ NumberedFrom (n + 1) records

/-- The sequence numbers are the positions. -/
def InSequence (records : List Json) : Prop := NumberedFrom 0 records

/-- The hash that the record at a position has to continue from. -/
def hashBefore (start : String) (records : List Json) : ℕ → Option Json
  | 0 => some (.str start)
  | i + 1 => records[i]?.bind (·.get? "hash")

/-- The record at a position stores the hash before it and is correctly hashed. -/
def LinkedAt (start : String) (records : List Json) (i : ℕ) : Prop :=
  ∃ record link, records[i]? = some record ∧ recordLink? record = some link ∧
    link.hash = computeHash link.prev link.body ∧
    hashBefore start records i = some (.str link.prev)

theorem linkedAt_succ {start : String} {record : Json} {records : List Json} {i : ℕ}
    {link : HashChain.Link ReceiptBody String} (first : recordLink? record = some link) :
    LinkedAt start (record :: records) (i + 1) ↔ LinkedAt link.hash records i := by
  have hash := (recordLink?_eq_some first).2.2
  cases i with
  | zero => simp [LinkedAt, hashBefore, hash]
  | succ i => simp [LinkedAt, hashBefore]

/-- A list of records is a chain exactly when every position is linked. -/
theorem chained_iff_linkedAt (start : String) (records : List Json) :
    (∃ links, records.mapM recordLink? = some links ∧
        HashChain.Chained computeHash start links) ↔
      ∀ i, i < records.length → LinkedAt start records i := by
  induction records generalizing start with
  | nil => simp [HashChain.Chained, pure]
  | cons record records ih =>
      constructor
      · rintro ⟨links, read, chained⟩
        rcases exists_cons_of_mapM read with ⟨link, rest, first, others, rfl⟩
        rcases chained with ⟨prev, hash, chained⟩
        have later := (ih link.hash).1 ⟨rest, others, chained⟩
        intro i bound
        cases i with
        | zero => exact ⟨record, link, rfl, first, hash, by rw [prev]; rfl⟩
        | succ i =>
            rw [linkedAt_succ first]
            apply later i
            simpa using bound
      · intro linked
        rcases linked 0 (by simp) with ⟨found, link, at0, first, hash, prev⟩
        simp only [List.getElem?_cons_zero, Option.some.injEq] at at0
        subst at0
        have later : ∀ i, i < records.length → LinkedAt link.hash records i := by
          intro i bound
          rw [← linkedAt_succ first]
          apply linked (i + 1)
          simpa using bound
        rcases (ih link.hash).2 later with ⟨rest, others, chained⟩
        simp only [hashBefore, Option.some.injEq, Json.str.injEq] at prev
        exact ⟨link :: rest, mapM_cons_of_some first others, prev.symm, hash, chained⟩

theorem verified_iff_linkedAt (records : List Json) :
    Verified records ↔ ∀ i, i < records.length → LinkedAt genesis records i := by
  rw [verified_iff, chained_iff_linkedAt]

/-- What `verify_chain` returns as `ok` does not depend on the expected policy. -/
theorem verifyChain_ok_iff (records : List Json) (expected : Option String) :
    (verifyChain records expected).map ChainVerdict.ok = .ok true ↔ Verified records := by
  rw [verified_iff]
  constructor
  · intro accepted
    cases walked : verifyChain records expected with
    | error e => simp [walked, Except.map] at accepted
    | ok verdict =>
        simp only [walked, Except.map, Except.ok.injEq] at accepted
        exact chained_of_verifyFrom walked accepted
  · rintro ⟨links, read, chained⟩
    rw [verifyChain, verifyFrom_of_chained expected records.length read chained]
    rfl

theorem equalsInt_unique {value : Json} {n m : ℤ} (first : equalsInt value n = true)
    (second : equalsInt value m = true) : n = m := by
  cases value with
  | num number =>
      simp only [equalsInt, decide_eq_true_eq] at first second
      exact_mod_cast first.symm.trans second
  | bool b =>
      simp only [equalsInt, decide_eq_true_eq] at first second
      exact first.symm.trans second
  | _ => simp [equalsInt] at first

/-- In a numbered list the lookup by number is the lookup by position. -/
theorem findSeq_of_numberedFrom {first : ℤ} {records : List Json}
    (numbered : NumberedFrom first records) {i : ℕ} {record : Json}
    (found : records[i]? = some record) : findSeq (first + i) records = .ok (some record) := by
  induction records generalizing first i with
  | nil => simp at found
  | cons head records ih =>
      rcases numbered with ⟨carries, numbered⟩
      rcases (Option.any_eq_true _ _).1 carries with ⟨stored, storedEq, matchesFirst⟩
      have read : index head "seq" = .ok stored := index_eq_ok_iff.2 storedEq
      cases i with
      | zero =>
          simp only [List.getElem?_cons_zero, Option.some.injEq] at found
          subst found
          simp [findSeq, read, bind, Except.bind, matchesFirst, pure, Except.pure]
      | succ i =>
          have differs : equalsInt stored (first + (i + 1 : ℕ)) = false := by
            by_contra hits
            rw [Bool.not_eq_false] at hits
            have same := equalsInt_unique matchesFirst hits
            omega
          rw [findSeq, read]
          simp only [bind, Except.bind, differs, Bool.false_eq_true, if_false]
          have shifted : first + (i + 1 : ℕ) = first + 1 + (i : ℕ) := by omega
          rw [shifted]
          exact ih numbered found

theorem replayPrev_natCast {records : List Json} {i : ℕ} (bound : i < records.length)
    {value : Json} :
    replayPrev records i = .ok value ↔ hashBefore genesis records i = some value := by
  cases i with
  | zero => simp [replayPrev, hashBefore]
  | succ i =>
      have inside : 0 < ((i + 1 : ℕ) : ℤ) ∧ ((i + 1 : ℕ) : ℤ) - 1 < records.length := by omega
      have position : (((i + 1 : ℕ) : ℤ) - 1).toNat = i := by omega
      rw [replayPrev, if_pos inside, position, hashBefore]
      cases records[i]? with
      | none => simp
      | some record => exact index_eq_ok_iff

/-- In a list numbered by position a replay reports matches exactly when the
position is linked. -/
theorem replays_iff_linkedAt {configFile : Option String} {committed : String}
    (readable : committedPolicyHash configFile = .ok committed) {records : List Json}
    (inSequence : InSequence records) {i : ℕ} (bound : i < records.length) :
    Replays configFile records i ↔ LinkedAt genesis records i := by
  have found := List.getElem?_eq_getElem bound
  have looked := findSeq_of_numberedFrom inSequence found
  rw [zero_add] at looked
  constructor
  · rintro ⟨report, reported, hashMatch, prevLinkOk⟩
    rw [apiReplay] at reported
    rcases bind_eq_ok_iff.1 reported with ⟨record?, lookedUp, reported⟩
    rw [looked, Except.ok.injEq] at lookedUp
    subst lookedUp
    rcases bind_eq_ok_iff.1 reported with ⟨body, bodyEq, reported⟩
    rcases bind_eq_ok_iff.1 reported with ⟨prevHash, prevEq, reported⟩
    cases prevHash with
    | str prevHash =>
        rcases bind_eq_ok_iff.1 reported with ⟨before, beforeEq, reported⟩
        rcases bind_eq_ok_iff.1 reported with ⟨hash, hashEq, reported⟩
        rcases bind_eq_ok_iff.1 reported with ⟨committed, -, reported⟩
        cases reported
        rw [isStr_iff] at hashMatch prevLinkOk
        subst hashMatch prevLinkOk
        have link := recordLink?_of_reads bodyEq (index_eq_ok_iff.1 prevEq)
          (index_eq_ok_iff.1 hashEq)
        exact ⟨_, _, found, link, rfl, (replayPrev_natCast bound).1 beforeEq⟩
    | _ => cases reported
  · rintro ⟨record, link, at_i, stored, hash, before⟩
    rw [found, Option.some.injEq] at at_i
    rw [at_i] at looked
    rcases recordLink?_eq_some stored with ⟨bodyEq, prevEq, hashEq⟩
    let report : ReplayReport := {
      receipt := record
      recomputedHash := computeHash link.prev link.body
      hashMatch := isStr (.str link.hash) (computeHash link.prev link.body)
      prevLinkOk := isStr (.str link.prev) link.prev
      committedPolicyHash := committed
      referencesCommitted := isStr link.body.policyHash committed }
    refine ⟨report, ?_, ?_⟩
    · rw [apiReplay, looked]
      simp only [report, bind, Except.bind, bodyEq, index_eq_ok_iff.2 prevEq, index_eq_ok_iff.2 hashEq,
        (replayPrev_natCast bound).2 before, readable, pure, Except.pure]
    · simp [report, isStr, hash]

/-- **The verifier and the replays agree on numbered lists.** For every list of
records, with a committed configuration that can be read, `verify_chain` returns ok
on a list numbered by position exactly when the list is so numbered and every
replay reports a matching hash and link. -/
theorem verifyChain_and_inSequence_iff (records : List Json) (expected configFile : Option String)
    (committed : String) (readable : committedPolicyHash configFile = .ok committed) :
    ((verifyChain records expected).map ChainVerdict.ok = .ok true ∧ InSequence records) ↔
      (InSequence records ∧ ∀ seq : ℤ, 0 ≤ seq → seq < records.length →
        Replays configFile records seq) := by
  rw [verifyChain_ok_iff, verified_iff_linkedAt, and_comm]
  apply and_congr_right
  intro inSequence
  constructor
  · intro linked seq nonneg bound
    rcases Int.eq_ofNat_of_zero_le nonneg with ⟨i, rfl⟩
    have inside : i < records.length := by omega
    exact (replays_iff_linkedAt readable inSequence inside).2 (linked i inside)
  · intro replays i bound
    exact (replays_iff_linkedAt readable inSequence bound).1 (replays i (by omega) (by omega))

theorem verifyChain_and_inSequence_iff_twoHolds :
    InSequence twoHolds ∧ ∀ seq : ℤ, 0 ≤ seq → seq < 2 → Replays (some "\x7b\x7d") twoHolds seq := by
  have readable : ∃ committed, committedPolicyHash (some "\x7b\x7d") = .ok committed := ⟨_, rfl⟩
  rcases readable with ⟨committed, readable⟩
  have inSequence : InSequence twoHolds := ⟨rfl, rfl, trivial⟩
  exact (verifyChain_and_inSequence_iff twoHolds none (some "\x7b\x7d") committed readable).1
    ⟨(verifyChain_ok_iff _ _).2 verified_twoHolds, inSequence⟩

/-- A receipt that continues from the genesis value and is numbered five. -/
def shiftedRecord : Json := (ReceiptChain.receiptOf (.num (.int 5)) genesis holdArgs).toDict

/-- The verifier accepts a list that no replay finds. -/
theorem shifted_receipt_verifies :
    (verifyChain [shiftedRecord] none).map ChainVerdict.ok = .ok true ∧
      ¬(InSequence [shiftedRecord] ∧ ∀ seq : ℤ, 0 ≤ seq → seq < 1 →
        Replays (some "\x7b\x7d") [shiftedRecord] seq) := by
  constructor
  · rw [verifyChain_ok_iff]
    exact (verified_iff _).2 ⟨_, rfl, rfl, rfl, trivial⟩
  · rintro ⟨⟨carries, -⟩, -⟩
    have stored : shiftedRecord.get? "seq" = some (.num (.int 5)) := rfl
    simp [stored, equalsInt, Json.Number.value] at carries

end SumplusTrader
