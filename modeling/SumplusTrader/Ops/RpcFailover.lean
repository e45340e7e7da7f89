import SumplusTrader.Ops.RpcPool

/-!
# Failover of the RPC pool

This file gives the pool a meaning in terms of the contacts it has made. The status of an
endpoint is a function of them: it is healthy unless its last contact failed, its cooldown
runs from that failure, and the failures are counted (`Tracks`). Every contact keeps this up,
so it holds at every moment of every run, and a call can be described by the contacts before
it alone.
-/

namespace SumplusTrader

/-- A dictionary with `jsonrpc` 2.0, a result and no error. -/
structure ValidResponse (response : Json) : Prop where
  dict : ∃ fields, response = .obj fields
  version : response.get? "jsonrpc" = some (.str "2.0")
  noError : response.get? "error" = none
  result : ∃ value, response.get? "result" = some value

namespace RpcPool

theorem isVersion_iff {found : Option Json} :
    found.any isVersion = true ↔ found = some (.str "2.0") := by
  rcases found with _ | value
  · simp
  · cases value with
    | str text => simp [isVersion]
    | _ => simp [isVersion]

theorem validateResponse_eq_ok_iff (response : Json) :
    validateResponse response = .ok () ↔ ValidResponse response := by
  cases response with
  | obj fields =>
      simp only [validateResponse]
      constructor
      · intro accepted
        split at accepted
        · cases accepted
        · next version =>
          split at accepted
          · cases accepted
          · next noError =>
            split at accepted
            · cases accepted
            · next result =>
              rw [Option.isNone_iff_eq_none, ← ne_eq, Option.ne_none_iff_exists'] at result
              exact ⟨⟨fields, rfl⟩, isVersion_iff.1 (not_not.1 version), noError, result⟩
      · rintro ⟨-, version, noError, value, result⟩
        simp [isVersion_iff.2 version, noError, result]
  | _ =>
      constructor
      · intro accepted
        cases accepted
      · rintro ⟨⟨fields, shape⟩, -⟩
        cases shape

theorem usable_eq_ok_iff {result : Except String Json} {response : Json} :
    usable result = .ok response ↔ result = .ok response ∧ ValidResponse response := by
  rw [← validateResponse_eq_ok_iff]
  rcases result with message | other
  · simp [usable]
  · rcases valid : validateResponse other with fault | ⟨⟩
    · simp only [usable, valid, Except.map, reduceCtorEq, Except.ok.injEq, false_iff, not_and]
      rintro rfl
      simp [valid]
    · simp only [usable, valid, Except.map, Except.ok.injEq]
      constructor
      · rintro rfl
        exact ⟨rfl, valid⟩
      · exact And.left

end RpcPool

/-- The contact gave a valid response. -/
def Contact.Succeeds (contact : Contact) : Prop :=
  ∃ response, contact.reply.result = .ok response ∧ ValidResponse response

theorem Contact.succeeds_iff (contact : Contact) :
    contact.Succeeds ↔ ∃ response, RpcPool.usable contact.reply.result = .ok response :=
  exists_congr fun _ => RpcPool.usable_eq_ok_iff.symm

instance (contact : Contact) : Decidable contact.Succeeds :=
  decidable_of_iff ((RpcPool.usable contact.reply.result).toOption.isSome = true) (by
    rw [contact.succeeds_iff]
    rcases RpcPool.usable contact.reply.result with fault | response
    · simp [Except.toOption]
    · simp [Except.toOption])

/-- The contacts of one endpoint. -/
def contactsOf (url : String) (history : List Contact) : List Contact :=
  history.filter fun contact => contact.endpoint = url

/-- The endpoint was never contacted, or its last contact succeeded. -/
def WasHealthy (url : String) (history : List Contact) : Prop :=
  ∀ last ∈ (contactsOf url history).getLast?, last.Succeeds

instance (url : String) (history : List Contact) : Decidable (WasHealthy url history) :=
  inferInstanceAs (Decidable (∀ last ∈ (contactsOf url history).getLast?, last.Succeeds))

/-- The endpoint was healthy, or the cooldown of its last contact is over. -/
def WasAvailable (cooldownS : ℚ) (url : String) (history : List Contact) (now : ℚ) : Prop :=
  ∀ last ∈ (contactsOf url history).getLast?,
    last.Succeeds ∨ last.reply.ended + cooldownS ≤ now

instance (cooldownS : ℚ) (url : String) (history : List Contact) (now : ℚ) :
    Decidable (WasAvailable cooldownS url history now) :=
  inferInstanceAs (Decidable (∀ last ∈ (contactsOf url history).getLast?,
    last.Succeeds ∨ last.reply.ended + cooldownS ≤ now))

def failures (url : String) (history : List Contact) : ℕ :=
  ((contactsOf url history).filter fun contact => ¬contact.Succeeds).length

/-- The status of every endpoint is what its contacts make of it. -/
structure Tracks (history : List Contact) (pool : RpcPool) : Prop where
  healthy : ∀ url, (pool.status url).healthy = true ↔ WasHealthy url history
  cooling : ∀ url, ∀ last ∈ (contactsOf url history).getLast?, ¬last.Succeeds →
    (pool.status url).unhealthyUntil = last.reply.ended + pool.cooldownS
  failCount : ∀ url, (pool.status url).failCount = failures url history

namespace RpcPool

/-- The pool after one contact. -/
def afterContact (pool : RpcPool) (contact : Contact) : RpcPool :=
  if contact.Succeeds then
    pool.markSuccess contact.endpoint (contact.reply.ended - contact.reply.started)
  else pool.markFailure contact.endpoint contact.reply.ended

section Step

variable {history : List Contact} {pool : RpcPool} {contact : Contact}

theorem contactsOf_concat (url : String) (history : List Contact) (contact : Contact) :
    contactsOf url (history ++ [contact]) =
      if contact.endpoint = url then contactsOf url history ++ [contact]
      else contactsOf url history := by
  unfold contactsOf
  rw [List.filter_append, List.filter_singleton]
  split
  · next same => simp [same]
  · next apart => simp [apart]

theorem status_set (pool : RpcPool) (url other : String) (status : EndpointStatus) :
    ({ pool with states := pool.states.set url status } : RpcPool).status other =
      if other = url then status else pool.status other := by
  unfold RpcPool.status
  dsimp only
  rw [Dict.get?_set]
  split
  · rfl
  · rfl

/-- What a contact does to the status of each endpoint. -/
theorem status_afterContact (pool : RpcPool) (contact : Contact) (url : String) :
    (pool.afterContact contact).status url =
      if url = contact.endpoint then
        if contact.Succeeds then
          { pool.status url with
            healthy := true
            unhealthyUntil := 0
            latencyS := some (contact.reply.ended - contact.reply.started) }
        else
          { pool.status url with
            healthy := false
            unhealthyUntil := contact.reply.ended + pool.cooldownS
            failCount := (pool.status url).failCount + 1 }
      else pool.status url := by
  unfold afterContact
  by_cases succeeds : contact.Succeeds
  · rw [if_pos succeeds, markSuccess, status_set]
    split
    · next same => rw [same]
    · rfl
  · rw [if_neg succeeds, markFailure, status_set]
    split
    · next same => rw [same]
    · rfl

theorem cooldownS_afterContact (pool : RpcPool) (contact : Contact) :
    (pool.afterContact contact).cooldownS = pool.cooldownS := by
  unfold afterContact
  split
  · rfl
  · rfl

theorem endpoints_afterContact (pool : RpcPool) (contact : Contact) :
    (pool.afterContact contact).endpoints = pool.endpoints := by
  unfold afterContact
  split
  · rfl
  · rfl

/-- A contact keeps the statuses up to date. -/
theorem tracks_afterContact (tracks : Tracks history pool) (contact : Contact) :
    Tracks (history ++ [contact]) (pool.afterContact contact) := by
  constructor
  · intro url
    rw [status_afterContact, WasHealthy, contactsOf_concat]
    by_cases same : url = contact.endpoint
    · subst same
      simp only [if_true, List.getLast?_concat, Option.mem_def, Option.some.injEq, forall_eq']
      split
      · next succeeds => simp [succeeds]
      · next fails => simp [fails]
    · rw [if_neg same, if_neg (Ne.symm same)]
      exact tracks.healthy url
  · intro url last mem fails
    rw [contactsOf_concat] at mem
    rw [status_afterContact, cooldownS_afterContact]
    by_cases same : url = contact.endpoint
    · subst same
      simp only [if_true, List.getLast?_concat, Option.mem_def, Option.some.injEq] at mem
      subst mem
      simp [fails]
    · rw [if_neg (Ne.symm same)] at mem
      rw [if_neg same]
      exact tracks.cooling url last mem fails
  · intro url
    have before := tracks.failCount url
    unfold failures at before ⊢
    rw [status_afterContact, contactsOf_concat]
    by_cases same : url = contact.endpoint
    · subst same
      simp only [if_true, List.filter_append, List.length_append, ← before]
      split
      · next succeeds => simp [succeeds]
      · next fails => simp [fails]
    · rw [if_neg same, if_neg (Ne.symm same)]
      exact before

end Step

/-- The outcome of a call, by its contacts: the response of the last one, or no valid response. -/
structure Answers (contacts : List Contact)
    (outcome : Except (List (String × RpcFault)) Json) : Prop where
  returns : ∀ response, outcome = .ok response → ∃ failed last, contacts = failed ++ [last] ∧
    (∀ contact ∈ failed, ¬contact.Succeeds) ∧ last.reply.result = .ok response ∧
    ValidResponse response
  raises : (∃ faults, outcome = .error faults) ↔ ∀ contact ∈ contacts, ¬contact.Succeeds

section Call

variable {request : Json} {transport : ℕ → String → Json → ℚ → Reply} {pool : RpcPool}
  {count : ℕ} {endpoint : String} {endpoints : List String}

theorem contactEach_of_usable {response : Json}
    (found : usable (transport count endpoint request pool.timeout).result = .ok response) :
    contactEach request transport pool count (endpoint :: endpoints) =
      ⟨pool.afterContact ⟨endpoint, transport count endpoint request pool.timeout⟩,
        [⟨endpoint, transport count endpoint request pool.timeout⟩], .ok response⟩ := by
  have succeeds : Contact.Succeeds ⟨endpoint, transport count endpoint request pool.timeout⟩ :=
    (Contact.succeeds_iff _).2 ⟨response, found⟩
  simp only [contactEach, found, afterContact, succeeds, if_true]

theorem contactEach_of_fault {fault : RpcFault}
    (found : usable (transport count endpoint request pool.timeout).result = .error fault) :
    ¬Contact.Succeeds ⟨endpoint, transport count endpoint request pool.timeout⟩ ∧
      ∃ rest, contactEach request transport
          (pool.afterContact ⟨endpoint, transport count endpoint request pool.timeout⟩) (count + 1)
          endpoints = rest ∧
        contactEach request transport pool count (endpoint :: endpoints) =
          ⟨rest.pool, ⟨endpoint, transport count endpoint request pool.timeout⟩ :: rest.contacts,
            rest.outcome.mapError fun faults => (endpoint, fault) :: faults⟩ := by
  have fails : ¬Contact.Succeeds ⟨endpoint, transport count endpoint request pool.timeout⟩ := by
    rw [Contact.succeeds_iff]
    rintro ⟨response, other⟩
    rw [found] at other
    cases other
  refine ⟨fails, _, rfl, ?_⟩
  simp only [contactEach, found, afterContact, fails, if_false]

theorem pool_contactEach (request : Json) (transport : ℕ → String → Json → ℚ → Reply)
    (pool : RpcPool) (count : ℕ) (endpoints : List String) :
    (contactEach request transport pool count endpoints).pool =
      (contactEach request transport pool count endpoints).contacts.foldl afterContact pool := by
  induction endpoints generalizing pool count with
  | nil => rfl
  | cons endpoint endpoints ih =>
      rcases found : usable (transport count endpoint request pool.timeout).result with
        fault | response
      · rcases @contactEach_of_fault _ _ _ _ _ endpoints _ found with ⟨-, rest, rfl, shown⟩
        rw [shown]
        exact ih _ _
      · rw [contactEach_of_usable found]
        rfl

theorem contacts_prefix (request : Json) (transport : ℕ → String → Json → ℚ → Reply)
    (pool : RpcPool) (count : ℕ) (endpoints : List String) :
    (contactEach request transport pool count endpoints).contacts.map Contact.endpoint <+:
      endpoints := by
  induction endpoints generalizing pool count with
  | nil => exact List.prefix_refl _
  | cons endpoint endpoints ih =>
      rcases found : usable (transport count endpoint request pool.timeout).result with
        fault | response
      · rcases @contactEach_of_fault _ _ _ _ _ endpoints _ found with ⟨-, rest, rfl, shown⟩
        rw [shown]
        exact (List.prefix_cons_inj endpoint).2 (ih _ _)
      · rw [contactEach_of_usable found]
        exact ⟨endpoints, rfl⟩

/-- A call that raises has asked every candidate. -/
theorem contacts_of_raised {faults : List (String × RpcFault)}
    (raised : (contactEach request transport pool count endpoints).outcome = .error faults) :
    (contactEach request transport pool count endpoints).contacts.map Contact.endpoint =
      endpoints := by
  induction endpoints generalizing pool count faults with
  | nil => rfl
  | cons endpoint endpoints ih =>
      rcases found : usable (transport count endpoint request pool.timeout).result with
        fault | response
      · rcases @contactEach_of_fault _ _ _ _ _ endpoints _ found with ⟨-, rest, rfl, shown⟩
        rw [shown] at raised ⊢
        rcases ended : (contactEach request transport (pool.afterContact
            ⟨endpoint, transport count endpoint request pool.timeout⟩) (count + 1)
            endpoints).outcome with later | response
        · exact congrArg (endpoint :: ·) (ih ended)
        · simp [ended, Except.mapError] at raised
      · rw [contactEach_of_usable found] at raised
        cases raised

theorem answers_contactEach (request : Json) (transport : ℕ → String → Json → ℚ → Reply)
    (pool : RpcPool) (count : ℕ) (endpoints : List String) :
    Answers (contactEach request transport pool count endpoints).contacts
      (contactEach request transport pool count endpoints).outcome := by
  induction endpoints generalizing pool count with
  | nil =>
      constructor
      · intro response ended
        cases ended
      · exact ⟨fun _ => List.forall_mem_nil _, fun _ => ⟨[], rfl⟩⟩
  | cons endpoint endpoints ih =>
      rcases found : usable (transport count endpoint request pool.timeout).result with
        fault | response
      · rcases @contactEach_of_fault _ _ _ _ _ endpoints _ found with
          ⟨fails, rest, same, shown⟩
        have later := ih (pool.afterContact
          ⟨endpoint, transport count endpoint request pool.timeout⟩) (count + 1)
        rw [same] at later
        rw [shown]
        rcases rest with ⟨after, contacts, faults | response⟩
        · constructor
          · intro response ended
            cases ended
          · refine ⟨fun _ => ?_, fun _ => ⟨_, rfl⟩⟩
            exact List.forall_mem_cons.2 ⟨fails, later.raises.1 ⟨faults, rfl⟩⟩
        · rcases later.returns response rfl with ⟨failed, last, rfl, before, given, valid⟩
          constructor
          · rintro other ⟨⟩
            exact ⟨_ :: failed, last, rfl, List.forall_mem_cons.2 ⟨fails, before⟩, given, valid⟩
          · constructor
            · rintro ⟨faults, ⟨⟩⟩
            · intro none
              have succeeds : last.Succeeds := ⟨response, given, valid⟩
              exact absurd succeeds (none last (by simp))
      · rw [contactEach_of_usable found]
        rcases usable_eq_ok_iff.1 found with ⟨given, valid⟩
        constructor
        · rintro other ⟨⟩
          exact ⟨[], _, rfl, by simp, given, valid⟩
        · constructor
          · rintro ⟨faults, ⟨⟩⟩
          · intro none
            exact absurd ⟨response, given, valid⟩ (none _ (List.mem_singleton_self _))

end Call

/-- The pool reports the endpoints whose last contact did not fail, and counts the failures. -/
structure Reports (endpoints : List String) (history : List Contact) (pool : RpcPool) : Prop where
  healthyEndpoints : pool.healthyEndpoints = endpoints.filter fun url => WasHealthy url history
  failCount : ∀ url, (pool.status url).failCount = failures url history

/-- What a call does, in terms of the contacts before it. `after` is the pool that it leaves
behind, and `contacts` are its own. -/
structure FailsOver (endpoints : List String) (cooldownS : ℚ) (before : RpcPool)
    (history : List Contact) (input : RpcCall) (result : CallResult) : Prop where
  inOrder : result.contacts.map Contact.endpoint <+:
    endpoints.filter fun url => WasAvailable cooldownS url history input.now
  answers : Answers result.contacts result.outcome
  exhausts : (∃ faults, result.outcome = .error faults) →
    result.contacts.map Contact.endpoint =
      endpoints.filter fun url => WasAvailable cooldownS url history input.now
  after : result.pool =
    result.contacts.foldl afterContact { before with rpcId := before.rpcId + 1 }
  moments : ∀ made, made <+: result.contacts → Reports endpoints (history ++ made)
    (made.foldl afterContact { before with rpcId := before.rpcId + 1 })

/-- A pool that the contacts account for. -/
structure Accounted (endpoints : List String) (cooldownS : ℚ) (history : List Contact)
    (pool : RpcPool) : Prop where
  endpoints_eq : pool.endpoints = endpoints
  cooldownS_eq : pool.cooldownS = cooldownS
  tracks : Tracks history pool

section Run

variable {endpoints : List String} {cooldownS : ℚ} {history : List Contact} {pool : RpcPool}

theorem Accounted.afterContact (accounted : Accounted endpoints cooldownS history pool)
    (contact : Contact) :
    Accounted endpoints cooldownS (history ++ [contact]) (pool.afterContact contact) := by
  refine ⟨?_, ?_, tracks_afterContact accounted.tracks contact⟩
  · rw [endpoints_afterContact, accounted.endpoints_eq]
  · rw [cooldownS_afterContact, accounted.cooldownS_eq]

theorem Accounted.foldl (accounted : Accounted endpoints cooldownS history pool)
    (contacts : List Contact) :
    Accounted endpoints cooldownS (history ++ contacts)
      (contacts.foldl RpcPool.afterContact pool) := by
  induction contacts generalizing history pool with
  | nil => rwa [List.append_nil]
  | cons contact contacts ih =>
      rw [List.append_cons]
      exact ih (accounted.afterContact contact)

theorem Accounted.renumber (accounted : Accounted endpoints cooldownS history pool) (rpcId : ℕ) :
    Accounted endpoints cooldownS history { pool with rpcId := rpcId } :=
  ⟨accounted.endpoints_eq, accounted.cooldownS_eq, accounted.tracks.healthy,
    accounted.tracks.cooling, accounted.tracks.failCount⟩

theorem Accounted.reports (accounted : Accounted endpoints cooldownS history pool) :
    Reports endpoints history pool := by
  refine ⟨?_, accounted.tracks.failCount⟩
  rw [RpcPool.healthyEndpoints, accounted.endpoints_eq]
  apply List.filter_congr
  intro url _
  rw [Bool.eq_iff_iff, decide_eq_true_iff]
  exact accounted.tracks.healthy url

theorem Accounted.candidateEndpoints (accounted : Accounted endpoints cooldownS history pool)
    (now : ℚ) :
    pool.candidateEndpoints now =
      endpoints.filter fun url => WasAvailable cooldownS url history now := by
  rw [RpcPool.candidateEndpoints, accounted.endpoints_eq]
  apply List.filter_congr
  intro url _
  rw [decide_eq_decide]
  have healthy := accounted.tracks.healthy url
  have cooling := accounted.tracks.cooling url
  unfold isAvailable WasAvailable
  rw [healthy, WasHealthy]
  rcases found : (contactsOf url history).getLast? with _ | last
  · simp
  · simp only [Option.mem_def, Option.some.injEq, forall_eq']
    by_cases succeeds : last.Succeeds
    · simp [succeeds]
    · rw [cooling last found succeeds, accounted.cooldownS_eq]

theorem accounted_create {timeout : ℚ}
    (created : create endpoints timeout cooldownS = .ok pool) :
    Accounted endpoints cooldownS [] pool := by
  unfold create at created
  split at created
  · cases created
  · cases created
    have fresh : ∀ url, RpcPool.status
        ⟨endpoints, timeout, cooldownS, Dict.ofList (endpoints.map fun url => (url, freshStatus)), 0⟩
        url = freshStatus := by
      intro url
      unfold RpcPool.status
      rcases found : Dict.get? (Dict.ofList (endpoints.map fun url => (url, freshStatus))) url with
        _ | status
      · rfl
      · rw [Option.getD_some]
        rw [Dict.get?_ofList, ← List.map_reverse] at found
        have mem := Dict.mem_of_lookup found
        rcases List.mem_map.1 mem with ⟨other, -, same⟩
        exact (Prod.mk.inj same).2.symm
    refine ⟨rfl, rfl, ?_, ?_, ?_⟩
    · intro url
      rw [fresh]
      simp [freshStatus, WasHealthy, contactsOf]
    · intro url last mem
      cases mem
    · intro url
      rw [fresh]
      rfl

/-- One call keeps the account, and fails over as its contacts say. -/
theorem Accounted.call (accounted : Accounted endpoints cooldownS history pool)
    (input : RpcCall) :
    Accounted endpoints cooldownS (history ++ (pool.call input).contacts)
        (pool.call input).pool ∧
      FailsOver endpoints cooldownS pool history input (pool.call input) := by
  have after := pool_contactEach (payload (pool.rpcId + 1) input.method input.params)
    input.transport { pool with rpcId := pool.rpcId + 1 } 0 (pool.candidateEndpoints input.now)
  have numbered := accounted.renumber (pool.rpcId + 1)
  constructor
  · rw [RpcPool.call, after]
    exact numbered.foldl _
  · constructor
    · rw [← accounted.candidateEndpoints]
      exact contacts_prefix _ _ _ _ _
    · exact answers_contactEach _ _ _ _ _
    · rintro ⟨faults, raised⟩
      rw [← accounted.candidateEndpoints]
      exact contacts_of_raised raised
    · exact after
    · intro made _
      exact (numbered.foldl made).reports

theorem Accounted.calls (accounted : Accounted endpoints cooldownS history pool)
    (inputs : List RpcCall) :
    Accounted endpoints cooldownS (history ++ (pool.calls inputs).2) (pool.calls inputs).1 := by
  induction inputs generalizing history pool with
  | nil => rwa [RpcPool.calls, List.append_nil]
  | cons input inputs ih =>
      rw [RpcPool.calls, ← List.append_assoc]
      exact ih (accounted.call input).1

end Run

/-- **Failover of the RPC pool.** After every sequence of calls, the next call asks the endpoints
that are healthy or past their cooldown, in their order, up to the first valid response, and at
every moment of it the pool reports what its contacts say. -/
theorem rpc_failover (endpoints : List String) (timeout cooldownS : ℚ) (start : RpcPool)
    (created : create endpoints timeout cooldownS = .ok start) (earlier : List RpcCall)
    (input : RpcCall) :
    FailsOver endpoints cooldownS (start.calls earlier).1 (start.calls earlier).2 input
      ((start.calls earlier).1.call input) := by
  have accounted := (accounted_create created).calls earlier
  rw [List.nil_append] at accounted
  exact (accounted.call input).2

/-- A chain id from every endpoint but the first, a second after the start. -/
def chainIdCall (now : ℚ) : RpcCall where
  method := "eth_chainId"
  params := []
  now := now
  transport := fun _ endpoint _ _ => {
    started := now
    result :=
      if endpoint = "https://bad" then .error "down"
      else .ok (.obj [("jsonrpc", .str "2.0"), ("id", .num (.int 1)), ("result", .str "0x1")])
    ended := now + 1 }

def pairPool : RpcPool where
  endpoints := ["https://bad", "https://good"]
  timeout := 8
  cooldownS := 30
  states := Dict.ofList (["https://bad", "https://good"].map fun url => (url, freshStatus))
  rpcId := 0

/-- The second call leaves the endpoint out that failed in the first one. -/
theorem rpc_failover_pairPool :
    FailsOver ["https://bad", "https://good"] 30 (pairPool.calls [chainIdCall 0]).1
      (pairPool.calls [chainIdCall 0]).2 (chainIdCall 2)
      ((pairPool.calls [chainIdCall 0]).1.call (chainIdCall 2)) :=
  rpc_failover _ 8 30 pairPool rfl [chainIdCall 0] (chainIdCall 2)

example : ((pairPool.calls [chainIdCall 0]).1.call (chainIdCall 2)).contacts.map
    Contact.endpoint = ["https://good"] := by
  decide +kernel

end RpcPool

end SumplusTrader
