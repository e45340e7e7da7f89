import SumplusTrader.Types
import SumplusTrader.Python.Dict

/-!
# The pool of RPC endpoints

This file models `agent/ops/rpc.py`: a call asks one endpoint after the other, in the configured
order, until one gives a usable response. An endpoint that fails is left out of later calls until
its cooldown is over.

The transport is outside of this development: at every contact it returns any value or raises,
and the clock is read before and after it. A pool keeps one status for each endpoint, also when
an endpoint is configured twice.
-/

namespace SumplusTrader

/-- Health and timing of one endpoint. -/
structure EndpointStatus where
  healthy : Bool
  unhealthyUntil : ℚ
  failCount : ℕ
  latencyS : Option ℚ
deriving DecidableEq

structure RpcPool where
  endpoints : List String
  timeout : ℚ
  cooldownS : ℚ
  states : Dict String EndpointStatus
  rpcId : ℕ

/-- Why the answer of an endpoint cannot be used. -/
inductive RpcFault where
  | transport (message : String)
  | notDict
  | missingVersion
  | jsonRpcError (error : Json)
  | missingResult

/-- One use of the transport, between two readings of the clock. -/
structure Reply where
  started : ℚ
  result : Except String Json
  ended : ℚ

structure Contact where
  endpoint : String
  reply : Reply

/-- A call of the pool. `now` is the reading of the clock when it starts, and the first argument
of the transport counts the contacts of the call. -/
structure RpcCall where
  method : String
  params : List Json
  now : ℚ
  transport : ℕ → String → Json → ℚ → Reply

/-- What a call leaves behind; the error carries the fault of each endpoint. -/
structure CallResult where
  pool : RpcPool
  contacts : List Contact
  outcome : Except (List (String × RpcFault)) Json

namespace RpcPool

def freshStatus : EndpointStatus := ⟨true, 0, 0, none⟩

/-- `RpcPool.__init__`. -/
def create (endpoints : List String) (timeout cooldownS : ℚ) : Except PyError RpcPool :=
  if endpoints = [] then .error (.raised "at least one RPC endpoint is required")
  else
    .ok {
      endpoints := endpoints
      timeout := timeout
      cooldownS := cooldownS
      states := Dict.ofList (endpoints.map fun url => (url, freshStatus))
      rpcId := 0 }

/-- The status of an endpoint of the pool. -/
def status (pool : RpcPool) (url : String) : EndpointStatus :=
  (pool.states.get? url).getD freshStatus

/-- `_is_available`. -/
def isAvailable (pool : RpcPool) (url : String) (now : ℚ) : Prop :=
  (pool.status url).healthy = true ∨ (pool.status url).unhealthyUntil ≤ now

instance (pool : RpcPool) (url : String) (now : ℚ) : Decidable (pool.isAvailable url now) :=
  inferInstanceAs (Decidable (_ ∨ _))

/-- `_candidate_endpoints`. -/
def candidateEndpoints (pool : RpcPool) (now : ℚ) : List String :=
  pool.endpoints.filter fun url => pool.isAvailable url now

def healthyEndpoints (pool : RpcPool) : List String :=
  pool.endpoints.filter fun url => (pool.status url).healthy

/-- `_mark_success`. -/
def markSuccess (pool : RpcPool) (url : String) (latencyS : ℚ) : RpcPool :=
  { pool with
    states := pool.states.set url
      { pool.status url with healthy := true, unhealthyUntil := 0, latencyS := some latencyS } }

/-- `_mark_failure`. -/
def markFailure (pool : RpcPool) (url : String) (now : ℚ) : RpcPool :=
  { pool with
    states := pool.states.set url
      { pool.status url with
        healthy := false
        unhealthyUntil := now + pool.cooldownS
        failCount := (pool.status url).failCount + 1 } }

/-- `_payload`. -/
def payload (rpcId : ℕ) (method : String) (params : List Json) : Json :=
  .obj [("jsonrpc", .str "2.0"), ("id", .num (.int rpcId)), ("method", .str method),
    ("params", .arr params)]

def isVersion : Json → Bool
  | .str version => version = "2.0"
  | _ => false

/-- `_validate_response`. -/
def validateResponse (response : Json) : Except RpcFault Unit :=
  match response with
  | .obj fields =>
      if ¬((Json.obj fields).get? "jsonrpc").any isVersion then .error .missingVersion
      else
        match (Json.obj fields).get? "error" with
        | some error => .error (.jsonRpcError error)
        | none =>
            if ((Json.obj fields).get? "result").isNone then .error .missingResult else .ok ()
  | _ => .error .notDict

/-- The response of one contact, when it can be used. -/
def usable (result : Except String Json) : Except RpcFault Json :=
  match result with
  | .error message => .error (.transport message)
  | .ok response => (validateResponse response).map fun _ => response

/-- Asks the endpoints one by one until a response can be used. -/
def contactEach (request : Json) (transport : ℕ → String → Json → ℚ → Reply) (pool : RpcPool)
    (count : ℕ) : List String → CallResult
  | [] => ⟨pool, [], .error []⟩
  | endpoint :: endpoints =>
      let reply := transport count endpoint request pool.timeout
      match usable reply.result with
      | .ok response =>
          ⟨pool.markSuccess endpoint (reply.ended - reply.started), [⟨endpoint, reply⟩],
            .ok response⟩
      | .error fault =>
          let rest := contactEach request transport (pool.markFailure endpoint reply.ended)
            (count + 1) endpoints
          ⟨rest.pool, ⟨endpoint, reply⟩ :: rest.contacts,
            rest.outcome.mapError fun faults => (endpoint, fault) :: faults⟩

def call (pool : RpcPool) (input : RpcCall) : CallResult :=
  let rpcId := pool.rpcId + 1
  contactEach (payload rpcId input.method input.params) input.transport
    { pool with rpcId := rpcId } 0 (pool.candidateEndpoints input.now)

/-- The pool after a sequence of calls, with the contacts of all of them. -/
def calls (pool : RpcPool) : List RpcCall → RpcPool × List Contact
  | [] => (pool, [])
  | input :: inputs =>
      let result := pool.call input
      let rest := calls result.pool inputs
      (rest.1, result.contacts ++ rest.2)

end RpcPool

end SumplusTrader
