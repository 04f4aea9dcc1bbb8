import BlindPass.Broker.Outbox.Retention

/-!
# Requests of workloads

A workload asks the broker for an operation, consumes a grant, or cancels what it asked for. The
broker authorizes the peer by its unit, its account and its invocation, and keeps for each request
who made it. A browser request may name a retry key: the same request made again under that key
gets the same answer, and a key may be cancelled before its request comes.
-/

namespace BlindPass.Broker

open Fleet (Value Grant isValidEventKey isValidOpaqueId)
open Command (fail lift modify)

/-! ### Peers -/

/-- The peer of a socket, as the kernel and the system manager identify it. -/
structure PeerIdentity where
  uid : ℕ
  pidfdSupported : Bool
  unit : Option String
  invocationId : Option String
  account : Option String
  deriving DecidableEq

/-- What the peer says it is and what it wants. -/
structure WorkloadRequest where
  nodeId : String
  workloadId : String
  claimedUnit : String
  claimedInvocationId : String
  operation : String
  deriving DecidableEq

/-- A text of at most so many bytes without control characters and blanks. -/
def isValidWord (limit : ℕ) (value : String) : Bool :=
  !value.isEmpty && value.utf8ByteSize ≤ limit &&
    value.toList.all fun c => 32 < c.toNat && c.toNat != 127

def validateName (value field : String) : Except String Unit :=
  if isValidWord 256 value then .ok () else .error ("invalid_request:" ++ field)

def validateOperation (value : String) : Except String Unit :=
  if isValidWord 2048 value then .ok () else .error "invalid_request:operation"

/-- The only registration of the node for a unit. -/
def soleRegistration (registrations : List WorkloadRegistration) (nodeId unit : String) :
    Except String WorkloadRegistration :=
  match registrations.filter fun r => r.nodeId == nodeId && r.unit == unit with
  | [] => .error "unknown_registration"
  | [registration] => .ok registration
  | _ => .error "ambiguous_registration"

/-- A reading that the host must support. -/
def supported {α : Type} (value : Option α) (reason : String) : Except String α :=
  value.elim (.error ("unsupported_host:" ++ reason)) .ok

def authorizeWorkload (peer : PeerIdentity) (request : WorkloadRequest)
    (registrations : List WorkloadRegistration) : Except String WorkloadAuthorization := do
  if !peer.pidfdSupported then .error "unsupported_host:SO_PEERPIDFD unavailable"
  else if peer.uid = 0 then
    .error "permission_denied:workload socket rejects root and broker peers"
  else
    validateName request.nodeId "node"
    validateName request.workloadId "workload"
    validateName request.claimedUnit "unit"
    validateName request.claimedInvocationId "invocation"
    validateOperation request.operation
    let unit ← supported peer.unit "system unit lookup failed"
    let invocationId ← supported (peer.invocationId.filter fun id => !id.isEmpty)
      "invocation lookup failed"
    let account ← supported peer.account "account lookup failed"
    if request.claimedUnit ≠ unit ∨ request.claimedInvocationId ≠ invocationId then
      .error "binding_mismatch:self-reported unit or invocation differs from OS identity"
    else
      let registration ← soleRegistration registrations request.nodeId unit
      if registration.account ≠ account ∨
          registration.invocationId.any (fun expected => expected != invocationId) then
        .error "unknown_registration"
      else if registration.workloadId ≠ request.workloadId then .error "workload_mismatch"
      else
        return ⟨registration.nodeId, registration.workloadId, registration.unit, invocationId,
          request.operation⟩

/-! ### The metadata of a request -/

def forbiddenPurposeCharacter (c : Char) : Bool :=
  let n := c.toNat
  -- the control characters
  n ≤ 0x1f || (0x7f ≤ n && n ≤ 0x9f) ||
    -- characters that hide, reorder or break text
    n == 0xad || n == 0x61c || (0x200b ≤ n && n ≤ 0x200f) || (0x2028 ≤ n && n ≤ 0x2029) ||
    (0x202a ≤ n && n ≤ 0x202e) || (0x2060 ≤ n && n ≤ 0x2064) || (0x2066 ≤ n && n ≤ 0x2069) ||
    n == 0xfeff

structure RequestInput where
  action : String
  mode : ConsumptionMode
  purpose : String
  resourceId : String
  ttlSeconds : ℕ
  requestKey : Option String
  deriving DecidableEq

namespace RequestInput

/-- The retry key of an input, for browser sessions only. -/
def readRequestKey (v : Value) (action : String) (mode : ConsumptionMode) : Option (Option String) :=
  match v.get "request_key" with
  | none => some none
  | some (.string key) =>
    if isValidEventKey key && action == "browser.session" && mode == .browserSession then
      some (some key)
    else none
  | some _ => none

/-- The fields of an input. -/
def ofValue (v : Value) : Option RequestInput := do
  guard (v.asObject.any fun fields => fields.length == 5 || fields.length == 6)
  guard (v.asObject.any fun fields => fields.all fun f =>
    ["action", "mode", "purpose", "resource_id", "ttl_seconds", "request_key"].contains f.1)
  let action ← (v.str "action").filter ["noop.marker", "browser.session"].contains
  let mode ← (v.str "mode").bind ConsumptionMode.parse
  let purpose ← (v.str "purpose").filter fun purpose =>
    purpose.utf8ByteSize ≤ 512 && !purpose.toList.any forbiddenPurposeCharacter
  let resourceId ← (v.str "resource_id").filter isValidOpaqueId
  let ttlSeconds ← (v.u64 "ttl_seconds").filter fun seconds => 1 ≤ seconds && seconds ≤ 3600
  let requestKey ← readRequestKey v action mode
  return { action, mode, purpose, resourceId, ttlSeconds, requestKey }

/-- The value an encoded input stands for. -/
def decode (encoded : String) : Option Value := do
  guard (!encoded.isEmpty && encoded.utf8ByteSize ≤ 1536)
  let bytes ← Fleet.base64UrlDecode encoded.toList (encoded.utf8ByteSize * 3 / 4)
  let source ← Utf8.decode? bytes
  (Canon.parseJson (String.ofList source)).toOption

def parse (encoded : String) : Except String RequestInput :=
  match (decode encoded).bind ofValue with
  | none => .error "invalid_operation_request"
  | some input => .ok input

end RequestInput

/-! ### Bindings -/

section

variable (H : Hash)

def BrowserResource.recipeFingerprint (r : BrowserResource) : Except String String :=
  match Canon.canonicalizeValue r.recipe with
  | .error _ => .error "invalid browser resource"
  | .ok bytes => .ok (Fleet.hex (H.sha256 bytes))

/-- `select` -/
def selectResource (catalog : Option (List BrowserResource)) (workloadId resourceId : String) :
    Option BrowserResource :=
  catalog.bind fun resources => resources.find? fun r =>
    r.resourceId == resourceId && r.workloadIds.contains workloadId

def RequestInput.browserBinding (input : RequestInput) (owner : WorkloadAuthorization)
    (account : String) (resource : BrowserResource) : Except String BrowserRequestBinding := do
  let recipe ← resource.recipeFingerprint H
  let value := Value.object
    [("node_id", .string owner.nodeId), ("workload_id", .string owner.workloadId),
      ("unit", .string owner.unit), ("invocation_id", .string owner.invocationId),
      ("account", .string account), ("recipe_fingerprint", .string recipe),
      ("action", .string input.action), ("mode", .string input.mode.asStr),
      ("purpose", .string input.purpose), ("resource_id", .string input.resourceId),
      ("ttl_seconds", .unsigned input.ttlSeconds)]
  let bytes ← (Canon.canonicalizeValue value).mapError fun _ => "invalid_operation_request"
  return {
    nodeId := owner.nodeId
    unit := owner.unit
    requestKey := input.requestKey
    fingerprint := some (Fleet.hex
      (H.sha256 (Utf8.encode "blindpass:browser-request:v1".toList ++ [0] ++ bytes)))
    resourceId := some input.resourceId
    recipeFingerprint := some recipe }

namespace BrokerState

variable (s : BrokerState) (authorization : WorkloadAuthorization)

def browserRequestBinding (input : RequestInput) : Except String BrowserRequestBinding :=
  match s.fleet.registrations[authorization.workloadId]?,
      selectResource s.catalog authorization.workloadId input.resourceId with
  | some registration, some resource =>
    input.browserBinding H authorization registration.account resource
  | _, _ => .error "operation_request_conflict"

/-- The record made under a retry key. -/
def requestKeyOwner? (authorization : WorkloadAuthorization) (requestKey : String) :
    Option (String × OperationRequestOwner) :=
  s.owners.values.toList.find? fun e =>
    e.2.retryKey == some (authorization.nodeId, authorization.workloadId, requestKey)

def findBrowserRequestKey (requestKey : String) :
    Except String (Option (String × OperationRequestOwner)) :=
  match s.requestKeyOwner? authorization requestKey with
  | none => .ok none
  | some (key, owner) =>
    if owner.invocationId ≠ authorization.invocationId ∨
        (owner.browserRequest.map BrowserRequestBinding.unit) ≠ some authorization.unit then
      .error "operation_request_denied"
    else .ok (some (key, owner))

/-- A browser session is within what the node and the workload may do. -/
def supportsBrowserSession (input : RequestInput)
    (registration : Fleet.Registration) (policy : Fleet.PolicySnapshot) : Bool :=
  input.ttlSeconds ≤ 120 && input.ttlSeconds ≤ policy.localCeilingSeconds &&
    registration.policyVersion == policy.policyVersion &&
    registration.nodeId == authorization.nodeId && registration.unit == authorization.unit &&
    (s.fleet.workloads.any fun w =>
      w.nodeId == authorization.nodeId && w.workloadId == authorization.workloadId &&
        w.unit == authorization.unit && w.account == registration.account) &&
    registration.invocationId.all (· == authorization.invocationId) &&
    (selectResource s.catalog authorization.workloadId input.resourceId).isSome

/-- The action and mode of an input are supported. -/
def supportsRequest (input : RequestInput)
    (registration : Fleet.Registration) (policy : Fleet.PolicySnapshot) : Bool :=
  match input.action, input.mode with
  | "noop.marker", .file | "noop.marker", .socket => true
  | "browser.session", .browserSession =>
    s.supportsBrowserSession authorization input registration policy
  | _, _ => false

/-- The body of the event a request is reported with. -/
def requestBody (input : RequestInput) (account : String)
    (observedAtMs : ℕ) : Value := .object
  ([("account", .string account), ("action", .string input.action),
    ("invocation_id", .string authorization.invocationId), ("mode", .string input.mode.asStr),
    ("node_id", .string authorization.nodeId), ("observed_at_ms", .unsigned observedAtMs),
    ("purpose", .string input.purpose), ("resource_id", .string input.resourceId),
    ("ttl_seconds", .unsigned input.ttlSeconds), ("unit", .string authorization.unit),
    ("workload_id", .string authorization.workloadId)] ++
    if input.mode = .browserSession then [("request_version", .unsigned 2)] else [])

/-- `operation_request_body`, of an input already parsed. -/
def operationRequestBody (input : RequestInput) : Except String Value :=
  match s.fleet.registrations[authorization.workloadId]?.filter fun r => r.status == "active" with
  | none => .error "workload registration is unavailable"
  | some registration =>
    match s.fleet.policy with
    | none => .error "fleet policy is unavailable"
    | some policy =>
      if input.mode ≠ registration.consumptionMode ∨
          !s.supportsRequest authorization input registration policy ∨
          registration.localCeilingSeconds < input.ttlSeconds ∨
          !policy.allowedActions.contains input.action ∨
          !policy.allowedModes.contains input.mode then
        .error "operation request is denied by local policy"
      else
        match s.controllerTimeMs with
        | none => .error "fresh controller time is unavailable"
        | some observedAtMs =>
          .ok (requestBody authorization input registration.account observedAtMs)

/-- The binding of a request, for browser sessions. -/
def requestBinding? (authorization : WorkloadAuthorization) (input : RequestInput) :
    Except String (Option BrowserRequestBinding) :=
  if input.mode = .browserSession then
    (s.browserRequestBinding H authorization input).map some
  else .ok none

end BrokerState

variable (authorization : WorkloadAuthorization)

/-! ### Operations -/

/-- Refuse a request that the queue has no room for. -/
def refuseForBackpressure {α : Type} : Operation α := do
  flagAuditOverflow H
  fail "audit_backpressure"

/-- Make the record and the event of a request, or neither. -/
def admitRequest (input : RequestInput) (body : Value)
    (binding : Option BrowserRequestBinding) : Operation String := do
  let key ← newNodeEventKey
  modify fun s => { s with
    events := s.events ++ [⟨key, .operationRequest, body⟩]
    owners := s.owners.insert key {
      workloadId := authorization.workloadId
      invocationId := authorization.invocationId
      mode := some input.mode
      cancelRequested := false
      cancelAcknowledged := false
      browserRequest := binding } }
  (persistPendingNodeEvents H).onFailure fun s => { s with
    events := s.events.dropLast, owners := s.owners.remove key }
  return "OK operation_request " ++ key

/-- The branch of `process_workload` for new requests. -/
def requestOperation (encoded : String) : Operation String := do
  let s ← Command.get
  if maxBrokerAuditEvents ≤ s.events.length then refuseForBackpressure H
  else
    let input ← lift (RequestInput.parse encoded)
    let body ← lift (s.operationRequestBody authorization input)
    let binding ← lift (s.requestBinding? H authorization input)
    -- only a request that passed every check may evict finished ones
    ensureOperationOwnerCapacity H
    admitRequest H authorization input body binding

/-- The answer to a request made again under its retry key. -/
def BrokerState.answerRetry (s : BrokerState) (authorization : WorkloadAuthorization)
    (input : RequestInput) (key : String) (owner : OperationRequestOwner) : Except String String :=
  if owner.isWithdrawal then .error "operation_request_cancelled"
  else
    match s.browserRequestBinding H authorization input with
    | .error e => .error e
    | .ok binding =>
      if owner.browserRequest ≠ some binding then .error "operation_request_conflict"
      else .ok ("OK operation_request " ++ key)

/-- The record a request made again under its retry key stands for. -/
def BrokerState.findRetry (s : BrokerState) (authorization : WorkloadAuthorization)
    (encoded : String) : Except String (Option (RequestInput × String × OperationRequestOwner)) :=
  match RequestInput.parse encoded with
  | .error _ => .ok none
  | .ok input =>
    match input.requestKey with
    | none => .ok none
    | some requestKey =>
      (s.findBrowserRequestKey authorization requestKey).map fun found =>
        found.map fun e => (input, e.1, e.2)

def cancelBrowserOperation (eventKey : String) : Operation String := do
  let s ← Command.get
  match s.owners.values[eventKey]? with
  | none => fail "operation_cancel_unknown"
  | some owner =>
    if owner.workloadId ≠ authorization.workloadId ∨
        owner.invocationId ≠ authorization.invocationId then
      fail "operation_cancel_denied"
    else if owner.mode ≠ some .browserSession then fail "operation_cancel_unsupported"
    else
      match s.closures.values[eventKey]? with
      | some status => return "OK operation_cancel closed " ++ status
      | none =>
        let _ ← lift ((Fleet.OperationCancellation.body.toValue
          (owner.cancellation authorization.nodeId eventKey)).mapError fun _ =>
            "invalid_operation_cancel")
        -- the local stop is never taken back
        modify fun s => { s with
          owners := s.owners.update eventKey fun o => { o with cancelRequested := true } }
        queuePendingCancellations H authorization.nodeId
        persistPendingNodeEvents H
        return "OK operation_cancel requested"

/-- Whether a workload may withdraw a request that has not come yet. -/
def BrokerState.mayWithdraw (s : BrokerState) (authorization : WorkloadAuthorization) : Bool :=
  validInvocation authorization.invocationId &&
    s.fleet.registrations[authorization.workloadId]?.any fun r =>
      r.consumptionMode == .browserSession

/-- The part of `cancel_browser_request_key` for a key that no request was made under. -/
def withdrawRequestKey (requestKey : String) : Operation String := do
  let s ← Command.get
  if !s.mayWithdraw authorization then fail "operation_cancel_unsupported"
  else
    ensureOperationOwnerCapacity H
    let key ← newNodeEventKey
    -- the withdrawal stays in force even if it cannot be written
    modify fun s => { s with
      owners := s.owners.insert key {
        workloadId := authorization.workloadId
        invocationId := authorization.invocationId
        mode := some .browserSession
        cancelRequested := true
        cancelAcknowledged := false
        browserRequest := some (.withdrawal authorization requestKey) } }
    persistPendingNodeEvents H
    return "OK operation_cancel requested"

def cancelBrowserRequestKey (requestKey : String) : Operation String := do
  if !isValidEventKey requestKey then fail "invalid_operation_cancel"
  else
    let s ← Command.get
    match ← lift (s.findBrowserRequestKey authorization requestKey) with
    | some (eventKey, owner) =>
      if owner.isWithdrawal then
        persistPendingNodeEvents H
        return "OK operation_cancel requested"
      else cancelBrowserOperation H authorization eventKey
    | none => withdrawRequestKey H authorization requestKey

/-- The verifier's part of a consumption. -/
def recordConsumption (grantId : String) (authorization : WorkloadAuthorization)
    (policyVersion : ℕ) : Operation (Except ConsumeDenial Grant) := fun s =>
  let consumed := s.verifier.consume s.files grantId authorization policyVersion
    s.surroundings.boottimeMs s.surroundings.consumption
  ({ s with verifier := consumed.1, files := consumed.2.1 }, .ok consumed.2.2)

/-- The codes of denials. -/
def ConsumeDenial.code : ConsumeDenial → String
  | .expired => "grant_expired"
  | .revoked => "grant_revoked"
  | .identityMismatch => "grant_identity_mismatch"
  | .epochStale => "grant_epoch_stale"
  | .policyStale => "grant_policy_stale"
  | .registrationChanged => "grant_registration_changed"
  | .keyRotated => "grant_key_rotated"
  | .consumed => "grant_consumed"
  | .unknown => "grant_unknown"
  | .unavailable => "consumption_unavailable"

/-- What follows a consumption: the marker is made and the result is completed. -/
def carryOut (grant : Grant) (observedAtMs : ℕ) (resultKey auditKey : String) :
    Operation String := do
  let s ← Command.get
  if grant.action ≠ "noop.marker" ∨ !s.surroundings.marker then
    return "OK operation_uncertain " ++ grant.id
  match ← (updateOperationResult H grant "completed" "marker_created" observedAtMs resultKey
      auditKey).attempt with
  | .ok () => return "OK operation_completed " ++ grant.id
  | .error _ => return "OK operation_uncertain " ++ grant.id

/-- Report an uncertain result, consume the grant, and carry the operation out. -/
def consumePreviewed (preview : Grant) (grantId : String)
    (policyVersion observedAtMs : ℕ) (resultKey auditKey : String) : Operation String := do
  queueOperationResult H preview "uncertain" "result_uncertain" observedAtMs resultKey auditKey
  match ← recordConsumption grantId authorization policyVersion with
  | .ok grant =>
    if grant = preview then carryOut H grant observedAtMs resultKey auditKey
    else return "OK operation_uncertain " ++ preview.id
  | .error denial =>
    withdrawPendingEvents H [resultKey, auditKey]
    fail denial.code

/-- The branch of `process_workload` for consumptions. Browser work is refused here, whatever the
standing of its grant. -/
def consumeGrant (grantId : String) : Operation String := do
  let s ← Command.get
  if maxBrokerAuditEvents - 2 < s.events.length then refuseForBackpressure H
  else
    let observedAtMs ← lift
      (s.controllerTimeMs.elim (.error "trusted_time_unavailable") .ok)
    let resultKey ← newNodeEventKey
    let auditKey ← newNodeEventKey
    let policyVersion ← lift
      (s.fleet.policy.elim (.error "fleet_policy_unavailable") fun policy =>
        .ok policy.policyVersion)
    let preview ← lift
      ((s.verifier.previewConsumption grantId authorization policyVersion
        s.surroundings.boottimeMs).mapError ConsumeDenial.code)
    if preview.action = "browser.session" ∨ preview.mode = .browserSession then
      fail "browser_runtime_unavailable"
    else
      consumePreviewed H authorization preview grantId policyVersion observedAtMs resultKey auditKey

/-- The rest of an operation behind a word it begins with. -/
def afterWord (word operation : String) : Option String :=
  if word.toList.isPrefixOf operation.toList then
    some (String.ofList (operation.toList.drop word.toList.length))
  else none

/-- What a workload asks for. -/
inductive WorkloadOperation
  | status (eventKey : String)
  | cancel (eventKey : String)
  | cancelKey (requestKey : String)
  | request (encoded : String)
  | consume (grantId : String)
  | other
  deriving DecidableEq

/-- The operation a text asks for. -/
def WorkloadOperation.ofText (operation : String) : WorkloadOperation :=
  match afterWord "status:" operation, afterWord "cancel:" operation,
      afterWord "cancel-key:" operation, afterWord "request:" operation,
      afterWord "consume:" operation with
  | some eventKey, _, _, _, _ => .status eventKey
  | none, some eventKey, _, _, _ => .cancel eventKey
  | none, none, some requestKey, _, _ => .cancelKey requestKey
  | none, none, none, some encoded, _ => .request encoded
  | none, none, none, none, some grantId => .consume grantId
  | none, none, none, none, none => .other

/-- The branches of `process_workload` behind the authorization. A status changes nothing; what
it says is not modelled. -/
def processAuthorized :
    WorkloadOperation → Operation String
  | .status _ => return "OK operation_status"
  | .cancel eventKey => cancelBrowserOperation H authorization eventKey
  | .cancelKey requestKey => cancelBrowserRequestKey H authorization requestKey
  | .request encoded => do
    let s ← Command.get
    match ← lift (s.findRetry authorization encoded) with
    | some (input, key, owner) => lift (s.answerRetry H authorization input key owner)
    | none =>
      if s.persistenceFenced then fail "broker_persistence_fenced"
      else requestOperation H authorization encoded
  | .consume grantId => do
    let s ← Command.get
    if s.persistenceFenced then fail "broker_persistence_fenced"
    else consumeGrant H authorization grantId
  | .other => return "OK"

def processWorkload (peer : PeerIdentity) (request : WorkloadRequest) : Operation String := do
  let s ← Command.get
  if s.fleet.nodeRevoked then fail "node_revoked"
  else
    let authorization ← lift (authorizeWorkload peer request s.fleet.workloads)
    processAuthorized H authorization (.ofText request.operation)

end

end BlindPass.Broker
