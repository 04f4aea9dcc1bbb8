import BlindPass.Fleet.Value
import BlindPass.Controller.Routes.Issuance

/-!
# Requests of browser operations

A broker signs a request on behalf of a workload. The route checks the request and the
workload's registration, lets the policy decide, and creates the operation; a request that the
policy allows is granted before it is acknowledged.
-/

namespace BlindPass.Controller

open Execution (Program)
open Fleet (Value isValidOpaqueId)

/-- `BrowserIntent`, the body of a request. -/
structure BrowserIntent where
  requestVersion : ℕ
  nodeId : String
  workloadId : String
  unit : String
  account : String
  invocationId : String
  action : String
  mode : String
  purpose : String
  resourceId : String
  ttlSeconds : ℕ
  observedAtMs : ℤ
  deriving DecidableEq

/-- The fields of a body; no others are accepted. -/
def BrowserIntent.fields : List String :=
  ["request_version", "node_id", "workload_id", "unit", "account", "invocation_id", "action",
    "mode", "purpose", "resource_id", "ttl_seconds", "observed_at_ms"]

/-- Parse the body of a request. -/
def BrowserIntent.ofValue? (body : Value) : Option BrowserIntent :=
  if !body.hasFields fields then none
  else do
    let requestVersion ← body.u64 "request_version"
    let nodeId ← body.str "node_id"
    let workloadId ← body.str "workload_id"
    let unit ← body.str "unit"
    let account ← body.str "account"
    let invocationId ← body.str "invocation_id"
    let action ← body.str "action"
    let mode ← body.str "mode"
    let purpose ← body.str "purpose"
    let resourceId ← body.str "resource_id"
    let ttlSeconds ← body.u64 "ttl_seconds"
    let observedAtMs ← (body.get "observed_at_ms").bind Value.asI64
    return ⟨requestVersion, nodeId, workloadId, unit, account, invocationId, action, mode, purpose,
      resourceId, ttlSeconds, observedAtMs⟩

inductive IntentFailure
  | rejected
  | conflict
  | unavailable
  deriving DecidableEq

/-- What the routes are configured with. -/
structure RouteConfig where
  approvalTtlSeconds : ℕ
  fulfillmentsEnabled : Bool
  /-- The digest of a node and an event key, which names the operation of a request. -/
  eventDigest : String → String → String

/-- The clock during the handling of a request. -/
structure IntentReadings where
  sweep : SweepClock
  now : ℕ
  creation : CreationClock
  issuance : IssuanceReadings
  resweep : SweepClock

variable (intent : BrowserIntent)

/-- The request is of the current version, for this node, and within its bounds. -/
def BrowserIntent.isWellFormed (nodeId key : String) : Bool :=
  intent.requestVersion == 2 && intent.nodeId == nodeId && isValidOpaqueId intent.workloadId &&
    isValidOpaqueId intent.resourceId && isValidOpaqueId key && decide (16 ≤ key.utf8ByteSize) &&
    intent.action == "browser.session" && intent.mode == "browser_session" &&
    intent.invocationId.utf8ByteSize == 32 &&
    (intent.invocationId.toList.all fun c => c.isDigit || ('a' ≤ c && c ≤ 'f')) &&
    decide (1 ≤ intent.ttlSeconds) && decide (intent.ttlSeconds ≤ 120) &&
    decide (intent.purpose.utf8ByteSize ≤ 512) &&
    intent.purpose.toList.all fun c => c != '\r' && c != '\n' && c != '\x00'

/-- The operation that belongs to a request. -/
def RouteConfig.operationId (rc : RouteConfig) (nodeId key : String) : String :=
  "op_" ++ rc.eventDigest nodeId key

/-- The workload is registered as the request says. -/
def BrowserIntent.fits (nodeId : String) (w : Workload) : Bool :=
  w.status == .active && w.nodeId == nodeId && w.unit == intent.unit &&
    w.account == intent.account && w.consumptionMode == .browserSession

/-- The request was observed about now. -/
def BrowserIntent.isFresh (now : ℕ) : Bool :=
  decide (0 < intent.observedAtMs) && decide ((now : ℤ) - intent.observedAtMs ≤ 60000) &&
    decide (intent.observedAtMs ≤ now + 60000)

/-- The node was heard from lately. -/
def Node.isOnline (n : Node) (now : ℕ) : Bool :=
  n.lastSeenAtMs.any fun seen => decide (now - seen ≤ 120000) && decide (seen ≤ now + 60000)

/-- The rule of a policy for browser sessions. -/
def browserRule? (policy : Option FleetPolicy) : Option PolicyRule :=
  (policy.elim [] FleetPolicy.rules).find? fun rule =>
    rule.action == "browser.session" && rule.mode == .browserSession

/-- The decision of the rule; without one the request is denied. -/
def browserDecision (rule : Option PolicyRule) : Decision :=
  rule.elim .deny PolicyRule.decision

/-- The lifetime the request, the rule and the workload allow. -/
def BrowserIntent.effectiveTtl (rule : Option PolicyRule) (w : Workload) : ℕ :=
  min (min intent.ttlSeconds (rule.elim 120 PolicyRule.maxTtlSeconds)) w.localCeilingSeconds

/-- The operation for a request, as it is put to the store. -/
def BrowserIntent.draft (rc : RouteConfig) (nodeId key bodyHash : String)
    (w : Workload) (rule : Option PolicyRule) (policyVersion now : ℕ) : OperationDraft :=
  let decision := browserDecision rule
  let ttl := intent.effectiveTtl rule w
  let expiresAtMs := now +
    (if decision = .pendingApproval then rc.approvalTtlSeconds else ttl) * 1000
  let digest := rc.eventDigest nodeId key
  let ruleId := rule.elim "" PolicyRule.id
  { id := rc.operationId nodeId key
    request :=
      { workloadId := intent.workloadId
        nodeId := nodeId
        invocationId := intent.invocationId
        action := intent.action
        mode := .browserSession
        resourceId := intent.resourceId
        requestedTtlSeconds := ttl
        brokerEventKey := some key
        requestedBy := "workload:" ++ intent.workloadId
        policyVersion := policyVersion
        decision := decision
        idempotencyKey := digest
        requestHash := bodyHash
        createdAtMs := now }
    expiresAtMs := expiresAtMs
    expectedUnit := w.unit
    expectedAccount := w.account
    effectiveTtlSeconds := ttl
    approval :=
      { id := "oa_" ++ digest
        idempotencyKey := "oa-for-" ++ rc.operationId nodeId key
        ruleId := ruleId
        expiresAtMs := expiresAtMs
        approverIds := rule.elim [] PolicyRule.approverIds
        groupScope := ⟨nodeId, intent.workloadId, w.unit, w.account, intent.action,
          .browserSession, ruleId, policyVersion⟩ } }

/-- The broker's evidence for a request. -/
def BrowserIntent.evidence (rc : RouteConfig)
    (nodeId key bodyHash : String) : BrokerOperationEvent :=
  { id := "ne_" ++ rc.eventDigest nodeId key
    nodeId := nodeId
    key := key
    body := ⟨intent.nodeId, intent.workloadId, intent.invocationId, intent.action, .browserSession⟩
    bodyHash := bodyHash
    observedAtMs := intent.observedAtMs.toNat }

/-- Issue the grant of an allowed request. If the store found the draft outdated, another
caller may have completed the operation; otherwise the request stays unacknowledged. -/
def finishIssuance (cfg : Config) (r : IntentReadings) (id : String) (o : Operation) :
    Route (Except IntentFailure Unit) := do
  if o.decision ≠ .allow ∨ o.status ≠ .requested then return .ok ()
  else
    match ← ensureOperationGrants cfg r.issuance [id] with
    | .ok () => return .ok ()
    | .error .unavailable => return .error .unavailable
    | .error .stale =>
      match ← Program.send (.expireFleetState r.resweep) with
      | .failed _ => return .error .unavailable
      | _ =>
        match ← Program.get (fun s : Store => s.operations[id]?) with
        | none => return .error .unavailable
        | some current =>
          if current.status = .requested then return .error .unavailable else return .ok ()

/-- The operation is the one this request made. -/
def Operation.answers (o : Operation) (nodeId key bodyHash workloadId : String) : Bool :=
  o.requestHash == bodyHash && o.nodeId == nodeId && o.workloadId == workloadId &&
    o.brokerEventKey == some key && o.requestedBy == "workload:" ++ workloadId

/-- A request that came before: its operation is there, and its receipt if all is well. -/
def resumeRequest (cfg : Config) (r : IntentReadings) (nodeId key bodyHash : String)
    (intent : BrowserIntent) (id : String) (o : Operation) : Route (Except IntentFailure Bool) := do
  if !o.answers nodeId key bodyHash intent.workloadId then return .error .conflict
  else
    match ← Program.get (fun s : Store => s.nodeEvent? nodeId key) with
    | none => return .error .unavailable
    | some receipt =>
      if receipt.kind ≠ .operationRequest ∨ receipt.bodyHash ≠ bodyHash then
        return .error .conflict
      else
        match ← finishIssuance cfg r id o with
        | .error failure => return .error failure
        | .ok () => return .ok false

/-- Let the policy decide on a new request, and create its operation. -/
def createRequest (cfg : Config) (rc : RouteConfig) (r : IntentReadings)
    (nodeId key bodyHash : String) (intent : BrowserIntent) (w : Workload) :
    Route (Except IntentFailure Bool) := do
  let policy ← Program.get Store.policy
  let rule := browserRule? policy
  if intent.effectiveTtl rule w = 0 then return .error .rejected
  else if browserDecision rule = .pendingApproval ∧ (rule.elim [] PolicyRule.approverIds).isEmpty
  then return .error .unavailable
  else
    let draft := intent.draft rc nodeId key bodyHash w rule (policy.elim 1 FleetPolicy.version)
      r.now
    let evidence := intent.evidence rc nodeId key bodyHash
    match ← Program.send (.createOperation draft (some evidence) r.creation) with
    | .created (.created o) =>
      match ← finishIssuance cfg r draft.id o with
      | .error failure => return .error failure
      | .ok () => return .ok true
    | .created (.existing id o) =>
      match ← finishIssuance cfg r id o with
      | .error failure => return .error failure
      | .ok () => return .ok false
    | .created .conflict => return .error .conflict
    | _ => return .error .unavailable

/-- Check a new request against the registration and the clock. -/
def admitRequest (cfg : Config) (rc : RouteConfig) (r : IntentReadings)
    (nodeId key bodyHash : String) (intent : BrowserIntent) : Route (Except IntentFailure Bool) := do
  match ← Program.get (fun s : Store => s.workloads[intent.workloadId]?.filter (intent.fits nodeId))
  with
  | none => return .error .rejected
  | some w =>
    match ← Program.get (fun s : Store => s.nodes[nodeId]?.filter fun n =>
        n.status == .active && !s.rotations.contains nodeId) with
    | none => return .error .rejected
    | some n =>
      if !intent.isFresh r.now || !n.isOnline r.now then return .error .rejected
      else createRequest cfg rc r nodeId key bodyHash intent w

/-- Apply a request whose signature was checked. The answer says whether it is new. -/
def applyVerifiedRequest (cfg : Config) (rc : RouteConfig) (r : IntentReadings)
    (nodeId key : String) (body : Value) (bodyHash : String) (duplicate : Bool) :
    Route (Except IntentFailure Bool) := do
  match BrowserIntent.ofValue? body with
  | none => return .error .rejected
  | some intent =>
    if !intent.isWellFormed nodeId key then return .error .rejected
    else
      match ← Program.send (.expireFleetState r.sweep) with
      | .failed _ => return .error .unavailable
      | _ =>
        let id := rc.operationId nodeId key
        match ← Program.get (fun s : Store => s.operations[id]?) with
        | some o => resumeRequest cfg r nodeId key bodyHash intent id o
        | none =>
          -- a receipt without its operation must not give authority again
          if duplicate then return .error .unavailable
          else admitRequest cfg rc r nodeId key bodyHash intent

end BlindPass.Controller
