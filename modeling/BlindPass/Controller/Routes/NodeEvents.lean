import BlindPass.Controller.Routes.BrowserIntent

/-!
# Events of a node

A node's relay forwards the events its broker signed. They are applied in order. An event that
is correctly signed but can never apply is discarded, and acknowledged so that it does not stall
the broker's queue; any other failure ends the batch, and the broker sends the rest again.

The audit rows, and the tables of provisioning and fulfillment, are not part of the store here:
what a handler learns from them is given with the clock readings.
-/

namespace BlindPass.Controller

open Execution (Program)
open Fleet (OperationCancellation Value isValidEventKey isValidOpaqueId)

/-- An event as the relay forwards it. The signature is given by the key that made it, and the
digest of what was signed by its text. -/
structure NodeEventInput where
  idempotencyKey : String
  kind : String
  body : Value
  signedBy : String
  bodyHash : String
  /-- The body has a canonical form within the size limit. -/
  canonical : Bool

/-- What a session token says about its node. -/
structure NodeSessionClaims where
  nodeId : String
  sid : String
  keyVersion : ℕ
  issuerEpoch : ℕ
  protocolVersion : String
  tokenHash : String
  deriving DecidableEq

inductive EventFailure
  | invalid
  | rejected
  | conflict
  | unavailable
  deriving DecidableEq

/-- The code a failure is reported with. -/
def EventFailure.code : EventFailure → String
  | .invalid | .rejected => "invalid_node_event"
  | .conflict => "event_idempotency_conflict"
  | .unavailable => "service_unavailable"

/-- The event can never apply. -/
def EventFailure.isFinal : EventFailure → Bool
  | .rejected | .conflict => true
  | .invalid | .unavailable => false

/-- A failure of the transaction that applies a verified event. -/
def EventFailure.fromApplied : StoreError → EventFailure
  | .invalidInput _ | .missingState _ => .rejected
  | .database => .unavailable

/-- A failure of the transaction that records a verified event. -/
def EventFailure.fromStore : StoreError → EventFailure
  | .invalidInput _ | .missingState _ => .invalid
  | .database => .unavailable

def EventFailure.fromIntent : IntentFailure → EventFailure
  | .rejected => .rejected
  | .conflict => .conflict
  | .unavailable => .unavailable

/-- What the handling of one event takes from outside the tables. -/
structure EventReadings where
  intent : IntentReadings
  now : ℕ
  /-- The random identifier of a new row. -/
  eventId : String
  /-- The audit row under the event's key has the same body, another one, or is not there. -/
  auditRow : Option Bool
  /-- How provisioning or fulfillment takes the event. -/
  foreign : Except StoreError NodeEventInsert
  /-- The audit row of a discarded event was written. -/
  rejectionRecorded : Bool

/-- The row of a node as the route reads it. -/
structure NodeRecord where
  status : RecordStatus
  keyVersion : ℕ
  revocationPending : Bool
  pendingKeyVersion : Option ℕ
  deriving DecidableEq

def NodeRecord.rotationPending (n : NodeRecord) : Bool := n.pendingKeyVersion.isSome

namespace Store

variable (s : Store)

def nodeRecord? (nodeId : String) : Option NodeRecord :=
  s.nodes[nodeId]?.map fun n =>
    ⟨n.status, n.keyVersion, n.revocationQueued, s.rotations[nodeId]?.map fun r => r.toKeyVersion⟩

/-- The key of a node that may still use the channel. -/
def nodeSigningPublicKey? (nodeId : String) (keyVersion : ℕ) : Option String :=
  if s.nodes[nodeId]?.any fun n =>
      n.status == .active || (n.status == .revoked && n.revocationQueued) then
    (s.nodeKeys.find? fun k =>
      k.nodeId == nodeId && k.keyVersion == keyVersion && !k.retired).map NodeKey.signingPub
  else none

def recordedNodeEvent? (nodeId key : String) : Option NodeEvent :=
  if s.nodes.contains nodeId then s.nodeEvent? nodeId key else none

end Store

/-! ### Checking an event -/

/-- The event has a signed message: see `node_event_message`. -/
def NodeEventInput.isFramed (event : NodeEventInput) (nodeId : String) : Bool :=
  event.canonical && isValidOpaqueId nodeId && isValidEventKey event.idempotencyKey &&
    Fleet.nodeEventKinds.contains event.kind && event.body.asObject.isSome

/-- A request of the versioned browser protocol. -/
def NodeEventInput.isBrowserRequest (event : NodeEventInput) : Bool :=
  event.kind == "operation_request" && (event.body.get "request_version").isSome

/-- Check the signature, and whether the same event was recorded before. While a rotation is
pending the key that it replaces still vouches for recorded events. -/
def verifyNodeEvent (claims : NodeSessionClaims) (node : NodeRecord) (publicKey : String)
    (event : NodeEventInput) : Route (Except EventFailure Bool) := do
  let verified := event.signedBy == publicKey
  match ← Program.get (fun s : Store => s.recordedNodeEvent? claims.nodeId event.idempotencyKey) with
  | none => return if verified then .ok false else .error .invalid
  | some prior =>
    if prior.bodyHash ≠ event.bodyHash then
      -- only a correctly signed event can be a conflict
      return .error (if verified then .conflict else .invalid)
    else if verified then return .ok true
    else if node.rotationPending then
      match ← Program.get (fun s : Store => s.nodeSigningPublicKey? claims.nodeId node.keyVersion) with
      | some oldKey => return if event.signedBy == oldKey then .ok true else .error .invalid
      | none => return .error .invalid
    else return .error .invalid

/-- The event waits until a pending rotation is complete. -/
def NodeRecord.defers (node : NodeRecord) (claims : NodeSessionClaims) (kind : String) : Bool :=
  node.rotationPending && (claims.keyVersion == node.keyVersion ||
    (kind == "operation_request" && some claims.keyVersion == node.pendingKeyVersion))

/-! ### Audit events -/

/-- What an audit event reports. -/
inductive AuditAction
  | operationResult
  | auditOverflow
  | grantRejected (grantId : String) (expiresAtMs : ℕ)
  | nodeRevocationApplied
  | nodeKeyRotationApplied (rotationId : String) (keyVersion : ℕ) (fingerprint : String)
  | grantRevocationApplied (grantId outcome : String)
  deriving DecidableEq

/-- The body has a positive time. -/
def observed (body : Value) : Bool := (body.u64 "observed_at_ms").any fun time => decide (0 < time)

/-- A text field meets the condition. -/
def textMeets (body : Value) (name : String) (p : String → Bool) : Bool := (body.str name).any p

/-- `i64::try_from` -/
def fitsI64 (n : ℕ) : Bool := decide (n < 2 ^ 63)

/-- A lower-case hexadecimal digest. -/
def isFingerprint (value : String) : Bool :=
  value.utf8ByteSize == 64 && value.toList.all fun c => c.isDigit || ('a' ≤ c && c ≤ 'f')

/-- The reasons a broker may give for a rejected grant. -/
def rejectionReasons : List String :=
  ["expired_before_receipt", "binding_mismatch", "stale_at_receipt"]

/-- The outcomes a broker may report of a revocation. -/
def revocationOutcomes : List String :=
  ["revoked_before_consumption", "already_consumed", "not_received"]

/-- Parse the body of an audit event. -/
def AuditAction.ofValue (nodeId : String) (body : Value) : Except StoreError AuditAction :=
  let forNode := body.str "node_id" == some nodeId
  if !body.asObject.any fun fields => decide (fields.length ≤ 5) then
    .error (.invalidInput "node audit event")
  else
    match body.str "action" with
    | none => .error (.invalidInput "node audit event action")
    | some "operation_result" =>
      if body.hasFields ["action", "grant_id", "operation_id", "observed_at_ms", "status"] &&
          textMeets body "grant_id" isValidOpaqueId && textMeets body "operation_id" isValidOpaqueId &&
          observed body && textMeets body "status" ["completed", "uncertain"].contains then
        .ok .operationResult
      else .error (.invalidInput "node audit event fields")
    | some "audit_overflow" =>
      if body.hasFields ["action", "node_id", "observed_at_ms"] && forNode && observed body then
        .ok .auditOverflow
      else .error (.invalidInput "node audit overflow event")
    | some "grant_rejected" =>
      match body.str "grant_id", body.u64 "expires_at_ms" with
      | some grantId, some expiresAtMs =>
        if body.hasFields ["action", "expires_at_ms", "grant_id", "node_id", "reason_code"] &&
            forNode && "gr_".toList.isPrefixOf grantId.toList && isValidOpaqueId grantId &&
            decide (0 < expiresAtMs) && textMeets body "reason_code" rejectionReasons.contains then
          if fitsI64 expiresAtMs then .ok (.grantRejected grantId expiresAtMs)
          else .error (.invalidInput "node grant rejection expiry")
        else .error (.invalidInput "node grant rejection audit")
      | _, _ => .error (.invalidInput "node grant rejection audit")
    | some "node_revocation_applied" =>
      if body.hasFields ["action", "node_id", "observed_at_ms"] && forNode && observed body then
        .ok .nodeRevocationApplied
      else .error (.invalidInput "node revocation acknowledgement")
    | some "node_key_rotation_applied" =>
      match body.str "rotation_id", body.u64 "key_version", body.str "fingerprint" with
      | some rotationId, some keyVersion, some fingerprint =>
        if body.hasFields ["action", "node_id", "rotation_id", "key_version", "fingerprint"] &&
            forNode && isValidOpaqueId rotationId && decide (1 < keyVersion) &&
            isFingerprint fingerprint then
          if fitsI64 keyVersion then
            .ok (.nodeKeyRotationApplied rotationId keyVersion fingerprint)
          else .error (.invalidInput "node key rotation version")
        else .error (.invalidInput "node key rotation acknowledgement")
      | _, _, _ => .error (.invalidInput "node key rotation acknowledgement")
    | some "grant_revocation_applied" =>
      match body.str "grant_id", body.str "outcome" with
      | some grantId, some outcome =>
        if body.hasFields ["action", "node_id", "grant_id", "outcome", "observed_at_ms"] &&
            forNode && isValidOpaqueId grantId && revocationOutcomes.contains outcome &&
            observed body then
          .ok (.grantRevocationApplied grantId outcome)
        else .error (.invalidInput "grant revocation acknowledgement")
      | _, _ => .error (.invalidInput "grant revocation acknowledgement")
    | some _ => .error (.invalidInput "node audit event action")

/-- Apply what an audit event reports. -/
def applyAuditAction (r : EventReadings) (nodeId : String) :
    AuditAction → Route (Except StoreError Unit)
  | .operationResult | .auditOverflow => return .ok ()
  | .grantRejected grantId expiresAtMs => do
    let expiry ← Program.get fun s : Store => (s.grants[grantId]?.filter fun g =>
      g.grant.nodeId == nodeId).map fun g => g.grant.expiresAtMs
    return if expiry = some expiresAtMs then .ok ()
      else .error (.invalidInput "node grant rejection does not match a current grant expiry")
  | .nodeRevocationApplied => do
    let pending ← Program.get fun s : Store => s.nodes[nodeId]?.any fun n =>
      n.status == .revoked && n.revocationQueued
    if !pending then return .error (.invalidInput "node revocation is not pending")
    else
      let _ ← Program.send (.finalizeNodeRevocation nodeId r.now)
      return .ok ()
  | .nodeKeyRotationApplied rotationId keyVersion fingerprint => do
    match ← Program.send (.completeNodeKeyRotation nodeId rotationId keyVersion fingerprint) with
    | .accepted true => return .ok ()
    | _ => return .error (.invalidInput "node key rotation acknowledgement")
  | .grantRevocationApplied grantId outcome => do
    match ← Program.send (.applyGrantRevocationOutcome nodeId grantId outcome r.now) with
    | .accepted true => return .ok ()
    | _ =>
      return .error (.invalidInput "grant revocation acknowledgement does not match a revoked grant")

/-- Apply an audit event, once: an event that was applied before is acknowledged again. -/
def recordNodeAuditEvent (r : EventReadings) (nodeId : String) (body : Value) :
    Route (Except StoreError Unit) := do
  match r.auditRow with
  | some same =>
    if !same then return .error (.invalidInput "node audit event replay")
    else if body.str "action" == some "node_revocation_applied" then
      -- the row and the end of the channel are committed separately
      let _ ← Program.send (.finalizeNodeRevocation nodeId r.now)
      return .ok ()
    else return .ok ()
  | none =>
    match AuditAction.ofValue nodeId body with
    | .error error => return .error error
    | .ok action => applyAuditAction r nodeId action

/-! ### Results and cancellations -/

/-- The code of a reported result. -/
def ResultCode.ofText? : String → Option ResultCode
  | "marker_created" => some .markerCreated
  | "browser_session_closed" => some .browserSessionClosed
  | "result_uncertain" => some .resultUncertain
  | _ => none

/-- The status of a reported result. -/
def ResultStatus.ofText? : String → Option ResultStatus
  | "completed" => some .completed
  | "uncertain" => some .uncertain
  | _ => none

/-- Parse the report of an execution. -/
def NodeResult.ofValue (body : Value) : Except StoreError NodeResult :=
  if !body.asObject.any fun fields => fields.length == 5 then .error (.invalidInput "node result")
  else if !body.hasFields ["grant_id", "operation_id", "status", "result_code", "observed_at_ms"]
  then .error (.invalidInput "node result fields")
  else
    match (body.str "grant_id").filter isValidOpaqueId,
        (body.str "operation_id").filter isValidOpaqueId,
        (body.str "status").bind ResultStatus.ofText?,
        (body.str "result_code").bind ResultCode.ofText?,
        (body.u64 "observed_at_ms").filter fun time => decide (0 < time) && fitsI64 time with
    | none, _, _, _, _ => .error (.invalidInput "node result grant")
    | _, none, _, _, _ => .error (.invalidInput "node result operation")
    | _, _, none, _, _ => .error (.invalidInput "node result status")
    | _, _, _, none, _ => .error (.invalidInput "node result code")
    | _, _, _, _, none => .error (.invalidInput "node result time")
    | some grantId, some operationId, some status, some code, some observedAtMs =>
      .ok ⟨grantId, operationId, status, code, observedAtMs⟩

/-- Parse a cancellation. -/
def cancellationOfValue? (body : Value) : Option OperationCancellation :=
  if !body.hasFields ["node_id", "workload_id", "invocation_id", "request_event_key"] then none
  else do
    let nodeId ← body.str "node_id"
    let workloadId ← body.str "workload_id"
    let invocationId ← body.str "invocation_id"
    let requestEventKey ← body.str "request_event_key"
    let request : OperationCancellation := ⟨nodeId, workloadId, invocationId, requestEventKey⟩
    if request.isValid then return request else none

/-- How a transaction that records its own event ended. -/
def insertOutcome : NodeEventInsert → Except EventFailure Bool
  | .inserted => .ok true
  | .duplicate => .ok false
  | .conflict => .error .conflict

/-- A cancellation without a signer is repeated later. -/
def cancellationFailure : StoreError → EventFailure
  | .missingState "fleet cancellation issuer" => .unavailable
  | error => .fromApplied error

/-- Apply a cancellation. -/
def applyCancellation (r : EventReadings) (nodeId : String) (event : NodeEventInput) :
    Route (Except EventFailure Bool) := do
  match cancellationOfValue? event.body with
  | none => return .error .rejected
  | some request =>
    match ← Program.send
        (.applyBrowserCancellation nodeId event.idempotencyKey event.bodyHash request r.now) with
    | .recorded outcome => return insertOutcome outcome
    | .failed error => return .error (cancellationFailure error)
    | _ => return .error .unavailable

/-- Apply the report of an execution. -/
def applyResult (r : EventReadings) (nodeId : String) (body : Value) :
    Route (Except StoreError Unit) := do
  match NodeResult.ofValue body with
  | .error error => return .error error
  | .ok result =>
    match ← Program.send (.reconcileNodeOperationResult nodeId result r.now) with
    | .failed error => return .error error
    | _ => return .ok ()

/-- How a mode is written. -/
def modeOfText? : String → Option ConsumptionMode
  | "file" => some .file
  | "socket" => some .socket
  | "browser_session" => some .browserSession
  | _ => none

/-- The fields of a recorded request that are read back. -/
def NodeEventBody.ofValue? (body : Value) : Option NodeEventBody := do
  let nodeId ← body.str "node_id"
  let workloadId ← body.str "workload_id"
  let invocationId ← body.str "invocation_id"
  let action ← body.str "action"
  let mode ← (body.str "mode").bind modeOfText?
  return ⟨nodeId, workloadId, invocationId, action, mode⟩

/-- The row of an event that was applied. -/
def NodeEventInput.row (event : NodeEventInput) (r : EventReadings) (nodeId : String) : NodeEvent :=
  if event.kind = "operation_request" then
    ⟨r.eventId, nodeId, event.idempotencyKey, .operationRequest, NodeEventBody.ofValue? event.body,
      event.bodyHash, r.now⟩
  else ⟨r.eventId, nodeId, event.idempotencyKey, .other, none, event.bodyHash, r.now⟩

/-- Record an event that was applied. -/
def recordApplied (r : EventReadings) (nodeId : String) (event : NodeEventInput) :
    Route (Except EventFailure Bool) := do
  match ← Program.send (.recordNodeEvent (event.row r nodeId)) with
  | .recorded outcome => return insertOutcome outcome
  | .failed error => return .error (.fromStore error)
  | _ => return .error .unavailable

/-- The effect of an event that is recorded afterwards. -/
def applyEffect (r : EventReadings) (nodeId : String) (event : NodeEventInput) :
    Route (Except EventFailure Unit) :=
  match event.kind with
  | "operation_result" => do return (← applyResult r nodeId event.body).mapError .fromApplied
  | "audit" => do return (← recordNodeAuditEvent r nodeId event.body).mapError .fromApplied
  | "operation_request" =>
    -- evidence for a later request of an operator
    return if event.body.str "node_id" = some nodeId then .ok () else .error .rejected
  | _ => return .error .invalid

/-- Apply an event whose effect and receipt are committed separately. -/
def applyLegacy (r : EventReadings) (nodeId : String) (event : NodeEventInput) :
    Route (Except EventFailure Bool) := do
  match ← applyEffect r nodeId event with
  | .error failure => return .error failure
  | .ok () => recordApplied r nodeId event

/-! ### The route -/

/-- Apply one event. The answer says whether it is new. -/
def applyNodeEvent (cfg : Config) (rc : RouteConfig) (r : EventReadings)
    (claims : NodeSessionClaims) (node : NodeRecord) (publicKey : String) (event : NodeEventInput) :
    Route (Except EventFailure Bool) := do
  if !event.isFramed claims.nodeId then return .error .invalid
  else
    match ← verifyNodeEvent claims node publicKey event with
    | .error failure => return .error failure
    | .ok exactDuplicate =>
      if exactDuplicate && !event.isBrowserRequest then return .ok false
      else if !exactDuplicate && node.defers claims event.kind then return .error .invalid
      else if !exactDuplicate && node.status == .revoked && event.kind == "operation_request" then
        return .error .rejected
      else if event.isBrowserRequest then
        return (← applyVerifiedRequest cfg rc r.intent claims.nodeId event.idempotencyKey event.body
          event.bodyHash exactDuplicate).mapError .fromIntent
      else if event.kind = "operation_cancel" then applyCancellation r claims.nodeId event
      else if event.kind = "recipient_offer" then
        return match r.foreign with
          | .ok outcome => insertOutcome outcome
          | .error (.missingState "provisioning issuer") => .error .unavailable
          | .error error => .error (.fromApplied error)
      else if ["fulfillment_offer", "fulfillment_submit", "fulfillment_result"].contains event.kind then
        if !rc.fulfillmentsEnabled then return .error .rejected
        else
          return match r.foreign with
            | .ok outcome => insertOutcome outcome
            | .error (.missingState "fulfillment issuer") => .error .unavailable
            | .error error => .error (.fromApplied error)
      else applyLegacy r claims.nodeId event

/-- What a batch has come to. -/
structure BatchProgress where
  accepted : ℕ
  duplicates : ℕ
  acceptedKeys : List String
  discarded : List (String × String)
  rejected : Option (String × EventFailure)

/-- Apply the events in order, up to the first one that cannot be settled. -/
def applyBatch (cfg : Config) (rc : RouteConfig) (claims : NodeSessionClaims) (node : NodeRecord)
    (publicKey : String) : BatchProgress → List (NodeEventInput × EventReadings) →
    Route BatchProgress
  | progress, [] => return progress
  | progress, (event, r) :: rest => do
    let keys := progress.acceptedKeys ++ [event.idempotencyKey]
    match ← applyNodeEvent cfg rc r claims node publicKey event with
    | .ok true =>
      applyBatch cfg rc claims node publicKey
        { progress with accepted := progress.accepted + 1, acceptedKeys := keys } rest
    | .ok false =>
      applyBatch cfg rc claims node publicKey
        { progress with duplicates := progress.duplicates + 1, acceptedKeys := keys } rest
    | .error failure =>
      if !failure.isFinal then
        return { progress with rejected := some (event.idempotencyKey, failure) }
      else if !r.rejectionRecorded then
        return { progress with rejected := some (event.idempotencyKey, .unavailable) }
      else
        applyBatch cfg rc claims node publicKey
          { progress with
            acceptedKeys := keys
            discarded := progress.discarded ++ [(event.idempotencyKey, failure.code)] } rest

/-- The answer of the route. The acknowledged keys are signed for the broker. -/
inductive EventsResponse
  | error (code : String)
  | applied (progress : BatchProgress) (ack : List String)

/-- The keys the response acknowledges. -/
def EventsResponse.acknowledged : EventsResponse → List String
  | .error _ => []
  | .applied _ ack => ack

def maxNodeEventsPerRequest : ℕ := 100

/-- An acknowledgement that can be signed: see `ApplicationAck::to_value`. -/
def ackIsValid (nodeId : String) (issuerEpoch acknowledgedAtMs : ℕ) (keys : List String) : Bool :=
  isValidOpaqueId nodeId && decide (0 < issuerEpoch) && decide (0 < acknowledgedAtMs) &&
    !keys.isEmpty && decide (keys.length ≤ 100) && keys.all isValidEventKey && decide keys.Nodup

/-- Apply a batch of events of an authenticated node and acknowledge what was settled. -/
def nodeEvents (cfg : Config) (rc : RouteConfig) (claims : NodeSessionClaims)
    (events : List (NodeEventInput × EventReadings)) (authenticatedAtMs acknowledgedAtMs : ℕ) :
    Route EventsResponse := do
  match ← Program.send (.authenticateNodeSession claims.sid claims.nodeId claims.tokenHash
      claims.keyVersion claims.issuerEpoch claims.protocolVersion authenticatedAtMs) with
  | .accepted true =>
    if maxNodeEventsPerRequest < events.length then return .error "too_many_events"
    else
      match ← Program.get (fun s : Store => (s.nodeRecord? claims.nodeId).filter fun n =>
          n.status == .active || (n.status == .revoked && n.revocationPending)) with
      | none => return .error "invalid_bearer"
      | some node =>
        match ← Program.get (fun s : Store =>
            s.nodeSigningPublicKey? claims.nodeId claims.keyVersion) with
        | none => return .error "invalid_bearer"
        | some publicKey =>
          let progress ← applyBatch cfg rc claims node publicKey ⟨0, 0, [], [], none⟩ events
          match progress.acceptedKeys, progress.rejected with
          | [], some (_, failure) => return .error failure.code
          | [], none => return .applied progress []
          | keys, _ =>
            let issuerEpoch ← Program.get Store.issuerEpoch
            if cfg.signer && ackIsValid claims.nodeId issuerEpoch acknowledgedAtMs keys then
              return .applied progress keys
            else return .error "service_unavailable"
  | _ => return .error "invalid_bearer"

end BlindPass.Controller
