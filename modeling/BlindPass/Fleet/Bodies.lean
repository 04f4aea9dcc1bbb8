import BlindPass.Fleet.Crypto

/-!
# The bodies of the controller's documents

Each document has its fields, how they are read, the checks it passes before it is written, and
the order of its fields in the written object, as the source has them.
-/

namespace BlindPass

namespace ConsumptionMode

def asStr : ConsumptionMode → String
  | file => "file"
  | socket => "socket"
  | browserSession => "browser_session"

def parse (value : String) : Option ConsumptionMode :=
  match value with
  | "file" => some file
  | "socket" => some socket
  | "browser_session" => some browserSession
  | _ => none

end ConsumptionMode

namespace Fleet

open Value (string unsigned)

/-! ### Registrations -/

def Registration.body : Body Registration where
  required := ["node_id", "workload_id", "unit", "account", "consumption_mode", "status",
    "registration_version", "policy_version", "local_ceiling_seconds"]
  optional := ["invocation_id"]
  read v := do
    let modeName ← requiredString v "consumption_mode"
    let consumptionMode ← orInvalid (ConsumptionMode.parse modeName) "consumption mode"
    let nodeId ← requiredString v "node_id"
    let workloadId ← requiredString v "workload_id"
    let unit ← requiredString v "unit"
    let account ← requiredString v "account"
    let invocationId ← optionalString v "invocation_id" "invocation id"
    let status ← requiredString v "status"
    let registrationVersion ← requiredNumber v "registration_version"
    let policyVersion ← requiredNumber v "policy_version"
    let localCeilingSeconds ← requiredNumber v "local_ceiling_seconds"
    return { nodeId, workloadId, unit, account, invocationId, status, consumptionMode,
             registrationVersion, policyVersion, localCeilingSeconds }
  check r := do
    validateOpaqueId r.nodeId "node id"
    validateOpaqueId r.workloadId "workload id"
    validateUnit r.unit
    validateAccount r.account
    ensure (r.invocationId.all isValidToken) "invocation id"
    ensure (["active", "revoked"].contains r.status) "registration status"
    validateCeiling r.localCeilingSeconds
    ensure (r.registrationVersion != 0 && r.policyVersion != 0) "registration or policy version"
  fields r :=
    [("account", string r.account), ("consumption_mode", string r.consumptionMode.asStr),
      ("local_ceiling_seconds", unsigned r.localCeilingSeconds), ("node_id", string r.nodeId),
      ("policy_version", unsigned r.policyVersion),
      ("registration_version", unsigned r.registrationVersion), ("status", string r.status),
      ("unit", string r.unit), ("workload_id", string r.workloadId)] ++
    optionalField "invocation_id" r.invocationId

/-! ### Grants -/

def Grant.body : Body Grant where
  required := ["id", "operation_id", "node_id", "workload_id", "invocation_id", "unit", "account",
    "resource_id", "recipient_key_id", "registration_version", "policy_version", "action", "mode",
    "audience", "issuer_epoch", "issued_at_ms", "expires_at_ms", "local_ceiling_seconds"]
  optional := ["approval_reference", "request_event_key"]
  read v := do
    let modeName ← requiredString v "mode"
    let mode ← orInvalid (ConsumptionMode.parse modeName) "consumption mode"
    let id ← requiredString v "id"
    let operationId ← requiredString v "operation_id"
    let nodeId ← requiredString v "node_id"
    let workloadId ← requiredString v "workload_id"
    let invocationId ← requiredString v "invocation_id"
    let unit ← requiredString v "unit"
    let account ← requiredString v "account"
    let resourceId ← requiredString v "resource_id"
    let recipientKeyId ← requiredString v "recipient_key_id"
    let registrationVersion ← requiredNumber v "registration_version"
    let policyVersion ← requiredNumber v "policy_version"
    let approvalReference ← optionalString v "approval_reference" "approval reference"
    let requestEventKey ← optionalString v "request_event_key" "request event key"
    let action ← requiredString v "action"
    let audience ← requiredString v "audience"
    let issuerEpoch ← requiredNumber v "issuer_epoch"
    let issuedAtMs ← requiredNumber v "issued_at_ms"
    let expiresAtMs ← requiredNumber v "expires_at_ms"
    let localCeilingSeconds ← requiredNumber v "local_ceiling_seconds"
    return { id, operationId, nodeId, workloadId, invocationId, unit, account, resourceId,
             recipientKeyId, registrationVersion, policyVersion, approvalReference,
             requestEventKey, action, mode, audience, issuerEpoch, issuedAtMs, expiresAtMs,
             localCeilingSeconds }
  check g := do
    validateOpaqueId g.id "grant id"
    validateOpaqueId g.operationId "operation id"
    validateOpaqueId g.nodeId "node id"
    validateOpaqueId g.workloadId "workload id"
    validateToken g.invocationId "invocation id"
    validateToken g.resourceId "resource id"
    validateUnit g.unit
    validateAccount g.account
    validateToken g.recipientKeyId "recipient key id"
    validateCeiling g.localCeilingSeconds
    ensure (g.registrationVersion != 0 && g.policyVersion != 0 && g.issuerEpoch != 0 &&
      g.issuedAtMs != 0 && g.issuedAtMs < g.expiresAtMs &&
      g.expiresAtMs - g.issuedAtMs ≤ 3600000 && g.audience == "blindpass-node" &&
      supportedOperationBinding g.action g.mode &&
      -- a browser session is shorter, and names the request it answers
      (g.mode != .browserSession ||
        (g.expiresAtMs - g.issuedAtMs ≤ 120000 && g.requestEventKey.isSome)))
      "grant binding or lifetime"
    ensure (g.approvalReference.all isValidToken) "approval reference"
    ensure (g.requestEventKey.all fun key => isValidOpaqueId key && 16 ≤ key.utf8ByteSize)
      "request event key"
  fields g :=
    [("account", string g.account), ("action", string g.action), ("audience", string g.audience),
      ("expires_at_ms", unsigned g.expiresAtMs), ("id", string g.id),
      ("invocation_id", string g.invocationId), ("issued_at_ms", unsigned g.issuedAtMs),
      ("issuer_epoch", unsigned g.issuerEpoch),
      ("local_ceiling_seconds", unsigned g.localCeilingSeconds), ("mode", string g.mode.asStr),
      ("node_id", string g.nodeId), ("operation_id", string g.operationId),
      ("policy_version", unsigned g.policyVersion), ("recipient_key_id", string g.recipientKeyId),
      ("registration_version", unsigned g.registrationVersion),
      ("resource_id", string g.resourceId), ("unit", string g.unit),
      ("workload_id", string g.workloadId)] ++
    (optionalField "approval_reference" g.approvalReference ++
      optionalField "request_event_key" g.requestEventKey)

/-! ### Revocations and closures -/

def Revocation.body : Body Revocation where
  required := ["grant_id", "node_id", "reason", "revoked_at_ms", "retain_until_ms", "issuer_epoch"]
  optional := []
  read v := do
    let grantId ← requiredString v "grant_id"
    let nodeId ← requiredString v "node_id"
    let reason ← requiredString v "reason"
    let revokedAtMs ← requiredNumber v "revoked_at_ms"
    let retainUntilMs ← requiredNumber v "retain_until_ms"
    let issuerEpoch ← requiredNumber v "issuer_epoch"
    return { grantId, nodeId, reason, revokedAtMs, retainUntilMs, issuerEpoch }
  check r := do
    validateOpaqueId r.grantId "grant id"
    validateOpaqueId r.nodeId "node id"
    ensure (["operator", "policy", "expired", "cancelled", "key_rotation"].contains r.reason &&
      r.revokedAtMs != 0 && r.revokedAtMs < r.retainUntilMs && r.issuerEpoch != 0)
      "revocation binding"
  fields r :=
    [("grant_id", string r.grantId), ("issuer_epoch", unsigned r.issuerEpoch),
      ("node_id", string r.nodeId), ("reason", string r.reason),
      ("retain_until_ms", unsigned r.retainUntilMs), ("revoked_at_ms", unsigned r.revokedAtMs)]

def OperationCancellation.body : Body OperationCancellation where
  required := ["node_id", "workload_id", "invocation_id", "request_event_key"]
  optional := []
  read v := do
    let nodeId ← requiredString v "node_id"
    let workloadId ← requiredString v "workload_id"
    let invocationId ← requiredString v "invocation_id"
    let requestEventKey ← requiredString v "request_event_key"
    return { nodeId, workloadId, invocationId, requestEventKey }
  check c := do
    validateOpaqueId c.nodeId "node id"
    validateOpaqueId c.workloadId "workload id"
    ensure (c.invocationId.utf8ByteSize == 32 &&
      (c.invocationId.toList.all fun c => c.isDigit || ('a' ≤ c && c ≤ 'f')) &&
      isValidEventKey c.requestEventKey) "operation cancellation binding"
  fields c :=
    [("node_id", string c.nodeId), ("workload_id", string c.workloadId),
      ("invocation_id", string c.invocationId), ("request_event_key", string c.requestEventKey)]

def OperationClosed.body : Body OperationClosed where
  required := ["node_id", "operation_id", "request_event_key", "status", "closed_at_ms",
    "issuer_epoch"]
  optional := []
  read v := do
    let nodeId ← requiredString v "node_id"
    let operationId ← requiredString v "operation_id"
    let requestEventKey ← requiredString v "request_event_key"
    let status ← requiredString v "status"
    let closedAtMs ← requiredNumber v "closed_at_ms"
    let issuerEpoch ← requiredNumber v "issuer_epoch"
    return { nodeId, operationId, requestEventKey, status, closedAtMs, issuerEpoch }
  check c := do
    validateOpaqueId c.nodeId "node id"
    validateOpaqueId c.operationId "operation id"
    validateOpaqueId c.requestEventKey "request event key"
    ensure (["rejected", "expired", "cancelled", "denied"].contains c.status && c.closedAtMs != 0 &&
      c.issuerEpoch != 0) "operation closure binding"
  fields c :=
    [("closed_at_ms", unsigned c.closedAtMs), ("issuer_epoch", unsigned c.issuerEpoch),
      ("node_id", string c.nodeId), ("operation_id", string c.operationId),
      ("request_event_key", string c.requestEventKey), ("status", string c.status)]

def NodeRevocation.body : Body NodeRevocation where
  required := ["node_id", "revoked_at_ms", "issuer_epoch"]
  optional := []
  read v := do
    let nodeId ← requiredString v "node_id"
    let revokedAtMs ← requiredNumber v "revoked_at_ms"
    let issuerEpoch ← requiredNumber v "issuer_epoch"
    return { nodeId, revokedAtMs, issuerEpoch }
  check r := do
    validateOpaqueId r.nodeId "node id"
    ensure (r.revokedAtMs != 0 && r.issuerEpoch != 0) "node revocation binding"
  fields r :=
    [("issuer_epoch", unsigned r.issuerEpoch), ("node_id", string r.nodeId),
      ("revoked_at_ms", unsigned r.revokedAtMs)]

/-- The controller's acknowledgement of node events. -/
structure ApplicationAck where
  nodeId : String
  issuerEpoch : ℕ
  acknowledgedAtMs : ℕ
  eventKeys : List String
  deriving DecidableEq

end Fleet

end BlindPass
