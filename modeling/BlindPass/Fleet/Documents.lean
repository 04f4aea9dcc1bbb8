import BlindPass.Fleet.Value

/-!
# The signed documents of the fleet channel

The controller signs grants, registrations, policy snapshots, revocations, operation
closures, key rotations and time replies; the node's broker verifies the signature and
acts on the contents. This file holds the contents, under the field names of the wire
format, with the checks a body passes before it is signed. Signatures and the canonical
encoding stay outside: a document that reaches a function of the model has already been
verified.
-/

namespace BlindPass

/-- How a workload receives the secret a grant releases. -/
inductive ConsumptionMode
  | file
  | socket
  | browserSession
  deriving DecidableEq

namespace Fleet

/-- A grant: the authority for one consumption by one workload of one node. -/
structure Grant where
  id : String
  operationId : String
  nodeId : String
  workloadId : String
  invocationId : String
  unit : String
  account : String
  resourceId : String
  recipientKeyId : String
  registrationVersion : ℕ
  policyVersion : ℕ
  approvalReference : Option String
  requestEventKey : Option String
  action : String
  mode : ConsumptionMode
  audience : String
  issuerEpoch : ℕ
  issuedAtMs : ℕ
  expiresAtMs : ℕ
  localCeilingSeconds : ℕ
  deriving DecidableEq

/-- The registration of a workload at its node. -/
structure Registration where
  nodeId : String
  workloadId : String
  unit : String
  account : String
  invocationId : Option String
  status : String
  consumptionMode : ConsumptionMode
  registrationVersion : ℕ
  policyVersion : ℕ
  localCeilingSeconds : ℕ
  deriving DecidableEq

/-- The part of the fleet policy a node enforces itself. -/
structure PolicySnapshot where
  policyVersion : ℕ
  localCeilingSeconds : ℕ
  allowedActions : List String
  allowedModes : List ConsumptionMode
  deriving DecidableEq

/-- The controller's answer to a time challenge. Both times are the controller's: when
the challenge arrived, and when the answer was stamped. -/
structure TimeReply where
  nodeId : String
  challenge : String
  challengeReceivedAtMs : ℕ
  controllerTimeMs : ℕ
  issuerEpoch : ℕ
  deriving DecidableEq

/-- The revocation of a grant, to be remembered until `retainUntilMs`. -/
structure Revocation where
  grantId : String
  nodeId : String
  reason : String
  revokedAtMs : ℕ
  retainUntilMs : ℕ
  issuerEpoch : ℕ
  deriving DecidableEq

/-- The end of an operation the broker still waits for. -/
structure OperationClosed where
  nodeId : String
  operationId : String
  requestEventKey : String
  status : String
  closedAtMs : ℕ
  issuerEpoch : ℕ
  deriving DecidableEq

/-- The end of a node's authority. -/
structure NodeRevocation where
  nodeId : String
  revokedAtMs : ℕ
  issuerEpoch : ℕ
  deriving DecidableEq

/-- A key pair the broker generated, approved to replace the node's current one. -/
structure NodeKeyRotation where
  nodeId : String
  rotationId : String
  fromKeyVersion : ℕ
  toKeyVersion : ℕ
  signingPublic : String
  recipientPublic : String
  fingerprint : String
  issuerEpoch : ℕ
  deriving DecidableEq

/-- A workload's request to stop its own browser operation. -/
structure OperationCancellation where
  nodeId : String
  workloadId : String
  invocationId : String
  requestEventKey : String
  deriving DecidableEq

/-- A document of a node's inbox. Documents about provisioning and fulfillment are `foreign`
here: no part that handles grants looks into them. -/
inductive Document
  | registration (body : Registration)
  | policySnapshot (body : PolicySnapshot)
  | grant (body : Grant)
  | revocation (body : Revocation)
  | nodeRevocation (body : NodeRevocation)
  | nodeKeyRotation (body : NodeKeyRotation)
  | operationClosed (body : OperationClosed)
  | foreign (kind content : String)
  deriving DecidableEq

def Document.isRegistration : Document → Bool
  | .registration _ => true
  | _ => false

def Document.isPolicySnapshot : Document → Bool
  | .policySnapshot _ => true
  | _ => false

/-- A signed document with the epoch of the key that signed it. -/
structure SignedEnvelope where
  epoch : ℕ
  body : Document
  deriving DecidableEq

/-! ### Checks on a body -/

def maxOpaqueIdBytes : ℕ := 128

/-- An identifier the documents may carry. -/
def isValidOpaqueId (value : String) : Bool :=
  !value.isEmpty && value.utf8ByteSize ≤ maxOpaqueIdBytes &&
    value.toList.all fun c => c.isAlphanum || c == '_' || c == '-'

/-- The kinds of events a node sends. -/
def nodeEventKinds : List String :=
  ["operation_request", "operation_result", "operation_cancel", "recipient_offer", "audit",
    "fulfillment_offer", "fulfillment_submit", "fulfillment_result"]

/-- A number a body may carry where zero has no meaning. -/
def isPositiveInteger (n : ℕ) : Bool := 0 < n && n ≤ maxSafeInteger

theorem isPositiveInteger_iff {n : ℕ} :
    isPositiveInteger n = true ↔ 0 < n ∧ n ≤ 9007199254740991 := by
  rw [isPositiveInteger, Bool.and_eq_true, decide_eq_true_iff, decide_eq_true_iff, maxSafeInteger]

/-- `validate_token` -/
def isValidToken (value : String) : Bool :=
  !value.isEmpty && value.utf8ByteSize ≤ 128 &&
    value.toList.all fun c => c.isAlphanum || c == '.' || c == '_' || c == ':' || c == '-'

/-- `validate_unit` -/
def isValidUnit (value : String) : Bool :=
  value.utf8ByteSize ≤ 255 && ".service".toList.isSuffixOf value.toList &&
    value.toList.all fun c =>
      c.isAlphanum || c == '_' || c == '.' || c == '@' || c == ':' || c == '-'

/-- A decimal user id other than root's, without leading zeros. -/
def isUidSelector (digits : List Char) : Bool :=
  let uid := digits.foldl (fun n c => 10 * n + (c.toNat - '0'.toNat)) 0
  !digits.isEmpty && digits.all Char.isDigit && digits.head? != some '0' && uid < 2 ^ 32

/-- A constrained account name, or `uid:` with a user id. -/
def isValidAccountIdentifier (value : String) : Bool :=
  let accountName := value.utf8ByteSize ≤ 32 && !value.isEmpty &&
    value.toList.all fun c => c.isLower || c.isDigit || c == '_' || c == '.' || c == '-'
  let uidSelector := "uid:".toList.isPrefixOf value.toList && isUidSelector (value.toList.drop 4)
  accountName || uidSelector

/-- `validate_ceiling` -/
def isValidCeiling (seconds : ℕ) : Bool := 1 ≤ seconds && seconds ≤ 3600

/-- The actions a grant may carry, each with its modes. -/
def supportedOperationBinding (action : String) (mode : ConsumptionMode) : Bool :=
  match mode with
  | .file | .socket => action == "noop.marker"
  | .browserSession => action == "browser.session"

/-- The checks of `Grant::to_value`. -/
def Grant.isValid (g : Grant) : Bool :=
  isValidOpaqueId g.id && isValidOpaqueId g.operationId && isValidOpaqueId g.nodeId &&
    isValidOpaqueId g.workloadId && isValidToken g.invocationId && isValidToken g.resourceId &&
    isValidUnit g.unit && isValidAccountIdentifier g.account && isValidToken g.recipientKeyId &&
    isValidCeiling g.localCeilingSeconds && isPositiveInteger g.registrationVersion &&
    isPositiveInteger g.policyVersion && isPositiveInteger g.issuerEpoch &&
    isPositiveInteger g.issuedAtMs && isPositiveInteger g.expiresAtMs &&
    g.issuedAtMs < g.expiresAtMs && g.expiresAtMs - g.issuedAtMs ≤ 3600000 &&
    g.audience == "blindpass-node" && supportedOperationBinding g.action g.mode &&
    -- a browser session is shorter, and names the request it answers
    (g.mode != .browserSession ||
      (g.expiresAtMs - g.issuedAtMs ≤ 120000 && g.requestEventKey.isSome))

theorem Grant.fields_of_isValid {g : Grant} (h : g.isValid = true) :
    isValidOpaqueId g.id = true ∧ isValidOpaqueId g.nodeId = true ∧
      supportedOperationBinding g.action g.mode = true := by
  simp only [Grant.isValid, Bool.and_eq_true, and_assoc] at h
  obtain ⟨hid, -, hnode, -, -, -, -, -, -, -, -, -, -, -, -, -, -, -, hbinding, -⟩ := h
  exact ⟨hid, hnode, hbinding⟩

/-- The checks of `Revocation::to_value`. -/
def Revocation.isValid (r : Revocation) : Bool :=
  isValidOpaqueId r.grantId && isValidOpaqueId r.nodeId &&
    ["operator", "policy", "expired", "cancelled", "key_rotation"].contains r.reason &&
    isPositiveInteger r.revokedAtMs && isPositiveInteger r.retainUntilMs &&
    r.revokedAtMs < r.retainUntilMs && isPositiveInteger r.issuerEpoch

/-- The checks of `OperationClosed::to_value`. -/
def OperationClosed.isValid (c : OperationClosed) : Bool :=
  isValidOpaqueId c.nodeId && isValidOpaqueId c.operationId &&
    isValidOpaqueId c.requestEventKey &&
    ["rejected", "expired", "cancelled", "denied"].contains c.status &&
    isPositiveInteger c.closedAtMs && isPositiveInteger c.issuerEpoch

/-- The checks of `NodeRevocation::to_value`. -/
def NodeRevocation.isValid (r : NodeRevocation) : Bool :=
  isValidOpaqueId r.nodeId && isPositiveInteger r.revokedAtMs && isPositiveInteger r.issuerEpoch

def isValidEventKey (value : String) : Bool :=
  16 ≤ value.utf8ByteSize && value.utf8ByteSize ≤ 128 &&
    value.toList.all fun c => c.isAlphanum || c == '_' || c == '-'

/-- The checks of `OperationCancellation::to_value`. -/
def OperationCancellation.isValid (c : OperationCancellation) : Bool :=
  isValidOpaqueId c.nodeId && isValidOpaqueId c.workloadId && c.invocationId.utf8ByteSize == 32 &&
    (c.invocationId.toList.all fun c => c.isDigit || ('a' ≤ c && c ≤ 'f')) &&
    isValidEventKey c.requestEventKey

end Fleet

/-- What the broker established about the peer of a local request. -/
structure WorkloadAuthorization where
  nodeId : String
  workloadId : String
  unit : String
  invocationId : String
  operation : String
  deriving DecidableEq

end BlindPass
