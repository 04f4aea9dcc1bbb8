import BlindPass.Fleet.Documents
import BlindPass.Library.Table

/-!
# The tables of the controller store

Each table is an ordered map from its primary key to a row, and a row keeps the other
columns some transaction reads; columns that are only written (`completed_at`,
`decided_at`, `revoked_by`, audit rows) are left out. A status column is an inductive type, so a row
outside the column's `CHECK` cannot be built. Times are milliseconds of the database
clock.

The store has no operation or grant that was deleted: rows of these two tables stay for
ever, and only their status columns change.
-/

namespace BlindPass.Controller

open Fleet (NodeKeyRotation OperationCancellation SignedEnvelope)

/-! ### Rows -/

/-- `operations.status` -/
inductive OperationStatus
  | requested
  | awaitingApproval
  | granted
  | executing
  | completed
  | failed
  | uncertain
  | denied
  | revoked
  | cancelled
  deriving DecidableEq

instance : Fintype OperationStatus where
  elems := {.requested, .awaitingApproval, .granted, .executing, .completed, .failed, .uncertain,
    .denied, .revoked, .cancelled}
  complete := by
    intro status
    cases status <;> decide

/-- `operations.decision` -/
inductive Decision
  | allow
  | pendingApproval
  | deny
  deriving DecidableEq

/-- `operation_approvals.status` -/
inductive ApprovalStatus
  | pending
  | approved
  | rejected
  | expired
  deriving DecidableEq

/-- `grants.status` -/
inductive GrantStatus
  | issued
  | delivered
  | consumed
  | revoked
  | expired
  deriving DecidableEq

instance : Fintype GrantStatus where
  elems := {.issued, .delivered, .consumed, .revoked, .expired}
  complete := by
    intro status
    cases status <;> decide

/-- `nodes.status` and `workloads.status` -/
inductive RecordStatus
  | active
  | revoked
  deriving DecidableEq

/-- The operation was neither granted nor ended. -/
def OperationStatus.isPending : OperationStatus → Bool
  | .requested | .awaitingApproval => true
  | _ => false

/-- The operation holds a grant whose use is not settled. -/
def OperationStatus.isOpen : OperationStatus → Bool
  | .granted | .executing => true
  | _ => false

/-- The broker may still use the grant, as far as the controller knows. -/
def GrantStatus.isLive : GrantStatus → Bool
  | .issued | .delivered => true
  | _ => false

/-- `operations.result_json`, an object with at most these fields. -/
structure OperationResult where
  reason : Option String := none
  resultCode : Option String := none
  revocationResult : Option String := none
  deriving DecidableEq

/-- The columns of an operation that never change. -/
structure OperationRequest where
  workloadId : String
  nodeId : String
  invocationId : String
  action : String
  mode : ConsumptionMode
  resourceId : String
  requestedTtlSeconds : ℕ
  brokerEventKey : Option String
  requestedBy : String
  policyVersion : ℕ
  decision : Decision
  idempotencyKey : String
  requestHash : String
  createdAtMs : ℕ
  deriving DecidableEq

/-- A row of `operations`. The approval group is set once, at creation. -/
structure Operation extends OperationRequest where
  approvalId : Option String
  status : OperationStatus
  grantId : Option String
  result : Option OperationResult
  expiresAtMs : ℕ
  version : ℕ
  deriving DecidableEq

/-- What `group_scope_hash` digests: the authority that the members of a group share. The
column holds this value in place of its digest, so equal digests have equal contents. -/
structure GroupScope where
  nodeId : String
  workloadId : String
  unit : String
  account : String
  action : String
  mode : ConsumptionMode
  ruleId : String
  policyVersion : ℕ
  deriving DecidableEq

/-- A row of `operation_approvals`: the operations one decision is about. -/
structure OperationApproval where
  operationIds : List String
  ruleId : String
  status : ApprovalStatus
  decidedBy : Option String
  expiresAtMs : ℕ
  idempotencyKey : String
  decisionKeyHash : Option String
  version : ℕ
  createdAtMs : ℕ
  approverIds : List String
  groupScope : GroupScope
  deriving DecidableEq

/-- A row of `grants`: the signed body with the state of its use. -/
structure GrantRow where
  grant : Fleet.Grant
  status : GrantStatus
  consumedAtMs : Option ℕ
  brokerRevocationOutcome : Option String
  deriving DecidableEq

/-- A row of `grant_tombstones`. A tombstone of a clock fence is signed later. -/
structure Tombstone where
  nodeId : String
  reason : String
  createdAtMs : ℕ
  retainUntilMs : ℕ
  envelope : Option SignedEnvelope
  deriving DecidableEq

/-- A row of `workloads`. -/
structure Workload where
  nodeId : String
  name : String
  unit : String
  account : String
  consumptionMode : ConsumptionMode
  localCeilingSeconds : ℕ
  registrationVersion : ℕ
  status : RecordStatus
  version : ℕ
  deriving DecidableEq

/-- A row of `nodes`, with its entry in `node_revocation_queue`. -/
structure Node where
  name : String
  signingPub : String
  recipientPub : String
  keyVersion : ℕ
  status : RecordStatus
  protocolVersion : String
  capabilities : String
  lastSeenAtMs : Option ℕ
  revocationQueued : Bool
  deriving DecidableEq

/-- A row of `node_key_history`. -/
structure NodeKey where
  nodeId : String
  keyVersion : ℕ
  signingPub : String
  recipientPub : String
  retired : Bool
  deriving DecidableEq

/-- A row of `node_sessions`. -/
structure NodeSession where
  nodeId : String
  nonceHash : String
  tokenHash : String
  createdAtMs : ℕ
  expiresAtMs : ℕ
  revoked : Bool
  deliveredSeq : ℕ
  deriving DecidableEq

/-- A row of `node_inbox`. -/
structure InboxRow where
  nodeId : String
  seq : ℕ
  envelope : SignedEnvelope
  delivered : Bool
  ackedAtMs : Option ℕ
  deriving DecidableEq

/-- The fields of a node event's body that the store reads back. -/
structure NodeEventBody where
  nodeId : String
  workloadId : String
  invocationId : String
  action : String
  mode : ConsumptionMode
  deriving DecidableEq

/-- The kinds of node events the store tells apart. -/
inductive NodeEventKind
  | operationRequest
  | operationCancel
  | other
  deriving DecidableEq

/-- A row of `node_events`. -/
structure NodeEvent where
  id : String
  nodeId : String
  idempotencyKey : String
  kind : NodeEventKind
  body : Option NodeEventBody
  bodyHash : String
  receivedAtMs : ℕ
  deriving DecidableEq

/-- A rule of the fleet policy. -/
structure PolicyRule where
  id : String
  action : String
  mode : ConsumptionMode
  decision : Decision
  maxTtlSeconds : ℕ
  approverIds : List String
  deriving DecidableEq

/-- The row of `fleet_policies`. -/
structure FleetPolicy where
  version : ℕ
  rules : List PolicyRule
  deriving DecidableEq

/-- `operators.role` -/
inductive OperatorRole
  | admin
  | operator
  | viewer
  deriving DecidableEq

/-- An operator account, as far as a decision reads it. -/
structure Operator where
  username : String
  role : OperatorRole
  mustChangePassword : Bool
  disabled : Bool
  deriving DecidableEq

/-! ### The store -/

/-- The tables. The inbox of all nodes is one list in the order of insertion, which is
the order of the sequence numbers of each node. -/
structure Store where
  issuerEpoch : ℕ
  policy : Option FleetPolicy
  operators : Std.TreeMap String Operator
  nodes : Std.TreeMap String Node
  rotations : Std.TreeMap String NodeKeyRotation
  nodeKeys : List NodeKey
  workloads : Std.TreeMap String Workload
  operations : Std.TreeMap String Operation
  approvals : Std.TreeMap String OperationApproval
  grants : Std.TreeMap String GrantRow
  tombstones : Std.TreeMap String Tombstone
  sessions : Std.TreeMap String NodeSession
  inbox : List InboxRow
  nodeEvents : List NodeEvent

/-- Why a transaction failed; a failed transaction is rolled back. -/
inductive StoreError
  | invalidInput (what : String)
  | missingState (what : String)
  | database
  deriving DecidableEq

/-- What a store is configured with: whether it holds the fleet signer, and the two
digests its transactions compute. -/
structure Config where
  signer : Bool
  /-- `OperationCancellation::event_key`, of a valid cancellation -/
  cancellationKey : OperationCancellation → String
  /-- `node_key_fingerprint` of two encoded public keys -/
  keyFingerprint : String → String → Option String

namespace Store

variable (s : Store)

/-- The version of the fleet policy, 1 before the first replacement. -/
def policyVersion : ℕ := s.policy.elim 1 FleetPolicy.version

/-- The node exists and is active. -/
def nodeActive (nodeId : String) : Bool :=
  s.nodes[nodeId]?.any fun n => n.status == .active

/-- `UPDATE operations SET f WHERE p`. -/
def updateOperations (p : String → Operation → Bool) (f : Operation → Operation) : Store :=
  { s with operations := Table.updateWhere s.operations p f }

/-- `UPDATE operation_approvals SET f WHERE p`. -/
def updateApprovals (p : String → OperationApproval → Bool)
    (f : OperationApproval → OperationApproval) : Store :=
  { s with approvals := Table.updateWhere s.approvals p f }

/-- `UPDATE grants SET f WHERE p`. -/
def updateGrants (p : String → GrantRow → Bool) (f : GrantRow → GrantRow) : Store :=
  { s with grants := Table.updateWhere s.grants p f }

end Store

/-- The row with a new status. -/
def Operation.withStatus (o : Operation) (status : OperationStatus) : Operation :=
  { o with status := status, version := o.version + 1 }

/-- The row with a new status and the result that explains it. -/
def Operation.settle (o : Operation) (status : OperationStatus) (result : OperationResult) :
    Operation :=
  { o with status := status, result := some result, version := o.version + 1 }

/-- The pending group ends without a decision. -/
def OperationApproval.expire (a : OperationApproval) : OperationApproval :=
  { a with status := .expired, version := a.version + 1 }

/-- The group without one member; a group without members ends. -/
def OperationApproval.leave (a : OperationApproval) (operationId : String)
    (decider : Option String) : OperationApproval :=
  let ids := a.operationIds.filter (· != operationId)
  { a with
    operationIds := ids
    status := if ids.isEmpty then .expired else a.status
    decidedBy := if ids.isEmpty then decider.or a.decidedBy else a.decidedBy
    version := a.version + 1 }

/-- The grant row with another status. -/
def GrantRow.withStatus (g : GrantRow) (status : GrantStatus) : GrantRow :=
  { g with status := status }

end BlindPass.Controller
