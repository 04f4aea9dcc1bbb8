import BlindPass.Controller.Approvals
import BlindPass.Library.U64

/-!
# Issuing and settling grants

A grant is signed outside the store, from a reading of the operation that may be old by
the time it is issued; issuing reads everything again and refuses a draft that no longer
fits. A grant is settled by the broker's report that it was used, or by a revocation, which
the broker answers with an outcome.
-/

namespace BlindPass.Controller

open Fleet (Grant Revocation SignedEnvelope isValidOpaqueId)

def tombstoneRetentionMs : ℕ := 7 * 24 * 60 * 60 * 1000

def nodeOfflineMs : ℕ := 120000

/-! ### Issuing -/

/-- A signed grant with the version of the operation it was drawn up for. -/
structure GrantIssueDraft where
  grant : Grant
  expectedOperationVersion : ℕ
  envelope : SignedEnvelope
  deriving DecidableEq

inductive GrantIssueOutcome
  | issued (ids : List String)
  | existing (ids : List String)
  | stale
  | conflict
  deriving DecidableEq

/-- What the store knows about an operation when its grant is issued. -/
structure GrantContext where
  operationId : String
  operation : Operation
  workloadId : String
  nodeId : String
  unit : String
  account : String
  mode : ConsumptionMode
  workloadCeiling : ℕ
  workloadStatus : RecordStatus
  nodeStatus : RecordStatus
  rotationPending : Bool
  recipientKeyVersion : ℕ
  approvalStatus : Option ApprovalStatus
  deriving DecidableEq

/-- A workload requested the operation itself, through its broker. -/
def OperationRequest.isWorkloadRequest (o : OperationRequest) : Bool :=
  "workload:".toList.isPrefixOf o.requestedBy.toList

/-- Check the drafts one after the other; `seen` are the operations of the earlier ones. -/
def validateDrafts : List String → List GrantIssueDraft → Except StoreError Unit
  | _, [] => .ok ()
  | seen, d :: rest =>
    if !d.grant.isValid then .error (.invalidInput "grant document")
    else if d.expectedOperationVersion == 0 || seen.contains d.grant.operationId ||
        d.envelope != ⟨d.grant.issuerEpoch, .grant d.grant⟩ then
      .error (.invalidInput "grant envelope binding")
    else validateDrafts (d.grant.operationId :: seen) rest

/-- The grants of operations that were all granted before. -/
def alreadyIssued (contexts : List GrantContext) : Option (List String) :=
  if contexts.isEmpty || contexts.any fun c => c.operation.status != .granted then none
  else contexts.mapM fun c => c.operation.grantId

/-- The draft's deadlines fit the clock, the operation and the workload. -/
def GrantIssueDraft.isTimely (d : GrantIssueDraft) (c : GrantContext) (now : ℕ) : Bool :=
  let ttlMs := (I64.checkedMul c.operation.requestedTtlSeconds 1000).getD 0
  decide (0 < d.grant.issuedAtMs) && decide (d.grant.issuedAtMs ≤ now + 5000) &&
    decide (now - d.grant.issuedAtMs ≤ 60000) && decide (now < c.operation.expiresAtMs) &&
    decide (now < d.grant.expiresAtMs) &&
    -- an allowed workload request is not stretched past its own deadline
    (!(c.operation.isWorkloadRequest && c.operation.decision == .allow) ||
      decide (d.grant.expiresAtMs ≤ c.operation.expiresAtMs)) &&
    decide (d.grant.expiresAtMs ≤ d.grant.issuedAtMs + ttlMs) &&
    decide (d.grant.expiresAtMs ≤ d.grant.issuedAtMs + c.workloadCeiling * 1000)

/-- The draft names what the store knows. The registration version is not compared. -/
def GrantIssueDraft.isBound (d : GrantIssueDraft) (c : GrantContext)
    (currentPolicy currentEpoch : ℕ) : Bool :=
  d.grant.id != d.grant.operationId && d.grant.operationId == c.operationId &&
    d.grant.nodeId == c.nodeId && d.grant.workloadId == c.workloadId &&
    d.grant.invocationId == c.operation.invocationId && d.grant.unit == c.unit &&
    d.grant.account == c.account && d.grant.resourceId == c.operation.resourceId &&
    d.grant.policyVersion == currentPolicy && c.operation.policyVersion == currentPolicy &&
    d.grant.action == c.operation.action && d.grant.mode == c.mode &&
    d.grant.audience == "blindpass-node" && d.grant.issuerEpoch == currentEpoch &&
    d.grant.recipientKeyId == c.nodeId ++ "-" ++ toString c.recipientKeyVersion &&
    d.grant.localCeilingSeconds == c.workloadCeiling &&
    d.grant.approvalReference == c.operation.approvalId

/-- The operation may be granted now. -/
def GrantContext.isAuthorized (c : GrantContext) (expectedVersion : ℕ) : Bool :=
  c.operation.version == expectedVersion && c.operation.decision != .deny &&
    c.operation.status == .requested && c.workloadStatus == .active &&
    c.nodeStatus == .active && !c.rotationPending &&
    c.approvalStatus.all fun status => status == .approved

/-- The draft may be issued in the context. -/
def grantMatchesContext (d : GrantIssueDraft) (c : GrantContext)
    (currentPolicy currentEpoch now : ℕ) : Bool :=
  d.isTimely c now && d.isBound c currentPolicy currentEpoch &&
    c.isAuthorized d.expectedOperationVersion

/-- The operation with its new grant. -/
def Operation.grant (o : Operation) (g : Grant) : Operation :=
  { o with
    status := .granted
    grantId := some g.id
    expiresAtMs := g.expiresAtMs
    version := o.version + 1 }

namespace Store

variable (s : Store)

/-- The operation joined with its workload, its node and its approval group. The node's
identity is the workload's, its state and key are the operation's node's. -/
def grantContext? (operationId : String) : Option GrantContext :=
  match s.operations[operationId]? with
  | none => none
  | some o =>
    match s.workloads[o.workloadId]?, s.nodes[o.nodeId]? with
    | some w, some n =>
      some
        { operationId := operationId
          operation := o
          workloadId := o.workloadId
          nodeId := w.nodeId
          unit := w.unit
          account := w.account
          mode := w.consumptionMode
          workloadCeiling := w.localCeilingSeconds
          workloadStatus := w.status
          nodeStatus := n.status
          rotationPending := s.rotations.contains o.nodeId
          recipientKeyVersion := n.keyVersion
          approvalStatus := (o.approvalId.bind fun id => s.approvals[id]?).map
            OperationApproval.status }
    | _, _ => none

/-- Close the request of an operation that lost its authority, if a workload made it. -/
def closeDenied (cfg : Config) (closed : ℕ) (c : GrantContext) : Except StoreError Store :=
  if !c.operation.isWorkloadRequest then .ok s
  else if !cfg.signer then .error (.missingState "browser denial issuer")
  else s.enqueueClosures cfg (s.closureTargets fun k _ => k == c.operationId) "denied" closed

/-- Deny operations whose drafts no longer fit. -/
def denyStale (cfg : Config) (contexts : List GrantContext) (closed : ℕ) :
    Except StoreError Store :=
  let ids := contexts.map GrantContext.operationId
  let denied := s.updateOperations (fun k o => ids.contains k && o.status == .requested)
    fun o => o.withStatus .denied
  contexts.foldlM (fun s c => s.closeDenied cfg closed c) denied

/-- Turn one draft into a grant. -/
def issueGrant (d : GrantIssueDraft) : Except StoreError Store :=
  if s.grants.contains d.grant.id ||
      s.grants.toList.any fun e => e.2.grant.operationId == d.grant.operationId then
    .error .database
  else if !s.operations[d.grant.operationId]?.any fun o =>
      o.status == .requested && o.version == d.expectedOperationVersion then
    .error (.invalidInput "grant operation changed during issuance")
  else
    let row : GrantRow := ⟨d.grant, .issued, none, none⟩
    let inserted := { s with grants := s.grants.insert d.grant.id row }
    let granted := inserted.updateOperations
      (fun k o => k == d.grant.operationId && o.status == .requested &&
        o.version == d.expectedOperationVersion)
      fun o => o.grant d.grant
    .ok (granted.enqueueNodeDocument d.grant.nodeId d.envelope)

/-- What the store knows about the drafts' operations, as far as they exist. -/
def grantContexts (drafts : List GrantIssueDraft) : List GrantContext :=
  drafts.filterMap fun d => s.grantContext? d.grant.operationId

/-- Some draft no longer fits. -/
def anyStale (drafts : List GrantIssueDraft) (now : ℕ) : Bool :=
  (drafts.zip (s.grantContexts drafts)).any fun e =>
    !grantMatchesContext e.1 e.2 s.policyVersion s.issuerEpoch now

/-- Issue a group of grants: all of them, or none. -/
def issueOperationGrants (cfg : Config) (drafts : List GrantIssueDraft) (now closed : ℕ) :
    Except StoreError (Store × GrantIssueOutcome) :=
  if drafts.isEmpty || decide (10 < drafts.length) then
    .error (.invalidInput "grant group size")
  else do
    validateDrafts [] drafts
    let contexts := s.grantContexts drafts
    match alreadyIssued contexts with
    | some ids => return (s, .existing ids)
    | none =>
      if contexts.length != drafts.length || contexts.any (fun c =>
          c.operation.status != .requested || c.operation.grantId.isSome ||
            c.operation.version == 0) then
        return (s, .conflict)
      else if s.anyStale drafts now then
        let denied ← s.denyStale cfg contexts closed
        return (denied, .stale)
      else
        let issued ← drafts.foldlM (fun s d => s.issueGrant d) s
        return (issued, .issued (drafts.map fun d => d.grant.id))

end Store

/-! ### Revoking -/

inductive GrantRevocationOutcome
  | revoked (grantId : String) (offline : Bool)
  | consumed (grantId : String) (consumerLifetimeSeconds : ℕ)
  | notFound
  | conflict
  deriving DecidableEq

/-- The least time a tombstone is kept. -/
def minimumRetention (now expiresAtMs : ℕ) : Option ℕ :=
  I64.checkedAdd (max now expiresAtMs) tombstoneRetentionMs

theorem minimumRetention_eq {now expiresAtMs retain : ℕ}
    (h : minimumRetention now expiresAtMs = some retain) :
    retain = max now expiresAtMs + tombstoneRetentionMs := by
  unfold minimumRetention I64.checkedAdd at h
  split at h
  · exact (Option.some.inj h).symm
  · cases h

/-- The revocation an envelope carries, if it is the expected one. -/
def validateRevocationEnvelope (envelope : SignedEnvelope) (grantId nodeId reason : String) :
    Except StoreError Revocation :=
  match envelope.body with
  | .revocation r =>
    if !r.isValid then .error (.invalidInput "revocation body")
    else if envelope.epoch != r.issuerEpoch || r.grantId != grantId || r.nodeId != nodeId ||
        r.reason != reason then
      .error (.invalidInput "revocation document binding")
    else .ok r
  | _ => .error (.invalidInput "revocation body")

/-- The revocation was signed about now, and is remembered long enough. -/
def validateRevocationTime (r : Revocation) (now expiresAtMs : ℕ) : Except StoreError Unit :=
  (minimumRetention now expiresAtMs).elim (.error (.invalidInput "tombstone retention"))
    fun minimum =>
    if r.revokedAtMs < now - 60000 ∨ now + 5000 < r.revokedAtMs ∨ r.retainUntilMs < minimum then
      .error (.invalidInput "revocation time or retention")
    else .ok ()

/-- The node was not heard from for too long. -/
def Node.isOffline (n : Node) (now : ℕ) : Bool :=
  n.lastSeenAtMs.all fun seen => decide (nodeOfflineMs < now - seen)

namespace Store

variable (s : Store)

/-- Withdraw a live grant together with its operation. -/
def revokeGrantRow (grantId : String) (p : String → Operation → Bool) (reason : String) : Store :=
  (s.updateGrants (fun k g => k == grantId && g.status.isLive)
    fun g => g.withStatus .revoked).updateOperations (fun k o => p k o && o.status.isOpen)
      fun o => o.settle .revoked { reason := some reason }

/-- Insert a tombstone; a grant has at most one. -/
def insertTombstone (grantId : String) (t : Tombstone) : Except StoreError Store :=
  if s.tombstones.contains grantId then .error .database
  else .ok { s with tombstones := s.tombstones.insert grantId t }

/-- Revoke a grant on an operator's behalf. -/
def revokeGrant (grantId reason : String) (envelope : SignedEnvelope) (now : ℕ) :
    Except StoreError (Store × GrantRevocationOutcome) :=
  if reason ≠ "operator" ∧ reason ≠ "cancelled" then
    .error (.invalidInput "grant revocation reason")
  else
    match s.grants[grantId]? with
    | none => .ok (s, .notFound)
    | some g =>
      match s.workloads[g.grant.workloadId]?, s.nodes[g.grant.nodeId]?,
          s.operations[g.grant.operationId]? with
      | some w, some n, some o =>
        if g.status = .consumed ∨ (g.status = .revoked ∧ g.consumedAtMs.isSome) then
          .ok (s, .consumed grantId w.localCeilingSeconds)
        else if g.status = .revoked then .ok (s, .revoked grantId (n.isOffline now))
        else if !g.status.isLive || decide (g.grant.expiresAtMs ≤ now) || !o.status.isOpen then
          .ok (s, .conflict)
        else do
          let r ← validateRevocationEnvelope envelope grantId g.grant.nodeId reason
          validateRevocationTime r now g.grant.expiresAtMs
          let revoked := s.revokeGrantRow grantId (fun k _ => k == g.grant.operationId) reason
          let buried ← revoked.insertTombstone grantId
            ⟨g.grant.nodeId, reason, now, r.retainUntilMs, some envelope⟩
          return (buried.enqueueNodeDocument g.grant.nodeId envelope,
            .revoked grantId (n.isOffline now))
      | _, _, _ => .ok (s, .notFound)

end Store

/-! ### Reports of the broker -/

/-- The status a broker reports. -/
inductive ResultStatus
  | completed
  | uncertain
  deriving DecidableEq

/-- The result codes a broker reports. -/
inductive ResultCode
  | markerCreated
  | browserSessionClosed
  | resultUncertain
  deriving DecidableEq

/-- A result code as it is stored. -/
def ResultCode.text : ResultCode → String
  | .markerCreated => "marker_created"
  | .browserSessionClosed => "browser_session_closed"
  | .resultUncertain => "result_uncertain"

/-- A broker-signed report of an execution. -/
structure NodeResult where
  grantId : String
  operationId : String
  status : ResultStatus
  resultCode : ResultCode
  observedAtMs : ℕ
  deriving DecidableEq

def revokedAfterConsumption : String := "grant_revoked_after_consumption"

/-- The result of an operation whose grant was revoked after its use; the earlier reason
and any result code stay. -/
def withRevocationResult (existing : Option OperationResult) (code : Option ResultCode) :
    OperationResult :=
  let fields := existing.getD {}
  { fields with
    revocationResult := some revokedAfterConsumption
    resultCode := (code.map ResultCode.text).or fields.resultCode }

/-- The code can come from a use of the grant. -/
def resultMatchesGrant (code : ResultCode) (g : Grant) : Bool :=
  match code with
  | .browserSessionClosed => g.action == "browser.session" && g.mode == .browserSession
  | .markerCreated => g.action == "noop.marker" && (g.mode == .file || g.mode == .socket)
  | .resultUncertain => true

/-- The stored result confirms an execution. -/
def OperationResult.isConfirmed (r : OperationResult) : Bool :=
  r.resultCode == some ResultCode.markerCreated.text ||
    r.resultCode == some ResultCode.browserSessionClosed.text

/-- How a report moves its operation: the next status and result, or nothing. -/
def resultTransition (status : ResultStatus) (current : OperationStatus)
    (existing : Option OperationResult) (code : ResultCode) :
    Except StoreError (Option (OperationStatus × OperationResult)) :=
  let result : OperationResult := { resultCode := some code.text }
  match status, current with
  | .completed, .granted | .completed, .executing | .completed, .uncertain =>
    .ok (some (.completed, result))
  | .uncertain, .granted => .ok (some (.executing, result))
  | .completed, .completed | .uncertain, .executing | .uncertain, .completed
  | .uncertain, .uncertain => .ok none
  | _, .revoked =>
    -- the revocation stands; confirmed evidence does not regress to a provisional result
    if status = .uncertain ∧ existing.any OperationResult.isConfirmed then .ok none
    else
      let merged := withRevocationResult existing (some code)
      .ok (if existing = some merged then none else some (.revoked, merged))
  | _, .cancelled | _, .failed => .ok none
  | _, _ => .error (.invalidInput "node result operation state")

/-- The grant, used: whatever its status was, the time of the first report stays. -/
def GrantRow.consume (g : GrantRow) (now : ℕ) : GrantRow :=
  { g with
    status := if g.status.isLive then .consumed else g.status
    consumedAtMs := g.consumedAtMs.or (some now) }

namespace Store

variable (s : Store)

/-- Apply a report of an execution. -/
def reconcileNodeOperationResult (nodeId : String) (result : NodeResult) (now : ℕ) :
    Except StoreError Store :=
  if !isValidOpaqueId result.grantId then .error (.invalidInput "node result grant")
  else if !isValidOpaqueId result.operationId then .error (.invalidInput "node result operation")
  else if !Fleet.isPositiveInteger result.observedAtMs then
    .error (.invalidInput "node result time")
  else if (result.status == .completed) != (result.resultCode != .resultUncertain) then
    .error (.invalidInput "node result binding")
  else
    match s.grants[result.grantId]?, s.operations[result.operationId]? with
    | some g, some o =>
      if g.grant.nodeId != nodeId || g.grant.operationId != result.operationId ||
          !resultMatchesGrant result.resultCode g.grant then
        .error (.invalidInput "node result binding")
      else do
        let transition ← resultTransition result.status o.status o.result result.resultCode
        -- any report proves that the grant was received and used
        let consumed := s.updateGrants (fun k _ => k == result.grantId) fun g => g.consume now
        match transition with
        | none => return consumed
        | some (next, value) =>
          return consumed.updateOperations
            (fun k c => k == result.operationId && c.status == o.status)
            fun c => c.settle next value
    | _, _ => .error (.invalidInput "node result binding")

/-- `already_consumed`, the outcome of a revocation that came too late -/
def alreadyConsumed : String := "already_consumed"

/-- Apply a report of a revocation. A recorded outcome never changes. -/
def applyGrantRevocationOutcome (nodeId grantId outcome : String) (now : ℕ) : Store × Bool :=
  match s.grants[grantId]? with
  | none => (s, false)
  | some g =>
    match s.operations[g.grant.operationId]? with
    | none => (s, false)
    | some o =>
      if g.grant.nodeId ≠ nodeId ∨ g.status ≠ .revoked then (s, false)
      else
        match g.brokerRevocationOutcome with
        | some recorded => (s, recorded == outcome)
        | none =>
          let recorded := s.updateGrants
            (fun k g => k == grantId && g.brokerRevocationOutcome.isNone)
            fun g => { g with
              brokerRevocationOutcome := some outcome
              consumedAtMs := if outcome == alreadyConsumed then g.consumedAtMs.or (some now)
                else g.consumedAtMs }
          let merged := withRevocationResult o.result none
          if outcome = alreadyConsumed ∧ o.status = .revoked ∧ o.result ≠ some merged then
            (recorded.updateOperations
              (fun k o => k == g.grant.operationId && o.status == .revoked)
              fun o => { o with result := some merged, version := o.version + 1 }, true)
          else (recorded, true)

end Store

end BlindPass.Controller
