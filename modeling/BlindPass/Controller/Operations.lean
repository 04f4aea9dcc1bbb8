import BlindPass.Controller.Grants

/-!
# Requesting and cancelling operations

An operation is requested by an operator, or by a workload through its broker; the policy
decides at once, and a request that needs approval joins a group. A workload may cancel
its own browser request at any later time, whatever became of it.
-/

namespace BlindPass.Controller

open Fleet (OperationCancellation OperationClosed Revocation SignedEnvelope)

/-- A verified broker event that requests a browser operation. -/
structure BrokerOperationEvent where
  id : String
  nodeId : String
  key : String
  body : NodeEventBody
  bodyHash : String
  observedAtMs : ℕ
  deriving DecidableEq

/-- What a request is made of. The approval part is used if the decision needs approval. -/
structure OperationDraft where
  id : String
  request : OperationRequest
  expiresAtMs : ℕ
  expectedUnit : String
  expectedAccount : String
  effectiveTtlSeconds : ℕ
  approval : OperationApprovalDraft
  deriving DecidableEq

inductive OperationCreateOutcome
  | created (operation : Operation)
  | existing (id : String) (operation : Operation)
  | conflict
  | stale
  deriving DecidableEq

/-- The database clock during a request: at its checks, when the group is read, when the
row is written, and when the request is closed again. -/
structure CreationClock where
  now : ℕ
  grouped : ℕ
  created : ℕ
  closed : ℕ
  deriving DecidableEq

/-- The status of a new operation. -/
def Decision.initialStatus : Decision → OperationStatus
  | .allow => .requested
  | .pendingApproval => .awaitingApproval
  | .deny => .denied

/-- The evidence is missing, too old or from the future. -/
def BrokerOperationEvent.isStale (event : BrokerOperationEvent) (now : ℕ) : Bool :=
  event.observedAtMs == 0 || decide (60000 < now - event.observedAtMs) ||
    decide (now + 60000 < event.observedAtMs)

/-- The request is the one the broker signed. -/
def OperationDraft.isBoundTo (draft : OperationDraft) (event : BrokerOperationEvent) : Bool :=
  draft.request.nodeId == event.nodeId && draft.request.brokerEventKey == some event.key &&
    draft.request.action == "browser.session" && draft.request.mode == .browserSession &&
    draft.request.requestHash == event.bodyHash &&
    draft.request.requestedBy == "workload:" ++ draft.request.workloadId

/-- The cancellation a browser request would have. -/
def OperationRequest.cancellation (r : OperationRequest) (eventKey : String) :
    OperationCancellation :=
  ⟨r.nodeId, r.workloadId, r.invocationId, eventKey⟩

namespace Store

variable (s : Store)

/-- The workload and its node are active, and the workload is what the request says. -/
def workloadFits (draft : OperationDraft) : Bool :=
  (s.workloads[draft.request.workloadId]?.any fun w =>
    w.nodeId == draft.request.nodeId && w.unit == draft.expectedUnit &&
      w.account == draft.expectedAccount && w.consumptionMode == draft.request.mode &&
      decide (draft.effectiveTtlSeconds ≤ w.localCeilingSeconds) && w.status == .active) &&
    s.nodeActive draft.request.nodeId

/-- The request was cancelled, or its broker event belongs to another operation. -/
def eventKeyTaken (cfg : Config) (r : OperationRequest) : Except StoreError Bool :=
  match r.brokerEventKey with
  | none => .ok false
  | some key =>
    let used := s.operations.toList.any fun e =>
      e.2.nodeId == r.nodeId && e.2.brokerEventKey == some key
    if r.mode = .browserSession then
      if !(r.cancellation key).isValid then .error (.invalidInput "cancellation key")
      else
        let cancelled := (s.nodeEvent? r.nodeId (cfg.cancellationKey (r.cancellation key))).any
          fun e => e.kind == .operationCancel
        .ok (cancelled || used)
    else .ok used

/-- The request joins a group if the policy asks for approval. -/
def joinApproval (draft : OperationDraft) (now : ℕ) : Except StoreError (Store × Option String) :=
  match draft.request.decision with
  | .pendingApproval => do
    let (joined, approvalId) ← s.createOrExtendApproval draft.id draft.approval now
    return (joined, some approvalId)
  | _ => .ok (s, none)

/-- Insert the operation's row. -/
def insertOperation (draft : OperationDraft) (approvalId : Option String) (created : ℕ) :
    Except StoreError (Store × Operation) :=
  let row : Operation :=
    { draft.request with
      createdAtMs := created
      approvalId := approvalId
      status := draft.request.decision.initialStatus
      grantId := none
      result := none
      expiresAtMs := draft.expiresAtMs
      version := 1 }
  if s.operations.contains draft.id then .error .database
  else .ok ({ s with operations := s.operations.insert draft.id row }, row)

/-- Write a new operation with everything that comes with it. -/
def insertRequest (cfg : Config) (draft : OperationDraft) (clock : CreationClock) :
    Except StoreError (Store × OperationCreateOutcome) := do
  let (joined, approvalId) ← s.joinApproval draft clock.grouped
  let (inserted, row) ← joined.insertOperation draft approvalId clock.created
  -- a policy denial at request time closes the broker request
  if row.status = .denied then
    let closed ← inserted.enqueueClosures cfg
      (inserted.closureTargets fun k _ => k == draft.id) "denied" clock.closed
    return (closed, .created row)
  else return (inserted, .created row)

/-- Record the evidence of a browser request. A receipt without its operation cannot give
authority again. -/
def insertReceipt (event : Option BrokerOperationEvent) (receipt : Bool) (now : ℕ) :
    Except StoreError Store :=
  match event with
  | none => .ok s
  | some e =>
    if receipt then .error (.missingState "browser request operation")
    else s.insertNodeEvent
      ⟨e.id, e.nodeId, e.key, .operationRequest, some e.body, e.bodyHash, now⟩

/-- The operation a requester created with this key. -/
def operationByKey? (requestedBy idempotencyKey : String) : Option (String × Operation) :=
  s.operations.toList.find? fun e =>
    e.2.requestedBy == requestedBy && e.2.idempotencyKey == idempotencyKey

/-- Create an operation, once for each requester and key. -/
def createOperation (cfg : Config) (draft : OperationDraft) (event : Option BrokerOperationEvent)
    (clock : CreationClock) : Except StoreError (Store × OperationCreateOutcome) :=
  if event.isSome && !cfg.signer then .error (.missingState "browser request issuer")
  else if event.any fun e => !draft.isBoundTo e then
    .error (.invalidInput "browser request binding")
  else
    let recorded := event.bind fun e => s.nodeEvent? e.nodeId e.key
    if recorded.any fun r =>
        r.kind != .operationRequest || event.any fun e => r.bodyHash != e.bodyHash then
      .ok (s, .conflict)
    else
      match s.operationByKey? draft.request.requestedBy draft.request.idempotencyKey with
      | some (id, existing) =>
        if event.isSome && recorded.isNone then .error (.missingState "browser request receipt")
        else if existing.requestHash = draft.request.requestHash then .ok (s, .existing id existing)
        else .ok (s, .conflict)
      | none => do
        if ← s.eventKeyTaken cfg draft.request then return (s, .conflict)
        else if s.policyVersion ≠ draft.request.policyVersion then return (s, .stale)
        else if draft.expiresAtMs ≤ clock.now ∨ (event.any fun e => e.isStale clock.now) = true then
          return (s, .stale)
        else if !s.workloadFits draft then return (s, .stale)
        else
          let noted ← s.insertReceipt event recorded.isSome clock.now
          noted.insertRequest cfg draft clock

end Store

/-! ### Cancellation by the workload -/

/-- The signed revocation of a cancelled operation's grant. -/
def cancellationRevocation (grantId nodeId : String) (now retain epoch : ℕ) :
    Except StoreError SignedEnvelope :=
  let body : Revocation :=
    { grantId := grantId
      nodeId := nodeId
      reason := "cancelled"
      revokedAtMs := now
      retainUntilMs := retain
      issuerEpoch := epoch }
  if body.isValid then .ok ⟨epoch, .revocation body⟩
  else .error (.invalidInput "cancellation revocation")

/-- The signed closure that answers a cancellation. -/
def cancellationClosure (request : OperationCancellation) (operationId : String)
    (now epoch : ℕ) : Except StoreError SignedEnvelope :=
  let body : OperationClosed :=
    { nodeId := request.nodeId
      operationId := operationId
      requestEventKey := request.requestEventKey
      status := "cancelled"
      closedAtMs := now
      issuerEpoch := epoch }
  if body.isValid then .ok ⟨epoch, .operationClosed body⟩
  else .error (.invalidInput "cancellation closure")

/-- The grant, withdrawn or used, as a cancellation finds it. -/
def GrantRow.wasConsumed (g : GrantRow) : Bool := g.status == .consumed || g.consumedAtMs.isSome

/-- What a cancellation makes of an operation: a pending one is cancelled, one with open
authority is revoked, and any other keeps its status. -/
def Operation.cancel (o : Operation) (consumed : Bool) : Operation :=
  match o.status with
  | .requested | .awaitingApproval =>
    o.settle .cancelled { reason := some "workload_cancelled" }
  | .granted | .executing | .uncertain =>
    o.settle .revoked
      (if consumed then withRevocationResult o.result none
        else { reason := some "workload_cancelled" })
  | _ =>
    if consumed then
      { o with result := some (withRevocationResult o.result none), version := o.version + 1 }
    else o

namespace Store

variable (s : Store)

/-- The operation leaves its pending group. -/
def leaveApproval (operationId : String) (o : Operation) : Except StoreError Store :=
  match o.status, o.approvalId with
  | .awaitingApproval, some approvalId =>
    match s.approvals[approvalId]? with
    | none => .error .database
    | some a =>
      if a.status ≠ .pending then .ok s
      else if !a.operationIds.contains operationId then
        .error (.invalidInput "cancellation approval membership")
      else .ok (s.updateApprovals (fun k a => k == approvalId && a.status == .pending)
        fun a => a.leave operationId none)
  | _, _ => .ok s

/-- Withdraw the operation's grant, used or not. The answer says whether it was used. -/
def withdrawGrant (nodeId operationId : String) (o : Operation) (now : ℕ) :
    Except StoreError (Store × Bool) :=
  match o.grantId with
  | none => .ok (s, false)
  | some grantId =>
    match s.grants[grantId]? with
    | none => .error .database
    | some g =>
      if g.grant.nodeId ≠ nodeId ∨ g.grant.operationId ≠ operationId then .error .database
      else if g.status = .revoked then .ok (s, g.wasConsumed)
      else
        match minimumRetention now g.grant.expiresAtMs with
        | none => .error (.invalidInput "cancellation retention")
        | some retain => do
          let envelope ← cancellationRevocation grantId nodeId now retain s.issuerEpoch
          -- used browser authority is withdrawn too, so the status is not asked for
          let revoked := s.updateGrants (fun k _ => k == grantId) fun g => g.withStatus .revoked
          let buried := { revoked with
            tombstones := if s.tombstones.contains grantId then s.tombstones
              else s.tombstones.insert grantId ⟨nodeId, "cancelled", now, retain, some envelope⟩ }
          return (buried.enqueueNodeDocument nodeId envelope, g.wasConsumed)

/-- Withdraw everything an operation still has. -/
def cancelOperation (request : OperationCancellation) (operationId : String) (o : Operation)
    (now : ℕ) : Except StoreError Store :=
  if o.workloadId != request.workloadId || o.invocationId != request.invocationId ||
      o.action != "browser.session" || o.mode != .browserSession then
    .error (.invalidInput "cancellation operation mismatch")
  else do
    let left ← s.leaveApproval operationId o
    let (withdrawn, consumed) ← left.withdrawGrant request.nodeId operationId o now
    return withdrawn.updateOperations (fun k _ => k == operationId) fun o => o.cancel consumed

/-- The recorded request is the one to be cancelled. -/
def ownsRequest (request : OperationCancellation) (body : NodeEventBody) : Bool :=
  body.nodeId == request.nodeId && body.workloadId == request.workloadId &&
    body.invocationId == request.invocationId && body.action == "browser.session" &&
    body.mode == .browserSession

/-- Cancel the operation of a request. A request without an operation gets an identifier of
its own for the answer. -/
def cancelRequested (nodeId key : String) (request : OperationCancellation) (now : ℕ) :
    Except StoreError (String × Store) :=
  match Table.select s.operations fun _ o =>
      o.nodeId == nodeId && o.brokerEventKey == some request.requestEventKey with
  | [] => .ok ("op_" ++ key, s)
  | [(id, o)] => do
    let cancelled ← s.cancelOperation request id o now
    return (id, cancelled)
  | _ => .error (.invalidInput "ambiguous cancellation evidence")

/-- Apply a verified browser cancellation. -/
def applyBrowserCancellation (cfg : Config) (nodeId key bodyHash : String)
    (request : OperationCancellation) (now : ℕ) : Except StoreError (Store × NodeEventInsert) :=
  if !request.isValid then .error (.invalidInput "cancellation binding")
  else if request.nodeId ≠ nodeId ∨ cfg.cancellationKey request ≠ key then
    .error (.invalidInput "cancellation node/key")
  else if !cfg.signer then .error (.missingState "fleet cancellation issuer")
  else
    match s.nodeEvent? nodeId key with
    | some prior => .ok (s, if prior.bodyHash == bodyHash then .duplicate else .conflict)
    | none =>
      let original := (s.nodeEvent? nodeId request.requestEventKey).bind fun e =>
        if e.kind == .operationRequest && s.nodes.contains nodeId then e.body else none
      match original with
      | none => .error (.invalidInput "cancellation request evidence")
      | some body =>
        if !ownsRequest request body then .error (.invalidInput "cancellation owner mismatch")
        else do
          let (operationId, cancelled) ← s.cancelRequested nodeId key request now
          let closure ← cancellationClosure request operationId now s.issuerEpoch
          let told := cancelled.enqueueNodeDocument nodeId closure
          let noted ← told.insertNodeEvent
            ⟨"ne_" ++ key, nodeId, key, .operationCancel, none, bodyHash, now⟩
          return (noted, .inserted)

end Store

end BlindPass.Controller
