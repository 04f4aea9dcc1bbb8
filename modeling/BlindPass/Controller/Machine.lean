import BlindPass.Library.Execution
import BlindPass.Controller.Transactions.Maintenance

/-!
# Runs of the controller store

A run is a sequence of the store's transactions, in any order and with any arguments: any
caller, any reading of the clock, documents and drafts signed at any earlier time. A transaction
that fails leaves the store as it was. The checks that a route makes before its transaction are
steps of their own, with any other transactions in between.

That transactions run one at a time is so on SQLite, where each starts by taking the one write
lock of the database. On PostgreSQL most lock the row of `controller_meta` first, but the
reconciliation of a node's result and its inbox poll do not: a cancellation may there overwrite
a result that was committed after it read the operation.
-/

namespace BlindPass.Controller

open Execution (Machine Transition)
open Fleet (OperationCancellation SignedEnvelope isValidOpaqueId)

/-- The transactions, with their arguments and their readings of the database clock. The
accounts of operators are managed elsewhere and may change to anything. -/
inductive Event
  | manageOperators (operators : Std.TreeMap String Operator)
  /-- A route lets an operator in: it reads the account behind the session. -/
  | requireApprovalOperator (operatorId : String)
  | createOperation (draft : OperationDraft) (event : Option BrokerOperationEvent)
      (clock : CreationClock)
  | decideOperationApproval (input : OperationDecision) (clock : DecisionClock)
  | cancelAwaitingOperation (operationId cancelledBy : String) (closed : ℕ)
  | applyBrowserCancellation (nodeId key bodyHash : String) (request : OperationCancellation)
      (now : ℕ)
  | issueOperationGrants (drafts : List GrantIssueDraft) (now closed : ℕ)
  | revokeGrant (grantId reason : String) (envelope : SignedEnvelope) (now : ℕ)
  | reconcileNodeOperationResult (nodeId : String) (result : NodeResult) (now : ℕ)
  | applyGrantRevocationOutcome (nodeId grantId outcome : String) (now : ℕ)
  | createWorkload (id : String) (record : Workload) (registration policy : SignedEnvelope)
  | updateWorkload (id : String) (expectedVersion : ℕ) (change : WorkloadChange)
      (nodeId : String) (registration policy : SignedEnvelope) (now closed : ℕ)
  | revokeWorkload (id nodeId : String) (expectedVersion : ℕ)
      (registration policy : SignedEnvelope) (now closed : ℕ)
  | replaceFleetPolicy (expectedVersion : ℕ) (rules : List PolicyRule)
      (nodeDocuments : List (String × SignedEnvelope))
  | approveEnrollment (enrollment : Enrollment) (now : ℕ)
  | revokeNode (nodeId : String) (revocations : List NodeGrantRevocationDraft)
      (nodeRevocation : SignedEnvelope) (now : ℕ)
  | finalizeNodeRevocation (nodeId : String) (now : ℕ)
  | stageNodeKeyRotation (nodeId : String) (expectedKeyVersion : ℕ)
      (draft : NodeKeyRotationDraft) (now expired : ℕ)
  | completeNodeKeyRotation (nodeId rotationId : String) (keyVersion : ℕ) (fingerprint : String)
  | createNodeSession (draft : NodeSessionDraft) (now : ℕ)
  | authenticateNodeSession (sessionId nodeId tokenHash : String) (keyVersion issuerEpoch : ℕ)
      (protocolVersion : String) (now : ℕ)
  | pollNodeInbox (nodeId sessionId : String) (ackSeq : Option ℕ) (now : ℕ)
  | recordNodeEvent (event : NodeEvent)
  | expireFleetState (clock : SweepClock)
  | fleetFencePurge (now : ℕ)
  | pruneFleetState (now : ℕ)
  /-- A document about provisioning or fulfillment. -/
  | queueForeignDocument (nodeId kind content : String)

/-- What the caller of a transaction gets back. -/
inductive Answer
  | failed (error : StoreError)
  | done
  /-- The identifier and the name of the operator, unless the route refuses the request. -/
  | letIn (operator : Option (String × String))
  | accepted (ok : Bool)
  | created (outcome : OperationCreateOutcome)
  | decided (outcome : OperationDecisionOutcome)
  | cancelled (outcome : OperationCancelOutcome)
  | issued (outcome : GrantIssueOutcome)
  | revoked (outcome : GrantRevocationOutcome)
  | recorded (outcome : NodeEventInsert)
  | polled (documents : List InboxDocument)
  | swept (summary : FleetExpirySummary)
  | fenced (purged : FleetFencePurge)
  deriving DecidableEq

/-- The documents a poll answered with. -/
def Answer.documents : Answer → List InboxDocument
  | .polled documents => documents
  | _ => []

namespace Store

variable (s : Store)

/-- The transaction is committed, or rolled back if it failed. -/
def commit {α : Type} (answer : α → Answer) : Except StoreError (Store × α) → Store × Answer
  | .ok (s', a) => (s', answer a)
  | .error e => (s, .failed e)

/-- Run a transaction. `bytes` is the size of a document on the wire. -/
def step (cfg : Config) (bytes : SignedEnvelope → ℕ) : Event → Store × Answer
  | .manageOperators operators => ({ s with operators := operators }, .done)
  | .requireApprovalOperator operatorId =>
    (s, .letIn ((s.operators[operatorId]?.filter (·.mayDecide)).map (operatorId, ·.username)))
  | .createOperation draft event clock =>
    s.commit .created (s.createOperation cfg draft event clock)
  | .decideOperationApproval input clock =>
    s.commit .decided (s.decideOperationApproval cfg input clock)
  | .cancelAwaitingOperation operationId cancelledBy closed =>
    s.commit .cancelled (s.cancelAwaitingOperation cfg operationId cancelledBy closed)
  | .applyBrowserCancellation nodeId key bodyHash request now =>
    s.commit .recorded (s.applyBrowserCancellation cfg nodeId key bodyHash request now)
  | .issueOperationGrants drafts now closed =>
    s.commit .issued (s.issueOperationGrants cfg drafts now closed)
  | .revokeGrant grantId reason envelope now =>
    s.commit .revoked (s.revokeGrant grantId reason envelope now)
  | .reconcileNodeOperationResult nodeId result now =>
    s.commit (fun _ : Unit => .done) ((s.reconcileNodeOperationResult nodeId result now).map (·, ()))
  | .applyGrantRevocationOutcome nodeId grantId outcome now =>
    (s.applyGrantRevocationOutcome nodeId grantId outcome now).map id .accepted
  | .createWorkload id record registration policy =>
    s.commit .accepted (s.createWorkload id record registration policy)
  | .updateWorkload id expectedVersion change nodeId registration policy now closed =>
    s.commit .accepted
      (s.updateWorkload cfg id expectedVersion change nodeId registration policy now closed)
  | .revokeWorkload id nodeId expectedVersion registration policy now closed =>
    s.commit .accepted
      (s.revokeWorkload cfg id nodeId expectedVersion registration policy now closed)
  | .replaceFleetPolicy expectedVersion rules nodeDocuments =>
    s.commit .accepted (s.replaceFleetPolicy expectedVersion rules nodeDocuments)
  | .approveEnrollment enrollment now => s.commit .accepted (s.approveEnrollment enrollment now)
  | .revokeNode nodeId revocations nodeRevocation now =>
    s.commit .accepted (s.revokeNode nodeId revocations nodeRevocation now)
  | .finalizeNodeRevocation nodeId now => (s.finalizeNodeRevocation nodeId now, .done)
  | .stageNodeKeyRotation nodeId expectedKeyVersion draft now expired =>
    s.commit .accepted (s.stageNodeKeyRotation cfg nodeId expectedKeyVersion draft now expired)
  | .completeNodeKeyRotation nodeId rotationId keyVersion fingerprint =>
    (s.completeNodeKeyRotation cfg nodeId rotationId keyVersion fingerprint).map id .accepted
  | .createNodeSession draft now => s.commit .accepted (s.createNodeSession draft now)
  | .authenticateNodeSession sessionId nodeId tokenHash keyVersion issuerEpoch protocolVersion now =>
    (s.authenticateNodeSession sessionId nodeId tokenHash keyVersion issuerEpoch protocolVersion
      now).map id .accepted
  | .pollNodeInbox nodeId sessionId ackSeq now =>
    s.commit .polled (s.pollNodeInbox bytes nodeId sessionId ackSeq now)
  | .recordNodeEvent event => s.commit .recorded (s.recordNodeEvent event)
  | .expireFleetState clock => s.commit .swept (s.expireFleetState cfg clock)
  | .fleetFencePurge now => (s.fleetFencePurge now).map id .fenced
  | .pruneFleetState now => (s.pruneFleetState now, .done)
  | .queueForeignDocument nodeId kind content =>
    (s.enqueueNodeDocument nodeId ⟨s.issuerEpoch, .foreign kind content⟩, .done)

/-- A store before its first transaction: an issuer epoch, a policy and operators. -/
def initial (issuerEpoch : ℕ) (policy : Option FleetPolicy)
    (operators : Std.TreeMap String Operator) : Store where
  issuerEpoch := issuerEpoch
  policy := policy
  operators := operators
  nodes := ∅
  rotations := ∅
  nodeKeys := []
  workloads := ∅
  operations := ∅
  approvals := ∅
  grants := ∅
  tombstones := ∅
  sessions := ∅
  inbox := []
  nodeEvents := []

theorem coherent_initial {issuerEpoch : ℕ} {policy : Option FleetPolicy}
    {operators : Std.TreeMap String Operator} :
    Coherent (initial issuerEpoch policy operators) where
  owned := by
    intro id g hg
    exact absurd hg (by simp [initial])
  held := by
    intro key o id ho
    exact absurd ho (by simp [initial])
  ungranted := by
    intro key o ho
    exact absurd ho (by simp [initial])
  grouped := by
    intro key o id ho
    exact absurd ho (by simp [initial])
  tombstones := by
    intro id t envelope ht
    exact absurd ht (by simp [initial])
  entombed := by
    intro id t ht
    exact absurd ht (by simp [initial])

end Store

/-- What the routes see to before they start a transaction: identifiers have been checked or are
generated, a request's action goes with its mode and its group has its scope, and registrations
and policies are signed as such. -/
def Event.Admitted : Event → Prop
  | .createOperation draft _ _ =>
    isValidOpaqueId draft.id = true ∧
      Fleet.supportedOperationBinding draft.request.action draft.request.mode = true ∧
      draft.request.brokerEventKey.all isValidOpaqueId = true ∧
      draft.approval.groupScope = draft.groupScope
  | .issueOperationGrants _ now _ => now ≤ latestInstant
  | .createWorkload _ _ registration policy | .updateWorkload _ _ _ _ registration policy _ _
  | .revokeWorkload _ _ _ registration policy _ _ =>
    registration.body.isRegistration = true ∧ policy.body.isPolicySnapshot = true
  | .replaceFleetPolicy _ _ nodeDocuments => ∀ d ∈ nodeDocuments, d.2.body.isPolicySnapshot = true
  | .approveEnrollment enrollment _ => isValidOpaqueId enrollment.nodeId = true
  | .fleetFencePurge now => 0 < now ∧ now ≤ latestInstant
  | _ => True

instance : ∀ e : Event, Decidable e.Admitted
  | .createOperation draft _ _ =>
    inferInstanceAs (Decidable (isValidOpaqueId draft.id = true ∧
      Fleet.supportedOperationBinding draft.request.action draft.request.mode = true ∧
      draft.request.brokerEventKey.all isValidOpaqueId = true ∧
      draft.approval.groupScope = draft.groupScope))
  | .issueOperationGrants _ now _ => inferInstanceAs (Decidable (now ≤ latestInstant))
  | .createWorkload _ _ registration policy | .updateWorkload _ _ _ _ registration policy _ _
  | .revokeWorkload _ _ _ registration policy _ _ =>
    inferInstanceAs (Decidable (registration.body.isRegistration = true ∧
      policy.body.isPolicySnapshot = true))
  | .replaceFleetPolicy _ _ nodeDocuments =>
    inferInstanceAs (Decidable (∀ d ∈ nodeDocuments, d.2.body.isPolicySnapshot = true))
  | .approveEnrollment enrollment _ =>
    inferInstanceAs (Decidable (isValidOpaqueId enrollment.nodeId = true))
  | .fleetFencePurge now => inferInstanceAs (Decidable (0 < now ∧ now ≤ latestInstant))
  | .manageOperators _ | .requireApprovalOperator _ | .decideOperationApproval _ _
  | .cancelAwaitingOperation _ _ _ | .applyBrowserCancellation _ _ _ _ _
  | .revokeGrant _ _ _ _ | .reconcileNodeOperationResult _ _ _
  | .applyGrantRevocationOutcome _ _ _ _ | .revokeNode _ _ _ _ | .finalizeNodeRevocation _ _
  | .stageNodeKeyRotation _ _ _ _ _ | .completeNodeKeyRotation _ _ _ _ | .createNodeSession _ _
  | .authenticateNodeSession _ _ _ _ _ _ _ | .pollNodeInbox _ _ _ _ | .recordNodeEvent _
  | .expireFleetState _ | .pruneFleetState _ | .queueForeignDocument _ _ _ => .isTrue trivial

/-- The controller store. -/
def controller (cfg : Config) (bytes : SignedEnvelope → ℕ) : Machine Store Event Answer where
  Start s := ∃ issuerEpoch policy operators, Fleet.isPositiveInteger issuerEpoch = true ∧
    s = Store.initial issuerEpoch policy operators
  Admits _ e := e.Admitted
  step s e := s.step cfg bytes e

instance {cfg : Config} {bytes : SignedEnvelope → ℕ} (s : Store) (e : Event) :
    Decidable ((controller cfg bytes).Admits s e) :=
  inferInstanceAs (Decidable e.Admitted)

/-! ### The statements of a transaction -/

/-- The kinds of statements a transaction makes in the state `s`. The last kinds of the
five transactions that end operations without an answer depend on whether they do. -/
def Event.kinds (s : Store) : Event → List Kind
  | .manageOperators _ | .authenticateNodeSession _ _ _ _ _ _ _ | .recordNodeEvent _
  | .approveEnrollment _ _ | .completeNodeKeyRotation _ _ _ _ => [.administer]
  | .requireApprovalOperator _ => []
  | .createOperation _ _ _ => [.administer, .regroup, .create, .tell]
  | .decideOperationApproval _ _ => [.regroup, .close, .approve]
  | .cancelAwaitingOperation _ _ _ => [.regroup, .close]
  | .applyBrowserCancellation _ _ _ _ _ => [.regroup, .administer, .tell, .cancel]
  | .issueOperationGrants drafts now _ =>
    [.issue, if s.deniesUnclosed drafts now then .abandon else .close]
  | .revokeGrant _ _ _ _ => [.withdraw]
  | .reconcileNodeOperationResult _ _ _ => [.consume]
  | .applyGrantRevocationOutcome _ _ _ _ => [.report]
  | .createWorkload _ _ _ _ | .replaceFleetPolicy _ _ _ | .createNodeSession _ _ =>
    [.administer, .tell]
  | .updateWorkload _ _ _ _ _ _ _ _ | .revokeWorkload _ _ _ _ _ _ _ =>
    [.withdraw, .administer, .tell, .regroup, .close]
  | .revokeNode nodeId _ _ now => [.withdraw, .administer, .tell, .regroup, .close,
      if s.failsDelivered nodeId now then .fail else .lapse]
  | .finalizeNodeRevocation _ _ | .pruneFleetState _ => [.administer, .mark]
  | .stageNodeKeyRotation nodeId _ _ now _ => [.withdraw, .administer, .tell, .regroup,
      if s.expiresGranted nodeId now then .expire else .lapse,
      if s.cancelsUnclosed nodeId then .abandon else .close]
  | .pollNodeInbox _ _ _ _ => [.mark, .deliver]
  | .expireFleetState clock => [.regroup, .close, .lapse, .sign,
      if s.overdueBetween clock.targets clock.operations then .abandon else .close]
  | .fleetFencePurge _ =>
    [.regroup, if s.fencesUnclosed then .abandon else .close, .withdraw, .administer]
  | .queueForeignDocument _ _ _ => [.tell]

/-- The reading of the clock that dates the revocations of a transaction. -/
def Event.time : Event → ℕ
  | .applyBrowserCancellation _ _ _ _ now | .revokeGrant _ _ _ now
  | .updateWorkload _ _ _ _ _ _ now _ | .revokeWorkload _ _ _ _ _ now _ | .revokeNode _ _ _ now
  | .stageNodeKeyRotation _ _ _ now _ | .fleetFencePurge now => now
  | _ => 0

variable {cfg : Config} {time : ℕ} {bytes : SignedEnvelope → ℕ} {K : List Kind} {s : Store} {e : Event}

/-- The transactions that add operations or grants. -/
theorem Event.adds_rows (h : .create ∈ e.kinds s ∨ .issue ∈ e.kinds s) :
    (∃ draft event clock, e = .createOperation draft event clock) ∨
      ∃ drafts now closed, e = .issueOperationGrants drafts now closed := by
  cases e with
  | createOperation draft event clock => exact .inl ⟨draft, event, clock, rfl⟩
  | issueOperationGrants drafts now closed => exact .inr ⟨drafts, now, closed, rfl⟩
  | _ => simp [Event.kinds, eq_ite_iff] at h

variable {α : Type} {envelope : SignedEnvelope} {run : List (Transition Store Event Answer)}

variable {answer : α → Answer} {result : Except StoreError (Store × α)}

theorem Store.commit_writes (h : ∀ s' a, result = .ok (s', a) → Writes cfg time K s s') :
    Writes cfg time K s (s.commit answer result).1 := by
  rcases hresult : result with error | ⟨s', a⟩
  · exact .refl
  · exact h s' a hresult

theorem Store.commit_documents (h : ∀ a, (answer a).documents = []) :
    (s.commit answer result).2.documents = [] := by
  rcases result with error | ⟨s', a⟩
  · rfl
  · exact h a

/-- Only polls answer with documents. -/
theorem Store.step_documents (h : (s.step cfg bytes e).2.documents ≠ []) :
    ∃ nodeId sessionId ackSeq now, e = .pollNodeInbox nodeId sessionId ackSeq now := by
  cases e with
  | pollNodeInbox nodeId sessionId ackSeq now => exact ⟨nodeId, sessionId, ackSeq, now, rfl⟩
  | manageOperators _ | requireApprovalOperator _ | applyGrantRevocationOutcome _ _ _ _
  | finalizeNodeRevocation _ _
  | completeNodeKeyRotation _ _ _ _ | authenticateNodeSession _ _ _ _ _ _ _ | fleetFencePurge _
  | pruneFleetState _ | queueForeignDocument _ _ _ => exact absurd rfl h
  | _ => exact absurd (Store.commit_documents fun _ => rfl) h

theorem deliveredGrantId_registration (h : envelope.body.isRegistration = true) :
    deliveredGrantId envelope = none := by
  unfold deliveredGrantId
  cases hbody : envelope.body with
  | grant => exact absurd (hbody ▸ h) nofun
  | _ => rfl

theorem deliveredGrantId_policySnapshot (h : envelope.body.isPolicySnapshot = true) :
    deliveredGrantId envelope = none := by
  unfold deliveredGrantId
  cases hbody : envelope.body with
  | grant => exact absurd (hbody ▸ h) nofun
  | _ => rfl

variable (cfg bytes) in
/-- A transaction is made of statements of its kinds. -/
theorem step_writes (hs : Coherent s) (hadm : e.Admitted) :
    Writes cfg e.time (e.kinds s) s (s.step cfg bytes e).1 := by
  cases e with
  | manageOperators =>
    exact .single (Write.administer (.of_tables rfl .refl)) (by simp [Event.kinds])
  | requireApprovalOperator => exact .refl
  | createOperation =>
    exact Store.commit_writes fun s' _ h =>
      Store.createOperation_writes ⟨hadm.1, hadm.2.1, hadm.2.2.1, hadm.2.2.2⟩ h
  | decideOperationApproval =>
    exact Store.commit_writes fun s' _ h => Store.decideOperationApproval_writes h
  | cancelAwaitingOperation =>
    exact Store.commit_writes fun s' _ h => Store.cancelAwaitingOperation_writes h
  | applyBrowserCancellation =>
    exact Store.commit_writes fun s' _ h => Store.applyBrowserCancellation_writes hs h
  | issueOperationGrants =>
    exact Store.commit_writes fun s' _ h => Store.issueOperationGrants_writes hadm h
  | revokeGrant =>
    exact Store.commit_writes fun s' _ h => Store.revokeGrant_writes hs h
  | reconcileNodeOperationResult nodeId result now =>
    refine Store.commit_writes fun s' _ h => ?_
    rcases hresult : s.reconcileNodeOperationResult nodeId result now with error | t
    · rw [hresult] at h
      cases h
    · rw [hresult] at h
      cases h
      exact Store.reconcileNodeOperationResult_writes hs hresult
  | applyGrantRevocationOutcome =>
    exact Store.applyGrantRevocationOutcome_writes
  | createWorkload =>
    exact Store.commit_writes fun s' _ h => Store.createWorkload_writes
      (deliveredGrantId_policySnapshot hadm.2) (deliveredGrantId_registration hadm.1) h
  | updateWorkload =>
    exact Store.commit_writes fun s' _ h => Store.updateWorkload_writes hs
      (deliveredGrantId_policySnapshot hadm.2) (deliveredGrantId_registration hadm.1) h
  | revokeWorkload =>
    exact Store.commit_writes fun s' _ h => Store.revokeWorkload_writes hs
      (deliveredGrantId_policySnapshot hadm.2) (deliveredGrantId_registration hadm.1) h
  | replaceFleetPolicy =>
    exact Store.commit_writes fun s' _ h => Store.replaceFleetPolicy_writes
      (fun d hd => deliveredGrantId_policySnapshot (hadm d hd)) h
  | approveEnrollment =>
    exact Store.commit_writes fun s' _ h => Store.approveEnrollment_writes hadm h
  | revokeNode =>
    exact Store.commit_writes fun s' _ h => Store.revokeNode_writes hs h
  | finalizeNodeRevocation => exact Store.finalizeNodeRevocation_writes
  | stageNodeKeyRotation =>
    exact Store.commit_writes fun s' _ h => Store.stageNodeKeyRotation_writes hs h
  | completeNodeKeyRotation =>
    exact Store.completeNodeKeyRotation_writes
  | createNodeSession =>
    exact Store.commit_writes fun s' _ h => Store.createNodeSession_writes hs h
  | authenticateNodeSession =>
    exact Store.authenticateNodeSession_writes
  | pollNodeInbox =>
    exact Store.commit_writes fun s' _ h => Store.pollNodeInbox_writes h
  | recordNodeEvent =>
    exact Store.commit_writes fun s' _ h => Store.recordNodeEvent_writes h
  | expireFleetState =>
    exact Store.commit_writes fun s' _ h => Store.expireFleetState_writes hs h
  | fleetFencePurge => exact Store.fleetFencePurge_writes hs hadm.1 hadm.2
  | pruneFleetState => exact Store.pruneFleetState_writes
  | queueForeignDocument => exact .single (Write.tell rfl) (by simp [Event.kinds])

theorem Run.sound (h : (controller cfg bytes).Run run s) : Sound s := by
  suffices hboth : Coherent s ∧ Sound s from hboth.2
  refine h.invariant (P := fun s => Coherent s ∧ Sound s) ?_ ?_
  · rintro s ⟨issuerEpoch, policy, operators, hepoch, rfl⟩
    refine ⟨Store.coherent_initial, hepoch, ?_, ?_, ?_, ?_⟩
    · intro id n hn
      exact absurd hn (by simp [Store.initial])
    · intro key o ho
      exact absurd ho (by simp [Store.initial])
    · intro id g hg
      exact absurd hg (by simp [Store.initial])
    · intro id t ht
      exact absurd ht (by simp [Store.initial])
  · rintro s e ⟨hs, hsound⟩ hadm
    have hw := step_writes cfg bytes hs hadm
    exact ⟨hw.coherent hs, hw.sound hsound⟩

theorem Run.coherent (h : (controller cfg bytes).Run run s) : Coherent s := by
  refine h.invariant ?_ ?_
  · rintro s ⟨issuerEpoch, policy, operators, -, rfl⟩
    exact Store.coherent_initial
  · intro s e hs hadm
    exact (step_writes _ _ hs hadm).coherent hs

/-! ### A store to evaluate -/

namespace Sample

/-- A store with an issuer. -/
def config : Config where
  signer := true
  cancellationKey request := "cancel-" ++ request.requestEventKey
  keyFingerprint signing recipient := some (signing ++ "-" ++ recipient)

def operators : Std.TreeMap String Operator :=
  Std.TreeMap.insert (Std.TreeMap.insert ∅ "alice" ⟨"alice", .admin, false, false⟩)
    "bob" ⟨"bob", .operator, false, false⟩

/-- Two operators and no policy yet. -/
def start : Store := .initial 1 none operators

theorem start_admitted : (controller config fun _ => 100).Start start :=
  ⟨1, none, _, by decide, rfl⟩

def enrollment : Enrollment := ⟨"node-1", "edge", "sign-1", "seal-1", "1", "none", 5000⟩

def workload : Workload :=
  { nodeId := "node-1"
    name := "backup"
    unit := "backup.service"
    account := "backup"
    consumptionMode := .file
    localCeilingSeconds := 60
    registrationVersion := 1
    status := .active
    version := 1 }

def registration : SignedEnvelope :=
  ⟨1, .registration ⟨"node-1", "workload-1", "backup.service", "backup", none, "active", .file, 1, 1,
    60⟩⟩

def snapshot : SignedEnvelope := ⟨1, .policySnapshot ⟨1, 60, ["noop.marker"], [.file]⟩⟩

/-- A request of an operator for the workload, as the broker's event backs it. -/
def request (decision : Decision) : OperationRequest :=
  { workloadId := "workload-1"
    nodeId := "node-1"
    invocationId := "invocation-1"
    action := "noop.marker"
    mode := .file
    resourceId := "resource-1"
    requestedTtlSeconds := 60
    brokerEventKey := some "event-key-000001"
    requestedBy := "alice"
    policyVersion := 1
    decision := decision
    idempotencyKey := "key-1"
    requestHash := "hash-1"
    createdAtMs := 2000 }

def draft (decision : Decision) : OperationDraft :=
  { id := "operation-1"
    request := request decision
    expiresAtMs := 62000
    expectedUnit := "backup.service"
    expectedAccount := "backup"
    effectiveTtlSeconds := 60
    approval :=
      { id := "approval-1"
        idempotencyKey := "approval-for-operation-1"
        ruleId := "rule-1"
        expiresAtMs := 62000
        approverIds := ["bob"]
        groupScope := ⟨"node-1", "workload-1", "backup.service", "backup", "noop.marker", .file,
          "rule-1", 1⟩ } }

def grant : Fleet.Grant :=
  { id := "grant-1"
    operationId := "operation-1"
    nodeId := "node-1"
    workloadId := "workload-1"
    invocationId := "invocation-1"
    unit := "backup.service"
    account := "backup"
    resourceId := "resource-1"
    recipientKeyId := "node-1-1"
    registrationVersion := 1
    policyVersion := 1
    approvalReference := none
    requestEventKey := none
    action := "noop.marker"
    mode := .file
    audience := "blindpass-node"
    issuerEpoch := 1
    issuedAtMs := 2000
    expiresAtMs := 62000
    localCeilingSeconds := 60 }

def rotation : Fleet.NodeKeyRotation :=
  ⟨"node-1", "rotation-1", 1, 2, "sign-2", "seal-2", "sign-2-seal-2", 1⟩

/-- The keys of the node are to be replaced. -/
def stageRotation (now : ℕ) : Event :=
  .stageNodeKeyRotation "node-1" 1 ⟨rotation, ⟨1, .nodeKeyRotation rotation⟩, []⟩ now now

/-- A node and a workload of it. -/
def enrolled : List Event :=
  [.approveEnrollment enrollment 1000, .createWorkload "workload-1" workload registration snapshot]

/-- A request waits for approval. -/
def awaiting : List Event :=
  enrolled ++ [.createOperation (draft .pendingApproval) none ⟨2000, 2000, 2000, 2000⟩]

/-- The policy allows a request, and its grant is issued. -/
def granted : List Event :=
  enrolled ++
    [.createOperation (draft .allow) none ⟨2000, 2000, 2000, 2000⟩,
      .issueOperationGrants [⟨grant, 1, ⟨1, .grant grant⟩⟩] 2000 2000]

/-- The node's relay connects and polls. -/
def delivered : List Event :=
  granted ++
    [.createNodeSession
        ⟨"node-1", 1, 1, "1", "none", "nonce-1", 9000, "session-1", "token-1", 9000⟩ 3000,
      .pollNodeInbox "node-1" "session-1" none 3000]

/-- The store plays the events. -/
def play (events : List Event) : List (Transition Store Event Answer) × Store :=
  (controller config fun _ => 100).play start events

theorem run_play (events : List Event)
    (h : (controller config fun _ => 100).AdmitsAll start events) :
    (controller config fun _ => 100).Run (play events).1 (play events).2 :=
  Machine.run_play start_admitted h

end Sample

end BlindPass.Controller
