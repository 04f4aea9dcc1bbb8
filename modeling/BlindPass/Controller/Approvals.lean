import BlindPass.Controller.Inbox

/-!
# Operation approval groups

Operations that need approval wait in a group with others of the same scope. An operator
the rule names decides the group as a whole, unless the operator requested one of its
members or the authority the members rest on has changed. A single member may be
cancelled before the decision.
-/

namespace BlindPass.Controller

def groupLimit : ℕ := 10

/-- What a new group is made of. -/
structure OperationApprovalDraft where
  id : String
  idempotencyKey : String
  ruleId : String
  expiresAtMs : ℕ
  approverIds : List String
  groupScope : GroupScope
  deriving DecidableEq

/-- What an operator may decide. -/
inductive Verdict
  | approved
  | rejected
  deriving DecidableEq

/-- The status a decided group has. -/
def Verdict.status : Verdict → ApprovalStatus
  | .approved => .approved
  | .rejected => .rejected

/-- Inputs to an approval decision. -/
structure OperationDecision where
  id : String
  expectedVersion : ℕ
  expectedOperationIds : List String
  decision : Verdict
  decidedBy : String
  deciderUsername : String
  decisionKeyHash : String
  deriving DecidableEq

inductive OperationDecisionOutcome
  | applied (approval : Option OperationApproval)
  | replayed (approval : OperationApproval)
  | conflict
  | notFound
  | stalePolicy
  | scopeDenied
  | selfApproval
  deriving DecidableEq

inductive OperationCancelOutcome
  | cancelled (operation : Option Operation)
  | notFound
  | conflict
  deriving DecidableEq

/-- The database clock during a decision: at its checks, when the members' deadlines are
set, and when their requests are closed. Every statement reads the clock anew. -/
structure DecisionClock where
  now : ℕ
  extended : ℕ
  closed : ℕ
  deriving DecidableEq

/-- The decision was already made, by this operator with this key. -/
def OperationApproval.isReplay (a : OperationApproval) (input : OperationDecision) : Bool :=
  a.status == input.decision.status && a.version == input.expectedVersion + 1 &&
    a.decidedBy == some input.decidedBy && a.decisionKeyHash == some input.decisionKeyHash &&
    a.operationIds == input.expectedOperationIds

/-- The group is not what the operator decided about. -/
def OperationApproval.conflicts (a : OperationApproval) (input : OperationDecision) : Bool :=
  a.status != .pending || a.version != input.expectedVersion ||
    a.operationIds != input.expectedOperationIds || a.operationIds.isEmpty ||
    decide (groupLimit < a.operationIds.length)

/-- The rule that created the group names the operator, by id or by name. -/
def OperationApproval.names (a : OperationApproval) (operatorId username : String) : Bool :=
  a.approverIds.any fun approver => approver == operatorId || approver == username

/-- The operator's decision, recorded on the group. -/
def OperationApproval.decide (a : OperationApproval) (input : OperationDecision) :
    OperationApproval :=
  { a with
    status := input.decision.status
    decidedBy := some input.decidedBy
    decisionKeyHash := some input.decisionKeyHash
    version := a.version + 1 }

/-- The operation, approved: it waits for its grant from `now` on. -/
def Operation.approve (o : Operation) (now : ℕ) : Operation :=
  { o with
    status := .requested
    expiresAtMs := now + o.requestedTtlSeconds * 1000
    version := o.version + 1 }

namespace Store

variable (s : Store)

/-! ### Joining a group -/

/-- The pending groups of the draft's rule and scope, newest first. -/
def approvalCandidates (draft : OperationApprovalDraft) (now : ℕ) :
    List (String × OperationApproval) :=
  let rows := Table.select s.approvals fun _ a =>
    a.status == .pending && a.ruleId == draft.ruleId &&
      a.groupScope == draft.groupScope && decide (now < a.expiresAtMs)
  (Table.orderBy rows fun a => a.createdAtMs).reverse.take 50

/-- A new group with one member. -/
def insertApproval (operationId : String) (draft : OperationApprovalDraft) (now : ℕ) :
    Except StoreError Store :=
  if s.approvals.contains draft.id ||
      s.approvals.toList.any fun e => e.2.idempotencyKey == draft.idempotencyKey then
    .error .database
  else
    let approval : OperationApproval :=
      { operationIds := [operationId]
        ruleId := draft.ruleId
        status := .pending
        decidedBy := none
        expiresAtMs := draft.expiresAtMs
        idempotencyKey := draft.idempotencyKey
        decisionKeyHash := none
        version := 1
        createdAtMs := now
        approverIds := draft.approverIds
        groupScope := draft.groupScope }
    .ok { s with approvals := s.approvals.insert draft.id approval }

/-- Join the newest pending group of the same scope that has room, or start one. -/
def createOrExtendApproval (operationId : String) (draft : OperationApprovalDraft) (now : ℕ) :
    Except StoreError (Store × String) :=
  let candidate := (s.approvalCandidates draft now).find? fun e =>
    decide (e.2.operationIds.length < groupLimit) && !e.2.operationIds.contains operationId
  match candidate with
  | some (id, a) =>
    .ok (s.updateApprovals
      (fun k c => k == id && c.status == .pending && c.version == a.version)
      (fun c => { c with
        operationIds := a.operationIds ++ [operationId]
        version := c.version + 1 }), id)
  | none => do
    let inserted ← s.insertApproval operationId draft now
    return (inserted, draft.id)

/-! ### Deciding a group -/

/-- The operations of a group that wait for its decision. -/
def awaits (approvalId : String) (_ : String) (o : Operation) : Bool :=
  o.approvalId == some approvalId && o.status == .awaitingApproval

/-- A listed member that is gone, or whose authority has changed. -/
def memberStale (approvalId operationId : String) (now : ℕ) : Bool :=
  match s.operations[operationId]? with
  | none => true
  | some o =>
    match s.workloads[o.workloadId]?, s.nodes[o.nodeId]? with
    | some w, some n =>
      o.approvalId != some approvalId || o.policyVersion != s.policyVersion ||
        o.status != .awaitingApproval || decide (o.expiresAtMs ≤ now) ||
        w.status != .active || n.status != .active
    | _, _ => true

/-- The group ends without a decision, and its members with it. -/
def endGroup (cfg : Config) (approvalId reason closure : String) (closed : ℕ) :
    Except StoreError Store :=
  let members := s.closureTargets (awaits approvalId)
  let expired := s.updateApprovals (fun k a => k == approvalId && a.status == .pending)
    OperationApproval.expire
  let ended := expired.updateOperations (awaits approvalId)
    fun o => o.settle .denied { reason := some reason }
  ended.enqueueClosures cfg members closure closed

/-- Decide a group. -/
def decideOperationApproval (cfg : Config) (input : OperationDecision) (clock : DecisionClock) :
    Except StoreError (Store × OperationDecisionOutcome) :=
  match s.approvals[input.id]? with
  | none => .ok (s, .notFound)
  | some a =>
    if a.isReplay input then .ok (s, .replayed a)
    else if a.conflicts input then .ok (s, .conflict)
    else if !a.names input.decidedBy input.deciderUsername then .ok (s, .scopeDenied)
    else if 0 < Table.countWhere s.operations
        (fun _ o => o.approvalId == some input.id && o.requestedBy == input.decidedBy) then
      .ok (s, .selfApproval)
    else if a.expiresAtMs ≤ clock.now then do
      let ended ← s.endGroup cfg input.id "approval_expired" "expired" clock.closed
      return (ended, .stalePolicy)
    else if a.operationIds.any fun id => s.memberStale input.id id clock.now then do
      let ended ← s.endGroup cfg input.id "authorization_changed" "denied" clock.closed
      return (ended, .stalePolicy)
    else
      let members := s.closureTargets (awaits input.id)
      let decided := s.updateApprovals
        (fun k c => k == input.id && c.status == .pending && c.version == input.expectedVersion)
        fun c => c.decide input
      match input.decision with
      | .approved =>
        let approved := decided.updateOperations (awaits input.id) fun o => o.approve clock.extended
        .ok (approved, .applied approved.approvals[input.id]?)
      | .rejected => do
        let denied := decided.updateOperations (awaits input.id)
          fun o => o.settle .denied { reason := some "approval_rejected" }
        let closed ← denied.enqueueClosures cfg members "rejected" clock.closed
        return (closed, .applied closed.approvals[input.id]?)

/-! ### Leaving a group -/

/-- Cancel an operation that awaits approval. Its group goes on without it. -/
def cancelAwaitingOperation (cfg : Config) (operationId cancelledBy : String) (closed : ℕ) :
    Except StoreError (Store × OperationCancelOutcome) :=
  match s.operations[operationId]? with
  | none => .ok (s, .notFound)
  | some o =>
    if o.status ≠ .awaitingApproval then .ok (s, .conflict)
    else do
      let targets := s.closureTargets fun k _ => k == operationId
      let cancelled := s.updateOperations
        (fun k o => k == operationId && o.status == .awaitingApproval)
        fun o => o.settle .cancelled { reason := some "operator_cancelled" }
      let left := cancelled.updateApprovals
        (fun k a => o.approvalId == some k && a.status == .pending)
        fun a => a.leave operationId (some cancelledBy)
      let told ← left.enqueueClosures cfg targets "cancelled" closed
      return (told, .cancelled told.operations[operationId]?)

end Store

end BlindPass.Controller
