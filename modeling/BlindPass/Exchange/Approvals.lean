import BlindPass.Exchange.Policy
import BlindPass.Library.Execution
import BlindPass.Library.Table

/-!
# Approvals of exchanges

A request that matches a rule for approval is answered with the reference of an approval, which an
approver decides. The row of the reference is looked up first, and created if there is none that
is live and for this request. A row that is there but is not such a row is not found and is not
replaced either: the creation does nothing, and the request is told to wait for a decision that
nobody can make. Rows stay like that from their expiry to the sweep after it, and where a rule
gives one reference to different requests.
-/

namespace BlindPass.Exchange

/-! ### The table -/

/-- The status of an approval. -/
inductive ApprovalStatus
  | pending
  | approved
  | rejected
  deriving DecidableEq

structure ApprovalRecord where
  requesterId : String
  secretName : String
  purpose : String
  fulfillerHint : String
  ruleId : Option String
  approverIds : List String
  approverRings : List String
  status : ApprovalStatus
  expiresAtMs : ℕ
  decidedBy : Option String
  deriving DecidableEq

/-- The table of approvals, by their reference. -/
abbrev Approvals := Std.TreeMap String ApprovalRecord

/-- What the service is configured with. `reference` makes the text of a reference out of the
requester, workspace, secret, purpose, fulfiller and rule. -/
structure ExchangeConfig where
  tenantId : String
  approvalTtlSeconds : ℕ
  reference : String → String → String → String → String → String → String

/-- A request for an exchange. -/
structure ExchangeRequest where
  requesterId : String
  requesterWorkspaceId : Option String
  secretName : String
  purpose : String
  fulfillerHint : String

/-- Whether the reading of the row and its creation succeed. -/
structure ApprovalIo where
  read : Bool
  write : Bool

structure ResolvedDecision where
  policy : PolicyDecision
  allowedFulfillerId : Option String
  approvalStatus : Option ApprovalStatus
  deriving DecidableEq

/-- The approval was asked for by this request and rule. -/
def ApprovalRecord.isFor (a : ApprovalRecord) (request : ExchangeRequest) (ruleId : String) : Bool :=
  a.requesterId == request.requesterId && a.secretName == request.secretName &&
    a.purpose == request.purpose && a.fulfillerHint == request.fulfillerHint &&
    a.ruleId == some ruleId

namespace Approvals

variable (t : Approvals)

def getApproval (reference : String) (now : ℕ) : Option ApprovalRecord :=
  t[reference]?.filter fun a => now < a.expiresAtMs

/-- `create_approval`: nothing happens if the reference is taken. -/
def createApproval (reference : String) (a : ApprovalRecord) : Approvals :=
  t.insertIfNew reference a

/-- `decide`, with the update of `decide_approval_idempotent`. -/
def decideApproval (reference : String) (status : ApprovalStatus) (operatorId username : String)
    (now : ℕ) : Approvals :=
  match t.getApproval reference now with
  | none => t
  | some a =>
    if (a.approverIds.any fun id => id == operatorId || id == username) && a.approverRings.isEmpty &&
        a.status == .pending then
      t.insert reference { a with status, decidedBy := some operatorId }
    else t

def sweepExpired (retentionGraceSeconds now : ℕ) : Approvals :=
  t.filter fun _ a => now < a.expiresAtMs + max retentionGraceSeconds 1 * 1000

end Approvals

/-! ### Requests -/

section Resolve

variable (cfg : ExchangeConfig) (document : PolicyDocumentInput) (request : ExchangeRequest)

/-- What the policy says of a request. -/
def evaluateRequest : Option PolicyEvaluation :=
  (policyDocumentFromValues document).evaluate
    ⟨request.requesterId, request.requesterWorkspaceId, request.secretName, request.purpose,
      request.fulfillerHint, some cfg.tenantId⟩

/-- `approval_reference`, unless the rule gives one. -/
def referenceFor (decision : PolicyDecision) : String :=
  decision.approvalReference.getD (cfg.reference request.requesterId cfg.tenantId
    request.secretName request.purpose request.fulfillerHint decision.ruleId)

/-- The row of a new approval. -/
def newApproval (evaluation : PolicyEvaluation) (now : ℕ) : ApprovalRecord where
  requesterId := request.requesterId
  secretName := request.secretName
  purpose := request.purpose
  fulfillerHint := request.fulfillerHint
  ruleId := some evaluation.decision.ruleId
  approverIds := evaluation.approverIds.getD []
  approverRings := evaluation.approverRings.getD []
  status := .pending
  expiresAtMs := now + max (cfg.approvalTtlSeconds * 1000) 1
  decidedBy := none

def resolvePolicyForExchange (now : ℕ) (io : ApprovalIo) (t : Approvals) :
    Approvals × Option ResolvedDecision :=
  match evaluateRequest cfg document request with
  | none => (t, none)
  | some evaluation =>
    let decision := evaluation.decision
    if decision.mode ≠ .pendingApproval then
      (t, some ⟨decision, evaluation.allowedFulfillerId, none⟩)
    else
      let reference := referenceFor cfg request decision
      let decision := { decision with approvalReference := some reference }
      let existing := if io.read then t.getApproval reference now else none
      match existing.filter fun a => a.isFor request decision.ruleId with
      | some approval =>
        if approval.status = .approved then
          (t, some ⟨{ decision with
            mode := .allow
            approvalRequired := false
            reason := approval.decidedBy.elim "exchange approved" fun by' =>
              "exchange approved by " ++ by' }, some request.fulfillerHint, some .approved⟩)
        else (t, some ⟨decision, none, some approval.status⟩)
      | none =>
        if !io.write then (t, none)
        else (t.createApproval reference (newApproval cfg request evaluation now),
          some ⟨decision, none, some .pending⟩)

end Resolve

/-! ### Runs -/

/-- The table and the last reading of the clock. -/
structure ApprovalState where
  table : Approvals
  now : ℕ

/-- What happens to the table. -/
inductive ApprovalEvent
  | request (document : PolicyDocumentInput) (request : ExchangeRequest) (now : ℕ) (io : ApprovalIo)
  | decide (reference : String) (status : ApprovalStatus) (operatorId username : String) (now : ℕ)
  | sweep (retentionGraceSeconds now : ℕ)

/-- The reading of the clock. -/
def ApprovalEvent.now : ApprovalEvent → ℕ
  | request _ _ now _ | decide _ _ _ _ now | sweep _ now => now

/-- The policies are accepted ones, a decision approves or rejects, and the clock does not go
back. -/
def ApprovalEvent.IsAdmitted (s : ApprovalState) (e : ApprovalEvent) : Prop :=
  s.now ≤ e.now ∧
    match e with
    | request document .. => validatePolicy document = []
    | decide _ status .. => status ≠ .pending
    | sweep .. => True

/-- One event. -/
def ApprovalState.step (cfg : ExchangeConfig) (s : ApprovalState) (e : ApprovalEvent) :
    ApprovalState × Option ResolvedDecision :=
  match e with
  | .request document request now io =>
    let resolved := resolvePolicyForExchange cfg document request now io s.table
    (⟨resolved.1, now⟩, resolved.2)
  | .decide reference status operatorId username now =>
    (⟨s.table.decideApproval reference status operatorId username now, now⟩, none)
  | .sweep retentionGraceSeconds now => (⟨s.table.sweepExpired retentionGraceSeconds now, now⟩, none)

/-- The table as a machine. -/
def approvals (cfg : ExchangeConfig) :
    Execution.Machine ApprovalState ApprovalEvent (Option ResolvedDecision) where
  Start s := s.table = ∅
  Admits := fun s e => e.IsAdmitted s
  step := ApprovalState.step cfg

/-! ### What a pending answer names -/

/-- An approver can decide this request by deciding the row. -/
structure ApprovalRecord.Decides (a : ApprovalRecord) (request : ExchangeRequest) (ruleId : String)
    (now : ℕ) : Prop where
  isFor : a.isFor request ruleId = true
  pending : a.status = .pending
  live : now < a.expiresAtMs

/-- The reference of the request is free, or its row is one that decides the request. -/
def IsUnclaimed (cfg : ExchangeConfig) (document : PolicyDocumentInput) (request : ExchangeRequest)
    (now : ℕ) (t : Approvals) : Prop :=
  ∀ evaluation, evaluateRequest cfg document request = some evaluation →
    ∀ a, t[referenceFor cfg request evaluation.decision]? = some a →
      a.Decides request evaluation.decision.ruleId now

section

variable {cfg : ExchangeConfig} {document : PolicyDocumentInput} {request : ExchangeRequest}
  {now : ℕ} {io : ApprovalIo} {t t' : Approvals} {answer : ResolvedDecision}

/-- A pending answer is that of a row that was found, or that of a creation. -/
theorem resolve_pending
    (h : resolvePolicyForExchange cfg document request now io t = (t', some answer))
    (hpending : answer.approvalStatus = some .pending) :
    ∃ evaluation, evaluateRequest cfg document request = some evaluation ∧
      answer.policy.ruleId = evaluation.decision.ruleId ∧
      answer.policy.approvalReference = some (referenceFor cfg request evaluation.decision) ∧
      ((t' = t ∧ ∃ a, t[referenceFor cfg request evaluation.decision]? = some a ∧
          a.Decides request evaluation.decision.ruleId now) ∨
        t' = t.createApproval (referenceFor cfg request evaluation.decision)
          (newApproval cfg request evaluation now)) := by
  unfold resolvePolicyForExchange at h
  split at h
  · simp at h
  next evaluation hevaluation =>
  refine ⟨evaluation, hevaluation, ?_⟩
  dsimp only at h
  split at h
  · obtain ⟨-, rfl⟩ := by simpa using h
    simp at hpending
  split at h
  · next a hfound =>
    obtain ⟨hexisting, hisFor⟩ := Option.filter_eq_some_iff.mp hfound
    split at h
    · obtain ⟨-, rfl⟩ := by simpa using h
      simp at hpending
    obtain ⟨rfl, rfl⟩ := by simpa using h
    -- the row was read, so it is live
    have hread : t.getApproval (referenceFor cfg request evaluation.decision) now = some a := by
      split at hexisting
      · exact hexisting
      · cases hexisting
    obtain ⟨hrow, hlive⟩ := Option.filter_eq_some_iff.mp hread
    refine ⟨rfl, rfl, .inl ⟨rfl, a, hrow, hisFor, Option.some.inj hpending, ?_⟩⟩
    exact of_decide_eq_true hlive
  · split at h
    · simp at h
    · obtain ⟨rfl, rfl⟩ := by simpa using h
      exact ⟨rfl, rfl, .inr rfl⟩

theorem newApproval_decides {evaluation : PolicyEvaluation} :
    (newApproval cfg request evaluation now).Decides request evaluation.decision.ruleId now where
  isFor := by simp [ApprovalRecord.isFor, newApproval]
  pending := rfl
  live := by
    show now < now + max (cfg.approvalTtlSeconds * 1000) 1
    omega

/-- The row a creation leaves at its reference is the new one only if there was none. -/
theorem getElem?_createApproval {reference : String} {a : ApprovalRecord} :
    (t.createApproval reference a)[reference]? = some (t[reference]?.getD a) := by
  rw [Approvals.createApproval, Std.TreeMap.getElem?_insertIfNew]
  cases h : t[reference]? with
  | none | some => simp [Std.TreeMap.mem_iff_isSome_getElem?, h]

/-- A pending answer names an approval that decides the request exactly if the reference was
free, or had such an approval. -/
theorem pending_decidable_iff
    (h : resolvePolicyForExchange cfg document request now io t = (t', some answer))
    (hpending : answer.approvalStatus = some .pending) :
    (∃ reference a, answer.policy.approvalReference = some reference ∧ t'[reference]? = some a ∧
        a.Decides request answer.policy.ruleId now) ↔ IsUnclaimed cfg document request now t := by
  obtain ⟨evaluation, hevaluation, hrule, hreference, heffect⟩ := resolve_pending h hpending
  have hunclaimed : IsUnclaimed cfg document request now t ↔
      ∀ a, t[referenceFor cfg request evaluation.decision]? = some a →
        a.Decides request evaluation.decision.ruleId now := by
    simp only [IsUnclaimed, hevaluation, Option.some.injEq, forall_eq']
  simp only [hreference, hrule, Option.some.injEq, hunclaimed]
  rcases heffect with ⟨rfl, a, ha, hdecides⟩ | rfl
  · constructor
    · intro _ a' ha'
      exact Option.mem_unique ha ha' ▸ hdecides
    · intro _
      exact ⟨_, a, rfl, ha, hdecides⟩
  · constructor
    · rintro ⟨reference, a, rfl, ha, hdecides⟩ a' ha'
      rw [getElem?_createApproval, ha', Option.getD_some] at ha
      exact Option.some.inj ha ▸ hdecides
    · intro hrow
      refine ⟨_, _, rfl, getElem?_createApproval, ?_⟩
      cases hprior : t[referenceFor cfg request evaluation.decision]? with
      | none => exact newApproval_decides
      | some a => exact hrow a hprior

end

section Sample

/-- A policy with one rule, for approval by one operator. -/
def samplePolicy : PolicyDocumentInput where
  secretRegistry :=
    [.object [("secretName", .string "api-key"), ("classification", .string "finance")]]
  exchangePolicy :=
    [.object [("ruleId", .string "ask"), ("secretName", .string "api-key"),
      ("mode", .string "pending_approval"), ("approverIds", .array [.string "op-1"])]]

def sampleConfig : ExchangeConfig := ⟨"tenant", 600, fun _ _ _ _ _ _ => "apr_1"⟩

def sampleRequest : ExchangeRequest := ⟨"agent-a", none, "api-key", "report", "agent-b"⟩

/-- The first request is told to wait for an approval that decides it. -/
theorem pending_decidable_first : ∃ reference a, some reference = some "apr_1" ∧
      (resolvePolicyForExchange sampleConfig samplePolicy sampleRequest 0 ⟨true, true⟩
        ∅).1[reference]? = some a ∧ a.Decides sampleRequest "ask" 0 := by
  rcases h : resolvePolicyForExchange sampleConfig samplePolicy sampleRequest 0 ⟨true, true⟩ ∅
    with ⟨t', answer⟩
  have hanswer : answer = some ⟨⟨.pendingApproval, true, "ask",
      "exchange for finance requires human approval", some "apr_1", none, none, "api-key"⟩, none,
      some .pending⟩ := by
    rw [← show _ = answer from congrArg Prod.snd h]
    decide +kernel
  subst hanswer
  obtain ⟨reference, a, hreference, ha, hdecides⟩ := (pending_decidable_iff h rfl).mpr (by
    intro evaluation _ a ha
    simp at ha)
  exact ⟨reference, a, hreference.symm, ha, hdecides⟩

/-- The request is repeated when the approval has expired and is not swept yet. It is told to wait
for an approval that nobody can decide. -/
theorem pending_names_expired :
    ∃ run s, (approvals sampleConfig).Run run s ∧ validatePolicy samplePolicy = [] ∧
      (resolvePolicyForExchange sampleConfig samplePolicy sampleRequest 600000 ⟨true, true⟩
        s.table).2.bind (·.approvalStatus) = some .pending ∧
      (resolvePolicyForExchange sampleConfig samplePolicy sampleRequest 600000 ⟨true, true⟩
        s.table).2.bind (·.policy.approvalReference) = some "apr_1" ∧
      ((resolvePolicyForExchange sampleConfig samplePolicy sampleRequest 600000 ⟨true, true⟩
        s.table).1["apr_1"]?.map (·.expiresAtMs)) = some 600000 ∧
      (((resolvePolicyForExchange sampleConfig samplePolicy sampleRequest 600000 ⟨true, true⟩
        s.table).1.decideApproval "apr_1" .approved "op-1" "operator" 600000)["apr_1"]?.map
          (·.status)) = some .pending := by
  have hvalid : validatePolicy samplePolicy = [] := by decide +kernel
  have hadmits : (approvals sampleConfig).AdmitsAll ⟨∅, 0⟩
      [.request samplePolicy sampleRequest 0 ⟨true, true⟩] :=
    ⟨⟨Nat.le_refl 0, hvalid⟩, trivial⟩
  refine ⟨_, _, Execution.Machine.run_play rfl hadmits, hvalid, ?_⟩
  decide +kernel

end Sample

end BlindPass.Exchange
