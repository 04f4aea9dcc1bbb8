import BlindPass.Controller.FulfillmentRecords
import BlindPass.Controller.Machine
import BlindPass.Controller.WallClock

/-!
# Reconciling the clock

A deadline that was computed from a clock ahead of the current one would outlive its intended
lifetime. A fence after a restart and the reconciliation by hand therefore remove or end the
records that carry such a deadline, each in one transaction, and the reconciliation clears the
fence. The list of statements covers every table with a deadline but one: a cross-workload
fulfillment that is under way stays as it is.
-/

namespace BlindPass.Controller

open Std (TreeMap)

/-! ### Tables -/

/-- `approvals.status`, of the approvals of an agent's exchange -/
inductive ExchangeApproval
  | pending
  | approved
  | rejected
  deriving DecidableEq

/-- `enrollment_requests.status` -/
inductive EnrollmentStatus
  | issued
  | submitted
  | approved
  | rejected
  | expired
  deriving DecidableEq

/-- A row of `operator_sessions`. -/
structure OperatorSession where
  operatorId : String
  expiresAtMs : ℤ
  revokedAtMs : Option ℤ
  deriving DecidableEq

/-- A row of `fleet_provisioning_links`. -/
structure ProvisioningLink where
  nodeId : String
  operationId : String
  grantId : String
  offerId : String
  operatorId : String
  expiresAtMs : ℤ
  deriving DecidableEq

/-- The tables that hold deadlines, and the row of the clock. Of a table that is emptied, only the
deadlines of its rows are kept. -/
structure Database where
  fleet : Store
  clock : ClockRow
  secretRequests : TreeMap String ℤ
  exchanges : TreeMap String ℤ
  approvals : TreeMap String ExchangeApproval
  bootstrapTokens : TreeMap String ℤ
  rateWindows : TreeMap String ℤ
  idempotencyKeys : TreeMap String ℤ
  operatorSessions : TreeMap String OperatorSession
  enrollments : TreeMap String EnrollmentStatus
  nodeChallenges : TreeMap String ℤ
  links : TreeMap String ProvisioningLink
  fulfillments : TreeMap String FulfillmentRecord

/-! ### Transactions -/

namespace Database

variable (d : Database)

/-- The statements a fence and a reconciliation share. They differ in the approvals they delete. -/
def purge (approvals : ExchangeApproval → Bool) (databaseMs : Millis) : Database :=
  { d with
    secretRequests := ∅
    exchanges := ∅
    approvals := d.approvals.filter fun _ status => !approvals status
    bootstrapTokens := ∅
    rateWindows := ∅
    idempotencyKeys := ∅
    fleet := (d.fleet.fleetFencePurge databaseMs.val.toNat).1
    enrollments := Table.updateWhere d.enrollments
      (fun _ status => status == .issued || status == .submitted) fun _ => .expired
    nodeChallenges := ∅ }

/-- `fence_after_restart`: a controller that is fenced already is left alone. -/
def fenceAfterRestart (sample : ClockSample) (databaseMs : Millis) : Database :=
  if d.clock.fencedAt.isSome then d
  else
    { d.purge (· == .pending) databaseMs with
      clock := d.clock.fenceAfterRestart sample databaseMs }

inductive ReconcileError
  | clockSourceUnavailable
  deriving DecidableEq

/-- What `reconcile_clock` commits when it finds a regression. -/
def reconciled (sample : ClockSample) (databaseMs : Millis) : Database :=
  { d.purge (fun status => status == .pending || status == .approved) databaseMs with
    operatorSessions := Table.updateWhere d.operatorSessions
      (fun _ session => session.revokedAtMs.isNone)
      fun session => { session with revokedAtMs := some databaseMs.val }
    clock := { d.clock.observe sample databaseMs with fencedAt := none } }

/-- `reconcile_clock`, with whether a regression was detected -/
def reconcileClock (sample : ClockSample) (databaseMs : Millis) :
    Except ReconcileError (Database × Bool) :=
  if sample.bootId.isNone then .error .clockSourceUnavailable
  else
    let regressionDetected := decide (databaseMs < d.clock.lastObservedMs) ||
      d.clock.fencedAt.isSome || d.clock.bootId != sample.bootId
    if !regressionDetected then .ok (d, false)
    else .ok (d.reconciled sample databaseMs, true)

end Database

/-! ### What a deadline still allows -/

/-- The grant that a link stands on can still be used: `CONTEXT_SELECT`, as far as it reads the
grant and its operation. -/
def ProvisioningLink.hasGrant (link : ProvisioningLink) (s : Store) : Bool :=
  s.grants[link.grantId]?.any fun g =>
    g.status.isLive && g.consumedAtMs.isNone &&
      s.operations[g.grant.operationId]?.any fun o =>
        o.status == .granted && o.grantId == some link.grantId

/-- What existed in `d` cannot be used in `d'`: it was deleted, ended, or withdrawn with a
tombstone from which its revocation is signed. -/
structure Database.Withdraws (d d' : Database) : Prop where
  secretRequests : ∀ id ∈ d.secretRequests, id ∉ d'.secretRequests
  exchanges : ∀ id ∈ d.exchanges, id ∉ d'.exchanges
  approvals : ∀ id ∈ d.approvals, ∀ status, d'.approvals[id]? = some status → status = .rejected
  bootstrapTokens : ∀ id ∈ d.bootstrapTokens, id ∉ d'.bootstrapTokens
  enrollments : ∀ id ∈ d.enrollments, ∀ status, d'.enrollments[id]? = some status →
    status ≠ .issued ∧ status ≠ .submitted
  operatorSessions : ∀ id ∈ d.operatorSessions, ∀ session, d'.operatorSessions[id]? = some session →
    session.revokedAtMs.isSome = true
  nodeSessions : ∀ id ∈ d.fleet.sessions, ∀ session, d'.fleet.sessions[id]? = some session →
    session.revoked = true
  operationApprovals : ∀ id ∈ d.fleet.approvals, ∀ group, d'.fleet.approvals[id]? = some group →
    group.status ≠ .pending
  operations : ∀ id ∈ d.fleet.operations, ∀ o, d'.fleet.operations[id]? = some o →
    o.status.isPending = false
  grants : ∀ id g, d.fleet.grants[id]? = some g → g.status.isLive = true →
    (∃ g', d'.fleet.grants[id]? = some g' ∧ g'.status = .revoked) ∧ id ∈ d'.fleet.tombstones
  links : ∀ id ∈ d.links, ∀ link, d'.links[id]? = some link → link.hasGrant d'.fleet = false
  fulfillments : ∀ id ∈ d.fulfillments, ∀ f, d'.fulfillments[id]? = some f →
    f.status.isActive = false

/-! ### The fleet's tables -/

variable {g : GrantRow} {status : ExchangeApproval}

section Purge

variable {s : Store} {now : ℕ} {id : String}

theorem fleetFencePurge_sessions {session : NodeSession}
    (h : (s.fleetFencePurge now).1.sessions[id]? = some session) : session.revoked = true := by
  obtain ⟨before, -, rfl⟩ := Table.getElem?_updateWhere_eq_some.mp h
  by_cases hrevoked : before.revoked = true <;> simp [hrevoked]

theorem fleetFencePurge_approvals {group : OperationApproval}
    (h : (s.fleetFencePurge now).1.approvals[id]? = some group) : group.status ≠ .pending := by
  obtain ⟨before, -, rfl⟩ := Table.getElem?_updateWhere_eq_some.mp h
  by_cases hpending : before.status = .pending <;> simp [hpending, OperationApproval.expire]

theorem fleetFencePurge_operations {o : Operation}
    (h : (s.fleetFencePurge now).1.operations[id]? = some o) : o.status.isPending = false := by
  -- an operation is denied first, and revoked afterwards if its grant is live
  obtain ⟨denied, hdenied, rfl⟩ := Table.getElem?_updateWhere_eq_some.mp h
  have hended : denied.status.isPending = false := by
    obtain ⟨before, -, rfl⟩ := Table.getElem?_updateWhere_eq_some.mp hdenied
    by_cases hpending : before.status.isPending = true
    · rw [if_pos hpending]
      rfl
    · rw [if_neg hpending]
      exact Bool.eq_false_iff.mpr hpending
  split
  · rfl
  · exact hended

theorem fleetFencePurge_grants :
    (s.fleetFencePurge now).1.grants[id]? =
      s.grants[id]?.map fun g => if g.status.isLive then g.withStatus .revoked else g :=
  Table.getElem?_updateWhere

theorem fleetFencePurge_live (h : (s.fleetFencePurge now).1.grants[id]? = some g) :
    g.status.isLive = false := by
  rw [fleetFencePurge_grants, Option.map_eq_some_iff] at h
  obtain ⟨before, -, rfl⟩ := h
  by_cases hlive : before.status.isLive = true
  · rw [if_pos hlive]
    rfl
  · rw [if_neg hlive]
    exact Bool.eq_false_iff.mpr hlive

/-- A grant that was live is revoked; one that was revoked stays so. -/
theorem fleetFencePurge_revoked (hg : s.grants[id]? = some g)
    (hstatus : g.status.isLive = true ∨ g.status = .revoked) :
    ∃ g', (s.fleetFencePurge now).1.grants[id]? = some g' ∧ g'.status = .revoked := by
  rw [fleetFencePurge_grants, hg]
  refine ⟨_, rfl, ?_⟩
  by_cases hlive : g.status.isLive = true
  · simp [hlive, GrantRow.withStatus]
  · simpa [hlive] using hstatus.resolve_left hlive

theorem fleetFencePurge_kept (h : id ∈ s.tombstones) : id ∈ (s.fleetFencePurge now).1.tombstones := by
  rw [TreeMap.mem_iff_isSome_getElem?, Option.isSome_iff_exists] at h ⊢
  obtain ⟨t, ht⟩ := h
  exact ⟨t, Store.fenceTombstones_fences.kept id t ht⟩

theorem fleetFencePurge_covers (hg : s.grants[id]? = some g) (hlive : g.status.isLive = true) :
    id ∈ (s.fleetFencePurge now).1.tombstones := by
  rw [TreeMap.mem_iff_isSome_getElem?, Option.isSome_iff_exists]
  exact Store.fenceTombstones_fences.covers id g hg hlive

theorem hasGrant_fleetFencePurge (link : ProvisioningLink) :
    link.hasGrant (s.fleetFencePurge now).1 = false := by
  unfold ProvisioningLink.hasGrant
  cases hg : (s.fleetFencePurge now).1.grants[link.grantId]? with
  | none => rfl
  | some => simp [fleetFencePurge_live hg]

end Purge

/-! ### Reconciliation -/

namespace Database

variable {d d' : Database} {sample : ClockSample} {databaseMs : Millis} {id : String}

theorem purge_approvals (d : Database) (databaseMs : Millis) {approvals : ExchangeApproval → Bool}
    (h : (d.purge approvals databaseMs).approvals[id]? = some status) :
    approvals status = false := by
  have hfilter : (d.approvals.filter fun _ status => !approvals status)[id]? = some status := h
  rw [TreeMap.getElem?_filter', Option.filter_eq_some_iff] at hfilter
  simpa using hfilter.2

theorem reconcileClock_eq_ok (h : d.reconcileClock sample databaseMs = .ok (d', true)) :
    d' = d.reconciled sample databaseMs := by
  unfold reconcileClock at h
  split at h
  · cases h
  dsimp only at h
  split at h
  · simp at h
  · simp only [Except.ok.injEq, Prod.mk.injEq, and_true] at h
    exact h.symm

/-- A grant that is live before the optional fence is live after it, or revoked with a
tombstone. -/
theorem fenceAfterRestart_grants (hg : d.fleet.grants[id]? = some g)
    (hlive : g.status.isLive = true) :
    ∃ g', (d.fenceAfterRestart sample databaseMs).fleet.grants[id]? = some g' ∧
      (g'.status.isLive = true ∨
        g'.status = .revoked ∧ id ∈ (d.fenceAfterRestart sample databaseMs).fleet.tombstones) := by
  unfold fenceAfterRestart
  split
  · exact ⟨g, hg, .inl hlive⟩
  obtain ⟨g', hg', hrevoked⟩ :
      ∃ g', (d.fleet.fleetFencePurge databaseMs.val.toNat).1.grants[id]? = some g' ∧
        g'.status = .revoked := fleetFencePurge_revoked hg (.inl hlive)
  exact ⟨g', hg', .inr ⟨hrevoked, fleetFencePurge_covers hg hlive⟩⟩

theorem fenceAfterRestart_fulfillments :
    (d.fenceAfterRestart sample databaseMs).fulfillments = d.fulfillments := by
  unfold fenceAfterRestart
  split <;> rfl

/-- The state in which the reconciliation runs: fenced by a restart, or not. -/
def restarted (d : Database) : Option (ClockSample × Millis) → Database
  | none => d
  | some (sample, databaseMs) => d.fenceAfterRestart sample databaseMs

variable {restart : Option (ClockSample × Millis)}

theorem restarted_grants (hg : d.fleet.grants[id]? = some g) (hlive : g.status.isLive = true) :
    ∃ g', (d.restarted restart).fleet.grants[id]? = some g' ∧ (g'.status.isLive = true ∨
        g'.status = .revoked ∧ id ∈ (d.restarted restart).fleet.tombstones) := by
  cases restart with
  | none => exact ⟨g, hg, .inl hlive⟩
  | some => exact fenceAfterRestart_grants hg hlive

theorem restarted_fulfillments : (d.restarted restart).fulfillments = d.fulfillments := by
  cases restart with
  | none => rfl
  | some => exact fenceAfterRestart_fulfillments

end Database

namespace Database

variable {d : Database} {sample : ClockSample} {databaseMs : Millis} {id : String}

theorem reconciled_fulfillments : (d.reconciled sample databaseMs).fulfillments = d.fulfillments :=
  rfl

theorem reconciled_approvals (h : (d.reconciled sample databaseMs).approvals[id]? = some status) :
    status = .rejected := by
  have hkeep : (status == .pending || status == .approved) = false :=
    purge_approvals d databaseMs h
  cases status with
  | pending | approved => exact absurd hkeep (by decide)
  | rejected => rfl

theorem reconciled_enrollments {status : EnrollmentStatus}
    (h : (d.reconciled sample databaseMs).enrollments[id]? = some status) :
    status ≠ .issued ∧ status ≠ .submitted := by
  obtain ⟨before, -, rfl⟩ := Table.getElem?_updateWhere_eq_some.mp h
  cases before <;> simp

theorem reconciled_operatorSessions {session : OperatorSession}
    (h : (d.reconciled sample databaseMs).operatorSessions[id]? = some session) :
    session.revokedAtMs.isSome = true := by
  obtain ⟨before, -, rfl⟩ := Table.getElem?_updateWhere_eq_some.mp h
  cases hrevoked : before.revokedAtMs <;> simp [hrevoked]

theorem reconciled_grants (hg : d.fleet.grants[id]? = some g)
    (hstatus : g.status.isLive = true ∨ g.status = .revoked ∧ id ∈ d.fleet.tombstones) :
    (∃ g', (d.reconciled sample databaseMs).fleet.grants[id]? = some g' ∧ g'.status = .revoked) ∧
      id ∈ (d.reconciled sample databaseMs).fleet.tombstones := by
  rcases hstatus with hlive | ⟨hrevoked, htomb⟩
  · exact ⟨fleetFencePurge_revoked hg (.inl hlive), fleetFencePurge_covers hg hlive⟩
  · exact ⟨fleetFencePurge_revoked hg (.inr hrevoked), fleetFencePurge_kept htomb⟩

end Database

/-- A reconciliation, after the fence of a restart or without one, leaves nothing that existed
before the fence usable exactly if no cross-workload fulfillment was under way then. -/
theorem withdraws_reconcileClock_iff (d d' : Database) (restart : Option (ClockSample × Millis))
    (sample : ClockSample) (databaseMs : Millis)
    (h : (d.restarted restart).reconcileClock sample databaseMs = .ok (d', true)) :
    d.Withdraws d' ↔ ∀ (id : String) (f : FulfillmentRecord), d.fulfillments[id]? = some f →
      f.status.isActive = false := by
  obtain rfl := Database.reconcileClock_eq_ok h
  have hkept : ((d.restarted restart).reconciled sample databaseMs).fulfillments = d.fulfillments := by
    rw [Database.reconciled_fulfillments, Database.restarted_fulfillments]
  constructor
  · intro hwithdraws id f hf
    have hmem : id ∈ d.fulfillments := by
      rw [TreeMap.mem_iff_isSome_getElem?, hf]
      rfl
    apply hwithdraws.fulfillments id hmem f
    rw [hkept]
    exact hf
  · intro hidle
    exact
      { secretRequests := fun id _ => TreeMap.not_mem_emptyc
        exchanges := fun id _ => TreeMap.not_mem_emptyc
        bootstrapTokens := fun id _ => TreeMap.not_mem_emptyc
        approvals := fun id _ status => Database.reconciled_approvals
        enrollments := fun id _ status => Database.reconciled_enrollments
        operatorSessions := fun id _ session => Database.reconciled_operatorSessions
        nodeSessions := fun id _ session => fleetFencePurge_sessions
        operationApprovals := fun id _ group => fleetFencePurge_approvals
        operations := fun id _ o => fleetFencePurge_operations
        grants := by
          intro id g hg hlive
          obtain ⟨g', hg', hstatus⟩ :
            ∃ g', (d.restarted restart).fleet.grants[id]? = some g' ∧ (g'.status.isLive = true ∨
              g'.status = .revoked ∧ id ∈ (d.restarted restart).fleet.tombstones) :=
            Database.restarted_grants hg hlive
          exact Database.reconciled_grants hg' hstatus
        links := fun id _ link _ => hasGrant_fleetFencePurge link
        fulfillments := by
          intro id _ f hf
          rw [hkept] at hf
          exact hidle id f hf }

/-! ### A fulfillment under way -/

section Sample

/-- A transfer of a credential between two workloads, at some status. -/
def sampleFulfillment (status : FulfillmentStatus) : FulfillmentRecord where
  issuerWorkloadId := "wl-1"
  recipientWorkloadId := "wl-2"
  issuerNodeId := "node-1"
  recipientNodeId := "node-2"
  issuerCredential := "db"
  recipientCredential := "db"
  requestedBy := "op-1"
  policyVersion := 1
  ruleId := "rule-1"
  decision := .allow
  approverIds := []
  approvalStatus := .notRequired
  decidedBy := none
  priorFulfillmentId := none
  ttlSeconds := 600
  terms := none
  termsDigest := none
  offer := none
  issuerKeyVersion := some 1
  recipientKeyVersion := some 1
  issuerRegistrationVersion := some 1
  recipientRegistrationVersion := some 1
  status
  idempotencyKey := "key-1"
  requestHash := "hash-1"
  failureCode := none
  createdAtMs := 9000
  expiresAtMs := 609000
  closedAtMs := none
  version := 3

/-- A controller that was last seen at ten seconds, with one fulfillment. -/
def databaseWith (status : FulfillmentStatus) : Database where
  fleet := .initial 1 none ∅
  clock := setUpAtTen.state.row
  secretRequests := ∅
  exchanges := ∅
  approvals := ∅
  bootstrapTokens := ∅
  rateWindows := ∅
  idempotencyKeys := ∅
  operatorSessions := ∅
  enrollments := ∅
  nodeChallenges := ∅
  links := ∅
  fulfillments := TreeMap.insert (∅ : TreeMap String FulfillmentRecord) "f-1"
    (sampleFulfillment status)

/-- The host's clocks after a reboot. -/
def rebootedSample : ClockSample := { stillSample with bootId := some "reboot" }

theorem reconcileClock_databaseWith (status : FulfillmentStatus) :
    ((databaseWith status).restarted (some (rebootedSample, sampleMillis 5000))).reconcileClock
        rebootedSample (sampleMillis 5000) =
      .ok (((databaseWith status).restarted (some (rebootedSample, sampleMillis 5000))).reconciled
        rebootedSample (sampleMillis 5000), true) := by
  rfl

/-- A reboot fences the controller and an operator reconciles its clock; the fulfillment that was
offered before is offered still, with the deadline of the old clock. -/
theorem reconcileClock_keeps_offered :
    ((databaseWith .offered).restarted (some (rebootedSample, sampleMillis 5000))).reconcileClock
        rebootedSample (sampleMillis 5000) =
      .ok (((databaseWith .offered).restarted (some (rebootedSample, sampleMillis 5000))).reconciled
        rebootedSample (sampleMillis 5000), true) ∧ ¬ (databaseWith .offered).Withdraws
      (((databaseWith .offered).restarted (some (rebootedSample, sampleMillis 5000))).reconciled
        rebootedSample (sampleMillis 5000)) := by
  refine ⟨reconcileClock_databaseWith _, fun hwithdraws => ?_⟩
  have hmem : "f-1" ∈ (databaseWith .offered).fulfillments := by decide +kernel
  exact absurd (hwithdraws.fulfillments "f-1" hmem (sampleFulfillment .offered) (by decide +kernel))
    (by decide)

theorem withdraws_reconcileClock_iff_completed : (databaseWith .completed).Withdraws
      (((databaseWith .completed).restarted (some (rebootedSample, sampleMillis 5000))).reconciled
        rebootedSample (sampleMillis 5000)) := by
  apply (withdraws_reconcileClock_iff _ _ _ _ _ (reconcileClock_databaseWith .completed)).mpr
  intro id f hf
  have hrow : (TreeMap.insert (∅ : TreeMap String FulfillmentRecord) "f-1"
    (sampleFulfillment .completed))[id]? = some f := hf
  rw [Table.getElem?_insert] at hrow
  split at hrow
  · cases hrow
    rfl
  · simp at hrow

end Sample

end BlindPass.Controller
