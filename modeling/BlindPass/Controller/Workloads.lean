import BlindPass.Controller.Operations

/-!
# Workload registrations and the fleet policy

A workload is registered at a node under a system unit and an account. A change of its
identity, or its revocation, retires the authority issued to it: live grants are revoked
and pending operations cancelled. Registrations and policy snapshots are signed outside the
store and queued by the transaction that makes them current.
-/

namespace BlindPass.Controller

open Fleet (Revocation SignedEnvelope)

def workloadUnitConflict : String := "workload unit conflict"

/-- The signed revocation of a retired grant, and how long it is kept. -/
def policyRevocation (grantId nodeId : String) (now expiresAtMs epoch : ℕ) :
    Except StoreError (SignedEnvelope × ℕ) := do
  let retain ← (minimumRetention now expiresAtMs).elim
    (.error (.invalidInput "tombstone retention")) .ok
  let body : Revocation :=
    { grantId := grantId
      nodeId := nodeId
      reason := "policy"
      revokedAtMs := now
      retainUntilMs := retain
      issuerEpoch := epoch }
  if body.isValid then .ok (⟨epoch, .revocation body⟩, retain)
  else .error (.invalidInput "revocation")

/-- What an update may change of a workload. -/
structure WorkloadChange where
  unit : String
  account : String
  consumptionMode : ConsumptionMode
  localCeilingSeconds : ℕ
  deriving DecidableEq

/-- The changed row. -/
def Workload.change (w : Workload) (c : WorkloadChange) : Workload :=
  { w with
    unit := c.unit
    account := c.account
    consumptionMode := c.consumptionMode
    localCeilingSeconds := c.localCeilingSeconds
    registrationVersion := w.registrationVersion + 1
    version := w.version + 1 }

/-- The change gives the workload another identity. -/
def Workload.changesIdentity (w : Workload) (c : WorkloadChange) : Bool :=
  w.unit != c.unit || w.account != c.account || w.consumptionMode != c.consumptionMode

/-- The revoked row. -/
def Workload.revoke (w : Workload) : Workload :=
  { w with
    status := .revoked
    registrationVersion := w.registrationVersion + 1
    version := w.version + 1 }

namespace Store

variable (s : Store)

/-! ### Retiring authority -/

/-- Another active registration claims the unit. -/
def unitConflict (nodeId unit excludeId : String) : Bool :=
  0 < Table.countWhere s.workloads fun id w =>
    w.nodeId == nodeId && w.unit == unit && w.status == .active && id != excludeId

/-- Revoke one live grant of a workload. -/
def retireGrant (reason : String) (now : ℕ) (grantId : String) (g : GrantRow) :
    Except StoreError Store := do
  let (envelope, retain) ←
    policyRevocation grantId g.grant.nodeId now g.grant.expiresAtMs s.issuerEpoch
  let revoked := s.revokeGrantRow grantId (fun k _ => k == g.grant.operationId) reason
  let buried ← revoked.insertTombstone grantId
    ⟨g.grant.nodeId, "policy", now, retain, some envelope⟩
  return buried.enqueueNodeDocument g.grant.nodeId envelope

/-- A pending operation of the workload. -/
def pendingOf (workloadId : String) (_ : String) (o : Operation) : Bool :=
  o.workloadId == workloadId && o.status.isPending

/-- The groups in which operations of the workload wait. -/
def awaitedGroups (p : Operation → Bool) : List String :=
  (Table.select s.operations fun _ o => p o && o.status == .awaitingApproval).filterMap
    fun e => e.2.approvalId

/-- Cancel the pending operations of a workload and close their requests. -/
def cancelPending (cfg : Config) (workloadId reason : String) (closed : ℕ) :
    Except StoreError Store :=
  let pending := s.closureTargets (pendingOf workloadId)
  -- groups hold operations of one workload only, so every group of it ends
  let groups := s.awaitedGroups fun o => o.workloadId == workloadId
  let expired := s.updateApprovals (fun k a => groups.contains k && a.status == .pending)
    OperationApproval.expire
  let cancelled := expired.updateOperations (pendingOf workloadId)
    fun o => o.settle .cancelled { reason := some reason }
  cancelled.enqueueClosures cfg pending "cancelled" closed

/-- Revoke the live grants of a workload and cancel its pending operations. -/
def retireWorkloadAuthority (cfg : Config) (workloadId reason : String) (now closed : ℕ) :
    Except StoreError Store :=
  let grants := Table.select s.grants fun _ g =>
    g.grant.workloadId == workloadId && g.status.isLive
  if !grants.isEmpty && !cfg.signer then .error (.invalidInput "fleet issuer is not configured")
  else do
    let revoked ← grants.foldlM (fun s e => s.retireGrant reason now e.1 e.2) s
    revoked.cancelPending cfg workloadId reason closed

/-! ### Registrations -/

/-- Register a workload at an active node. -/
def createWorkload (id : String) (record : Workload) (registration policy : SignedEnvelope) :
    Except StoreError (Store × Bool) :=
  if !s.nodeActive record.nodeId then .ok (s, false)
  else if s.unitConflict record.nodeId record.unit id || s.workloads.contains id ||
      s.workloads.toList.any fun e => e.2.nodeId == record.nodeId && e.2.name == record.name then
    .error (.invalidInput workloadUnitConflict)
  else if !Fleet.isValidCeiling record.localCeilingSeconds then .error .database
  else
    let row := { record with registrationVersion := 1, status := .active, version := 1 }
    let inserted := { s with workloads := s.workloads.insert id row }
    .ok ((inserted.enqueueNodeDocument record.nodeId policy).enqueueNodeDocument record.nodeId
      registration, true)

/-- `UPDATE workloads SET f WHERE p`. -/
def updateWorkloads (p : String → Workload → Bool) (f : Workload → Workload) : Store :=
  { s with workloads := Table.updateWhere s.workloads p f }

/-- Change a registration. A change of identity retires the authority of the old one. -/
def updateWorkload (cfg : Config) (id : String) (expectedVersion : ℕ) (change : WorkloadChange)
    (nodeId : String) (registration policy : SignedEnvelope) (now closed : ℕ) :
    Except StoreError (Store × Bool) :=
  match s.workloads[id]? with
  | none => .ok (s, false)
  | some w =>
    if w.status ≠ .active ∨ w.version ≠ expectedVersion then .ok (s, false)
    else if w.unit != change.unit && s.unitConflict nodeId change.unit id then
      .error (.invalidInput workloadUnitConflict)
    else if !s.nodeActive w.nodeId then .ok (s, false)
    else if !Fleet.isValidCeiling change.localCeilingSeconds then .error .database
    else do
      let changed := s.updateWorkloads (fun k _ => k == id) fun w => w.change change
      let retired ← if w.changesIdentity change then
          changed.retireWorkloadAuthority cfg id "workload_changed" now closed
        else pure changed
      return ((retired.enqueueNodeDocument nodeId policy).enqueueNodeDocument nodeId registration,
        true)

/-- Revoke a registration together with its authority. -/
def revokeWorkload (cfg : Config) (id nodeId : String) (expectedVersion : ℕ)
    (registration policy : SignedEnvelope) (now closed : ℕ) : Except StoreError (Store × Bool) :=
  match s.workloads[id]? with
  | none => .ok (s, false)
  | some w =>
    if w.status ≠ .active ∨ w.version ≠ expectedVersion then .ok (s, false)
    else do
      let changed := s.updateWorkloads (fun k _ => k == id) Workload.revoke
      let retired ← changed.retireWorkloadAuthority cfg id "workload_revoked" now closed
      return ((retired.enqueueNodeDocument nodeId policy).enqueueNodeDocument nodeId registration,
        true)

/-! ### Policy -/

/-- Replace the fleet policy and queue its snapshot for the given nodes. -/
def replaceFleetPolicy (expectedVersion : ℕ) (rules : List PolicyRule)
    (nodeDocuments : List (String × SignedEnvelope)) : Except StoreError (Store × Bool) :=
  if expectedVersion = 0 then .error (.invalidInput "policy version")
  else if s.policyVersion ≠ expectedVersion then .ok (s, false)
  else
    match I64.checkedAdd s.policyVersion 1 with
    | none => .error (.invalidInput "policy version")
    | some next =>
      let replaced := { s with policy := some ⟨next, rules⟩ }
      .ok (nodeDocuments.foldl (fun s d => s.enqueueNodeDocument d.1 d.2) replaced, true)

end Store

end BlindPass.Controller
