import BlindPass.Controller.Workloads

/-!
# The life of a node

A node is enrolled, may have its keys rotated, and may be revoked. A rotation is staged by
an operator and completed by the broker's report; a revocation ends the node's grants,
operations and workloads. Both withdraw the live grants of the node with revocations that
were signed outside the store, for exactly the grants the transaction finds.
-/

namespace BlindPass.Controller

open Fleet (NodeKeyRotation Revocation SignedEnvelope isValidOpaqueId)

/-- A submitted enrollment that an administrator accepts. -/
structure Enrollment where
  nodeId : String
  requestedName : String
  signingPub : String
  recipientPub : String
  protocolVersion : String
  capabilities : String
  expiresAtMs : ℕ
  deriving DecidableEq

/-- A signed revocation for one grant of a node. -/
structure NodeGrantRevocationDraft where
  grantId : String
  reason : String
  envelope : SignedEnvelope
  deriving DecidableEq

/-- A signed rotation with the revocations that go with it. -/
structure NodeKeyRotationDraft where
  rotation : NodeKeyRotation
  rotationDocument : SignedEnvelope
  grantRevocations : List NodeGrantRevocationDraft
  deriving DecidableEq

/-! ### Checks on signed documents -/

/-- The revocation an envelope carries, if it is the expected one for the node's grant. -/
def validateNodeRevocation (envelope : SignedEnvelope) (grantId nodeId : String)
    (now expiresAtMs epoch : ℕ) (expectedReason : String) : Except StoreError Revocation :=
  match envelope.body with
  | .revocation r =>
    if !r.isValid then .error (.invalidInput "node revocation body")
    else do
      let minimum ← (minimumRetention now expiresAtMs).elim
        (.error (.invalidInput "node revocation retention")) .ok
      if envelope.epoch != epoch || r.issuerEpoch != epoch || r.grantId != grantId ||
          r.nodeId != nodeId || r.reason != expectedReason ||
          decide (r.revokedAtMs < now - 60000) || decide (now + 5000 < r.revokedAtMs) ||
          decide (r.retainUntilMs < minimum) then
        .error (.invalidInput "node revocation binding")
      else .ok r
  | _ => .error (.invalidInput "node revocation body")

/-- The envelope carries a current revocation of the node. -/
def validateNodeRevocationDocument (envelope : SignedEnvelope) (nodeId : String)
    (now epoch : ℕ) : Except StoreError Unit :=
  match envelope.body with
  | .nodeRevocation r =>
    if !r.isValid then .error (.invalidInput "node revocation body")
    else if envelope.epoch != epoch || r.issuerEpoch != epoch || r.nodeId != nodeId ||
        decide (r.revokedAtMs < now - 60000) || decide (now + 5000 < r.revokedAtMs) then
      .error (.invalidInput "node revocation binding")
    else .ok ()
  | _ => .error (.invalidInput "node revocation body")

/-- The checks of `NodeKeyRotation::to_value`. -/
def Config.isValidRotation (cfg : Config) (r : NodeKeyRotation) : Bool :=
  isValidOpaqueId r.nodeId && isValidOpaqueId r.rotationId && decide (0 < r.fromKeyVersion) &&
    r.toKeyVersion == r.fromKeyVersion + 1 && decide (0 < r.issuerEpoch) &&
    cfg.keyFingerprint r.signingPublic r.recipientPublic == some r.fingerprint

/-- The envelope carries the rotation. -/
def validateNodeKeyRotationDocument (cfg : Config) (envelope : SignedEnvelope)
    (expected : NodeKeyRotation) (nodeId : String) (now epoch : ℕ) : Except StoreError Unit :=
  match envelope.body with
  | .nodeKeyRotation r =>
    if !cfg.isValidRotation r then .error (.invalidInput "node key rotation body")
    else if envelope.epoch != epoch || r.issuerEpoch != epoch || r.nodeId != nodeId ||
        r != expected || now == 0 then
      .error (.invalidInput "node key rotation binding")
    else .ok ()
  | _ => .error (.invalidInput "node key rotation body")

/-- Every draft was used for exactly one grant. -/
def draftSetMatches (drafts : List NodeGrantRevocationDraft)
    (validated : List (NodeGrantRevocationDraft × Revocation)) : Bool :=
  validated.length == drafts.length && drafts.all fun d =>
    (validated.filter fun v => v.1.grantId == d.grantId).length == 1

namespace Store

variable (s : Store)

/-! ### Enrollment -/

/-- Accept a submitted enrollment: a new node with keys that were never used before. -/
def approveEnrollment (e : Enrollment) (now : ℕ) : Except StoreError (Store × Bool) :=
  if e.expiresAtMs ≤ now then .error (.invalidInput "enrollment expired")
  else if s.nodeKeys.any fun k => k.signingPub == e.signingPub || k.recipientPub == e.recipientPub
  then .error (.invalidInput "enrollment key reused")
  else if 0 < Table.countWhere s.nodes fun _ n =>
      n.name == e.requestedName && n.status == .active then .ok (s, false)
  else if s.nodes.contains e.nodeId then .error .database
  else
    let node : Node :=
      { name := e.requestedName
        signingPub := e.signingPub
        recipientPub := e.recipientPub
        keyVersion := 1
        status := .active
        protocolVersion := e.protocolVersion
        capabilities := e.capabilities
        lastSeenAtMs := none
        revocationQueued := false }
    .ok ({ s with
      nodes := s.nodes.insert e.nodeId node
      nodeKeys := s.nodeKeys ++ [⟨e.nodeId, 1, e.signingPub, e.recipientPub, false⟩] }, true)

/-! ### What a revocation and a rotation share -/

/-- `UPDATE nodes SET f WHERE p`. -/
def updateNodes (p : String → Node → Bool) (f : Node → Node) : Store :=
  { s with nodes := Table.updateWhere s.nodes p f }

/-- The live grants of a node that have not expired, in the order of their ids. -/
def unexpiredGrants (nodeId : String) (now : ℕ) : List (String × GrantRow) :=
  Table.select s.grants fun _ g =>
    g.grant.nodeId == nodeId && g.status.isLive && decide (now < g.grant.expiresAtMs)

/-- Match the unexpired grants of a node with the drafts. -/
def validateGrantRevocations (nodeId : String) (drafts : List NodeGrantRevocationDraft)
    (reason : NodeGrantRevocationDraft → String) (now : ℕ) :
    Except StoreError (List (NodeGrantRevocationDraft × Revocation)) :=
  (s.unexpiredGrants nodeId now).mapM fun e =>
    match drafts.find? fun d => d.grantId == e.1 with
    | none => .error (.invalidInput "node grant set changed")
    | some d => do
      let r ← validateNodeRevocation d.envelope e.1 nodeId now e.2.grant.expiresAtMs
        s.issuerEpoch (reason d)
      return (d, r)

/-- Revoke one grant of a node with its signed revocation. -/
def withdrawNodeGrant (nodeId reason : String) (now : ℕ)
    (v : NodeGrantRevocationDraft × Revocation) : Except StoreError Store := do
  let revoked := s.revokeGrantRow v.1.grantId (fun _ o => o.grantId == some v.1.grantId) reason
  let buried ← revoked.insertTombstone v.1.grantId
    ⟨nodeId, reason, now, v.2.retainUntilMs, some v.1.envelope⟩
  return buried.enqueueNodeDocument nodeId v.1.envelope

/-- Cancel the pending operations of a node, with the groups they wait in. No request is
closed here. -/
def cancelNodeOperations (nodeId reason : String) : Store :=
  let groups := s.awaitedGroups fun o => o.nodeId == nodeId
  let expired := s.updateApprovals (fun k a => groups.contains k && a.status == .pending)
    OperationApproval.expire
  expired.updateOperations
    (fun _ o => (o.status == .awaitingApproval && o.approvalId.any groups.contains) ||
      (o.nodeId == nodeId && o.status.isPending))
    fun o => o.settle .cancelled { reason := some reason }

/-! ### Revocation -/

/-- A live grant of the node whose time has passed. -/
def lapsed (nodeId : String) (now : ℕ) (g : GrantRow) : Bool :=
  g.grant.nodeId == nodeId && g.status.isLive && decide (g.grant.expiresAtMs ≤ now)

/-- End the node's grants whose time has passed, and fail their operations. -/
def failLapsed (nodeId : String) (now : ℕ) : Store :=
  let failed := s.updateOperations
    (fun _ o => o.status.isOpen &&
      o.grantId.any fun id => s.grants[id]?.any (lapsed nodeId now))
    fun o => o.settle .failed { reason := some "expired" }
  failed.updateGrants (fun _ g => lapsed nodeId now g) fun g => g.withStatus .expired

/-- Revoke a node. -/
def revokeNode (nodeId : String) (revocations : List NodeGrantRevocationDraft)
    (nodeRevocation : SignedEnvelope) (now : ℕ) : Except StoreError (Store × Bool) :=
  match s.nodes[nodeId]? with
  | none => .ok (s, false)
  | some n =>
    if n.status = .revoked then .ok (s, true)
    else do
      validateNodeRevocationDocument nodeRevocation nodeId now s.issuerEpoch
      let validated ← s.validateGrantRevocations nodeId revocations
        NodeGrantRevocationDraft.reason now
      if !draftSetMatches revocations validated then
        .error (.invalidInput "node grant set changed")
      else
        let withdrawn ← validated.foldlM
          (fun s v => s.withdrawNodeGrant nodeId "operator" now v) s
        let told := withdrawn.enqueueNodeDocument nodeId nodeRevocation
        let cancelled := told.cancelNodeOperations nodeId "node_revoked"
        let failed := cancelled.failLapsed nodeId now
        let retired := failed.updateWorkloads
          (fun _ w => w.nodeId == nodeId && w.status == .active) Workload.revoke
        return (retired.updateNodes (fun k _ => k == nodeId)
          fun n => { n with status := .revoked, revocationQueued := true }, true)

/-- Close the channel of a revoked node once its broker applied the revocation. -/
def finalizeNodeRevocation (nodeId : String) (now : ℕ) : Store :=
  if s.nodes[nodeId]?.any fun n => n.status == .revoked && n.revocationQueued then
    { s with
      nodes := Table.updateWhere s.nodes (fun k _ => k == nodeId)
        fun n => { n with revocationQueued := false }
      sessions := Table.updateWhere s.sessions (fun _ e => e.nodeId == nodeId)
        fun e => { e with revoked := true }
      inbox := s.inbox.map fun r =>
        if r.nodeId == nodeId && r.ackedAtMs.isNone && r.delivered then
          { r with ackedAtMs := some now }
        else r }
  else s

/-! ### Key rotation -/

/-- The rotation is for the node as it is, and no other is under way. -/
def rotationFits (nodeId : String) (n : Node) (expectedKeyVersion : ℕ) (r : NodeKeyRotation) :
    Bool :=
  n.status == .active && !s.rotations.contains nodeId && n.keyVersion == expectedKeyVersion &&
    r.fromKeyVersion == n.keyVersion && r.toKeyVersion == n.keyVersion + 1 &&
    r.nodeId == nodeId && r.signingPublic != n.signingPub && r.recipientPublic != n.recipientPub

/-- Record the staged rotation. -/
def insertRotation (nodeId : String) (r : NodeKeyRotation) : Except StoreError Store :=
  if s.rotations.toList.any fun e => e.1 == nodeId || e.2.rotationId == r.rotationId then
    .error .database
  else if s.nodeKeys.any fun k => k.nodeId == nodeId && k.keyVersion == r.toKeyVersion then
    .error .database
  else .ok { s with
    rotations := s.rotations.insert nodeId r
    nodeKeys := s.nodeKeys ++ [⟨nodeId, r.toKeyVersion, r.signingPublic, r.recipientPublic, false⟩] }

/-- End the node's grants whose time has passed. Their operations are not touched. -/
def expireLapsed (nodeId : String) (now : ℕ) : Store :=
  s.updateGrants (fun _ g => lapsed nodeId now g) fun g => g.withStatus .expired

/-- Stage a key rotation: the grants sealed to the old key are withdrawn, and the pending
operations cancelled. `expired` is the clock when lapsed grants are ended. -/
def stageNodeKeyRotation (cfg : Config) (nodeId : String) (expectedKeyVersion : ℕ)
    (draft : NodeKeyRotationDraft) (now expired : ℕ) : Except StoreError (Store × Bool) :=
  match s.nodes[nodeId]? with
  | none => .ok (s, false)
  | some n =>
    if !s.rotationFits nodeId n expectedKeyVersion draft.rotation then .ok (s, false)
    else do
      validateNodeKeyRotationDocument cfg draft.rotationDocument draft.rotation nodeId now
        s.issuerEpoch
      let validated ← s.validateGrantRevocations nodeId draft.grantRevocations
        (fun _ => "key_rotation") now
      if !draftSetMatches draft.grantRevocations validated ||
          draft.grantRevocations.any fun d => d.reason != "key_rotation" then
        .error (.invalidInput "node grant set changed")
      else
        let withdrawn ← validated.foldlM
          (fun s v => s.withdrawNodeGrant nodeId "key_rotation" now v) s
        let ended := withdrawn.expireLapsed nodeId expired
        let cancelled := ended.cancelNodeOperations nodeId "node_key_rotation"
        let staged ← cancelled.insertRotation nodeId draft.rotation
        return (staged.enqueueNodeDocument nodeId draft.rotationDocument, true)

/-- The keys of a version have the fingerprint, and the node uses them. -/
def rotationCompleted (cfg : Config) (nodeId : String) (keyVersion : ℕ) (fingerprint : String) :
    Bool :=
  (s.nodes[nodeId]?.any fun n => n.keyVersion == keyVersion) &&
    s.nodeKeys.any fun k => k.nodeId == nodeId && k.keyVersion == keyVersion &&
      cfg.keyFingerprint k.signingPub k.recipientPub == some fingerprint

/-- Switch the node to the staged keys. -/
def completeNodeKeyRotation (cfg : Config) (nodeId rotationId : String) (keyVersion : ℕ)
    (fingerprint : String) : Store × Bool :=
  match s.rotations[nodeId]? with
  | none => (s, s.rotationCompleted cfg nodeId keyVersion fingerprint)
  | some r =>
    if r.rotationId ≠ rotationId then
      (s, s.rotationCompleted cfg nodeId keyVersion fingerprint)
    else if keyVersion ≠ r.toKeyVersion ∨ fingerprint ≠ r.fingerprint then (s, false)
    else if !s.nodes[nodeId]?.any fun n => n.keyVersion == r.fromKeyVersion &&
        (n.status == .active || (n.status == .revoked && n.revocationQueued)) then (s, false)
    else
      ({ s with
        nodes := Table.updateWhere s.nodes (fun k _ => k == nodeId) fun n =>
          { n with
            signingPub := r.signingPublic
            recipientPub := r.recipientPublic
            keyVersion := r.toKeyVersion }
        nodeKeys := s.nodeKeys.map fun k =>
          if k.nodeId == nodeId && k.keyVersion == r.fromKeyVersion then { k with retired := true }
          else k
        sessions := Table.updateWhere s.sessions (fun _ e => e.nodeId == nodeId)
          fun e => { e with revoked := true }
        rotations := s.rotations.erase nodeId }, true)

end Store

end BlindPass.Controller
