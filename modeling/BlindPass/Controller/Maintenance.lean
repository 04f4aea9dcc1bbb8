import BlindPass.Controller.Nodes

/-!
# Maintenance of the store

A periodic pass ends what is past its deadline, in bounded batches, and signs the
revocations a clock fence left unsigned. The fence itself withdraws all authority whose
deadlines came from an untrusted clock. A second pass removes rows nobody needs any more.
-/

namespace BlindPass.Controller

open Fleet (Revocation SignedEnvelope)
open Table (countWhere orderBy select)

def expiryBatch : ℕ := 200

def signBatch : ℕ := 200

def pruneBatch : ℕ := 1000

def ackedInboxRetentionMs : ℕ := 60 * 60 * 1000

def nodeEventRetentionMs : ℕ := 7 * 24 * 60 * 60 * 1000

def nodeSessionRetentionMs : ℕ := 60 * 60 * 1000

structure FleetExpirySummary where
  expiredApprovals : ℕ
  expiredOperations : ℕ
  expiredGrants : ℕ
  unconfirmedOperations : ℕ
  signedTombstones : ℕ
  deriving DecidableEq

/-- `FleetFencePurge`, without the enrollments -/
structure FleetFencePurge where
  expiredOperationApprovals : ℕ
  deniedOperations : ℕ
  revokedGrants : ℕ
  revokedNodeSessions : ℕ
  deriving DecidableEq

/-- The database clock at the statements of an expiry pass. Each group's closure reads it
for itself. -/
structure SweepClock where
  approvals : ℕ
  groupClosed : String → ℕ
  targets : ℕ
  operations : ℕ
  operationsClosed : ℕ
  grants : ℕ
  executing : ℕ
  tombstones : ℕ

/-- The signed revocation of a tombstone. -/
def tombstoneEnvelope (grantId : String) (t : Tombstone) (epoch : ℕ) :
    Except StoreError SignedEnvelope :=
  let body : Revocation :=
    { grantId := grantId
      nodeId := t.nodeId
      reason := "policy"
      revokedAtMs := t.createdAtMs
      retainUntilMs := t.retainUntilMs
      issuerEpoch := epoch }
  if body.isValid then .ok ⟨epoch, .revocation body⟩ else .error (.invalidInput "revocation")

/-- What becomes of an operation whose grant expired in the status `delivered` or not: one
that may have run is uncertain. -/
def Operation.lapse (o : Operation) (grantStatus : GrantStatus) : Operation :=
  if o.status = .granted then
    o.settle (if grantStatus = .issued then .failed else .uncertain)
      { reason := some "grant_expired" }
  else o.withStatus .uncertain

namespace Store

variable (s : Store)

/-! ### The expiry pass -/

/-- The pending groups past their deadline, earliest first. -/
def expiredGroups (now : ℕ) : List String :=
  ((orderBy (select s.approvals fun _ a =>
    a.status == .pending && decide (a.expiresAtMs ≤ now)) fun a => a.expiresAtMs).take
      expiryBatch).map Prod.fst

/-- A pending operation past its deadline. -/
def overdue (now : ℕ) (_ : String) (o : Operation) : Bool :=
  o.status.isPending && decide (o.expiresAtMs ≤ now)

/-- The pending operations past their deadline, earliest first. -/
def overdueOperations (now : ℕ) : List String :=
  ((orderBy (select s.operations (overdue now)) fun o => o.expiresAtMs).take
    expiryBatch).map Prod.fst

/-- Deny the pending operations past their deadline. The requests to be closed are read
first, at a clock of their own. -/
def denyOverdue (cfg : Config) (clock : SweepClock) : Except StoreError (Store × ℕ) := do
  let targets := s.closureTargets (overdue clock.targets)
  let ids := s.overdueOperations clock.operations
  let denied := s.updateOperations (fun k o => ids.contains k && o.status.isPending)
    fun o => o.settle .denied { reason := some "expired" }
  let closed ← denied.enqueueClosures cfg (targets.filter fun t => ids.contains t.operationId)
    "expired" clock.operationsClosed
  return (closed, ids.length)

/-- The live grants past their expiry, earliest first. -/
def expiredGrants (now : ℕ) : List (String × GrantRow) :=
  (orderBy (select s.grants fun _ g =>
    g.status.isLive && decide (g.grant.expiresAtMs ≤ now)) fun g => g.grant.expiresAtMs).take
      expiryBatch

/-- End an expired grant, as it was read, with its operation. -/
def expireGrant (grantId : String) (g : GrantRow) : Store :=
  (s.updateGrants (fun k c => k == grantId && c.status.isLive)
    fun c => c.withStatus .expired).updateOperations
      (fun k o => k == g.grant.operationId && o.status.isOpen) fun o => o.lapse g.status

/-- The executing operations whose native grant is past its expiry. A browser session has
a maximum of its own. -/
def unconfirmed (now : ℕ) : List String :=
  let rows := (select s.operations fun _ o => o.status == .executing).filterMap fun e =>
    (e.2.grantId.bind fun id => s.grants[id]?).bind fun g =>
      if g.grant.expiresAtMs ≤ now ∧ g.grant.mode ≠ .browserSession then some (e.1, g) else none
  ((orderBy rows fun g => g.grant.expiresAtMs).take expiryBatch).map Prod.fst

/-- Give up on executions that were not confirmed in time. -/
def doubtUnconfirmed (ids : List String) : Store :=
  s.updateOperations (fun k o => ids.contains k && o.status == .executing)
    fun o => o.settle .uncertain { reason := some "completion_unconfirmed" }

/-- The retained tombstones of active nodes that have no signed revocation yet. -/
def unsignedTombstones (now : ℕ) : List (String × Tombstone) :=
  select s.tombstones fun _ t =>
    s.nodeActive t.nodeId && t.envelope.isNone && decide (now < t.retainUntilMs)

/-- Sign the unsigned tombstones, oldest first. -/
def signPendingTombstones (now : ℕ) : Except StoreError (Store × ℕ) := do
  let rows := (orderBy (s.unsignedTombstones now) fun t => t.createdAtMs).take signBatch
  let signed ← rows.foldlM (fun s e => do
    let envelope ← tombstoneEnvelope e.1 e.2 s.issuerEpoch
    let marked := { s with
      tombstones := Table.updateWhere s.tombstones (fun k t => k == e.1 && t.envelope.isNone)
        fun t => { t with envelope := some envelope } }
    return marked.enqueueNodeDocument e.2.nodeId envelope) s
  return (signed, rows.length)

/-- A store without an issuer leaves the tombstones unsigned. -/
def signTombstones (cfg : Config) (now : ℕ) : Except StoreError (Store × ℕ) :=
  if cfg.signer then s.signPendingTombstones now else .ok (s, 0)

/-- End one group past its deadline; `ended` counts the operations that ended with theirs. -/
def expireGroup (cfg : Config) (clock : SweepClock) (ended : ℕ) (approvalId : String) :
    Except StoreError (Store × ℕ) := do
  let expired ← s.endGroup cfg approvalId "approval_expired" "expired" (clock.groupClosed approvalId)
  return (expired, ended + countWhere s.operations (awaits approvalId))

/-- One expiry pass. -/
def expireFleetState (cfg : Config) (clock : SweepClock) :
    Except StoreError (Store × FleetExpirySummary) := do
  let groups := s.expiredGroups clock.approvals
  let (grouped, members) ← groups.foldlM (fun e id => e.1.expireGroup cfg clock e.2 id) (s, 0)
  let (denied, overdue) ← grouped.denyOverdue cfg clock
  let grants := denied.expiredGrants clock.grants
  let lapsed := grants.foldl (fun s e => s.expireGrant e.1 e.2) denied
  let ids := lapsed.unconfirmed clock.executing
  let doubted := lapsed.doubtUnconfirmed ids
  let (signed, tombstones) ← doubted.signTombstones cfg clock.tombstones
  return (signed, ⟨groups.length, members + overdue, grants.length, ids.length, tombstones⟩)

/-! ### The clock fence -/

/-- The tombstones of a fence, to be signed by the next expiry pass. -/
def fenceTombstones (now : ℕ) : Std.TreeMap String Tombstone :=
  (select s.grants fun _ g => g.status.isLive).foldl (fun tombstones e =>
    if tombstones.contains e.1 then tombstones
    else tombstones.insert e.1
      ⟨e.2.grant.nodeId, "policy", now, max e.2.grant.expiresAtMs now + tombstoneRetentionMs,
        none⟩) s.tombstones

/-- Revoke every live grant, with its operation if that is granted. -/
def fenceGrants : Store :=
  let revoked := s.updateOperations
    (fun _ o => o.status == .granted &&
      o.grantId.any fun id => s.grants[id]?.any fun g => g.status.isLive)
    fun o => o.settle .revoked { reason := some "clock_fence" }
  revoked.updateGrants (fun _ g => g.status.isLive) fun g => g.withStatus .revoked

/-- Withdraw the authority an untrusted clock dated. No request is closed here. -/
def fleetFencePurge (now : ℕ) : Store × FleetFencePurge :=
  let expired := s.updateApprovals (fun _ a => a.status == .pending) OperationApproval.expire
  let denied := expired.updateOperations (fun _ o => o.status.isPending)
    fun o => o.settle .denied { reason := some "clock_fence" }
  let buried := { denied with tombstones := denied.fenceTombstones now }
  let withdrawn := buried.fenceGrants
  let closed := { withdrawn with
    sessions := Table.updateWhere s.sessions (fun _ e => !e.revoked)
      fun e => { e with revoked := true } }
  (closed,
    { expiredOperationApprovals := countWhere s.approvals fun _ a => a.status == .pending
      deniedOperations := countWhere s.operations fun _ o => o.status.isPending
      revokedGrants := countWhere s.grants fun _ g => g.status.isLive
      revokedNodeSessions := countWhere s.sessions fun _ e => !e.revoked })

/-! ### The retention pass -/

/-- An inbox row that was acknowledged long ago. The last row of a node stays, because the
next sequence number is taken from it. -/
def inboxRowPrunable (now : ℕ) (r : InboxRow) : Bool :=
  (r.ackedAtMs.any fun acked => decide (acked + ackedInboxRetentionMs < now)) &&
    decide (r.seq < s.lastSeq r.nodeId)

/-- A session that expired long ago. The newest session of a node stays, because the next
one inherits its mark. -/
def sessionPrunable (now : ℕ) (e : NodeSession) : Bool :=
  decide (e.expiresAtMs + nodeSessionRetentionMs < now) &&
    s.sessions.toList.any fun l => l.2.nodeId == e.nodeId && decide (e.createdAtMs < l.2.createdAtMs)

/-- Remove rows past their retention, a batch of each kind. In the source each kind has
statements of its own, and the `LIMIT` of a batch takes rows in no given order. -/
def pruneFleetState (now : ℕ) : Store :=
  let rows := (s.inbox.filter (s.inboxRowPrunable now)).take pruneBatch
  let events := (s.nodeEvents.filter fun e =>
    decide (e.receivedAtMs + nodeEventRetentionMs < now)).take pruneBatch
  let sessions := (select s.sessions fun _ e => s.sessionPrunable now e).take pruneBatch
  let tombstones := (select s.tombstones fun _ t =>
    decide (t.retainUntilMs < now)).take pruneBatch
  { s with
    inbox := s.inbox.filter fun r => !rows.contains r
    nodeEvents := s.nodeEvents.filter fun e => !events.contains e
    sessions := sessions.foldl (fun t e => t.erase e.1) s.sessions
    tombstones := tombstones.foldl (fun t e => t.erase e.1) s.tombstones }

end Store

end BlindPass.Controller
