import BlindPass.Controller.Records

/-!
# The node channel: inbox, sessions and node events

The controller queues signed documents for a node in the transaction that causes them.
A node's relay holds a session and polls: a poll acknowledges what the session was given
before, returns the next outstanding documents in order, and records that their grants
were delivered.
-/

namespace BlindPass.Controller

open Fleet (OperationClosed SignedEnvelope)

def nodeSessionTtlMs : ℕ := 15 * 60 * 1000

def pollResponseBytes : ℕ := 512 * 1024

def requeueLimit : ℕ := 100

/-- An operation whose broker request waits for an outcome. -/
structure ClosureTarget where
  operationId : String
  nodeId : String
  eventKey : String
  deriving DecidableEq

/-- What a relay receives. -/
structure InboxDocument where
  seq : ℕ
  envelope : SignedEnvelope
  deriving DecidableEq

inductive NodeEventInsert
  | inserted
  | duplicate
  | conflict
  deriving DecidableEq

/-- A verified session handshake. -/
structure NodeSessionDraft where
  nodeId : String
  keyVersion : ℕ
  issuerEpoch : ℕ
  protocolVersion : String
  capabilities : String
  nonceHash : String
  challengeExpiresAtMs : ℕ
  sessionId : String
  tokenHash : String
  expiresAtMs : ℕ
  deriving DecidableEq

/-- The signed closure of a target's operation. -/
def closureEnvelope (target : ClosureTarget) (status : String) (nowMs epoch : ℕ) :
    Except StoreError SignedEnvelope :=
  let body : OperationClosed :=
    { nodeId := target.nodeId
      operationId := target.operationId
      requestEventKey := target.eventKey
      status := status
      closedAtMs := nowMs
      issuerEpoch := epoch }
  if body.isValid then .ok ⟨epoch, .operationClosed body⟩
  else .error (.invalidInput "operation closure")

/-- The documents a poll adds to the first one: as many as fit beside `sent` bytes. -/
def takeResponse (bytes : SignedEnvelope → ℕ) : ℕ → List InboxDocument → List InboxDocument
  | _, [] => []
  | sent, d :: rest =>
    let sent' := sent + bytes d.envelope
    -- documents left out stay unacknowledged and arrive on the next poll
    if pollResponseBytes < sent' then [] else d :: takeResponse bytes sent' rest

/-- The documents a poll answers with. The first outstanding one is always among them. -/
def pollResponse (bytes : SignedEnvelope → ℕ) : List InboxDocument → List InboxDocument
  | [] => []
  | d :: rest => d :: takeResponse bytes (bytes d.envelope) rest

variable {bytes : SignedEnvelope → ℕ} {documents : List InboxDocument}

theorem takeResponse_prefix {sent : ℕ} : takeResponse bytes sent documents <+: documents := by
  induction documents generalizing sent with
  | nil => exact List.prefix_refl _
  | cons d rest ih =>
    rw [takeResponse]
    split
    · exact List.nil_prefix
    · exact (List.prefix_cons_inj d).mpr ih

theorem pollResponse_initial : pollResponse bytes documents <+: documents := by
  cases documents with
  | nil => exact List.prefix_refl _
  | cons d => exact (List.prefix_cons_inj d).mpr takeResponse_prefix

theorem pollResponse_eq_nil : pollResponse bytes documents = [] ↔ documents = [] := by
  cases documents with
  | nil => exact Iff.rfl
  | cons => simp [pollResponse]

/-- The grant a delivered document carries. -/
def deliveredGrantId (envelope : SignedEnvelope) : Option String :=
  match envelope.body with
  | .grant g => some g.id
  | _ => none

namespace Store

variable (s : Store)

/-- The greatest sequence number of a node's inbox. -/
def lastSeq (nodeId : String) : ℕ :=
  (s.inbox.filter fun r => r.nodeId == nodeId).foldl (fun m r => max m r.seq) 0

variable {s} in
theorem le_lastSeq {r : InboxRow} (hr : r ∈ s.inbox) : r.seq ≤ s.lastSeq r.nodeId :=
  Table.le_foldl_max.2 r (List.mem_filter.mpr ⟨hr, beq_self_eq_true _⟩)

variable {s} in
/-- A row has the greatest number, unless the inbox is empty. -/
theorem lastSeq_cases (nodeId : String) :
    s.lastSeq nodeId = 0 ∨ ∃ r ∈ s.inbox, r.nodeId = nodeId ∧ r.seq = s.lastSeq nodeId := by
  rcases Table.foldl_max_cases (f := InboxRow.seq) (n := 0) with hzero | ⟨r, hr, hmax⟩
  · exact .inl hzero
  · obtain ⟨hmem, hnode⟩ := List.mem_filter.mp hr
    exact .inr ⟨r, hmem, eq_of_beq hnode, hmax.symm⟩

/-- Add a document at the end of a node's inbox. -/
def enqueueNodeDocument (nodeId : String) (envelope : SignedEnvelope) : Store :=
  { s with inbox := s.inbox ++ [⟨nodeId, s.lastSeq nodeId + 1, envelope, false, none⟩] }

/-- The operations that meet the condition, have a broker request and run on an active
node, oldest first. -/
def closureTargets (p : String → Operation → Bool) : List ClosureTarget :=
  (Table.orderBy (Table.select s.operations p) fun o => o.createdAtMs).filterMap fun e =>
    if s.nodeActive e.2.nodeId then e.2.brokerEventKey.map fun key => ⟨e.1, e.2.nodeId, key⟩
    else none

/-- Queue a signed closure for each target. Without an issuer nothing is sent. -/
def enqueueClosures (cfg : Config) (targets : List ClosureTarget) (status : String)
    (nowMs : ℕ) : Except StoreError Store :=
  if !cfg.signer then .ok s
  else
    targets.foldlM (fun s target => do
      let envelope ← closureEnvelope target status nowMs s.issuerEpoch
      return s.enqueueNodeDocument target.nodeId envelope) s

/-! ### Sessions -/

/-- The node may authenticate a channel with the key version: it is active, or revoked
with its revocation still to be applied, and the key is its current or its staged one. -/
def mayAuthenticate (nodeId : String) (n : Node) (keyVersion : ℕ) (protocolVersion : String) :
    Bool :=
  (n.status == .active || (n.status == .revoked && n.revocationQueued)) &&
    n.protocolVersion == protocolVersion &&
    (n.keyVersion == keyVersion ||
      s.rotations[nodeId]?.any fun r => r.toKeyVersion == keyVersion)

/-- The tombstones whose revocations are sent again on reconnection: retained, signed, not
reported as applied and not waiting in the inbox already. -/
def requeueable (nodeId : String) (now : ℕ) : List (String × Tombstone) :=
  Table.select s.tombstones fun grantId t =>
    t.nodeId == nodeId && decide (now < t.retainUntilMs) &&
      (s.grants[grantId]?.any fun g => g.brokerRevocationOutcome.isNone) &&
      t.envelope.any fun envelope => !s.inbox.any fun r =>
        r.nodeId == nodeId && r.ackedAtMs.isNone && r.envelope == envelope

/-- The revocations to send again, oldest first. -/
def requeuedRevocations (nodeId : String) (now : ℕ) : List SignedEnvelope :=
  ((Table.orderBy (s.requeueable nodeId now) fun t => t.createdAtMs).take requeueLimit).filterMap
    fun e => e.2.envelope

/-- Record a session for a verified challenge. -/
def createNodeSession (draft : NodeSessionDraft) (now : ℕ) : Except StoreError (Store × Bool) :=
  if draft.expiresAtMs = 0 ∨ nodeSessionTtlMs < draft.expiresAtMs - draft.challengeExpiresAtMs
  then .error (.invalidInput "node session expiry")
  else
    let eligible := s.issuerEpoch == draft.issuerEpoch && decide (now < draft.challengeExpiresAtMs)
      && s.nodes[draft.nodeId]?.any fun n =>
        s.mayAuthenticate draft.nodeId n draft.keyVersion draft.protocolVersion &&
          n.capabilities == draft.capabilities
    -- each signed challenge is good for one session
    let used := s.sessions.contains draft.sessionId || s.sessions.toList.any fun e =>
      e.2.nonceHash == draft.nonceHash || e.2.tokenHash == draft.tokenHash
    if !eligible || used then .ok (s, false)
    else
      let inherited := (Table.select s.sessions fun _ n => n.nodeId == draft.nodeId).foldl
        (fun m e => max m e.2.deliveredSeq) 0
      let session : NodeSession :=
        { nodeId := draft.nodeId
          nonceHash := draft.nonceHash
          tokenHash := draft.tokenHash
          createdAtMs := now
          expiresAtMs := draft.expiresAtMs
          revoked := false
          deliveredSeq := inherited }
      let recorded := { s with sessions := s.sessions.insert draft.sessionId session }
      .ok ((recorded.requeuedRevocations draft.nodeId now).foldl
        (fun s envelope => s.enqueueNodeDocument draft.nodeId envelope) recorded, true)

/-- Check a bearer session and record that the node was seen. -/
def authenticateNodeSession (sessionId nodeId tokenHash : String) (keyVersion issuerEpoch : ℕ)
    (protocolVersion : String) (now : ℕ) : Store × Bool :=
  let authentic := (s.nodes[nodeId]?.any fun n =>
      s.mayAuthenticate nodeId n keyVersion protocolVersion &&
        (s.issuerEpoch == issuerEpoch ||
          (n.status == .revoked && decide (issuerEpoch ≤ s.issuerEpoch)))) &&
    s.sessions[sessionId]?.any fun session =>
      session.nodeId == nodeId && session.tokenHash == tokenHash && !session.revoked &&
        decide (now < session.expiresAtMs)
  let seen := Table.updateWhere s.nodes (fun id _ => id == nodeId) fun n =>
    { n with lastSeenAtMs := some now }
  if authentic then ({ s with nodes := seen }, true) else (s, false)

/-! ### Polling -/

/-- The documents of a node that were not acknowledged, in order. -/
def outstanding (nodeId : String) : List InboxRow :=
  s.inbox.filter fun r => r.nodeId == nodeId && r.ackedAtMs.isNone

/-- Acknowledge what the session was given, up to `seq`. -/
def acknowledge (nodeId : String) (seq now : ℕ) : Store :=
  { s with inbox := s.inbox.map fun r =>
      if r.nodeId == nodeId && decide (r.seq ≤ seq) && r.delivered && r.ackedAtMs.isNone then
        { r with ackedAtMs := some now }
      else r }

/-- Mark the next fifty outstanding documents delivered. -/
def markDelivered (nodeId : String) : Store :=
  let seqs := ((s.outstanding nodeId).take 50).map (·.seq)
  { s with inbox := s.inbox.map fun r =>
      if r.nodeId == nodeId && r.ackedAtMs.isNone && seqs.contains r.seq then
        { r with delivered := true }
      else r }

/-- Record what a poll returned: the session's mark, and the grants among it. -/
def recordDelivery (nodeId sessionId : String) (documents : List InboxDocument) : Store :=
  let highest := documents.foldl (fun m d => max m d.seq) 0
  let grantIds := documents.filterMap fun d => deliveredGrantId d.envelope
  { s with
    sessions := Table.updateWhere s.sessions
      (fun id n => id == sessionId && n.nodeId == nodeId && decide (n.deliveredSeq < highest))
      fun n => { n with deliveredSeq := highest }
    grants := Table.updateWhere s.grants
      (fun id g => grantIds.contains id && g.grant.nodeId == nodeId && g.status == .issued)
      fun g => g.withStatus .delivered }

/-- A relay's poll. `ackSeq` is what the relay claims to have applied. -/
def pollNodeInbox (bytes : SignedEnvelope → ℕ) (nodeId sessionId : String) (ackSeq : Option ℕ)
    (now : ℕ) : Except StoreError (Store × List InboxDocument) :=
  match s.sessions[sessionId]? with
  | none => .error (.missingState "node session")
  | some session =>
    if session.nodeId ≠ nodeId then .error (.missingState "node session")
    else
      -- a relay cannot acknowledge more than its session was given
      let acknowledged := s.acknowledge nodeId (ackSeq.elim 0 fun seq => min seq session.deliveredSeq)
        now
      let marked := acknowledged.markDelivered nodeId
      let rows := ((marked.outstanding nodeId).take 50).map fun r => ⟨r.seq, r.envelope⟩
      let documents := pollResponse bytes rows
      .ok (marked.recordDelivery nodeId sessionId documents, documents)

/-! ### Node events -/

/-- The recorded event of a node with the key. -/
def nodeEvent? (nodeId key : String) : Option NodeEvent :=
  s.nodeEvents.find? fun e => e.nodeId == nodeId && e.idempotencyKey == key

/-- Insert a row into `node_events`. -/
def insertNodeEvent (event : NodeEvent) : Except StoreError Store :=
  if s.nodeEvents.any fun e => e.id == event.id ||
      (e.nodeId == event.nodeId && e.idempotencyKey == event.idempotencyKey) then
    .error .database
  else .ok { s with nodeEvents := s.nodeEvents ++ [event] }

/-- Record a verified event once. -/
def recordNodeEvent (event : NodeEvent) : Except StoreError (Store × NodeEventInsert) :=
  match s.nodeEvent? event.nodeId event.idempotencyKey with
  | some prior => .ok (s, if prior.bodyHash == event.bodyHash then .duplicate else .conflict)
  | none => do
    let recorded ← s.insertNodeEvent event
    return (recorded, .inserted)

end Store

end BlindPass.Controller
