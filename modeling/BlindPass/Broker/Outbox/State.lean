import BlindPass.Broker.FleetState
import BlindPass.Broker.GrantVerifier
import BlindPass.Broker.Outbox.File
import BlindPass.Library.Command

/-!
# The broker's queue of events

The broker queues what it owes the controller and keeps the queue in the outbox: it changes its
state, writes the whole outbox, and takes the change back if the write fails. Where a change must
not be taken back it stays in memory, and the broker is fenced until a later write succeeds.

Outcomes of revocations that do not fit are deferred in memory; they can be built again from the
journal of revocations. An overflow of the queue is a flag that turns into an event as soon as
there is room.
-/

namespace BlindPass.Broker

open Fleet (Value Revocation OperationCancellation isValidEventKey isValidOpaqueId)
open Storage (Slot)

/-! ### Readings of the verifier -/

namespace GrantVerifier

variable (v : GrantVerifier)

def hasTombstone (grantId : String) : Bool := v.revocations.tombstones.contains grantId

def hasRecordedRevocationOutcome (grantId : String) : Bool :=
  v.revocations.outcomes.contains grantId && !v.revocations.acknowledgedOutcomes.contains grantId

def revocationObservedAtMs (grantId : String) : Option ℕ :=
  v.revocations.outcomes[grantId]?.map Prod.snd

def pendingRevocationOutcomesAfter (after : Option String) (limit : ℕ) :
    List (String × RevocationOutcome × ℕ) :=
  (v.revocations.outcomes.toList.filter fun e =>
    after.all (· < e.1) && !v.revocations.acknowledgedOutcomes.contains e.1).take limit

def hasUnpersistedRevocations : Bool := !v.revocations.unpersisted.isEmpty

def previewConsumption (grantId : String) (authorization : WorkloadAuthorization)
    (currentPolicyVersion nowBoottimeMs : ℕ) : Except ConsumeDenial Fleet.Grant :=
  (v.validateConsumption grantId authorization currentPolicyVersion nowBoottimeMs).map
    AcceptedGrant.grant

end GrantVerifier

/-! ### The state -/

/-- What the random source yields for one key. -/
structure EventNonce where
  bytes : List UInt8
  length_bytes : bytes.length = 32

/-- `new_node_event_key` -/
def EventNonce.key (n : EventNonce) : String :=
  "event_" ++ String.ofList (Fleet.base64UrlEncode n.bytes)

/-- How the system answers while an operation runs: the clock, the random source, which fails
when nothing is left of it, the writes of the outbox, of which those beyond the list succeed, the
calls that make records of grants, revocations and documents, and the flush of the directory after
the keys were replaced. -/
structure Surroundings where
  boottimeMs : ℕ
  nonces : List EventNonce
  writes : List DiskWrite
  consumption : GrantJournal.RecordIo
  revocation : Slot.AppendIo
  acknowledgement : String → Slot.AppendIo
  retry : String → Slot.AppendIo
  marker : Bool
  filing : Bool
  flushing : Bool

/-- The public keys of the node with their fingerprint. -/
structure PublicIdentity where
  signingPublic : String
  recipientPublic : String
  fingerprint : String
  deriving DecidableEq

/-- The node's keys: those in use, the rotation that brought them and is not acknowledged, and
the keys prepared for the next rotation. -/
structure NodeKeys where
  version : ℕ
  identity : PublicIdentity
  lastRotationId : Option String
  staged : Option PublicIdentity
  deriving DecidableEq

/-- How far a fulfillment has come. -/
inductive FulfillmentPhase
  | offered
  | failed
  | stored
  | consumed
  | replaced
  | sealed
  deriving DecidableEq

/-- A fulfillment that the broker takes part in, with the version of its key that the terms name. -/
structure FulfillmentEntry where
  id : String
  phase : FulfillmentPhase
  keyVersion : ℕ
  deriving DecidableEq

/-- The fulfillment is not finished. -/
def FulfillmentEntry.isUnfinished (e : FulfillmentEntry) : Bool :=
  e.phase == .offered || e.phase == .sealed

/-- A resource of the browser catalog. -/
structure BrowserResource where
  resourceId : String
  workloadIds : List String
  account : String
  recipe : Value

/-- The broker. `nodeId` is the node of the pinned issuer, `live` the requests that a lease, a
ready browser context or an unfinished session record still refers to, `unfiled` the documents in
force that are not filed. -/
structure BrokerState where
  nodeId : String
  keys : NodeKeys
  fleet : FleetState
  fulfillments : List FulfillmentEntry
  catalog : Option (List BrowserResource)
  verifier : GrantVerifier
  files : StateFiles
  events : List PendingNodeEvent
  deferred : List PendingNodeEvent
  recoveryCursor : Option String
  overflowPending : Bool
  owners : BoundedRecords OperationRequestOwner
  closures : BoundedRecords String
  live : List String
  fenced : Bool
  unfiled : List String
  revocationAckPending : Bool
  revocationAcknowledged : Bool
  revocationObservedAtMs : Option ℕ
  outbox : OutboxFile
  surroundings : Surroundings

/-- An operation of the broker. -/
abbrev Operation (α : Type) := Command BrokerState String α

namespace BrokerState

variable (s : BrokerState)

/-- What a write of the outbox holds. -/
def snapshot : OutboxSnapshot :=
  ⟨s.events, s.overflowPending, s.revocationAcknowledged, s.owners, s.closures⟩

/-- `trusted_controller_time_ms`, at the present reading of the clock. -/
def controllerTimeMs : Option ℕ := s.verifier.trustedControllerTimeMs s.surroundings.boottimeMs

def persistenceFenced : Bool :=
  s.fenced || !s.unfiled.isEmpty || s.verifier.hasUnpersistedRevocations

/-- An event with this key is queued. -/
def isQueued (key : String) : Bool := s.events.any fun e => e.idempotencyKey == key

/-- An event with this key is queued or deferred. -/
def isPending (key : String) : Bool :=
  (s.events ++ s.deferred).any fun e => e.idempotencyKey == key

/-- A later state with the queue, the owners and the flags of this one. -/
def restoring (later : BrokerState) : BrokerState :=
  { later with
    events := s.events
    owners := s.owners
    overflowPending := s.overflowPending
    revocationAckPending := s.revocationAckPending
    revocationAcknowledged := s.revocationAcknowledged
    deferred := s.deferred
    recoveryCursor := s.recoveryCursor }

end BrokerState

/-- Draw a key from the random source. -/
def newNodeEventKey : Operation String := fun s =>
  match s.surroundings.nonces with
  | [] => (s, .error "random source is unavailable")
  | nonce :: rest =>
    ({ s with surroundings := { s.surroundings with nonces := rest } }, .ok nonce.key)

section

variable (H : Hash)

def persistPendingNodeEvents : Operation Unit := fun s =>
  let written :=
    writePendingNodeEvents H s.outbox s.snapshot (s.surroundings.writes.headD .done)
  ({ s with
      outbox := written.1
      fenced := !written.2.isOk
      surroundings := { s.surroundings with writes := s.surroundings.writes.tail } },
    written.2)

/-- Put events at the end of the queue. -/
def pushEvents (events : List PendingNodeEvent) : Operation Unit :=
  .modify fun s => { s with events := s.events ++ events }

/-- Queue one event, or none if the write fails. -/
def queueEvent (event : PendingNodeEvent) : Operation Unit := do
  pushEvents [event]
  (persistPendingNodeEvents H).onFailure fun s => { s with events := s.events.dropLast }

/-! ### Overflow -/

def flagAuditOverflow : Operation Unit := do
  let s ← Command.get
  if s.overflowPending then return ()
  Command.modify fun s => { s with overflowPending := true }
  (persistPendingNodeEvents H).onFailure fun s => { s with overflowPending := false }

/-- Flag an overflow; the flag stays set even if it cannot be written. -/
def flagAuditOverflowAnyway : Operation Unit := do
  match ← (flagAuditOverflow H).attempt with
  | .ok () => return ()
  | .error _ => Command.modify fun s => { s with overflowPending := true }

/-- The event an overflow is reported with. -/
def auditOverflowEvent (key nodeId : String) (observedAtMs : ℕ) : PendingNodeEvent where
  idempotencyKey := key
  kind := .audit
  body := .object
    [("action", .string "audit_overflow"), ("node_id", .string nodeId),
      ("observed_at_ms", .unsigned observedAtMs)]

def queueOverflowEventIfPossible (nodeId : String) : Operation Unit := do
  let s ← Command.get
  if !s.overflowPending || maxBrokerAuditEvents ≤ s.events.length then return ()
  match s.controllerTimeMs with
  | none => return ()
  | some observedAtMs =>
    let key ← newNodeEventKey
    Command.modify fun s => { s with
      events := s.events ++ [auditOverflowEvent key nodeId observedAtMs], overflowPending := false }
    (persistPendingNodeEvents H).onFailure fun s => { s with
      events := s.events.dropLast, overflowPending := true }

/-! ### Revocations of grants -/

def maxDeferredRevocationOutcomes : ℕ := 10000

/-- The key an outcome is reported under. -/
def revocationOutcomeKey (grantId : String) : String := "grant_revocation_applied_" ++ grantId

def grantRevocationOutcomeEvent (nodeId grantId : String) (outcome : RevocationOutcome)
    (observedAtMs : ℕ) : Option PendingNodeEvent :=
  if isValidEventKey (revocationOutcomeKey grantId) then
    some {
      idempotencyKey := revocationOutcomeKey grantId
      kind := .audit
      body := .object
        [("action", .string "grant_revocation_applied"), ("grant_id", .string grantId),
          ("node_id", .string nodeId), ("observed_at_ms", .unsigned observedAtMs),
          ("outcome", .string outcome.text)] }
  else none

/-- Move deferred outcomes into the queue while there is room. -/
def BrokerState.takeDeferred (s : BrokerState) : BrokerState :=
  let room := maxBrokerAuditEvents - s.events.length
  { s with events := s.events ++ s.deferred.take room, deferred := s.deferred.drop room }

def queueDeferredRevocationOutcomes : Operation Unit := do
  let s ← Command.get
  if s.deferred.isEmpty || maxBrokerAuditEvents ≤ s.events.length then return ()
  Command.modify BrokerState.takeDeferred
  (persistPendingNodeEvents H).onFailure fun later =>
    { later with events := s.events, deferred := s.deferred }

/-- Defer an outcome; flag an overflow if it stays deferred. -/
def deferOutcome (event : PendingNodeEvent) : Operation Unit := do
  Command.modify fun s => { s with deferred := s.deferred ++ [event] }
  (queueDeferredRevocationOutcomes H).ignore
  let s ← Command.get
  (flagAuditOverflowAnyway H).when !s.deferred.isEmpty

def queueGrantRevocationOutcome (nodeId grantId : String) (outcome : RevocationOutcome)
    (observedAtMs : ℕ) : Operation Unit := do
  match grantRevocationOutcomeEvent nodeId grantId outcome observedAtMs with
  | none => return ()
  | some event =>
    let s ← Command.get
    if s.isPending event.idempotencyKey then return ()
    if maxDeferredRevocationOutcomes ≤ s.deferred.length then
      -- the outcome stays in the journal, which is read again from its start
      Command.modify fun s => { s with recoveryCursor := none }
      flagAuditOverflowAnyway H
    else deferOutcome H event

/-- The verifier's part of `apply_grant_revocation`. -/
def recordRevocation (revocation : Revocation) (observedAtMs : ℕ) : Operation Unit := fun s =>
  let revoked := s.verifier.revoke s.files revocation observedAtMs s.surroundings.revocation
  ({ s with verifier := revoked.1, files := revoked.2.1 }, revoked.2.2)

/-- When a revocation is said to have been observed: as recorded, by the controller's clock, or
as it says itself. -/
def BrokerState.revocationTimeMs (s : BrokerState) (revocation : Revocation) : ℕ :=
  (s.verifier.revocationObservedAtMs revocation.grantId).getD
    (s.controllerTimeMs.getD revocation.revokedAtMs)

def applyGrantRevocation (nodeId : String) (revocation : Revocation) : Operation Unit := do
  let s ← Command.get
  let outcome := s.verifier.revocationOutcome revocation.grantId
  let observedAtMs := s.revocationTimeMs revocation
  let applied ← (recordRevocation revocation observedAtMs).attempt
  let later ← Command.get
  (queueGrantRevocationOutcome H nodeId revocation.grantId outcome observedAtMs).when
    (!s.verifier.hasTombstone revocation.grantId ||
      later.verifier.hasRecordedRevocationOutcome revocation.grantId)
  Command.lift (applied.mapError fun _ => "controller_document_not_durable")

/-- The loop of `restore_revocation_outcomes`. -/
def restoreOutcomes (nodeId : String) : List (String × RevocationOutcome × ℕ) → Operation Unit
  | [] => return ()
  | (grantId, outcome, observedAtMs) :: rest => do
    let s ← Command.get
    if maxDeferredRevocationOutcomes ≤ s.deferred.length then return ()
    Command.modify fun s => { s with recoveryCursor := some grantId }
    match grantRevocationOutcomeEvent nodeId grantId outcome observedAtMs with
    | none => Command.fail "grant revocation outcome key exceeds its bound"
    | some event =>
      (Command.modify fun s => { s with deferred := s.deferred ++ [event] }).when
        !s.isPending event.idempotencyKey
      restoreOutcomes nodeId rest

def restoreRevocationOutcomes (nodeId : String) : Operation Unit := do
  let s ← Command.get
  let slots := maxDeferredRevocationOutcomes - s.deferred.length
  if slots = 0 then return ()
  restoreOutcomes nodeId (s.verifier.pendingRevocationOutcomesAfter s.recoveryCursor
    (slots + s.events.length + s.deferred.length))

/-! ### The revocation of the node -/

/-- The key the node's revocation is reported under. -/
def nodeRevocationKey (observedAtMs : ℕ) : String :=
  "node_revocation_applied_" ++ toString observedAtMs

/-- The event the node's revocation is reported with. -/
def nodeRevocationEvent (nodeId : String) (observedAtMs : ℕ) : PendingNodeEvent where
  idempotencyKey := nodeRevocationKey observedAtMs
  kind := .audit
  body := .object
    [("action", .string "node_revocation_applied"), ("node_id", .string nodeId),
      ("observed_at_ms", .unsigned observedAtMs)]

/-- The queue with the event of the node's revocation, unless it is there. -/
def BrokerState.takeNodeRevocation (s : BrokerState) (nodeId : String) (observedAtMs : ℕ) :
    BrokerState :=
  let queued := s.events.any fun e => e.idempotencyKey == nodeRevocationKey observedAtMs &&
    e.body.str "action" == some "node_revocation_applied"
  { s with
    events := if queued then s.events else s.events ++ [nodeRevocationEvent nodeId observedAtMs]
    revocationAckPending := false }

/-- The queue without the event of the node's revocation, if that is the last one. -/
def BrokerState.dropNodeRevocation (s : BrokerState) (observedAtMs : ℕ) : BrokerState :=
  { s with
    events :=
      if s.events.getLast?.any fun e => e.idempotencyKey == nodeRevocationKey observedAtMs then
        s.events.dropLast
      else s.events
    revocationAckPending := true }

def queueNodeRevocationAckIfPossible (nodeId : String) : Operation Unit := do
  let s ← Command.get
  if !s.revocationAckPending || s.revocationAcknowledged ||
      maxBrokerAuditEvents ≤ s.events.length then return ()
  match s.revocationObservedAtMs with
  | none => Command.fail "node revocation time is unavailable"
  | some observedAtMs =>
    Command.modify fun s => s.takeNodeRevocation nodeId observedAtMs
    (persistPendingNodeEvents H).onFailure fun s => s.dropNodeRevocation observedAtMs

def applyNodeRevocation (nodeId : String) (observedAtMs : ℕ) : Operation Unit := do
  Command.modify fun s => { s with
    fleet := { s.fleet with nodeRevoked := true }, revocationObservedAtMs := some observedAtMs }
  let s ← Command.get
  if s.revocationAcknowledged then return ()
  Command.modify fun s => { s with revocationAckPending := true }
  queueNodeRevocationAckIfPossible H nodeId

/-! ### Rotations of the node's key -/

def rotationAckEventKey (rotationId : String) : String := "rotation_" ++ rotationId

/-- The event a rotation is acknowledged with. -/
def nodeKeyRotationEvent (nodeId rotationId : String) (keyVersion : ℕ) (fingerprint : String) :
    PendingNodeEvent where
  idempotencyKey := rotationAckEventKey rotationId
  kind := .audit
  body := .object
    [("action", .string "node_key_rotation_applied"), ("fingerprint", .string fingerprint),
      ("key_version", .unsigned keyVersion), ("node_id", .string nodeId),
      ("rotation_id", .string rotationId)]

def queueNodeKeyRotationAck (nodeId rotationId : String) (keyVersion : ℕ) (fingerprint : String) :
    Operation Unit := do
  let s ← Command.get
  if s.isQueued (rotationAckEventKey rotationId) then return ()
  if maxBrokerAuditEvents < s.events.length || keyVersion ≤ 1 || !isValidOpaqueId rotationId ||
      !isDigest fingerprint then
    Command.fail "node key rotation acknowledgement is invalid"
  else queueEvent H (nodeKeyRotationEvent nodeId rotationId keyVersion fingerprint)

/-! ### Cancellations -/

def maxNodeEventBatch : ℕ := 100

/-- The cancellation of a request. -/
def OperationRequestOwner.cancellation (o : OperationRequestOwner) (nodeId key : String) :
    OperationCancellation where
  nodeId := nodeId
  workloadId := o.workloadId
  invocationId := o.invocationId
  requestEventKey := key

/-- The controller has not acknowledged that the request was cancelled. -/
def OperationRequestOwner.awaitsCancellation (o : OperationRequestOwner) : Bool :=
  o.cancelRequested && !o.cancelAcknowledged && !o.isWithdrawal

/-- The event of a cancellation. -/
def cancellationEvent (c : OperationCancellation) : Except String PendingNodeEvent :=
  match cancellationEventKey H c, OperationCancellation.body.toValue c with
  | .ok key, .ok body => .ok ⟨key, .operationCancel, body⟩
  | _, _ => .error "invalid_operation_cancel"

/-- The loop of `queue_pending_cancellations`: at most `room` events, none of them pending. -/
def collectCancellations (nodeId : String) :
    List (String × OperationRequestOwner) → List String → ℕ → Except String (List PendingNodeEvent)
  | [], _, _ | _, _, 0 => .ok []
  | (key, owner) :: rest, pending, room + 1 =>
    if !owner.awaitsCancellation then collectCancellations nodeId rest pending (room + 1)
    else
      match cancellationEvent H (owner.cancellation nodeId key) with
      | .error e => .error e
      | .ok event =>
        if pending.contains event.idempotencyKey then
          collectCancellations nodeId rest pending (room + 1)
        else
          (collectCancellations nodeId rest (event.idempotencyKey :: pending) room).map
            (event :: ·)

def queuePendingCancellations (nodeId : String) : Operation Unit := do
  let s ← Command.get
  let room := min (maxBrokerAuditEvents - s.events.length) maxNodeEventBatch
  if room = 0 then return ()
  let events ← Command.lift (collectCancellations H nodeId s.owners.values.toList
    (s.events.map PendingNodeEvent.idempotencyKey) room)
  if events.isEmpty then return ()
  pushEvents events
  persistPendingNodeEvents H

/-! ### Acknowledgements -/

/-- The owners after the controller acknowledged these cancellations. -/
def acknowledgeCancellations (owners : BoundedRecords OperationRequestOwner)
    (events : List PendingNodeEvent) : BoundedRecords OperationRequestOwner :=
  events.foldl (fun owners e =>
    match e.body.str "request_event_key" with
    | none => owners
    | some key => owners.update key fun o => { o with cancelAcknowledged := true }) owners

/-- `acknowledge_revocation_outcome` of the verifier. -/
def acknowledgeRevocationOutcome (grantId : String) : Operation Unit := fun s =>
  let acknowledged := s.verifier.acknowledgeRevocationOutcome s.files grantId
    (s.surroundings.acknowledgement grantId)
  ({ s with verifier := acknowledged.1, files := acknowledged.2.1 }, acknowledged.2.2)

/-- Acknowledge the outcomes these events report, up to the first failure. -/
def acknowledgeOutcomes : List PendingNodeEvent → Operation Unit
  | [] => return ()
  | event :: rest => do
    ((event.body.str "grant_id").elim (pure ()) acknowledgeRevocationOutcome : Operation Unit)
    acknowledgeOutcomes rest

/-- The audit events with this action. -/
def auditsOf (action : String) (e : PendingNodeEvent) : Bool :=
  e.kind == .audit && e.body.str "action" == some action

/-- The state without the acknowledged events. -/
def BrokerState.settle (s : BrokerState) (eventKeys : List String) : BrokerState :=
  let acknowledged := s.events.filter fun e => eventKeys.contains e.idempotencyKey
  let revoked := acknowledged.any (auditsOf "node_revocation_applied")
  { s with
    events := s.events.filter fun e => !eventKeys.contains e.idempotencyKey
    revocationAckPending := s.revocationAckPending && !revoked
    revocationAcknowledged := s.revocationAcknowledged || revoked }

/-- What takes the room that acknowledgements made. -/
def refillQueue (nodeId : String) : Operation Unit := do
  queueOverflowEventIfPossible H nodeId
  queueNodeRevocationAckIfPossible H nodeId
  restoreRevocationOutcomes nodeId
  queueDeferredRevocationOutcomes H
  queuePendingCancellations H nodeId

def acknowledgeNodeEvents (nodeId : String) (eventKeys : List String) : Operation Unit := do
  let previous ← Command.get
  let acknowledged := previous.events.filter fun e => eventKeys.contains e.idempotencyKey
  Command.modify fun s => { s with
    owners := acknowledgeCancellations s.owners
      (acknowledged.filter fun e => e.kind == .operationCancel) }
  -- a failure of the journal here is not taken back
  acknowledgeOutcomes (acknowledged.filter (auditsOf "grant_revocation_applied"))
  Command.modify fun s => s.settle eventKeys
  (refillQueue H nodeId).onFailure previous.restoring
  (persistPendingNodeEvents H).onFailure previous.restoring

/-! ### Grants that are refused -/

/-- The key a refused grant is reported under. -/
def grantRejectionKey (reasonCode grantId : String) : String :=
  (if reasonCode = "expired_before_receipt" then "grant_expired_" else "grant_rejected_") ++
    String.ofList (Fleet.base64UrlEncode (H.sha256 (Utf8.encode grantId.toList)))

/-- The event a refused grant is reported with. -/
def grantRejectionEvent (nodeId grantId : String) (expiresAtMs : ℕ) (reasonCode : String) :
    PendingNodeEvent where
  idempotencyKey := grantRejectionKey H reasonCode grantId
  kind := .audit
  body := .object
    [("action", .string "grant_rejected"), ("expires_at_ms", .unsigned expiresAtMs),
      ("grant_id", .string grantId), ("node_id", .string nodeId),
      ("reason_code", .string reasonCode)]

/-- The reasons a grant is refused for. -/
def grantRejectionReasons : List String :=
  ["expired_before_receipt", "binding_mismatch", "stale_at_receipt", "capacity_exceeded",
    "missing_registration_version"]

def queueGrantRejectionAudit (nodeId grantId : String) (expiresAtMs : ℕ) (reasonCode : String) :
    Operation Unit := do
  if !grantRejectionReasons.contains reasonCode then
    Command.fail "grant rejection reason is not supported"
  else if !isValidOpaqueId nodeId || !"gr_".toList.isPrefixOf grantId.toList ||
      !isValidOpaqueId grantId || expiresAtMs = 0 then
    Command.fail "expired grant audit binding is invalid"
  else
    let event := grantRejectionEvent H nodeId grantId expiresAtMs reasonCode
    let s ← Command.get
    match s.events.find? fun e => e.idempotencyKey == event.idempotencyKey with
    | some existing =>
      -- the fields of both bodies stand in canonical order
      if existing.kind = .audit ∧
          Canon.canonicalizeValue existing.body = Canon.canonicalizeValue event.body then return ()
      else Command.fail "expired grant audit key was reused with different content"
    | none =>
      if maxBrokerAuditEvents ≤ s.events.length then flagAuditOverflow H
      else queueEvent H event

/-! ### Results of operations -/

/-- The event the result of an operation is reported with. -/
def operationResultEvent (key : String) (grant : Fleet.Grant) (status resultCode : String)
    (observedAtMs : ℕ) : PendingNodeEvent where
  idempotencyKey := key
  kind := .operationResult
  body := .object
    [("grant_id", .string grant.id), ("observed_at_ms", .unsigned observedAtMs),
      ("operation_id", .string grant.operationId), ("result_code", .string resultCode),
      ("status", .string status)]

/-- The audit of the result of an operation. -/
def operationAuditEvent (key : String) (grant : Fleet.Grant) (status : String)
    (observedAtMs : ℕ) : PendingNodeEvent where
  idempotencyKey := key
  kind := .audit
  body := .object
    [("action", .string "operation_result"), ("grant_id", .string grant.id),
      ("observed_at_ms", .unsigned observedAtMs), ("operation_id", .string grant.operationId),
      ("status", .string status)]

def queueOperationResult (grant : Fleet.Grant) (status resultCode : String) (observedAtMs : ℕ)
    (resultKey auditKey : String) : Operation Unit := do
  let previous ← Command.get
  pushEvents [operationResultEvent resultKey grant status resultCode observedAtMs,
    operationAuditEvent auditKey grant status observedAtMs]
  (persistPendingNodeEvents H).onFailure fun s => { s with events := previous.events }

/-- `withdraw_pending_events`: a failed write is made good by the next one. -/
def withdrawPendingEvents (eventKeys : List String) : Operation Unit := do
  Command.modify fun s => { s with
    events := s.events.filter fun e => !eventKeys.contains e.idempotencyKey }
  (persistPendingNodeEvents H).ignore

/-- The queue with another body for the first event of this key and kind, if there is one. -/
def replaceBody (events : List PendingNodeEvent) (event : PendingNodeEvent) :
    Option (List PendingNodeEvent) :=
  (events.findIdx? fun e => e.idempotencyKey == event.idempotencyKey && e.kind == event.kind).map
    fun i => events.modify i fun e => { e with body := event.body }

def updateOperationResult (grant : Fleet.Grant) (status resultCode : String) (observedAtMs : ℕ)
    (resultKey auditKey : String) : Operation Unit := do
  let previous ← Command.get
  match replaceBody previous.events
      (operationResultEvent resultKey grant status resultCode observedAtMs) with
  | none => Command.fail "pending operation result is unavailable"
  | some events =>
    match replaceBody events (operationAuditEvent auditKey grant status observedAtMs) with
    | none => Command.fail "pending operation audit is unavailable"
    | some events =>
      Command.modify fun s => { s with events := events }
      (persistPendingNodeEvents H).onFailure fun s => { s with events := previous.events }

/-! ### Retrying and starting -/

/-- `retry_pending_persistence`: write again what could not be written. -/
def retryPendingPersistence : Operation Unit := do
  let s ← Command.get
  (persistPendingNodeEvents H).ignore.when s.fenced
  Command.modify fun s =>
    let retried := s.verifier.retryRevocationPersistence s.files s.surroundings.retry
    { s with
      unfiled := if s.surroundings.filing then [] else s.unfiled
      verifier := retried.1
      files := retried.2.1 }

/-- The state of a process that has just started. -/
def BrokerState.started (s : BrokerState) (files : StateFiles) (verifier : GrantVerifier)
    (found : OutboxSnapshot) : BrokerState where
  nodeId := s.nodeId
  keys := s.keys
  fleet := .empty
  fulfillments := []
  catalog := s.catalog
  verifier := verifier
  files := files
  events := found.events
  deferred := []
  recoveryCursor := none
  overflowPending := found.overflowPending
  owners := found.owners
  closures := found.closures
  live := []
  fenced := false
  unfiled := []
  revocationAckPending := false
  revocationAcknowledged := found.revocationAcknowledged
  revocationObservedAtMs := none
  outbox := s.outbox
  surroundings := s.surroundings

/-- `configure_grant_storage` of a new process, for a node with a pinned issuer of this epoch. A
process that cannot start leaves the files as they are now. -/
def configureGrantStorage (epoch : ℕ) (io : GrantVerifier.OpenIo) : Operation Unit := do
  let s ← Command.get
  let opened := GrantVerifier.withStateFiles s.files io
  Command.modify fun s => { s with files := opened.1 }
  let verifier ← Command.lift opened.2
  let found ← Command.lift (readPendingNodeEvents H s.outbox.visible)
  Command.modify fun s => s.started s.files (verifier.observeIssuerEpoch epoch) found
  restoreRevocationOutcomes s.nodeId
  queueDeferredRevocationOutcomes H
  let later ← Command.get
  (flagAuditOverflow H).when !later.deferred.isEmpty

end

end BlindPass.Broker
