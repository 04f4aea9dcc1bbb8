import BlindPass.Broker.Host
import BlindPass.Broker.Outbox.Requests
import BlindPass.Fleet.Fulfillments

/-!
# Documents, closures and pulls

The controller's documents reach the broker through the relay, and the relay pulls the events the
broker owes. Both may queue events: a refused grant, a revocation and the end of a browser session
are reported, and a pull first queues what had no room before. A document in force that could not
be filed fences the broker.

A run of the broker is a sequence of calls, each with the answers of the system, in any order.
-/

namespace BlindPass.Broker

open Fleet (Value Grant Registration PolicySnapshot Revocation NodeRevocation OperationClosed
  NodeKeyRotation TimeReply ApplicationAck FulfillmentResult isValidOpaqueId)
open Command (fail lift modify)

/-! ### Documents -/

/-- A verified document of the pinned issuer. Grants of the time before registrations had versions
carry none. -/
inductive ControllerDocument
  | registration (body : Registration)
  | policySnapshot (body : PolicySnapshot)
  | timeReply (body : TimeReply) (epoch : ℕ) (io : GrantVerifier.TimeReplyIo)
  | applicationAck (body : ApplicationAck)
  | grant (body : Grant) (documentHash : String)
  | unversionedGrant (nodeId grantId : String) (expiresAtMs : ℕ)
  | revocation (body : Revocation)
  | nodeRevocation (body : NodeRevocation)
  | operationClosed (body : OperationClosed)
  | nodeKeyRotation (body : NodeKeyRotation)

/-- Call the verifier. -/
def callVerifier (e : Event) : Operation Answer := fun s =>
  let called := s.verifier.call s.files s.surroundings.boottimeMs e
  ({ s with verifier := called.1, files := called.2.1 }, .ok called.2.2)

def persistOrFence (document : String) : Operation Unit := do
  let s ← Command.get
  if s.surroundings.filing then
    modify fun s => { s with unfiled := s.unfiled.filter (· != document) }
  else
    modify fun s => { s with unfiled := document :: s.unfiled }
    fail "controller_document_not_durable"

/-- A document names the node of the pin. -/
def ensureBound (nodeId what : String) : Operation Unit := do
  let s ← Command.get
  if nodeId = s.nodeId then return ()
  else fail ("controller " ++ what ++ " is bound to another node")

/-- The branch for registrations. -/
def applyRegistration (registration : Registration) : Operation Unit := do
  ensureBound registration.nodeId "registration"
  let s ← Command.get
  match ← lift (s.fleet.validateFleetRegistration registration) with
  | false => return ()
  | true =>
    modify fun s => { s with
      fleet := s.fleet.register registration
      verifier := s.verifier.revokeWorkload registration.workloadId }
    persistOrFence ("registration:" ++ registration.workloadId)

/-- The branch for policies. -/
def applyPolicy (policy : PolicySnapshot) : Operation Unit := do
  let s ← Command.get
  match ← lift (s.fleet.validateFleetPolicy policy) with
  | false => return ()
  | true =>
    modify fun s => { s with
      fleet := { s.fleet with policy := some policy }
      verifier := s.verifier.revokeStalePolicy policy.policyVersion }
    persistOrFence "policy"

/-- The key a grant must be sealed to. -/
def BrokerState.recipientKeyId (s : BrokerState) : String :=
  s.nodeId ++ "-" ++ toString s.keys.version

/-- The code a refusal of the verifier is reported with, if the grant can never be accepted. -/
def rejectionCode (reason : String) : Option String :=
  match reason with
  | "grant expired before broker receipt" => some "expired_before_receipt"
  | "grant issuer epoch is not the pinned issuer epoch"
  | "grant does not match current broker policy and workload registration" =>
    some "binding_mismatch"
  | "grant is stale or exceeds the broker lifetime maximum" => some "stale_at_receipt"
  | "broker grant capacity reached" => some "capacity_exceeded"
  | _ => none

def NodeKeys.appliedRotationAck (k : NodeKeys) : Option (String × ℕ × String) :=
  k.lastRotationId.map fun id => (id, k.version, k.identity.fingerprint)

def rotationIdBytes : ℕ := 64

def applyKeyRotation (rotation : NodeKeyRotation) : Operation Unit := do
  let s ← Command.get
  let approved : PublicIdentity :=
    ⟨rotation.signingPublic, rotation.recipientPublic, rotation.fingerprint⟩
  if s.keys.version = rotation.toKeyVersion ∧ s.keys.lastRotationId = some rotation.rotationId ∧
      s.keys.identity.fingerprint = rotation.fingerprint then return ()
  else
    match s.keys.staged with
    | none => fail "node key rotation was not prepared"
    | some candidate =>
      if rotation.fromKeyVersion ≠ s.keys.version ∨
          rotation.toKeyVersion ≠ s.keys.version + 1 ∨ candidate ≠ approved then
        fail "node key rotation does not match the prepared identity"
      else if rotationIdBytes < rotation.rotationId.utf8ByteSize then
        fail "node rotation id is invalid"
      else if !s.surroundings.filing then
        fail "fleet state document could not be persisted"
      else
        modify fun s => { s with
          keys := ⟨s.keys.version + 1, candidate, some rotation.rotationId, none⟩ }
        -- the new keys stay in use if the directory cannot be flushed
        if s.surroundings.flushing then return () else fail "io"

def retireUnfinishedFulfillments : Operation Unit :=
  .modify fun s => { s with fulfillments := s.fulfillments.filter fun e => !e.isUnfinished }

def acknowledgeRotationEvent (eventKeys : List String) : Operation Unit := do
  let s ← Command.get
  if s.keys.lastRotationId.any fun id => eventKeys.contains (rotationAckEventKey id) then
    if !s.surroundings.filing then fail "fleet state document could not be persisted"
    else modify fun s => { s with keys := { s.keys with lastRotationId := none } }
  else return ()

section

variable (H : Hash)

/-- The branch for grants. -/
def applyGrant (grant : Grant) (documentHash : String) : Operation Unit := do
  ensureBound grant.nodeId "grant"
  let s ← Command.get
  if s.persistenceFenced then fail "broker_persistence_fenced"
  else
    match s.fleet.registrations[grant.workloadId]?, s.fleet.policy with
    | none, _ => fail "controller grant has no current workload registration"
    | _, none => fail "fleet policy is unavailable"
    | some registration, some policy =>
      let accepted := s.verifier.acceptGrant grant documentHash s.nodeId s.recipientKeyId policy
        registration s.surroundings.boottimeMs
      modify fun s => { s with verifier := accepted.1 }
      match accepted.2 with
      | .ok _ => return ()
      | .error reason =>
        if reason = grantAlreadySettled then return ()
        else
          match rejectionCode reason with
          | none => fail reason
          | some code => queueGrantRejectionAudit H s.nodeId grant.id grant.expiresAtMs code

def recordOperationClosure (eventKey status : String) : Operation Unit :=
  .modify fun s => { s with closures := s.closures.insert eventKey status }

/-- The branch for closures. A closure of an unknown request needs no record. -/
def applyOperationClosed (closed : OperationClosed) : Operation Unit := do
  ensureBound closed.nodeId "operation closure"
  let s ← Command.get
  if s.owners.values.contains closed.requestEventKey then
    recordOperationClosure closed.requestEventKey closed.status
    persistPendingNodeEvents H
  else return ()

/-- The branches of `apply_controller_document_to_state`. -/
def applyDocument : ControllerDocument → Operation Unit
  | .registration body => applyRegistration body
  | .policySnapshot body => applyPolicy body
  | .timeReply body epoch io => do
    ensureBound body.nodeId "time reply"
    let s ← Command.get
    match ← callVerifier (.acceptTimeReply body s.nodeId epoch io) with
    | .settled result => lift result
    | _ => return ()
  | .applicationAck body => do
    ensureBound body.nodeId "acknowledgement"
    acknowledgeNodeEvents H body.nodeId body.eventKeys
    acknowledgeRotationEvent body.eventKeys
  | .grant body documentHash => applyGrant H body documentHash
  | .unversionedGrant nodeId grantId expiresAtMs => do
    ensureBound nodeId "grant"
    queueGrantRejectionAudit H nodeId grantId expiresAtMs "missing_registration_version"
  | .revocation body => do
    ensureBound body.nodeId "revocation"
    applyGrantRevocation H body.nodeId body
  | .nodeRevocation body => do
    ensureBound body.nodeId "node revocation"
    applyNodeRevocation H body.nodeId body.revokedAtMs
    persistOrFence ("node_revocation:" ++ body.nodeId)
  | .operationClosed body => applyOperationClosed H body
  | .nodeKeyRotation body => do
    ensureBound body.nodeId "node key rotation"
    applyKeyRotation body
    let s ← Command.get
    let _ ← callVerifier (.retireOtherRecipientKeys s.recipientKeyId)
    retireUnfinishedFulfillments

/-- `apply_controller_document_to_state` of a document that is not being restored. -/
def applyControllerDocument (document : ControllerDocument) : Operation Unit := do
  retryPendingPersistence H
  applyDocument H document

/-! ### The end of a browser session -/

/-- What the session journal says of a closed session. -/
structure ClosedSession where
  binding : SessionBinding
  closedAtMs : ℕ
  valid : binding.isValid = true

/-- A session that was prepared: its grant, and the account and recipe of its resource. -/
structure PreparedBrowserLogin where
  grant : Grant
  resource : BrowserResource

/-- The digest both events of a closure are named by. -/
def closureDigest (c : ClosedSession) : Except String String :=
  match Canon.canonicalizeValue (.array
      [.string "blindpass:browser-closure:v1", .string c.binding.nodeId,
        .string c.binding.idempotencyKey, .string c.binding.operationId]) with
  | .error _ => .error "browser_closure_event_invalid"
  | .ok material => .ok (String.ofList (Fleet.base64UrlEncode (H.sha256 material)))

/-- The events of a closure. -/
def closureEvents (c : ClosedSession) (digest : String) : List PendingNodeEvent :=
  [{ idempotencyKey := "event_browser_closed_" ++ digest
     kind := .operationResult
     body := .object
       [("grant_id", .string c.binding.idempotencyKey),
         ("operation_id", .string c.binding.operationId),
         ("observed_at_ms", .unsigned c.closedAtMs), ("status", .string "completed"),
         ("result_code", .string "browser_session_closed")] },
    { idempotencyKey := "event_browser_closed_audit_" ++ digest
      kind := .audit
      body := .object
        [("action", .string "operation_result"), ("grant_id", .string c.binding.idempotencyKey),
          ("operation_id", .string c.binding.operationId),
          ("observed_at_ms", .unsigned c.closedAtMs), ("status", .string "completed")] }]

/-- The events that are not queued yet; one queued with other contents is a conflict. -/
def missingEvents (queued : List PendingNodeEvent) :
    List PendingNodeEvent → Except String (List PendingNodeEvent)
  | [] => .ok []
  | event :: rest =>
    match queued.find? fun e => e.idempotencyKey == event.idempotencyKey with
    | none => (missingEvents queued rest).map (event :: ·)
    | some existing =>
      if existing.kind ≠ event.kind ∨
          Canon.canonicalizeValue existing.body ≠ Canon.canonicalizeValue event.body then
        .error "browser_closure_event_conflict"
      else missingEvents queued rest

/-- `publish_browser_closure_inner`, for a session the journal has closed. -/
def publishBrowserClosure (c : ClosedSession) (dirty : Bool) : Operation Unit := do
  let s ← Command.get
  let digest ← lift (closureDigest H c)
  let missing ← lift (missingEvents s.events (closureEvents c digest))
  if maxBrokerAuditEvents < s.events.length + missing.length then
    fail "audit_backpressure"
  else if missing.isEmpty && !dirty then return ()
  else
    pushEvents missing
    (persistPendingNodeEvents H).onFailure fun later => { later with events := s.events }

/-- The record of a request is for the session. -/
def OperationRequestOwner.matchesSession (o : OperationRequestOwner) (b : SessionBinding) : Bool :=
  o.mode == some .browserSession && o.workloadId == b.workloadId &&
    o.invocationId == b.workloadInvocation &&
    o.browserRequest.any fun request =>
      request.nodeId == b.nodeId && request.unit == b.workloadUnit &&
        request.resourceId == some b.resource &&
        request.recipeFingerprint == some b.recipeFingerprint

/-- Close the request of a session, unless it was cancelled or closed, and publish the closure. A
failure takes the closure back. -/
def closeAndPublish (c : ClosedSession) (eventKey : String) (owner : OperationRequestOwner) :
    Operation Unit := do
  let s ← Command.get
  let completed := !owner.cancelRequested && !s.closures.values.contains eventKey
  (recordOperationClosure eventKey (s.browserClosureStatus c.binding.idempotencyKey)).when completed
  (publishBrowserClosure H c completed).onFailure fun later => { later with closures := s.closures }

/-- The session is the one that was prepared. -/
def PreparedBrowserLogin.isBoundTo (job : PreparedBrowserLogin) (b : SessionBinding) :
    Except String Bool :=
  (job.resource.recipeFingerprint H).map fun recipe =>
    job.grant.action == "browser.session" && job.grant.mode == .browserSession &&
      b.nodeId == job.grant.nodeId && b.operationId == job.grant.operationId &&
      b.workloadId == job.grant.workloadId && b.workloadUnit == job.grant.unit &&
      b.workloadInvocation == job.grant.invocationId && b.resource == job.grant.resourceId &&
      b.account == job.resource.account && b.recipeFingerprint == recipe

/-- `finish_browser_operation`; `closed` is what the journal says of the grant of the job. -/
def finishBrowserOperation (job : PreparedBrowserLogin) (closed : Option ClosedSession) :
    Operation Unit := do
  match closed.filter fun c => c.binding.idempotencyKey == job.grant.id with
  | none => fail "browser_closure_unavailable"
  | some c =>
    let bound ← lift (job.isBoundTo H c.binding)
    let s ← Command.get
    match job.grant.requestEventKey with
    | none => fail "browser_closure_binding_invalid"
    | some eventKey =>
      match s.owners.values[eventKey]?.filter fun o => bound && o.matchesSession c.binding with
      | none => fail "browser_closure_binding_invalid"
      | some owner => closeAndPublish H c eventKey owner

/-- One record of `retry_browser_closures`. -/
def retryBrowserClosure (c : ClosedSession) : Operation Unit := do
  let s ← Command.get
  match c.binding.requestEventKey.bind fun key =>
      (s.owners.values[key]?.filter fun o => o.matchesSession c.binding).map fun o => (key, o) with
  | some (key, owner) => closeAndPublish H c key owner
  | none => publishBrowserClosure H c false

/-! ### Results of fulfillments -/

/-- The word for a side. -/
def sideText : Fleet.FulfillmentSide → String
  | .issuer => "issuer"
  | .recipient => "recipient"

/-- The word for a state. -/
def resultStateText : Fleet.ResultState → String
  | .stored => "stored"
  | .consumed => "consumed"
  | .failed => "failed"

/-- The checks of `FulfillmentResult::to_value`. -/
def isValidFulfillmentResult (r : FulfillmentResult) : Bool :=
  isValidOpaqueId r.fulfillmentId && 16 ≤ r.fulfillmentId.utf8ByteSize && isDigest r.termsDigest &&
    r.observedAtMs != 0 &&
    match r.side, r.state, r.code with
    | .recipient, .stored, none | .recipient, .consumed, none => true
    | _, .failed, some code =>
      !code.isEmpty && code.utf8ByteSize ≤ 64 &&
        code.toList.all fun c => c.isLower || c == '_' || c.isDigit
    | _, _, _ => false

/-- The event a result is reported with. -/
def fulfillmentResultEvent (r : FulfillmentResult) : PendingNodeEvent where
  idempotencyKey := "fr_" ++ Fleet.hex (H.sha256 (Utf8.encode
    (r.fulfillmentId ++ "|" ++ r.termsDigest ++ "|" ++ sideText r.side ++ "|" ++
      resultStateText r.state ++ "|" ++ r.code.getD "").toList))
  kind := .fulfillmentResult
  body := .object
    ([("fulfillment_id", .string r.fulfillmentId), ("terms_digest", .string r.termsDigest),
      ("side", .string (sideText r.side)), ("state", .string (resultStateText r.state)),
      ("observed_at_ms", .unsigned r.observedAtMs)] ++
      r.code.elim [] fun code => [("code", .string code)])

def queueFulfillmentResult (r : FulfillmentResult) : Operation Unit := do
  if !isValidFulfillmentResult r then fail "fulfillment_denied"
  else
    let s ← Command.get
    let event := fulfillmentResultEvent H r
    if s.isQueued event.idempotencyKey then return ()
    else if maxBrokerAuditEvents - 2 < s.events.length then fail "audit_backpressure"
    else queueEvent H event

/-- `flush_fulfillment_reports`: the results held back, up to the first that fails. -/
def flushFulfillmentReports : List FulfillmentResult → Operation Unit
  | [] => return ()
  | result :: rest => do
    queueFulfillmentResult H result
    flushFulfillmentReports rest

/-! ### Pulls -/

def maxControlDocumentBytes : ℕ := 64 * 1024

/-- The signature of the node's current key. -/
structure NodeSigner where
  sign : ℕ → List UInt8 → List UInt8
  length_sign : ∀ version message, (sign version message).length = 64

variable (N : NodeSigner)

/-- An event as the relay gets it. -/
def signedEvent (s : BrokerState) (e : PendingNodeEvent) : Except String Value :=
  match Fleet.nodeEventMessage s.nodeId e.idempotencyKey e.kind.asStr e.body with
  | .error _ => .error "invalid broker event"
  | .ok message => .ok (.object
    [("body", e.body),
      ("broker_signature",
        .string (String.ofList (Fleet.base64UrlEncode (N.sign s.keys.version message)))),
      ("idempotency_key", .string e.idempotencyKey), ("kind", .string e.kind.asStr)])

/-- The bytes of a batch. -/
def encodeBatch (s : BrokerState) (events : List PendingNodeEvent) : Except String (List UInt8) := do
  let values ← events.mapM (signedEvent N s)
  (Canon.canonicalizeValue (.array values)).mapError fun _ => "broker event batch is invalid"

/-- The loop of `PULL_EVENTS`: drop events from the end of a batch until it fits. -/
def fittingBatch (s : BrokerState) : ℕ → List PendingNodeEvent →
    Except String (List PendingNodeEvent)
  | 0, _ => .error "broker event exceeds its size bound"
  | rounds + 1, events =>
    match encodeBatch N s events with
    | .error e => .error e
    | .ok encoded =>
      if encoded.length ≤ maxControlDocumentBytes then .ok events
      else if events.isEmpty then .error "broker event exceeds its size bound"
      else fittingBatch s rounds events.dropLast

/-- What had no room before, and what the node's keys owe. -/
def fillQueue (reports : List FulfillmentResult) : Operation Unit := do
  let s ← Command.get
  queueOverflowEventIfPossible H s.nodeId
  queueNodeRevocationAckIfPossible H s.nodeId
  queueDeferredRevocationOutcomes H
  queuePendingCancellations H s.nodeId
  (flushFulfillmentReports H reports).ignore
  match s.keys.appliedRotationAck with
  | none => return ()
  | some (rotationId, keyVersion, fingerprint) =>
    queueNodeKeyRotationAck H s.nodeId rotationId keyVersion fingerprint

/-- `PULL_EVENTS`: the events of a batch. `reports` are the results the fulfillments hold back. -/
def pullEvents (reports : List FulfillmentResult) : Operation (List PendingNodeEvent) := do
  retryPendingPersistence H
  let s ← Command.get
  if s.fenced then fail "broker_persistence_fenced"
  else
    fillQueue H reports
    let s ← Command.get
    let batch := s.events.take maxNodeEventBatch
    lift (fittingBatch N s (batch.length + 1) batch)

/-! ### Runs -/

/-- What can happen to the broker. `reap` is the end of a workload with a lease. -/
inductive BrokerCall
  | workload (peer : PeerIdentity) (request : WorkloadRequest)
  | reap (authorization : WorkloadAuthorization) (eventKey : String)
  | document (document : ControllerDocument)
  | finishBrowser (job : PreparedBrowserLogin) (closed : Option ClosedSession)
  | retryBrowserClosure (closed : ClosedSession)
  | fulfillmentResult (result : FulfillmentResult)
  | pull (reports : List FulfillmentResult)
  | prune
  | evict (limit : ℕ)
  | verifier (event : Event)
  | prepareRotation (candidate : PublicIdentity)
  | live (keys : List String)
  | fulfill (fulfillments : List FulfillmentEntry)
  | restart (epoch : ℕ) (io : GrantVerifier.OpenIo)

/-- One call. -/
def callBroker : BrokerCall → Operation Unit
  | .workload peer request => do
    let _ ← processWorkload H peer request
  | .reap authorization eventKey => do
    let _ ← cancelBrowserOperation H authorization eventKey
  | .document document => applyControllerDocument H document
  | .finishBrowser job closed => finishBrowserOperation H job closed
  | .retryBrowserClosure closed => retryBrowserClosure H closed
  | .fulfillmentResult result => queueFulfillmentResult H result
  | .pull reports => do
    let _ ← pullEvents H N reports
  | .prune => do
    let _ ← pruneCrowdedOwners H
  | .evict limit => do
    let _ ← evictTerminalOwners H limit
  | .verifier event => do
    let _ ← callVerifier event
  | .prepareRotation candidate => .modify fun s => { s with
      keys := { s.keys with staged := s.keys.staged.orElse fun _ => some candidate } }
  | .live keys => .modify fun s => { s with live := keys }
  | .fulfill fulfillments => .modify fun s => { s with fulfillments := fulfillments }
  | .restart epoch io => configureGrantStorage H epoch io

/-- A call with the answers of the system. -/
structure OutboxEvent where
  call : BrokerCall
  surroundings : Surroundings

/-- One event. -/
def BrokerState.step (s : BrokerState) (e : OutboxEvent) : BrokerState × Except String Unit :=
  callBroker H N e.call { s with surroundings := e.surroundings }

/-- A document is one that its parser accepts. -/
def ControllerDocument.IsParsed : ControllerDocument → Prop
  | .registration body => ∃ v, Registration.body.ofValue v = .ok body
  | .grant body _ => ∃ v, Grant.body.ofValue v = .ok body
  | .revocation body => ∃ v, Revocation.body.ofValue v = .ok body
  | .nodeRevocation body => ∃ v, NodeRevocation.body.ofValue v = .ok body
  | .operationClosed body => ∃ v, OperationClosed.body.ofValue v = .ok body
  | .nodeKeyRotation body => isValidOpaqueId body.rotationId = true
  | .policySnapshot _ | .timeReply .. | .applicationAck _ | .unversionedGrant .. => True

/-- A call to the verifier that the broker makes by no other call. -/
def Event.isClockOrEpoch : Event → Bool
  | .beginTimeChallenge _ | .observeIssuerEpoch _ => true
  | _ => false

/-- Documents are parsed. -/
def BrokerCall.IsParsed : BrokerCall → Prop
  | .document body => body.IsParsed
  | .verifier event => event.isClockOrEpoch = true
  | _ => True

/-- No key the random source yields is in use. -/
structure Fresh (s : BrokerState) (nonces : List EventNonce) : Prop where
  nodup : (nonces.map EventNonce.key).Nodup
  unused : ∀ n ∈ nonces, n.key ∉ s.owners.values ∧ s.isPending n.key = false

/-- A broker that starts over an empty directory with a pinned issuer. -/
structure BrokerState.Empty (s : BrokerState) : Prop where
  nodeId : isValidOpaqueId s.nodeId = true
  keys : s.keys.version ≠ 0 ∧ isDigest s.keys.identity.fingerprint = true ∧
    s.keys.lastRotationId = none
  fleet : s.fleet = .empty
  verifier : s.verifier = .fresh none .empty .empty
  files : s.files = ⟨.absent, .absent, ⟨.absent, .absent⟩⟩
  tables : s.snapshot = .empty
  deferred : s.deferred = []
  revocation : s.revocationAckPending = false ∧ s.revocationObservedAtMs = none
  outbox : s.outbox = .settled none

/-- The broker as a machine. -/
def outbox : Execution.Machine BrokerState OutboxEvent (Except String Unit) where
  Start := BrokerState.Empty
  Admits s e := e.call.IsParsed ∧ Fresh s e.surroundings.nonces
  step := BrokerState.step H N

end

end BlindPass.Broker
