import BlindPass.Broker.Outbox.Records
import BlindPass.Fleet.Messages

/-!
# The durable outbox

The events a node owes its controller stand in one file behind the records of its operation
requests: a header and one event a line. The file is replaced as a whole. The writer checks all
that the reader will check, so that no file is written that a restart refuses.
-/

namespace BlindPass.Broker

open Fleet (Value OperationCancellation DocumentError isValidEventKey)
open Canon (canonicalizeValue)

/-- The digest of messages. -/
structure Hash where
  sha256 : List UInt8 → List UInt8
  length_sha256 : ∀ message, (sha256 message).length = 32

/-! ### Events -/

inductive NodeEventKind
  | operationRequest
  | operationResult
  | operationCancel
  | audit
  | fulfillmentResult
  deriving DecidableEq

namespace NodeEventKind

def asStr : NodeEventKind → String
  | operationRequest => "operation_request"
  | operationResult => "operation_result"
  | operationCancel => "operation_cancel"
  | audit => "audit"
  | fulfillmentResult => "fulfillment_result"

def parse : String → Option NodeEventKind
  | "operation_request" => some operationRequest
  | "operation_result" => some operationResult
  | "operation_cancel" => some operationCancel
  | "audit" => some audit
  | "fulfillment_result" => some fulfillmentResult
  | _ => none

end NodeEventKind

/-- An event the controller has not acknowledged. -/
structure PendingNodeEvent where
  idempotencyKey : String
  kind : NodeEventKind
  body : Value

section

variable (H : Hash)

/-- `OperationCancellation::event_key` -/
def cancellationEventKey (c : OperationCancellation) : Except DocumentError String := do
  let _ ← OperationCancellation.body.toValue c
  let message ← Fleet.canonicalDomainMessage "blindpass:operation-cancel-key:v1" (.object
    [("node_id", .string c.nodeId), ("request_event_key", .string c.requestEventKey)])
  return "cancel_" ++ Fleet.hex (H.sha256 message)

namespace PendingNodeEvent

/-- The part of `from_value` about the body of a cancellation. -/
def checkCancellation (idempotencyKey : String) (body : Value) : Except String Unit :=
  match OperationCancellation.body.ofValue body with
  | .error _ => .error "pending cancellation is malformed"
  | .ok cancellation =>
    match cancellationEventKey H cancellation with
    | .error _ => .error "pending cancellation is malformed"
    | .ok key =>
      if key = idempotencyKey then .ok () else .error "pending cancellation key mismatch"

/-- `from_value` -/
def ofValue (v : Value) : Except String PendingNodeEvent :=
  if v.asObject.all fun fields => fields.length != 3 then
    .error "pending node event is malformed"
  else if !v.hasFields ["idempotency_key", "kind", "body"] then
    .error "pending node event fields are malformed"
  else
    match (v.str "idempotency_key").filter fun key => isValidEventKey key with
    | none => .error "pending node event key is malformed"
    | some idempotencyKey =>
      match (v.str "kind").bind NodeEventKind.parse with
      | none => .error "pending node event kind is malformed"
      | some kind =>
        match (v.get "body").filter fun body => body.asObject.isSome with
        | none => .error "pending node event body is malformed"
        | some body =>
          if kind = .operationCancel then
            (checkCancellation H idempotencyKey body).map fun _ => ⟨idempotencyKey, kind, body⟩
          else .ok ⟨idempotencyKey, kind, body⟩

def toValue (e : PendingNodeEvent) : Value := .object
  [("body", e.body), ("idempotency_key", .string e.idempotencyKey), ("kind", .string e.kind.asStr)]

def isNodeKeyRotationAck (e : PendingNodeEvent) : Bool :=
  e.kind == .audit && e.body.str "action" == some "node_key_rotation_applied"

end PendingNodeEvent

/-! ### Writing -/

def maxBrokerAuditEvents : ℕ := 10000

def maxPendingNodeEventBytes : ℕ := 64 * 1024

def maxPendingNodeEventsBytes : ℕ := 64 * 1024 * 1024

/-- The bound on a header. -/
def maxHeaderBytes : ℕ := 8 * 1024 * 1024

/-- What the file holds. -/
structure OutboxSnapshot where
  events : List PendingNodeEvent
  overflowPending : Bool
  revocationAcknowledged : Bool
  owners : BoundedRecords OperationRequestOwner
  closures : BoundedRecords String

/-- The events fit: beyond the bound there is room for one acknowledgement of a key rotation. -/
def fitsQueue (events : List PendingNodeEvent) : Bool :=
  events.length ≤ maxBrokerAuditEvents ||
    (events.length == maxBrokerAuditEvents + 1 &&
      events.countP PendingNodeEvent.isNodeKeyRotationAck == 1)

namespace OutboxSnapshot

/-- The snapshot of a path that names nothing. -/
def empty : OutboxSnapshot where
  events := []
  overflowPending := false
  revocationAcknowledged := false
  owners := .new maxOperationRecords
  closures := .new maxOperationRecords

variable (s : OutboxSnapshot)

/-- There is nothing to remember. -/
def isBlank : Bool :=
  s.events.isEmpty && !s.overflowPending && !s.revocationAcknowledged && s.owners.values.isEmpty &&
    s.closures.values.isEmpty

def header : Value :=
  pendingStateHeader s.overflowPending s.revocationAcknowledged s.owners s.closures

/-- The bytes written so far, and the keys of the events among them. -/
structure Written where
  contents : List UInt8
  keys : List String

/-- Write the line of one event. -/
def writeEvent (w : Written) (e : PendingNodeEvent) : Except String Written := do
  let _ ← PendingNodeEvent.ofValue H e.toValue
  if w.keys.contains e.idempotencyKey then .error "pending node event key is duplicated"
  else
    let line ← (canonicalizeValue e.toValue).mapError fun _ => "pending node event is invalid"
    if maxPendingNodeEventBytes < line.length then
      .error "pending node event exceeds its size limit"
    else if maxPendingNodeEventsBytes < (w.contents ++ line ++ [10]).length then
      .error "pending node event queue exceeds its byte limit"
    else .ok ⟨w.contents ++ line ++ [10], e.idempotencyKey :: w.keys⟩

/-- The line of the header. -/
def writeHeader : Except String Written := do
  let bytes ← (canonicalizeValue s.header).mapError fun _ => "pending node event header is invalid"
  if (readOperationRecords s.header 5).isNone then .error "operation records are malformed"
  else if maxHeaderBytes < bytes.length then .error "operation records exceed byte limit"
  else .ok ⟨bytes ++ [10], []⟩

/-- The contents of the file. -/
def contents : Except String (List UInt8) := do
  let w ← s.writeHeader
  let w ← s.events.foldlM (writeEvent H) w
  return w.contents

end OutboxSnapshot

/-- The file of the outbox, if there is one. -/
abbrev OutboxFile := Storage.Durable (Option (List UInt8))

/-- Put the new contents in place, or fail before that, or before the directory is flushed. -/
def replaceOutbox (file : OutboxFile) (contents : Option (List UInt8)) (failure : String) :
    DiskWrite → OutboxFile × Except String Unit
  | .refused => (file, .error failure)
  | .unsynced => (file.write contents, .error failure)
  | .done => ((file.write contents).sync, .ok ())

def writePendingNodeEvents (file : OutboxFile) (s : OutboxSnapshot) (io : DiskWrite) :
    OutboxFile × Except String Unit :=
  if !fitsQueue s.events then (file, .error "pending node event queue exceeds its event limit")
  else if s.isBlank then
    -- there may be no file to remove
    if file.visible.isNone && io != .refused then (file, .ok ())
    else replaceOutbox file none "pending node event queue could not be cleared" io
  else
    match s.contents H with
    | .error e => (file, .error e)
    | .ok bytes =>
      replaceOutbox file (some bytes) "pending node event queue could not be committed" io

/-! ### Reading -/

/-- The value of a line. -/
def parseLine (line : List UInt8) : Option Value := do
  let source ← Utf8.decode? line
  (Canon.parseJson (String.ofList source)).toOption

/-- How many fields a header of a version has. -/
def headerWidth : Option ℕ → ℕ
  | some 1 => 2
  | some 2 => 3
  | some 3 | some 4 | some 5 => 5
  | _ => 0

def headerFields : List String :=
  ["v", "audit_overflow_pending", "node_revocation_acknowledged", "operation_owners",
    "operation_closures"]

/-- Whether the node's revocation was acknowledged; headers of version 1 do not say. -/
def readRevocationAcknowledged (header : Value) (version : ℕ) : Option Bool :=
  if version = 1 then if (header.get "node_revocation_acknowledged").isNone then some false else none
  else flag header "node_revocation_acknowledged"

/-- The header, with no events yet. -/
def readHeader (header : Value) : Except String OutboxSnapshot :=
  if header.asObject.isNone then .error "pending node event queue header is malformed"
  else if !hasFieldsAmong header (headerWidth (header.u64 "v")) headerFields ||
      !((header.u64 "v").any fun version => 1 ≤ version && version ≤ 5) then
    .error "pending node event queue version is unsupported"
  else
    let version := (header.u64 "v").getD 0
    match flag header "audit_overflow_pending", readRevocationAcknowledged header version with
    | some overflowPending, some revocationAcknowledged =>
      match readOperationRecords header version with
      | none => .error "operation records are malformed"
      | some (owners, closures) =>
        .ok ⟨[], overflowPending, revocationAcknowledged, owners, closures⟩
    | _, _ => .error "pending node event queue header is malformed"

/-- The events read so far, the last one first. -/
def readEvent (events : List PendingNodeEvent) (line : List UInt8) :
    Except String (List PendingNodeEvent) :=
  if maxPendingNodeEventBytes < line.length ∨ maxBrokerAuditEvents < events.length then
    .error "pending node event queue exceeds its limits"
  else
    match parseLine line with
    | none => .error "pending node event queue record is malformed"
    | some v => do
      let event ← PendingNodeEvent.ofValue H v
      if events.any fun earlier => earlier.idempotencyKey == event.idempotencyKey then
        .error "pending node event key is duplicated"
      else .ok (event :: events)

/-- The records behind the header. -/
def readEvents (records : List UInt8) : Except String (List PendingNodeEvent) := do
  let lines := (records.splitOn 10).filter fun line => !line.isEmpty
  let events ← lines.foldlM (readEvent H) []
  if fitsQueue events.reverse then .ok events.reverse
  else .error "pending node event queue exceeds its limits"

/-- The contents of the file. -/
def parseOutbox (contents : List UInt8) : Except String OutboxSnapshot :=
  if maxPendingNodeEventsBytes < contents.length then
    .error "pending node event queue permissions or size are unsafe"
  else if contents.isEmpty ∨ contents.getLast? ≠ some 10 then
    .error "pending node event queue is incomplete"
  else
    let header := contents.takeWhile (· != 10)
    if maxHeaderBytes < header.length then .error "pending node event queue header is oversized"
    else
      match parseLine header with
      | none => .error "pending node event queue header is malformed"
      | some v => do
        let s ← readHeader v
        let events ← readEvents H (contents.drop (header.length + 1))
        return { s with events := events }

/-- `read_pending_node_events`, when no system call fails. -/
def readPendingNodeEvents (file : Option (List UInt8)) : Except String OutboxSnapshot :=
  match file with
  | none => .ok .empty
  | some contents => parseOutbox H contents

end

end BlindPass.Broker
