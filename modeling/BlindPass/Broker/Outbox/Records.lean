import BlindPass.Broker.SessionSnapshot
import BlindPass.Fleet.Bodies
import BlindPass.Library.BoundedMap

/-!
# The records of operation requests

The broker remembers for each operation request which invocation of which workload made it, and
how the request was closed. Both tables stand in the header of the durable outbox. A record of a
browser request also carries what a retry of the request is compared with; a withdrawal is such a
record for a request that never came.
-/

namespace BlindPass.Broker

open Fleet (Value isValidEventKey isValidOpaqueId)

def maxOperationRecords : ℕ := 10000

abbrev BoundedRecords (α : Type) := BoundedMap String α

/-! ### Bindings -/

/-- A digest in hexadecimal digits. -/
def isDigest (value : String) : Bool := value.utf8ByteSize == 64 && value.toList.all isLowerHex

/-- `is_ascii_graphic` -/
def isGraphic (c : Char) : Bool := '!' ≤ c && c ≤ '~'

/-- What a retry of a browser request must agree with. -/
structure BrowserRequestBinding where
  nodeId : String
  unit : String
  requestKey : Option String
  fingerprint : Option String
  resourceId : Option String
  recipeFingerprint : Option String
  deriving DecidableEq

namespace BrowserRequestBinding

def withdrawal (owner : WorkloadAuthorization) (key : String) : BrowserRequestBinding where
  nodeId := owner.nodeId
  unit := owner.unit
  requestKey := some key
  fingerprint := none
  resourceId := none
  recipeFingerprint := none

variable (b : BrowserRequestBinding)

def beforeAdmission : Bool := b.fingerprint.isNone

def toValue : Value := .object
  [("node_id", .string b.nodeId), ("unit", .string b.unit),
    ("request_key", optionalText b.requestKey), ("fingerprint", optionalText b.fingerprint),
    ("resource_id", optionalText b.resourceId),
    ("recipe_fingerprint", optionalText b.recipeFingerprint)]

/-- The checks of `from_value`. -/
def isValid : Bool :=
  isValidOpaqueId b.nodeId && !b.unit.isEmpty && b.unit.utf8ByteSize ≤ 256 &&
    b.unit.toList.all isGraphic && b.requestKey.all isValidEventKey &&
    match b.fingerprint, b.resourceId, b.recipeFingerprint with
    | none, none, none => b.requestKey.isSome
    | some fingerprint, some resourceId, some recipeFingerprint =>
      isDigest fingerprint && isValidOpaqueId resourceId && isDigest recipeFingerprint
    | _, _, _ => false

/-- The fields of a binding. -/
def read (v : Value) : Option BrowserRequestBinding := do
  guard (v.hasFields
    ["node_id", "unit", "request_key", "fingerprint", "resource_id", "recipe_fingerprint"])
  return {
    nodeId := ← v.str "node_id"
    unit := ← v.str "unit"
    requestKey := ← nullableText v "request_key"
    fingerprint := ← nullableText v "fingerprint"
    resourceId := ← nullableText v "resource_id"
    recipeFingerprint := ← nullableText v "recipe_fingerprint" }

/-- `from_value` -/
def ofValue (v : Value) : Option BrowserRequestBinding := (read v).filter isValid

end BrowserRequestBinding

/-! ### Owners -/

/-- Who made an operation request, and what became of its cancellation. -/
structure OperationRequestOwner where
  workloadId : String
  invocationId : String
  mode : Option ConsumptionMode
  cancelRequested : Bool
  cancelAcknowledged : Bool
  browserRequest : Option BrowserRequestBinding
  deriving DecidableEq

namespace OperationRequestOwner

variable (o : OperationRequestOwner)

/-- The record of a request that was withdrawn before it came. -/
def isWithdrawal : Bool := o.browserRequest.any BrowserRequestBinding.beforeAdmission

/-- What no two records have in common: the node, the workload and the retry key. -/
def retryKey : Option (String × String × String) :=
  o.browserRequest.bind fun b => b.requestKey.map fun key => (b.nodeId, o.workloadId, key)

/-- The record of a key, as `pending_state_header` writes it. -/
def toValue (key : String) : Value := .object
  [("event_key", .string key), ("workload_id", .string o.workloadId),
    ("invocation_id", .string o.invocationId),
    ("mode", optionalText (o.mode.map ConsumptionMode.asStr)),
    ("cancel_requested", .bool o.cancelRequested),
    ("cancel_acknowledged", .bool o.cancelAcknowledged),
    ("browser_request", o.browserRequest.elim .null BrowserRequestBinding.toValue)]

/-- The checks of `read_operation_records` on one record. -/
def isValid : Bool :=
  isValidOpaqueId o.workloadId && !o.invocationId.isEmpty && o.invocationId.utf8ByteSize ≤ 256 &&
    (o.invocationId.toList.all fun c => c.isAlphanum || c == '_' || c == '-') &&
    !(o.cancelAcknowledged && !o.cancelRequested) &&
    !(o.cancelRequested && (o.mode != some .browserSession || !validInvocation o.invocationId)) &&
    o.browserRequest.all fun b =>
      o.mode == some .browserSession && validInvocation o.invocationId &&
        !(b.beforeAdmission && (!o.cancelRequested || o.cancelAcknowledged))

end OperationRequestOwner

/-! ### Reading -/

/-- The object has this many fields, all of them among the names. -/
def hasFieldsAmong (v : Value) (count : ℕ) (names : List String) : Bool :=
  v.asObject.any fun fields => fields.length == count && fields.all fun f => names.contains f.1

/-- The names of an owner's fields, in all versions. -/
def ownerFields : List String :=
  ["event_key", "workload_id", "invocation_id", "mode", "cancel_requested", "cancel_acknowledged",
    "browser_request"]

/-- How many of them a version has. -/
def ownerWidth (version : ℕ) : ℕ := if version = 3 then 3 else if version = 4 then 6 else 7

/-- A field that must hold a truth value. -/
def flag (v : Value) (key : String) : Option Bool :=
  match v.get key with
  | some (.bool value) => some value
  | _ => none

/-- The mode of a record, `null` for none. Records of version 3 have none. -/
def readMode (v : Value) (version : ℕ) : Option (Option ConsumptionMode) :=
  if version = 3 then some none
  else
    match v.get "mode" with
    | some .null => some none
    | some (.string mode) => (ConsumptionMode.parse mode).map some
    | _ => none

/-- A flag that records of version 3 lack. -/
def readFlag (v : Value) (version : ℕ) (key : String) : Option Bool :=
  if version = 3 then some false else flag v key

/-- The binding of a record, `null` for none. Records before version 5 have none. -/
def readBinding? (v : Value) (version : ℕ) : Option (Option BrowserRequestBinding) :=
  if version < 5 then some none
  else
    match v.get "browser_request" with
    | some .null => some none
    | some value => (BrowserRequestBinding.ofValue value).map some
    | none => none

/-- The fields of an owner's record. -/
def readOwner (version : ℕ) (v : Value) : Option (String × OperationRequestOwner) := do
  guard (hasFieldsAmong v (ownerWidth version) ownerFields)
  let key ← v.str "event_key"
  return (key, {
    workloadId := ← v.str "workload_id"
    invocationId := ← v.str "invocation_id"
    mode := ← readMode v version
    cancelRequested := ← readFlag v version "cancel_requested"
    cancelAcknowledged := ← readFlag v version "cancel_acknowledged"
    browserRequest := ← readBinding? v version })

/-- The owners read so far, and the retry keys among them. -/
structure OwnersRead where
  owners : BoundedRecords OperationRequestOwner
  retryKeys : List (String × String × String)

/-- Take up one owner of the header. -/
def takeOwner (version : ℕ) (read : OwnersRead) (v : Value) : Option OwnersRead := do
  let (key, owner) ← readOwner version v
  guard (isValidEventKey key && owner.isValid && !read.owners.values.contains key)
  guard (!owner.retryKey.any read.retryKeys.contains)
  return ⟨read.owners.insert key owner, owner.retryKey.toList ++ read.retryKeys⟩

/-- The status a request may be closed with, in a header of this version. -/
def isClosureStatus (version : ℕ) (status : String) : Bool :=
  ["rejected", "cancelled", "expired", "denied"].contains status ||
    (5 ≤ version && status == "completed")

/-- The fields of a closure's record. -/
def readClosure (v : Value) : Option (String × String) := do
  guard (v.hasFields ["event_key", "status"])
  return (← v.str "event_key", ← v.str "status")

/-- A request of this owner may have been completed: it was a browser session that was admitted
and never cancelled. -/
def OperationRequestOwner.mayComplete (o : OperationRequestOwner) : Bool :=
  o.mode == some .browserSession && !o.cancelRequested &&
    o.browserRequest.any fun b => !b.beforeAdmission

/-- Take up one closure of the header. -/
def takeClosure (version : ℕ) (owners : BoundedRecords OperationRequestOwner)
    (closures : BoundedRecords String) (v : Value) : Option (BoundedRecords String) := do
  let (key, status) ← readClosure v
  guard (isValidEventKey key && isClosureStatus version status)
  guard (status != "completed" || owners.values[key]?.any OperationRequestOwner.mayComplete)
  guard (owners.values.contains key && !closures.values.contains key)
  return closures.insert key status

/-- The records of one table of the header. -/
def headerRecords (header : Value) (name : String) : Option (List Value) :=
  ((header.get name).bind Value.asArray).filter fun records => records.length ≤ maxOperationRecords

/-- `read_operation_records`: headers before version 3 have none. -/
def readOperationRecords (header : Value) (version : ℕ) :
    Option (BoundedRecords OperationRequestOwner × BoundedRecords String) :=
  if version < 3 then some (.new maxOperationRecords, .new maxOperationRecords)
  else do
    let owners ← headerRecords header "operation_owners"
    let read ← owners.foldlM (takeOwner version) ⟨.new maxOperationRecords, []⟩
    let closures ← headerRecords header "operation_closures"
    let read' ← closures.foldlM (takeClosure version read.owners) (.new maxOperationRecords)
    return (read.owners, read')

/-! ### Writing -/

/-- The record of a closure, as `pending_state_header` writes it. -/
def closureValue (key status : String) : Value :=
  .object [("event_key", .string key), ("status", .string status)]

def pendingStateHeader (overflowPending revocationAcknowledged : Bool)
    (owners : BoundedRecords OperationRequestOwner) (closures : BoundedRecords String) : Value :=
  .object
    [("audit_overflow_pending", .bool overflowPending),
      ("node_revocation_acknowledged", .bool revocationAcknowledged),
      ("operation_owners", .array (owners.values.toList.map fun e => e.2.toValue e.1)),
      ("operation_closures", .array (closures.values.toList.map fun e => closureValue e.1 e.2)),
      ("v", .unsigned 5)]

end BlindPass.Broker
