import BlindPass.Broker.SessionJournal
import BlindPass.Canon.Size

/-!
# The session journal's document

The table is one canonical JSON document. A reader checks every record, and that no two records
stand in each other's way, before it believes any of them. Documents of two older versions lack
some fields.
-/

namespace BlindPass.Broker

open Fleet (Value)
open Canon (canonicalizeValue)

/-! ### Writing -/

def optionalText (value : Option String) : Value := value.elim .null .string

def optionalNumber (value : Option ℕ) : Value := value.elim .null .unsigned

def handleValue : RevokeHandle → Value
  | .fixture account sessionReference => .object
    [("kind", .string "fixture"), ("account", .string account),
      ("session_reference", .string sessionReference)]
  | .grafanaManaged account userId orgId => .object
    [("kind", .string "grafana-managed"), ("account", .string account),
      ("user_id", .unsigned userId.toNat), ("org_id", .unsigned orgId.toNat)]

/-- The binding within `record_value`. -/
def bindingValue (b : SessionBinding) : Value := .object
  [("node_id", .string b.nodeId), ("workload_id", .string b.workloadId),
    ("operation_id", .string b.operationId), ("idempotency_key", .string b.idempotencyKey),
    ("request_event_key", optionalText b.requestEventKey),
    ("workload_unit", .string b.workloadUnit),
    ("workload_invocation", .string b.workloadInvocation), ("resource", .string b.resource),
    ("recipe_fingerprint", .string b.recipeFingerprint), ("account", .string b.account)]

def recordValue (r : SessionRecord) : Value := .object
  [("binding", bindingValue r.binding), ("state", .string r.state.name),
    ("created_at_ms", .unsigned r.createdAtMs), ("closed_at_ms", optionalNumber r.closedAtMs),
    ("original_deadline_ms", optionalNumber r.originalDeadlineMs),
    ("revoke_handle", r.revokeHandle.elim .null handleValue),
    ("helper_unit", optionalText r.helperUnit),
    ("helper_invocation", optionalText r.helperInvocation),
    ("browser_unit", optionalText r.browserUnit),
    ("browser_invocation", optionalText r.browserInvocation)]

/-- A table as it stands in a document. -/
structure SessionSnapshot where
  records : Std.TreeMap String SessionRecord
  timeHighWaterMs : ℕ

namespace SessionSnapshot

variable (s : SessionSnapshot)

/-- The records in the order of their operations. -/
def values : List SessionRecord := s.records.toList.map Prod.snd

/-- The document of `write_snapshot`. -/
def value : Value := .object
  [("version", .unsigned 4), ("time_high_water_ms", .unsigned s.timeHighWaterMs),
    ("records", .array (s.values.map recordValue))]

/-- The bytes of the document, if it is not too large. -/
def body : Option (List UInt8) := do
  let bytes ← (canonicalizeValue s.value).toOption
  guard (bytes.length ≤ maxSessionBytes)
  return bytes

end SessionSnapshot

/-! ### Reading -/

/-- A field that must hold a text. -/
def text (v : Value) (key : String) : Option String := v.str key

/-- A field that must hold a number. -/
def integer (v : Value) (key : String) : Option ℕ := v.u64 key

def nullableText (v : Value) (key : String) : Option (Option String) :=
  match v.get key with
  | some .null => some none
  | some (.string value) => some (some value)
  | _ => none

def nullableNumber (v : Value) (key : String) : Option (Option ℕ) :=
  match v.get key with
  | some .null => some none
  | some value => value.asU64.map some
  | none => none

/-- `u32::try_from` -/
def toU32 (n : ℕ) : Option UInt32 := if n < 2 ^ 32 then some (.ofNat n) else none

def parseHandle (v : Value) : Option RevokeHandle := do
  match ← text v "kind" with
  | "fixture" =>
    guard (v.hasFields ["kind", "account", "session_reference"])
    return .fixture (← text v "account") (← text v "session_reference")
  | "grafana-managed" =>
    guard (v.hasFields ["kind", "account", "user_id", "org_id"])
    return .grafanaManaged (← text v "account") (← toU32 (← integer v "user_id"))
      (← toU32 (← integer v "org_id"))
  | _ => none

/-- A field that older documents lack. -/
def sinceVersion {α : Type} (first version : ℕ) (value : Option (Option α)) : Option (Option α) :=
  if first ≤ version then value else some none

/-- The fields of a binding. -/
def readBinding (v : Value) (version : ℕ) : Option SessionBinding := do
  let names := ["node_id", "workload_id", "operation_id", "idempotency_key", "workload_unit",
    "workload_invocation", "resource", "recipe_fingerprint", "account"]
  guard (v.hasFields (names ++ if 4 ≤ version then ["request_event_key"] else []))
  return {
    nodeId := ← text v "node_id"
    workloadId := ← text v "workload_id"
    operationId := ← text v "operation_id"
    idempotencyKey := ← text v "idempotency_key"
    requestEventKey := ← sinceVersion 4 version (nullableText v "request_event_key")
    workloadUnit := ← text v "workload_unit"
    workloadInvocation := ← text v "workload_invocation"
    resource := ← text v "resource"
    recipeFingerprint := ← text v "recipe_fingerprint"
    account := ← text v "account" }

/-- The binding within `parse_record`. -/
def parseBinding (v : Value) (version : ℕ) : Option SessionBinding :=
  (readBinding v version).filter SessionBinding.isValid

/-- The binding of a record. -/
def parseBindingField (v : Value) (version : ℕ) : Option SessionBinding :=
  (v.get "binding").bind fun binding => parseBinding binding version

/-- The handle of a record, `null` for none. -/
def parseHandleField (v : Value) : Option (Option RevokeHandle) :=
  match v.get "revoke_handle" with
  | some .null => some none
  | some value => (parseHandle value).map some
  | none => none

namespace SessionRecord

variable (r : SessionRecord)

/-- The times of a record, but for its state. -/
def hasSoundTimes (highWater : ℕ) : Bool :=
  r.createdAtMs != 0 && r.createdAtMs ≤ highWater &&
  r.originalDeadlineMs.all (fun deadline => r.createdAtMs < deadline && deadline ≤ maxSessionTime) &&
  r.closedAtMs.all (fun time => r.createdAtMs ≤ time && time ≤ highWater)

/-- The units of a record, but for its state. -/
def hasSoundUnits : Bool :=
  (r.helperUnit.isSome == r.helperInvocation.isSome) && r.helperUnit.all validHelperUnit &&
  r.helperInvocation.all validInvocation && (r.browserUnit.isSome == r.browserInvocation.isSome) &&
  r.browserUnit.all validSessionUnit && r.browserInvocation.all validInvocation

/-- What the state says of the other fields. -/
def fitsState (version : ℕ) : Bool :=
  (r.isClosed == r.closedAtMs.isSome) &&
  if r.isClosed then
    r.revokeHandle.isNone && r.browserUnit.isNone && r.helperUnit.isNone
  else
    (r.originalDeadlineMs.isSome == r.revokeHandle.isSome) &&
    (r.browserUnit.isNone || r.revokeHandle.isSome) &&
    !(3 ≤ version && (r.state == .reserved || r.state == .active) && r.revokeHandle.isSome &&
      r.helperUnit.isNone) &&
    r.revokeHandle.all (fun handle => handle.isValid r.binding.account) &&
    (r.state != .active || (r.revokeHandle.isSome && r.browserUnit.isSome))

/-- The checks across the fields of a record, at the end of `parse_record`. -/
def isConsistent (highWater version : ℕ) : Bool :=
  r.hasSoundTimes highWater && r.hasSoundUnits && r.fitsState version

end SessionRecord

/-- The fields of a record. -/
def readRecord (v : Value) (version : ℕ) : Option SessionRecord := do
  let names := ["binding", "state", "created_at_ms", "closed_at_ms", "original_deadline_ms",
    "revoke_handle", "browser_unit", "browser_invocation"]
  guard (v.hasFields (names ++ if 3 ≤ version then ["helper_unit", "helper_invocation"] else []))
  return {
    binding := ← parseBindingField v version
    state := ← SessionState.parse (← text v "state")
    createdAtMs := ← integer v "created_at_ms"
    closedAtMs := ← nullableNumber v "closed_at_ms"
    originalDeadlineMs := ← nullableNumber v "original_deadline_ms"
    revokeHandle := ← parseHandleField v
    helperUnit := ← sinceVersion 3 version (nullableText v "helper_unit")
    helperInvocation := ← sinceVersion 3 version (nullableText v "helper_invocation")
    browserUnit := ← nullableText v "browser_unit"
    browserInvocation := ← nullableText v "browser_invocation" }

def parseRecord (v : Value) (highWater version : ℕ) : Option SessionRecord :=
  (readRecord v version).filter fun r => r.isConsistent highWater version

/-- Two records that must not stand in one table. -/
def SessionRecord.clashes (previous r : SessionRecord) : Bool :=
  previous.binding.idempotencyKey == r.binding.idempotencyKey ||
    (!previous.isClosed && !r.isClosed && (previous.binding.account == r.binding.account ||
      previous.binding.workloadUnit == r.binding.workloadUnit))

/-- Take up one record of the document. -/
def decodeRecord (highWater version : ℕ) (decoded : Std.TreeMap String SessionRecord) (v : Value) :
    Option (Std.TreeMap String SessionRecord) := do
  let r ← parseRecord v highWater version
  guard (!(decoded.toList.any fun e => e.2.clashes r))
  guard (!decoded.contains r.binding.operationId)
  return decoded.insert r.binding.operationId r

/-- The document after it was parsed. -/
def SessionSnapshot.ofValue (v : Value) : Option SessionSnapshot := do
  guard (v.hasFields ["version", "time_high_water_ms", "records"])
  let version ← integer v "version"
  guard (2 ≤ version && version ≤ 4)
  let highWater ← integer v "time_high_water_ms"
  guard (highWater ≤ maxSessionTime)
  let records ← (v.get "records").bind Value.asArray
  guard (records.length ≤ maxSessionRecords)
  let decoded ← records.foldlM (decodeRecord highWater version) ∅
  return ⟨decoded, highWater⟩

def SessionSnapshot.load (body : List UInt8) : Option SessionSnapshot := do
  let source ← Utf8.decode? body
  let v ← (Canon.parseJson (String.ofList source)).toOption
  SessionSnapshot.ofValue v

/-! ### The file -/

/-- What becomes of one write: it succeeds, it leaves the old file, or it fails after the new file
is in place and before the directory is flushed. -/
inductive DiskWrite
  | done
  | refused
  | unsynced
  deriving DecidableEq

namespace SessionJournal

variable (j : SessionJournal)

/-- What a document says of the journal. -/
def snapshot : SessionSnapshot := ⟨j.records, j.timeHighWaterMs⟩

def writeSnapshot (io : DiskWrite) : SessionJournal × Except String Unit :=
  match j.snapshot.body with
  | none => (j, .error sessionFailure)
  | some bytes =>
    match io with
    | .refused => (j, .error sessionFailure)
    | .unsynced => ({ j with file := j.file.write (some bytes) }, .error sessionFailure)
    | .done =>
      ({ j with
        file := (j.file.write (some bytes)).sync
        persistedHighWaterMs := j.timeHighWaterMs }, .ok ())

def persist (io : DiskWrite) : SessionJournal × Except String Unit :=
  match j.writeSnapshot io with
  | (j', .error e) => ({ j' with fenced := true }, .error e)
  | (j', .ok ()) => (j', .ok ())

/-- Carry an operation out: what it changes is written before it answers. -/
def commit {α : Type} (move : Except String (SessionMove α)) (io : DiskWrite) :
    SessionJournal × Except String α :=
  match move with
  | .error e => (j, .error e)
  | .ok (.answer j' a) => (j', .ok a)
  | .ok (.write j' a) =>
    match j'.persist io with
    | (j'', .error e) => (j'', .error e)
    | (j'', .ok ()) => (j'', a)

def tryUnfence (io : DiskWrite) : SessionJournal × Bool :=
  if !j.fenced then (j, true)
  else
    match j.writeSnapshot io with
    | (j', .error _) => (j', false)
    | (j', .ok ()) => ({ j' with fenced := false }, true)

/-- The journal of a file, with its unfinished records uncertain, and whether it differs from the
file. -/
def loaded (file : Storage.Durable (Option (List UInt8))) : Except String (SessionJournal × Bool) :=
  match file.visible with
  | none => .ok (⟨file, ∅, 0, 0, false⟩, true)
  | some bytes =>
    if maxSessionBytes < bytes.length then .error sessionFailure
    else
      match SessionSnapshot.load bytes with
      | none => .error sessionFailure
      | some s =>
        let changed := s.records.toList.any fun e =>
          e.2.state != .closed && e.2.state != .blockedUncertain
        .ok (⟨file, s.records.map fun _ r => SessionRecord.demote r, s.timeHighWaterMs,
          s.timeHighWaterMs, false⟩, changed)

/-- `open_at`: the file as it is left, and the journal if it could be opened. -/
def openAt (file : Storage.Durable (Option (List UInt8))) (io : DiskWrite) :
    Storage.Durable (Option (List UInt8)) × Except String SessionJournal :=
  match loaded file with
  | .error e => (file, .error e)
  | .ok (j, changed) =>
    if changed then
      match j.persist io with
      | (j', .error e) => (j'.file, .error e)
      | (j', .ok ()) => (j'.file, .ok j')
    else (file, .ok j)

end SessionJournal

end BlindPass.Broker
