import BlindPass.Canon.Writer
import BlindPass.Fleet.Documents
import BlindPass.Library.Storage
import BlindPass.Library.Table

/-!
# The journal of browser sessions

The broker keeps one record for each browser login it may have to undo. A record holds its
account and its workload unit until the session is known to be gone: by a reconciliation that
confirmed both the website's logout and the end of the processes, or by a maximum lifetime. The
whole table is one JSON document, written to a temporary file and renamed into place after every
change. A write that fails fences the journal: the table in memory runs ahead of the disk until a
later write succeeds or the broker restarts. A restart takes every unfinished record for
uncertain.

The document is written and read in `SessionSnapshot`; here it is a parameter of the operations
that write.
-/

namespace BlindPass.Broker

/-! ### Records -/

/-- Whom and what a session is for. -/
structure SessionBinding where
  nodeId : String
  workloadId : String
  operationId : String
  idempotencyKey : String
  requestEventKey : Option String
  workloadUnit : String
  workloadInvocation : String
  resource : String
  recipeFingerprint : String
  account : String
  deriving DecidableEq

/-- What revokes the session at the website. It cannot be used to log in. -/
inductive RevokeHandle
  | fixture (account sessionReference : String)
  | grafanaManaged (account : String) (userId orgId : UInt32)
  deriving DecidableEq

structure SessionReceipt where
  originalDeadlineMs : ℕ
  revokeHandle : RevokeHandle
  browserUnit : String
  browserInvocation : String
  deriving DecidableEq

inductive SessionState
  | reserved
  | active
  | revoking
  | blockedUncertain
  | closed
  deriving DecidableEq

namespace SessionState

def name : SessionState → String
  | reserved => "reserved"
  | active => "active"
  | revoking => "revoking"
  | blockedUncertain => "blocked_uncertain"
  | closed => "closed"

def parse : String → Option SessionState
  | "reserved" => some reserved
  | "active" => some active
  | "revoking" => some revoking
  | "blocked_uncertain" => some blockedUncertain
  | "closed" => some closed
  | _ => none

theorem parse_name (state : SessionState) : parse state.name = some state := by
  cases state <;> rfl

end SessionState

/-- A session that was closed by its maximum lifetime. -/
structure ReleasedSession where
  nodeId : String
  idempotencyKey : String
  hadOriginalDeadline : Bool
  deriving DecidableEq

inductive Reservation
  | new
  | existing (state : SessionState)
  deriving DecidableEq

structure SessionRecord where
  binding : SessionBinding
  state : SessionState
  originalDeadlineMs : Option ℕ
  revokeHandle : Option RevokeHandle
  browserUnit : Option String
  browserInvocation : Option String
  helperUnit : Option String
  helperInvocation : Option String
  createdAtMs : ℕ
  closedAtMs : Option ℕ
  deriving DecidableEq

/-! ### Checks -/

/-- `FAILURE` -/
def sessionFailure : String := "session reconciliation state unavailable"

/-- `RETENTION_MS` -/
def sessionRetentionMs : ℕ := 86400000

def timeRegressionToleranceMs : ℕ := 2500

/-- `RELEASE_AFTER_MS`: the operation's deadline, the session's ceiling and a margin. -/
def releaseAfterMs : ℕ := 120000 + 1800000 + 60000

def highWaterPersistIntervalMs : ℕ := 600000

/-- `MAX_RECORDS` -/
def maxSessionRecords : ℕ := 1024

/-- `MAX_BYTES` -/
def maxSessionBytes : ℕ := 1048576

/-- `MAX_TIME` -/
def maxSessionTime : ℕ := 9007199254740991 - sessionRetentionMs

/-- `valid_id` -/
def validSessionId (value : String) : Bool :=
  !value.isEmpty && value.utf8ByteSize ≤ 128 &&
    value.toList.all fun c => c.isAlphanum || c == '-' || c == '_' || c == ':' || c == '.'

/-- Two dots stand next to each other. -/
def hasDoubleDot (value : String) : Bool :=
  (value.toList.zip value.toList.tail).any fun pair => pair.1 == '.' && pair.2 == '.'

/-- `valid_unit` -/
def validSessionUnit (value : String) : Bool :=
  !value.isEmpty && value.utf8ByteSize ≤ 200 && ".service".toList.isSuffixOf value.toList &&
    !hasDoubleDot value &&
    value.toList.all fun c => c.isAlphanum || c == '-' || c == '_' || c == ':' || c == '.' || c == '@'

def validHelperUnit (value : String) : Bool :=
  "blindpass-login-helper@".toList.isPrefixOf value.toList &&
    ".service".toList.isSuffixOf value.toList &&
    "blindpass-login-helper@.service".utf8ByteSize < value.utf8ByteSize &&
    value.utf8ByteSize ≤ 200 && !hasDoubleDot value &&
    value.toList.all fun c =>
      c.isAlphanum || c == '_' || c == '-' || c == '.' || c == '@' || c == ':' || c == '\\'

/-- A digit of a lower-case hexadecimal number. -/
def isLowerHex (c : Char) : Bool := c.isDigit || ('a' ≤ c && c ≤ 'f')

def validInvocation (value : String) : Bool :=
  value.utf8ByteSize == 32 && value.toList.all isLowerHex

/-- `validate_binding` -/
def SessionBinding.isValid (b : SessionBinding) : Bool :=
  validSessionId b.nodeId && validSessionId b.workloadId &&
    b.recipeFingerprint.utf8ByteSize == 64 && b.recipeFingerprint.toList.all isLowerHex &&
    validSessionId b.operationId && validSessionId b.idempotencyKey &&
    b.requestEventKey.all Fleet.isValidEventKey && validSessionId b.resource &&
    validSessionId b.account && validSessionUnit b.workloadUnit &&
    validInvocation b.workloadInvocation

/-- `validate_handle` -/
def RevokeHandle.isValid (expected : String) : RevokeHandle → Bool
  | fixture account sessionReference => account == expected && validSessionId sessionReference
  | grafanaManaged account userId orgId => account == expected && 0 < userId && 0 < orgId

/-! ### The table -/

/-- The journal of a running broker. `file` is the state file in its directory. The guards of
helper sources and contexts are left out. -/
structure SessionJournal where
  file : Storage.Durable (Option (List UInt8))
  records : Std.TreeMap String SessionRecord
  timeHighWaterMs : ℕ
  persistedHighWaterMs : ℕ
  fenced : Bool

/-- What an operation does up to its write: answer at once, or change the table, write it and
answer if that succeeds. -/
inductive SessionMove (α : Type)
  | answer (j : SessionJournal) (a : α)
  | write (j : SessionJournal) (a : Except String α)

/-- The table the operation leaves in memory. -/
def SessionMove.journal {α : Type} : SessionMove α → SessionJournal
  | answer j _ | write j _ => j

namespace SessionRecord

/-- The record no longer holds its account and its unit. -/
def isClosed (r : SessionRecord) : Bool := r.state == .closed

/-- A record of a new reservation. -/
def reserve (binding : SessionBinding) (now : ℕ) : SessionRecord where
  binding
  state := .reserved
  originalDeadlineMs := none
  revokeHandle := none
  browserUnit := none
  browserInvocation := none
  helperUnit := none
  helperInvocation := none
  createdAtMs := now
  closedAtMs := none

/-- The record with nothing left to undo. -/
def close (r : SessionRecord) (now : ℕ) : SessionRecord :=
  { r with
    state := .closed
    closedAtMs := some now
    revokeHandle := none
    browserUnit := none
    browserInvocation := none
    helperUnit := none
    helperInvocation := none }

/-- A restart cannot tell how far an unfinished record got. -/
def demote (r : SessionRecord) : SessionRecord :=
  if r.isClosed then r else { r with state := .blockedUncertain }

/-- The record stands in the way of a new binding. -/
def blocks (r : SessionRecord) (binding : SessionBinding) : Bool :=
  r.binding.idempotencyKey == binding.idempotencyKey ||
    (!r.isClosed && (r.binding.account == binding.account ||
      r.binding.workloadUnit == binding.workloadUnit))

end SessionRecord

namespace SessionJournal

variable (j : SessionJournal)

/-- `effective_time`: a small step back counts as the high-water mark. -/
def effectiveTime (time : ℕ) : Except String ℕ :=
  if j.fenced || time == 0 || maxSessionTime < time then .error sessionFailure
  else if j.timeHighWaterMs ≤ time then .ok time
  else if j.timeHighWaterMs - time ≤ timeRegressionToleranceMs then .ok j.timeHighWaterMs
  else .error sessionFailure

/-- The table with another record of one operation, at a new time. -/
def put (operation : String) (r : SessionRecord) (now : ℕ) : SessionJournal :=
  { j with records := j.records.insert operation r, timeHighWaterMs := now }

/-- The record of an operation. -/
def find (operation : String) : Except String SessionRecord :=
  match j.records[operation]? with
  | some r => .ok r
  | none => .error "session operation unavailable"

/-- Refuse with a reason if the condition fails. -/
def require (condition : Bool) (reason : String) : Except String Unit :=
  if condition then .ok () else .error reason

/-! ### Operations -/

/-- `reserve` -/
def reserving (binding : SessionBinding) (trustedTimeMs : ℕ) :
    Except String (SessionMove Reservation) := do
  let now ← j.effectiveTime trustedTimeMs
  require binding.isValid "session binding invalid"
  match j.records[binding.operationId]? with
  | some existing =>
    require (existing.binding == binding) "session binding conflict"
    if j.timeHighWaterMs < now then
      return .write { j with timeHighWaterMs := now } (.ok (.existing existing.state))
    else return .answer j (.existing existing.state)
  | none =>
    require (j.records.size < maxSessionRecords) "session journal capacity reached"
    require (!(j.records.toList.any fun e => e.2.blocks binding)) "session account or workload unavailable"
    return .write (j.put binding.operationId (.reserve binding now) now) (.ok .new)

/-- `record_helper` -/
def recordingHelper (operation unit invocation : String) (trustedTimeMs : ℕ) :
    Except String (SessionMove Unit) := do
  let now ← j.effectiveTime trustedTimeMs
  require (validHelperUnit unit && validInvocation invocation) "session helper binding invalid"
  let r ← j.find operation
  require (r.state == .reserved && r.helperUnit.isNone && r.revokeHandle.isNone &&
    now - r.createdAtMs ≤ 120000) "session helper is not pending"
  let r' := { r with helperUnit := some unit, helperInvocation := some invocation }
  return .write (j.put operation r' now) (.ok ())

/-- `record_login` -/
def recordingLogin (operation : String) (originalDeadlineMs : ℕ) (handle : RevokeHandle)
    (trustedTimeMs : ℕ) : Except String (SessionMove Unit) := do
  let now ← j.effectiveTime trustedTimeMs
  let r ← j.find operation
  require (r.state == .reserved && r.revokeHandle.isNone && r.helperUnit.isSome)
    "session login is not pending"
  require (handle.isValid r.binding.account) "session revocation binding invalid"
  require (now < originalDeadlineMs && originalDeadlineMs ≤ maxSessionTime &&
    now - r.createdAtMs ≤ 120000 && originalDeadlineMs ≤ now + 1800000) "session deadline invalid"
  let r' := { r with originalDeadlineMs := some originalDeadlineMs, revokeHandle := some handle }
  return .write (j.put operation r' now) (.ok ())

/-- `activate` -/
def activating (operation : String) (receipt : SessionReceipt) (trustedTimeMs : ℕ) :
    Except String (SessionMove Unit) := do
  let now ← j.effectiveTime trustedTimeMs
  let r ← j.find operation
  require (r.state == .reserved) "session activation is not pending"
  require (receipt.revokeHandle.isValid r.binding.account) "session revocation binding invalid"
  require (validSessionUnit receipt.browserUnit && r.helperUnit.isSome &&
    validInvocation receipt.browserInvocation &&
    r.originalDeadlineMs == some receipt.originalDeadlineMs &&
    r.revokeHandle == some receipt.revokeHandle && now < receipt.originalDeadlineMs &&
    now - r.createdAtMs ≤ 120000) "session receipt binding invalid"
  let r' := { r with
    browserUnit := some receipt.browserUnit
    browserInvocation := some receipt.browserInvocation
    state := .active }
  return .write (j.put operation r' now) (.ok ())

/-- `begin_revoke` -/
def beginningRevoke (operation : String) (trustedTimeMs : ℕ) :
    Except String (SessionMove Unit) := do
  let now ← j.effectiveTime trustedTimeMs
  let r ← j.find operation
  if r.isClosed then return .answer j ()
  else return .write (j.put operation { r with state := .revoking } now) (.ok ())

/-- `reconcile` -/
def reconciling (operation : String) (websiteRevoked verifiedProcessesTerminated : Bool)
    (trustedTimeMs : ℕ) : Except String (SessionMove Unit) := do
  let now ← j.effectiveTime trustedTimeMs
  let r ← j.find operation
  if r.isClosed then return .answer j ()
  else if !websiteRevoked || !verifiedProcessesTerminated then
    return .write (j.put operation { r with state := .blockedUncertain } now)
      (.error "session reconciliation incomplete")
  else return .write (j.put operation (r.close now) now) (.ok ())

/-- The record's maximum lifetime is over. -/
def isDue (now : ℕ) (r : SessionRecord) : Bool :=
  !r.isClosed && r.createdAtMs + releaseAfterMs ≤ now

/-- `release_expired` -/
def releasingExpired (trustedTimeMs : ℕ) : Except String (SessionMove (List ReleasedSession)) := do
  let now ← j.effectiveTime trustedTimeMs
  let due := Table.select j.records fun _ r => isDue now r
  if due.isEmpty then return .answer { j with timeHighWaterMs := now } []
  else
    let records := Table.updateWhere j.records (fun _ r => isDue now r) fun r => r.close now
    return .write { j with records, timeHighWaterMs := now } (.ok (due.map fun e =>
      ⟨e.2.binding.nodeId, e.2.binding.idempotencyKey, e.2.originalDeadlineMs.isSome⟩))

/-- The record is closed and need not be remembered any more. -/
def isStale (now : ℕ) (r : SessionRecord) : Bool :=
  r.closedAtMs.any fun closed => closed + sessionRetentionMs ≤ now

/-- `prune` -/
def pruning (trustedTimeMs : ℕ) : Except String (SessionMove ℕ) := do
  let now ← j.effectiveTime trustedTimeMs
  let records := j.records.filter fun _ r => !isStale now r
  let removed := j.records.size - records.size
  let pruned := { j with records, timeHighWaterMs := now }
  if 0 < removed || highWaterPersistIntervalMs ≤ now - j.persistedHighWaterMs then
    return .write pruned (.ok removed)
  else return .answer pruned removed

end SessionJournal

end BlindPass.Broker
