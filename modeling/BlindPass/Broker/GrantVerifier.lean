import BlindPass.Broker.RevocationJournal
import BlindPass.Library.BoundedMap

/-!
# The grant verifier

The broker's part that decides whether a grant may be used: it keeps a signed estimate of
the controller's clock, the grants it accepted with their local deadlines, the grants it
retired with the reason, the pinned issuer epoch, and the two journals.

Every function is a transition on the verifier and the state files. An error leaves what
the calls before it changed.
-/

namespace BlindPass.Broker

open Storage (Slot)
open Fleet (Grant PolicySnapshot Registration Revocation TimeReply)

def maxTimeReplyDelayMs : ℕ := 35000

def maxDocumentAgeMs : ℕ := 60000

/-- The longest lifetime of a grant the broker accepts. -/
def maxGrantLifetimeMs : ℕ := 3600000

def clockRollbackToleranceMs : ℕ := 2000

def maxRetiredGrants : ℕ := 10000

def maxAcceptedGrants : ℕ := 10000

def grantAlreadySettled : String := "grant is already settled"

/-- The reason a consumption is denied. -/
inductive ConsumeDenial
  | expired
  | revoked
  | consumed
  | unknown
  | identityMismatch
  | policyStale
  | registrationChanged
  | epochStale
  | keyRotated
  | unavailable
  deriving DecidableEq

/-- A challenge the controller has not answered yet. -/
structure TimeChallenge where
  value : String
  sentAtBoottimeMs : ℕ
  deriving DecidableEq

/-- The last accepted answer: the signed time, a lower bound on the controller's time at
receipt, and the estimate, an upper bound. -/
structure TrustedTime where
  signedControllerMs : ℕ
  estimatedControllerMs : ℕ
  receivedAtBoottimeMs : ℕ
  deriving DecidableEq

/-- A grant with the local deadline it was given at receipt. The digest stands for the
signed bytes. -/
structure AcceptedGrant where
  grant : Grant
  deadlineBoottimeMs : ℕ
  documentHash : String
  deriving DecidableEq

/-- The paths `with_state_files` is given. -/
structure StateFiles where
  trustedTime : Slot ℕ
  journal : Slot JournalLine
  revocations : RevocationJournal.Disk
  deriving DecidableEq

/-- The verifier in memory. -/
structure GrantVerifier where
  pendingTime : Option TimeChallenge
  trustedTime : Option TrustedTime
  highestControllerTimeMs : Option ℕ
  accepted : Std.TreeMap String AcceptedGrant
  issuerEpoch : Option ℕ
  retired : BoundedMap String ConsumeDenial
  journal : GrantJournal
  revocations : RevocationJournal

namespace GrantVerifier

/-! ### The persisted high-water mark -/

/-- The bytes of a time's line. -/
def timeSize (value : ℕ) : ℕ := (toString value).utf8ByteSize + 1

/-- The outcome of every system call of `read_trusted_time`. -/
structure TrustedTimeIo where
  «open» : Bool
  metadata : Bool
  read : Bool
  deriving DecidableEq

def readTrustedTime (slot : Slot ℕ) (io : TrustedTimeIo) : Except String (Option ℕ) :=
  if !io.open then .error "trusted controller time could not be read safely"
  else
    match slot.file? with
    | none => .ok none
    | some f =>
      if !io.metadata then .error "trusted controller time metadata is unavailable"
      else if f.length timeSize = 0 ∨ 32 < f.length timeSize then
        .error "trusted controller time file has an invalid size"
      else if !io.read then .error "trusted controller time could not be read"
      else
        match f.lines, f.torn with
        | [some value], 0 =>
          if value = 0 then .error "trusted controller time file is malformed" else .ok (some value)
        | _, _ => .error "trusted controller time file is malformed"

def writeTrustedTime (slot : Slot ℕ) (value : ℕ) (io : Slot.ReplaceIo) :
    Slot ℕ × Except String Unit :=
  match slot.replace [value] io with
  | (slot, .error _) => (slot, .error "trusted controller time could not be persisted")
  | (slot, .ok ()) => (slot, .ok ())

/-! ### Starting over the state files -/

/-- The outcome of every system call of `with_state_files`. -/
structure OpenIo where
  trustedTime : TrustedTimeIo
  lock : Bool
  journal : GrantJournal.ReadIo
  revocations : RevocationJournal.OpenIo
  deriving DecidableEq

/-- Every call succeeds. -/
def OpenIo.clean : OpenIo := ⟨⟨true, true, true⟩, true, .clean, ⟨.clean, .clean⟩⟩

/-- A verifier that has accepted and retired nothing. -/
def fresh (highest : Option ℕ) (journal : GrantJournal) (revocations : RevocationJournal) :
    GrantVerifier :=
  ⟨none, none, highest, ∅, none, .new maxRetiredGrants, journal, revocations⟩

def withStateFiles (files : StateFiles) (io : OpenIo) : StateFiles × Except String GrantVerifier :=
  match readTrustedTime files.trustedTime io.trustedTime with
  | .error e => (files, .error e)
  | .ok highest =>
    if !io.lock then (files, .error "grant journal is busy")
    else
      match GrantJournal.readLocked files.journal io.journal with
      | (slot, .error e) => ({ files with journal := slot }, .error e)
      | (slot, .ok journal) =>
        match RevocationJournal.open files.revocations io.revocations with
        | (disk, .error e) => ({ files with journal := slot, revocations := disk }, .error e)
        | (disk, .ok revocations) =>
          ({ files with journal := slot, revocations := disk },
            .ok (fresh highest journal revocations))

/-! ### Retiring grants -/

variable (v : GrantVerifier)

def missingGrantDenial (grantId : String) : ConsumeDenial :=
  if v.journal.consumed.contains grantId then .consumed
  else if v.revocations.tombstones.contains grantId then .revoked
  else v.retired.values[grantId]?.getD .unknown

/-- `retire`: remember the reason, and forget the oldest ones beyond the bound. -/
def retire (grantId : String) (reason : ConsumeDenial) : GrantVerifier :=
  { v with retired := v.retired.insert grantId reason }

/-- Drop an accepted grant and remember why. -/
def drop (grantId : String) (reason : ConsumeDenial) : GrantVerifier :=
  { v with accepted := v.accepted.erase grantId }.retire grantId reason

/-- Drop every accepted grant that meets the condition. -/
def dropWhere (reason : ConsumeDenial) (p : AcceptedGrant → Bool) : GrantVerifier :=
  ((v.accepted.toList.filter fun (_, a) => p a).map Prod.fst).foldl (·.drop · reason) v

def retireWhere (reason : ConsumeDenial) (p : Grant → Bool) : GrantVerifier :=
  v.dropWhere reason fun a => p a.grant

def observeIssuerEpoch (epoch : ℕ) : GrantVerifier :=
  if v.issuerEpoch.any fun current => epoch ≤ current then v
  else
    { v.retireWhere .epochStale fun grant => grant.issuerEpoch < epoch with
      issuerEpoch := some epoch }

def retireOtherRecipientKeys (currentRecipientKeyId : String) : GrantVerifier :=
  v.retireWhere .keyRotated fun grant => grant.recipientKeyId != currentRecipientKeyId

def revokeWorkload (workloadId : String) : GrantVerifier :=
  v.retireWhere .registrationChanged fun grant => grant.workloadId == workloadId

def revokeStalePolicy (policyVersion : ℕ) : GrantVerifier :=
  v.retireWhere .policyStale fun grant => grant.policyVersion != policyVersion

/-! ### The controller's clock -/

/-- `begin_time_challenge`, with the random value it draws. -/
def beginTimeChallenge (value : String) (nowBoottimeMs : ℕ) : GrantVerifier :=
  { v with pendingTime := some ⟨value, nowBoottimeMs⟩ }

/-- `trusted_controller_time_ms`: the estimate, while it is fresh. -/
def trustedControllerTimeMs (nowBoottimeMs : ℕ) : Option ℕ :=
  match v.trustedTime with
  | none => none
  | some t =>
    let elapsed := U64.satSub nowBoottimeMs t.receivedAtBoottimeMs
    if elapsed ≤ maxTimeReplyDelayMs then U64.checkedAdd t.estimatedControllerMs elapsed else none

/-- The upper bound on the controller's time that an answer to `challenge` gives, if every
check on the answer passes. -/
def timeEstimate (challenge : TimeChallenge) (reply : TimeReply)
    (expectedNodeId : String) (expectedEpoch nowBoottimeMs : ℕ) : Except String ℕ :=
  if reply.challenge ≠ challenge.value ∨ reply.nodeId ≠ expectedNodeId ∨
      reply.issuerEpoch ≠ expectedEpoch then
    .error "time reply does not match the pending broker challenge"
  else
    match (U64.checkedSub nowBoottimeMs challenge.sentAtBoottimeMs).filter
        (· ≤ maxTimeReplyDelayMs) with
    | none => .error "time reply delay is outside the supported bound"
    | some roundTripMs =>
      let controllerHoldMs := U64.satSub reply.controllerTimeMs reply.challengeReceivedAtMs
      match U64.checkedAdd reply.controllerTimeMs (U64.satSub roundTripMs controllerHoldMs) with
      | none => .error "time reply exceeds the supported clock range"
      | some estimatedControllerMs =>
        if v.trustedTime.any fun previous =>
            estimatedControllerMs <
              U64.satSub (U64.satAdd previous.signedControllerMs
                (U64.satSub nowBoottimeMs previous.receivedAtBoottimeMs))
                clockRollbackToleranceMs then
          .error "controller time moved backwards beyond the accepted tolerance"
        else if v.highestControllerTimeMs.any fun previous =>
            U64.satAdd reply.controllerTimeMs clockRollbackToleranceMs < previous then
          .error "controller time moved backwards beyond the persisted high-water mark"
        else .ok estimatedControllerMs

/-- The outcome of every system call of `accept_time_reply`. -/
structure TimeReplyIo where
  trustedTime : Slot.ReplaceIo
  journal : GrantJournal.PruneIo
  revocations : RevocationJournal.PruneIo
  deriving DecidableEq

/-- Every call succeeds. -/
def TimeReplyIo.clean : TimeReplyIo := ⟨.clean, .clean, .clean⟩

/-- Persist the high-water mark and prune both journals by the signed time, in this order and
up to the first failure. -/
def settleJournals (files : StateFiles) (highest controllerNowMs : ℕ)
    (io : TimeReplyIo) : GrantVerifier × StateFiles × Except String Unit :=
  match writeTrustedTime files.trustedTime highest io.trustedTime with
  | (slot, .error e) => (v, { files with trustedTime := slot }, .error e)
  | (trustedTime, .ok ()) =>
    match v.journal.prune files.journal controllerNowMs io.journal with
    | (journal, slot, .error e) =>
      ({ v with journal := journal }, { files with trustedTime := trustedTime, journal := slot },
        .error e)
    | (journal, slot, .ok ()) =>
      match v.revocations.prune files.revocations controllerNowMs io.revocations with
      | (revocations, disk, result) =>
        ({ v with journal := journal, revocations := revocations }, ⟨trustedTime, slot, disk⟩, result)

def acceptTimeReply (files : StateFiles) (reply : TimeReply)
    (expectedNodeId : String) (expectedEpoch nowBoottimeMs : ℕ) (io : TimeReplyIo) :
    GrantVerifier × StateFiles × Except String Unit :=
  match v.pendingTime with
  | none => (v, files, .error "time reply has no pending broker challenge")
  | some challenge =>
    let v := { v with pendingTime := none }
    match v.timeEstimate challenge reply expectedNodeId expectedEpoch nowBoottimeMs with
    | .error e => (v, files, .error e)
    | .ok estimatedControllerMs =>
      let highest := max (v.highestControllerTimeMs.getD 0) reply.controllerTimeMs
      match v.settleJournals files highest reply.controllerTimeMs io with
      | (v, files, .error e) => (v, files, .error e)
      | (v, files, .ok ()) =>
        let v := v.dropWhere .expired fun a =>
          a.grant.expiresAtMs ≤ estimatedControllerMs || a.deadlineBoottimeMs ≤ nowBoottimeMs
        ({ v with
            highestControllerTimeMs := some highest
            trustedTime := some ⟨reply.controllerTimeMs, estimatedControllerMs, nowBoottimeMs⟩ },
          files, .ok ())

/-! ### Accepting and consuming -/

/-- The bindings `accept_grant` checks between a grant, the node's policy snapshot and the
workload's registration. -/
def matchesBindings (grant : Grant) (nodeId recipientKeyId : String) (policy : PolicySnapshot)
    (registration : Registration) : Bool :=
  grant.nodeId == nodeId &&
  grant.recipientKeyId == recipientKeyId &&
  grant.registrationVersion == registration.registrationVersion &&
  grant.policyVersion == policy.policyVersion &&
  registration.policyVersion == grant.policyVersion &&
  grant.localCeilingSeconds ≤ policy.localCeilingSeconds &&
  grant.localCeilingSeconds ≤ registration.localCeilingSeconds &&
  registration.status == "active" &&
  registration.nodeId == grant.nodeId &&
  registration.workloadId == grant.workloadId &&
  registration.unit == grant.unit &&
  registration.account == grant.account &&
  (registration.invocationId.all fun expected => expected == grant.invocationId) &&
  registration.consumptionMode == grant.mode &&
  grant.audience == "blindpass-node" &&
  policy.allowedActions.contains grant.action &&
  policy.allowedModes.contains grant.mode

/-- The least of the three local ceilings, in milliseconds. -/
def localCeilingMs (grant : Grant) (policy : PolicySnapshot) (registration : Registration) : ℕ :=
  U64.satMul (min (min grant.localCeilingSeconds policy.localCeilingSeconds)
    registration.localCeilingSeconds) 1000

/-- The deadline of a grant that is not accepted yet, if every check on it passes. -/
def grantDeadline (grant : Grant) (nodeId recipientKeyId : String)
    (policy : PolicySnapshot) (registration : Registration) (nowControllerMs nowBoottimeMs : ℕ) :
    Except String ℕ :=
  if v.missingGrantDenial grant.id ≠ .unknown then .error grantAlreadySettled
  else
    match (U64.checkedSub grant.expiresAtMs nowControllerMs).filter (0 < ·) with
    | none => .error "grant expired before broker receipt"
    | some remainingMs =>
      if v.issuerEpoch ≠ some grant.issuerEpoch then
        .error "grant issuer epoch is not the pinned issuer epoch"
      else if !matchesBindings grant nodeId recipientKeyId policy registration then
        .error "grant does not match current broker policy and workload registration"
      else if nowControllerMs < grant.issuedAtMs ∨
          maxDocumentAgeMs < U64.satSub nowControllerMs grant.issuedAtMs ∨
          maxGrantLifetimeMs < U64.satSub grant.expiresAtMs grant.issuedAtMs then
        .error "grant is stale or exceeds the broker lifetime maximum"
      else
        match (U64.checkedAdd nowBoottimeMs
            (min remainingMs (localCeilingMs grant policy registration))).filter
            (nowBoottimeMs < ·) with
        | none => .error "grant has no safe local lifetime remaining"
        | some deadlineBoottimeMs =>
          if maxAcceptedGrants ≤ v.accepted.size then .error "broker grant capacity reached"
          else .ok deadlineBoottimeMs

/-- `accept_grant`: `true` for a grant newly accepted, `false` for a redelivery of one that
is accepted already. -/
def acceptGrant (grant : Grant) (documentHash nodeId recipientKeyId : String)
    (policy : PolicySnapshot) (registration : Registration) (nowBoottimeMs : ℕ) :
    GrantVerifier × Except String Bool :=
  match v.trustedControllerTimeMs nowBoottimeMs with
  | none => (v, .error "grant has no fresh signed controller time proof")
  | some nowControllerMs =>
    match v.accepted[grant.id]? with
    | some existing =>
      if existing.documentHash = documentHash ∧ existing.grant = grant then (v, .ok false)
      else (v, .error "grant id was reused with different signed content")
    | none =>
      match v.grantDeadline grant nodeId recipientKeyId policy registration nowControllerMs
          nowBoottimeMs with
      | .error e => (v, .error e)
      | .ok deadlineBoottimeMs =>
        ({ v with
            accepted := v.accepted.insert grant.id ⟨grant, deadlineBoottimeMs, documentHash⟩ },
          .ok true)

def validateConsumption (grantId : String)
    (authorization : WorkloadAuthorization) (currentPolicyVersion nowBoottimeMs : ℕ) :
    Except ConsumeDenial AcceptedGrant :=
  match v.accepted[grantId]? with
  | none => .error (v.missingGrantDenial grantId)
  | some accepted =>
    let grant := accepted.grant
    if authorization.nodeId ≠ grant.nodeId ∨ authorization.workloadId ≠ grant.workloadId ∨
        authorization.unit ≠ grant.unit ∨ authorization.invocationId ≠ grant.invocationId ∨
        authorization.operation ≠ "consume:" ++ grantId ∨ grant.audience ≠ "blindpass-node" then
      .error .identityMismatch
    else if v.issuerEpoch ≠ some grant.issuerEpoch then .error .epochStale
    else if grant.policyVersion ≠ currentPolicyVersion then .error .policyStale
    else if accepted.deadlineBoottimeMs ≤ nowBoottimeMs then .error .expired
    else .ok accepted

def consume (files : StateFiles) (grantId : String)
    (authorization : WorkloadAuthorization) (currentPolicyVersion nowBoottimeMs : ℕ)
    (io : GrantJournal.RecordIo) : GrantVerifier × StateFiles × Except ConsumeDenial Grant :=
  match v.validateConsumption grantId authorization currentPolicyVersion nowBoottimeMs with
  | .error denial => (v, files, .error denial)
  | .ok acceptedGrant =>
    match v.journal.recordBoundConsumption files.journal acceptedGrant.grant io with
    | (journal, slot, .error _) =>
      ({ v with journal := journal }, { files with journal := slot }, .error .unavailable)
    | (journal, slot, .ok ()) =>
      match v.accepted[acceptedGrant.grant.id]? with
      | none => ({ v with journal := journal }, { files with journal := slot }, .error .consumed)
      | some accepted =>
        ({ v with journal := journal, accepted := v.accepted.erase acceptedGrant.grant.id },
          { files with journal := slot }, .ok accepted.grant)

/-! ### Revoking -/

def revocationOutcome (grantId : String) : RevocationOutcome :=
  match v.revocations.outcomes[grantId]? with
  | some (outcome, _) => outcome
  | none =>
    if v.accepted.contains grantId then .revokedBeforeConsumption
    else if v.journal.consumed.contains grantId then .alreadyConsumed
    else .notReceived

/-- `revoke`: the grant loses its authority in memory before the tombstone is written. -/
def revoke (files : StateFiles) (revocation : Revocation) (observedAtMs : ℕ)
    (io : Slot.AppendIo) : GrantVerifier × StateFiles × Except String Unit :=
  let outcome := v.revocationOutcome revocation.grantId
  let v := if v.accepted.contains revocation.grantId then v.drop revocation.grantId .revoked else v
  match v.revocations.record files.revocations revocation.grantId revocation.retainUntilMs
      (some (outcome, observedAtMs)) io with
  | (revocations, disk, result) =>
    ({ v with revocations := revocations }, { files with revocations := disk }, result)

def retryRevocationPersistence (files : StateFiles)
    (io : String → Slot.AppendIo) : GrantVerifier × StateFiles × Except String Unit :=
  match v.revocations.retryUnpersisted files.revocations io with
  | (revocations, disk, result) =>
    ({ v with revocations := revocations }, { files with revocations := disk }, result)

def acknowledgeRevocationOutcome (files : StateFiles) (grantId : String)
    (io : Slot.AppendIo) : GrantVerifier × StateFiles × Except String Unit :=
  match v.revocations.acknowledgeOutcome files.revocations grantId io with
  | (revocations, disk, result) =>
    ({ v with revocations := revocations }, { files with revocations := disk }, result)

end GrantVerifier

end BlindPass.Broker
