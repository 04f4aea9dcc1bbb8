import BlindPass.Library.Execution
import BlindPass.Broker.GrantVerifier

/-!
# Runs of a broker on its host

The verifier lives in a process on a host. The process may restart, which loses the memory
and keeps the files; the host may lose power, which also loses whatever was not
synchronised. Time passes for the host and for the controller at the same rate, and a time
reply carries the controller's own readings.

A run is any sequence of verifier calls, restarts and power losses, with any system call
of any of them failing.
-/

namespace BlindPass.Broker

open Storage (Slot)
open Fleet (Grant PolicySnapshot Registration Revocation TimeReply)

/-- A host and the controller's clock. No verifier runs after a failed start.
`challengeSentAt` is the controller's time at which the last challenge was sent; no part of
the broker reads it. -/
structure Host where
  controllerClock : ℕ
  boottime : ℕ
  files : StateFiles
  verifier : Option GrantVerifier
  challengeSentAt : ℕ

/-- The files a power loss leaves at the four paths. -/
structure FoundFiles where
  trustedTime : Option (Storage.File ℕ)
  journal : Option (Storage.File JournalLine)
  revocations : Option (Storage.File RevocationLine)
  acknowledgements : Option (Storage.File RevocationLine)

/-- What can happen to a broker. The calls carry the outcome of every system call. -/
inductive Event
  | elapse (ms : ℕ)
  | beginTimeChallenge (value : String)
  | acceptTimeReply (reply : TimeReply) (expectedNodeId : String) (expectedEpoch : ℕ)
      (io : GrantVerifier.TimeReplyIo)
  | acceptGrant (grant : Grant) (documentHash nodeId recipientKeyId : String)
      (policy : PolicySnapshot) (registration : Registration)
  | consume (grantId : String) (authorization : WorkloadAuthorization) (currentPolicyVersion : ℕ)
      (io : GrantJournal.RecordIo)
  | revoke (revocation : Revocation) (observedAtMs : ℕ) (io : Slot.AppendIo)
  | observeIssuerEpoch (epoch : ℕ)
  | retireOtherRecipientKeys (currentRecipientKeyId : String)
  | revokeWorkload (workloadId : String)
  | revokeStalePolicy (policyVersion : ℕ)
  | retryRevocationPersistence (io : String → Slot.AppendIo)
  | acknowledgeRevocationOutcome (grantId : String) (io : Slot.AppendIo)
  | restart (io : GrantVerifier.OpenIo)
  | powerLoss (found : FoundFiles) (boottime : ℕ) (io : GrantVerifier.OpenIo)

/-- What the caller of the verifier gets back. -/
inductive Answer
  | silent
  | settled (result : Except String Unit)
  | accepted (result : Except String Bool)
  | consumed (result : Except ConsumeDenial Grant)
  deriving DecidableEq

/-- The answer releases the grant with this id to its consumer. -/
def Answer.releases (grantId : String) : Answer → Bool
  | .consumed (.ok grant) => grant.id == grantId
  | _ => false

/-- The event sends a new challenge. -/
def Event.isChallenge : Event → Bool
  | .beginTimeChallenge _ => true
  | _ => false

/-- The event starts the verifier afresh. -/
def Event.isStart : Event → Bool
  | .restart _ | .powerLoss .. => true
  | _ => false

/-- The event is a call of the verifier. -/
def Event.isCall : Event → Bool
  | .elapse _ | .restart _ | .powerLoss .. => false
  | _ => true

/-- A call of the running verifier, at a reading of the boottime clock. -/
def GrantVerifier.call (v : GrantVerifier) (files : StateFiles) (now : ℕ) :
    Event → GrantVerifier × StateFiles × Answer
  | .beginTimeChallenge value => (v.beginTimeChallenge value now, files, .silent)
  | .acceptTimeReply reply expectedNodeId expectedEpoch io =>
    let (v, files, result) := v.acceptTimeReply files reply expectedNodeId expectedEpoch now io
    (v, files, .settled result)
  | .acceptGrant grant documentHash nodeId recipientKeyId policy registration =>
    let (v, result) :=
      v.acceptGrant grant documentHash nodeId recipientKeyId policy registration now
    (v, files, .accepted result)
  | .consume grantId authorization currentPolicyVersion io =>
    let (v, files, result) := v.consume files grantId authorization currentPolicyVersion now io
    (v, files, .consumed result)
  | .revoke revocation observedAtMs io =>
    let (v, files, result) := v.revoke files revocation observedAtMs io
    (v, files, .settled result)
  | .observeIssuerEpoch epoch => (v.observeIssuerEpoch epoch, files, .silent)
  | .retireOtherRecipientKeys key => (v.retireOtherRecipientKeys key, files, .silent)
  | .revokeWorkload workloadId => (v.revokeWorkload workloadId, files, .silent)
  | .revokeStalePolicy policyVersion => (v.revokeStalePolicy policyVersion, files, .silent)
  | .retryRevocationPersistence io =>
    let (v, files, result) := v.retryRevocationPersistence files io
    (v, files, .settled result)
  | .acknowledgeRevocationOutcome grantId io =>
    let (v, files, result) := v.acknowledgeRevocationOutcome files grantId io
    (v, files, .settled result)
  | .elapse _ | .restart _ | .powerLoss .. => (v, files, .silent)

namespace Host

/-- Start the verifier over the files. -/
def start (h : Host) (io : GrantVerifier.OpenIo) : Host :=
  match GrantVerifier.withStateFiles h.files io with
  | (files, .error _) => { h with files := files, verifier := none }
  | (files, .ok v) => { h with files := files, verifier := some v }

/-- The files after a power loss that leaves `found`. -/
def restored (files : StateFiles) (found : FoundFiles) : StateFiles where
  trustedTime := files.trustedTime.restored found.trustedTime
  journal := files.journal.restored found.journal
  revocations :=
    ⟨files.revocations.journal.restored found.revocations,
      files.revocations.acknowledgements.restored found.acknowledgements⟩

/-- One event. A call reaches no verifier while none runs. -/
def step (h : Host) (e : Event) : Host × Answer :=
  match e with
  | .elapse ms =>
    ({ h with controllerClock := h.controllerClock + ms, boottime := h.boottime + ms }, .silent)
  | .restart io => (h.start io, .silent)
  | .powerLoss found boottime io =>
    ({ h with boottime := boottime, files := restored h.files found }.start io, .silent)
  | e =>
    match h.verifier with
    | none => (h, .silent)
    | some v =>
      let (v, files, answer) := v.call h.files h.boottime e
      ({ h with
          verifier := some v, files := files
          challengeSentAt := if e.isChallenge then h.controllerClock else h.challengeSentAt },
        answer)

/-- The reply to the pending challenge carries the controller's own readings: when the
challenge arrived, after it was sent, and when the reply was stamped, before it is here. -/
def Honest (h : Host) (reply : TimeReply) : Prop :=
  ∀ c ∈ h.verifier.bind GrantVerifier.pendingTime, reply.challenge = c.value →
    h.challengeSentAt ≤ reply.challengeReceivedAtMs ∧
      reply.challengeReceivedAtMs ≤ reply.controllerTimeMs ∧
      reply.controllerTimeMs ≤ h.controllerClock

/-- What a power loss may leave. -/
def Survives (files : StateFiles) (found : FoundFiles) : Prop :=
  files.trustedTime.Survives found.trustedTime ∧ files.journal.Survives found.journal ∧
    files.revocations.journal.Survives found.revocations ∧
    files.revocations.acknowledgements.Survives found.acknowledgements

instance (h : Host) (reply : TimeReply) : Decidable (h.Honest reply) :=
  inferInstanceAs (Decidable (∀ c ∈ h.verifier.bind GrantVerifier.pendingTime,
    reply.challenge = c.value → _ ∧ _ ∧ _))

instance (files : StateFiles) (found : FoundFiles) : Decidable (Survives files found) :=
  inferInstanceAs (Decidable (_ ∧ _ ∧ _ ∧ _))

end Host

/-- The controller as the broker sees it: the grants it signs, one expiry for each id. -/
structure Issuer where
  Signed : Grant → Prop
  oneExpiry : ∀ g g', Signed g → Signed g' → g.id = g'.id → g.expiresAtMs = g'.expiresAtMs

namespace Host

/-- The events the controller and the host allow: only signed grants, honest time replies,
and after a power loss only files that were there. -/
def Admits (issuer : Issuer) (h : Host) : Event → Prop
  | .acceptTimeReply reply _ _ _ => h.Honest reply
  | .acceptGrant grant .. => issuer.Signed grant
  | .powerLoss found _ _ => Survives h.files found
  | _ => True

instance (issuer : Issuer) [DecidablePred issuer.Signed] (h : Host) :
    ∀ e, Decidable (h.Admits issuer e)
  | .acceptTimeReply reply .. => inferInstanceAs (Decidable (h.Honest reply))
  | .acceptGrant grant .. => inferInstanceAs (Decidable (issuer.Signed grant))
  | .powerLoss found _ _ => inferInstanceAs (Decidable (Survives h.files found))
  | .elapse _ | .beginTimeChallenge _ | .consume .. | .revoke .. | .observeIssuerEpoch _
  | .retireOtherRecipientKeys _ | .revokeWorkload _ | .revokeStalePolicy _
  | .retryRevocationPersistence _ | .acknowledgeRevocationOutcome .. | .restart _ =>
    .isTrue trivial

end Host

namespace Host

variable {h : Host} {v v' : GrantVerifier} {e : Event}

theorem start_verifier {io : GrantVerifier.OpenIo} (hv : (h.start io).verifier = some v') :
    (GrantVerifier.withStateFiles h.files io).2 = .ok v' := by
  unfold start at hv
  split at hv
  · cases hv
  · rename_i heq
    cases hv
    rw [heq]

theorem controllerClock_start (h : Host) (io : GrantVerifier.OpenIo) :
    (h.start io).controllerClock = h.controllerClock := by
  unfold start
  split <;> rfl

/-- A call changes the verifier and the files, and a challenge is sent at the controller's
time. -/
theorem step_call (hv : h.verifier = some v) (hcall : e.isCall = true) :
    h.step e =
      ({ h with
          verifier := some (v.call h.files h.boottime e).1
          files := (v.call h.files h.boottime e).2.1
          challengeSentAt := if e.isChallenge then h.controllerClock else h.challengeSentAt },
        (v.call h.files h.boottime e).2.2) := by
  cases e with
  | elapse | restart | powerLoss => cases hcall
  | _ => simp only [step, hv]

theorem step_call_of_none (hv : h.verifier = none) (hcall : e.isCall = true) :
    h.step e = (h, .silent) := by
  cases e with
  | elapse | restart | powerLoss => cases hcall
  | _ => simp only [step, hv]

theorem verifier_step_of_isStart (hs : e.isStart = true) (hv : (h.step e).1.verifier = some v') :
    ∃ files io, (GrantVerifier.withStateFiles files io).2 = .ok v' := by
  cases e with
  | restart io => exact ⟨_, io, start_verifier hv⟩
  | powerLoss found boottime io => exact ⟨_, io, start_verifier hv⟩
  | _ => cases hs

/-- Any other event is a call of the verifier that runs, or leaves it alone. -/
theorem verifier_step_of_not_isStart (hs : e.isStart = false)
    (hv : (h.step e).1.verifier = some v') :
    ∃ v, h.verifier = some v ∧ v' = (v.call h.files h.boottime e).1 ∧
      (h.step e).2 = (v.call h.files h.boottime e).2.2 := by
  cases hcall : e.isCall with
  | true =>
    cases hver : h.verifier with
    | none =>
      rw [step_call_of_none hver hcall] at hv
      exact absurd hv (by simp [hver])
    | some v =>
      rw [step_call hver hcall] at hv ⊢
      exact ⟨v, rfl, (Option.some.inj hv).symm, rfl⟩
  | false =>
    cases e with
    | elapse => exact ⟨v', hv, rfl, rfl⟩
    | restart | powerLoss => cases hs
    | _ => cases hcall

end Host

/-- A broker whose controller is `issuer`. Before the first start no
verifier runs; the files may hold anything. -/
def broker (issuer : Issuer) : Execution.Machine Host Event Answer where
  Start h := h.verifier = none
  Admits := Host.Admits issuer
  step := Host.step

instance (issuer : Issuer) [DecidablePred issuer.Signed] (h : Host) (e : Event) :
    Decidable ((broker issuer).Admits h e) :=
  inferInstanceAs (Decidable (h.Admits issuer e))

end BlindPass.Broker
