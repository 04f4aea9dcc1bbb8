import BlindPass.Broker.Authority

/-!
# The broker's bound on the controller's clock

The broker reads no clock of the controller's. It adds to a signed stamp the part of the
round trip that the controller did not hold the challenge for, and then the boottime that
has passed; however long a relay keeps the messages, the sum is an upper bound on the
controller's time. A deadline computed from it therefore never outlasts the grant.
-/

namespace BlindPass.Broker

open Fleet (Grant PolicySnapshot Registration TimeReply)

variable {nodeId : String} {reply : TimeReply}

namespace GrantVerifier

variable {v v' : GrantVerifier} {files files' : StateFiles} {now : ℕ} {e : Event}

/-! ### What the calls do to the time fields -/

/-- A time reply leaves no other challenge pending; the time it puts in force answers the one
that was. -/
theorem times_acceptTimeReply {epoch : ℕ} {io : TimeReplyIo} {r : Except String Unit}
    (hcall : v.acceptTimeReply files reply nodeId epoch now io = (v', files', r)) :
    (∀ c, v'.pendingTime = some c → v.pendingTime = some c) ∧ (v'.trustedTime = v.trustedTime ∨
        ∃ c, v.pendingTime = some c ∧ reply.challenge = c.value ∧ c.sentAtBoottimeMs ≤ now ∧
          v'.trustedTime = some ⟨reply.controllerTimeMs,
            reply.controllerTimeMs + (now - c.sentAtBoottimeMs -
              (reply.controllerTimeMs - reply.challengeReceivedAtMs)), now⟩) := by
  obtain ⟨rfl, -⟩ | ⟨c, hc, ⟨rfl, -⟩ | ⟨estimate, highest, v₁, r₁, hest, hsettle, hv⟩⟩ :=
    acceptTimeReply_cases hcall
  · exact ⟨fun _ hc => hc, .inl rfl⟩
  · exact ⟨by simp, .inl rfl⟩
  obtain ⟨hchallenge, hsent, hestimate⟩ := timeEstimate_ok hest
  have hsettled : v₁.pendingTime = none ∧ v₁.trustedTime = v.trustedTime := by
    obtain ⟨rfl, -⟩ | ⟨journal, slot, result, revocations, -, -, rfl, -⟩ :=
      settleJournals_cases hsettle
    all_goals exact ⟨rfl, rfl⟩
  rcases hv with rfl | rfl
  · exact ⟨by simp [hsettled.1], .inl hsettled.2⟩
  · have hpending : (v₁.withTrustedTime reply highest estimate now).pendingTime = none :=
      frame_dropWhere.pendingTime.trans hsettled.1
    exact ⟨by simp [hpending], .inr ⟨c, hc, hchallenge, hsent, by rw [← hestimate]; rfl⟩⟩

/-- The time fields, the mark on disk and the journal after a call that is neither a challenge nor
a time reply. -/
theorem times_call (hchallenge : e.isChallenge = false)
    (hreply : ∀ reply nodeId epoch io, e ≠ .acceptTimeReply reply nodeId epoch io) :
    (v.call files now e).1.pendingTime = v.pendingTime ∧
      (v.call files now e).1.trustedTime = v.trustedTime ∧
      (v.call files now e).1.highestControllerTimeMs = v.highestControllerTimeMs ∧
      (v.call files now e).2.1.trustedTime = files.trustedTime ∧
      ((v.call files now e).1.journal = v.journal ∧
          (v.call files now e).2.1.journal = files.journal ∨
        ∃ grant io r, v.journal.recordBoundConsumption files.journal grant io =
          ((v.call files now e).1.journal, (v.call files now e).2.1.journal, r)) := by
  cases e with
  | beginTimeChallenge => cases hchallenge
  | acceptTimeReply reply nodeId epoch io => exact absurd rfl (hreply reply nodeId epoch io)
  | acceptGrant grant documentHash nodeId recipientKeyId policy registration =>
    rcases hcall : v.acceptGrant grant documentHash nodeId recipientKeyId policy registration now
      with ⟨v', r⟩
    simp only [call, hcall]
    obtain ⟨rfl, -⟩ | ⟨nowController, deadline, -, -, -, rfl, -⟩ := acceptGrant_cases hcall
    all_goals exact ⟨rfl, rfl, rfl, trivial, .inl ⟨rfl, trivial⟩⟩
  | consume grantId authorization policyVersion io =>
    rcases hcall : v.consume files grantId authorization policyVersion now io with ⟨v', files', r⟩
    simp only [call, hcall]
    obtain ⟨rfl, rfl, -⟩ | ⟨a, journal, slot, result, -, hrec, rfl, ⟨rfl, -⟩ | ⟨-, b, -, -, rfl⟩⟩ :=
      consume_cases hcall
    · exact ⟨rfl, rfl, rfl, rfl, .inl ⟨rfl, rfl⟩⟩
    all_goals exact ⟨rfl, rfl, rfl, rfl, .inr ⟨_, _, _, hrec⟩⟩
  | revoke revocation observedAtMs io =>
    rcases hcall : v.revoke files revocation observedAtMs io with ⟨v', files', r⟩
    simp only [call, hcall]
    obtain ⟨v₁, outcome, revocations, disk, ⟨rfl⟩ | ⟨rfl, -⟩, -, rfl, rfl⟩ := revoke_cases hcall
    all_goals exact ⟨rfl, rfl, rfl, rfl, .inl ⟨rfl, rfl⟩⟩
  | observeIssuerEpoch =>
    rw [call, observeIssuerEpoch]
    split
    · exact ⟨rfl, rfl, rfl, rfl, .inl ⟨rfl, rfl⟩⟩
    · exact ⟨frame_dropWhere.pendingTime, frame_dropWhere.trustedTime, frame_dropWhere.highest, rfl,
        .inl ⟨frame_dropWhere.journal, rfl⟩⟩
  | retireOtherRecipientKeys | revokeWorkload | revokeStalePolicy =>
    exact ⟨frame_dropWhere.pendingTime, frame_dropWhere.trustedTime, frame_dropWhere.highest, rfl,
      .inl ⟨frame_dropWhere.journal, rfl⟩⟩
  | _ => exact ⟨rfl, rfl, rfl, rfl, .inl ⟨rfl, rfl⟩⟩

theorem localCeilingMs_le (grant : Grant) (policy : PolicySnapshot) (registration : Registration) :
    localCeilingMs grant policy registration ≤ 1000 * min grant.localCeilingSeconds
        (min policy.localCeilingSeconds registration.localCeilingSeconds) := by
  rw [localCeilingMs, Nat.min_assoc, Nat.mul_comm]
  exact U64.satMul_le

end GrantVerifier

/-! ### The bounds -/

namespace Host

variable {h : Host} {v v' : GrantVerifier} {e : Event}

/-- The bounds of a running verifier. The pending challenge dates back to when it was sent on
both clocks; the trusted time, carried forward by the boottime since its receipt, is not behind
the controller; and no deadline falls after the grant's expiry. -/
structure Timely (h : Host) (v : GrantVerifier) : Prop where
  pending : ∀ c, v.pendingTime = some c → c.sentAtBoottimeMs ≤ h.boottime ∧
    h.challengeSentAt + (h.boottime - c.sentAtBoottimeMs) = h.controllerClock
  trusted : ∀ t, v.trustedTime = some t → t.receivedAtBoottimeMs ≤ h.boottime ∧
    h.controllerClock ≤ t.estimatedControllerMs + (h.boottime - t.receivedAtBoottimeMs)
  deadline : ∀ (id : String) a, v.accepted[id]? = some a →
    h.controllerClock + a.deadlineBoottimeMs ≤ a.grant.expiresAtMs + h.boottime

/-- The estimate in use is an upper bound on the controller's time. -/
theorem Timely.controllerClock_le (ht : h.Timely v) {nowController : ℕ}
    (hnow : v.trustedControllerTimeMs h.boottime = some nowController) :
    h.controllerClock ≤ nowController := by
  unfold GrantVerifier.trustedControllerTimeMs at hnow
  split at hnow
  · cases hnow
  rename_i t htrusted
  obtain ⟨-, hle⟩ := ht.trusted t htrusted
  dsimp only at hnow
  split at hnow
  · obtain ⟨-, rfl⟩ := U64.checkedAdd_eq_some.mp hnow
    exact hle
  · cases hnow

variable {a : AcceptedGrant} {id : String} {c : TimeChallenge}

/-- A grant newly accepted has not expired on the controller's clock, and its deadline comes no
later than its expiry. -/
theorem Timely.acceptGrant (ht : h.Timely v) {grant : Grant} {documentHash recipientKeyId : String}
    {policy : PolicySnapshot} {registration : Registration} {r : Except String Bool}
    (hcall : v.acceptGrant grant documentHash nodeId recipientKeyId policy registration
      h.boottime = (v', r)) (ha : v'.accepted[id]? = some a) :
    v.accepted[id]? = some a ∨ a.grant.id = id ∧ h.controllerClock < a.grant.expiresAtMs ∧
      h.controllerClock + a.deadlineBoottimeMs ≤ a.grant.expiresAtMs + h.boottime := by
  obtain ⟨rfl, -⟩ | ⟨nowController, deadline, hnow, -, hdeadline, rfl, -⟩ :=
    GrantVerifier.acceptGrant_cases hcall
  · exact .inl ha
  have hle := ht.controllerClock_le hnow
  obtain ⟨-, hlt, -, hbound, -⟩ := GrantVerifier.grantDeadline_ok hdeadline
  rw [Std.TreeMap.getElem?_insert] at ha
  split at ha
  · rename_i heq
    cases ha
    dsimp only
    exact .inr ⟨Std.compare_eq_iff_eq.mp heq, by omega, by omega⟩
  · exact .inl ha

/-- A stamp after the sending of its challenge, with the part of the round trip the
controller did not hold the challenge for, is not behind the controller. -/
theorem Timely.controllerClock_le_estimate (ht : h.Timely v) (hc : v.pendingTime = some c)
    (hsent : h.challengeSentAt ≤ reply.challengeReceivedAtMs)
    (hheld : reply.challengeReceivedAtMs ≤ reply.controllerTimeMs) :
    h.controllerClock ≤ reply.controllerTimeMs + (h.boottime - c.sentAtBoottimeMs -
      (reply.controllerTimeMs - reply.challengeReceivedAtMs)) := by
  obtain ⟨-, hclock⟩ := ht.pending c hc
  omega

theorem Timely.deadline_call (ht : h.Timely v) (hauth : v.Authority) (hcall : e.isCall = true)
    (ha : (v.call h.files h.boottime e).1.accepted[id]? = some a) :
    h.controllerClock + a.deadlineBoottimeMs ≤ a.grant.expiresAtMs + h.boottime := by
  have hstart : e.isStart = false := by cases e <;> first | rfl | cases hcall
  rcases GrantVerifier.accepted_call hauth hstart ha with ⟨hold, -⟩ | ⟨hdelivers, -, -⟩
  · exact ht.deadline id a hold
  cases e with
  | acceptGrant =>
    rcases ht.acceptGrant rfl ha with hold | ⟨-, -, hbound⟩
    · exact ht.deadline id a hold
    · exact hbound
  | _ => cases hdelivers

/-- A challenge is pending since it was sent, on both clocks. -/
theorem Timely.pending_call (ht : h.Timely v)
    (hc : (v.call h.files h.boottime e).1.pendingTime = some c) :
    c.sentAtBoottimeMs ≤ h.boottime ∧
      (if e.isChallenge then h.controllerClock else h.challengeSentAt) +
        (h.boottime - c.sentAtBoottimeMs) = h.controllerClock := by
  cases e with
  | acceptTimeReply => exact ht.pending c ((GrantVerifier.times_acceptTimeReply rfl).1 c hc)
  | beginTimeChallenge =>
    obtain rfl : _ = c := Option.some.inj hc
    simp [Event.isChallenge]
  | _ =>
    rw [(GrantVerifier.times_call rfl (by simp)).1] at hc
    exact ht.pending c hc

/-- The time in force after a call is not behind the controller, given an honest answer to the
challenge. -/
theorem Timely.trusted_call {issuer : Issuer} (ht : h.Timely v) (hv : h.verifier = some v)
    (hadm : h.Admits issuer e) {t : TrustedTime}
    (htrusted : (v.call h.files h.boottime e).1.trustedTime = some t) :
    t.receivedAtBoottimeMs ≤ h.boottime ∧
      h.controllerClock ≤ t.estimatedControllerMs + (h.boottime - t.receivedAtBoottimeMs) := by
  cases e with
  | acceptTimeReply reply nodeId epoch io =>
    rcases hcall : v.acceptTimeReply h.files reply nodeId epoch h.boottime io with ⟨v', files', r⟩
    simp only [GrantVerifier.call, hcall] at htrusted
    obtain hsame | ⟨c, hc, hanswers, -, hnew⟩ := (GrantVerifier.times_acceptTimeReply hcall).2
    · exact ht.trusted t (hsame.symm.trans htrusted)
    obtain ⟨hsent, hheld, -⟩ := hadm c (by simp [hv, hc]) hanswers
    have hle := ht.controllerClock_le_estimate hc hsent hheld
    obtain rfl : _ = t := Option.mem_unique hnew htrusted
    simpa using hle
  | beginTimeChallenge => exact ht.trusted t htrusted
  | _ =>
    rw [(GrantVerifier.times_call rfl (by simp)).2.1] at htrusted
    exact ht.trusted t htrusted

theorem Timely.fresh (h : Host) (highest : Option ℕ) (journal : GrantJournal)
    (revocations : RevocationJournal) :
    h.Timely (GrantVerifier.fresh highest journal revocations) := by
  constructor <;> simp [GrantVerifier.fresh]

/-- Every event keeps the bounds: time passes on both clocks alike, a start forgets what they
are about, and a call moves neither clock. -/
theorem Timely.step {issuer : Issuer} (ht : ∀ v, h.verifier = some v → h.Timely v)
    (hauth : ∀ v, h.verifier = some v → v.Authority) (hadm : h.Admits issuer e)
    (hv' : (h.step e).1.verifier = some v') : (h.step e).1.Timely v' := by
  cases hstart : e.isStart with
  | true =>
    obtain ⟨files, io, hopen⟩ := verifier_step_of_isStart hstart hv'
    obtain ⟨highest, journal, revocations, rfl⟩ := GrantVerifier.withStateFiles_ok hopen
    exact .fresh _ highest journal revocations
  | false =>
    obtain ⟨v, hv, rfl, -⟩ := verifier_step_of_not_isStart hstart hv'
    have htv := ht v hv
    cases hcall : e.isCall with
    | true =>
      rw [step_call hv hcall]
      exact ⟨fun c hc => htv.pending_call hc, fun t htr => htv.trusted_call hv hadm htr,
        fun id a ha => htv.deadline_call (hauth v hv) hcall ha⟩
    | false =>
      cases e with
      | elapse =>
        refine ⟨fun c hc => ?_, fun t htr => ?_, fun id a ha => ?_⟩
        all_goals dsimp only [Host.step]
        · have := htv.pending c hc
          omega
        · have := htv.trusted t htr
          omega
        · have := htv.deadline id a ha
          omega
      | restart | powerLoss => cases hstart
      | _ => cases hcall

end Host

variable {issuer : Issuer} {run : List (Execution.Transition Host Event Answer)} {h : Host}
  {v : GrantVerifier}

theorem timely_of_run (hrun : (broker issuer).Run run h) (hv : h.verifier = some v) :
    h.Timely v := by
  have hinv : ∀ v, h.verifier = some v → v.Authority ∧ h.Timely v := by
    refine hrun.invariant (P := fun h => ∀ v, h.verifier = some v → v.Authority ∧ h.Timely v) ?_ ?_
    · intro h hstart v hv
      rw [show h.verifier = none from hstart] at hv
      cases hv
    · intro h e hinv hadm v' hv'
      have hauth : ∀ v, h.verifier = some v → v.Authority := fun v hv => (hinv v hv).1
      exact ⟨Host.authority_step hauth hv',
        Host.Timely.step (fun v hv => (hinv v hv).2) hauth hadm hv'⟩
  exact (hinv v hv).2

/-- A consumption succeeds only before the grant's expiry on the controller's clock, and sooner
after the last acceptance of the grant than each of the three local ceilings. -/
theorem consume_before_expiry (hrun : (broker issuer).Run run h) {before after}
    {t : Execution.Transition Host Event Answer} (ht : run = before ++ t :: after) {g : Grant}
    (hconsumed : t.output = .consumed (.ok g)) : t.before.controllerClock < g.expiresAtMs ∧
      ∃ earlier d later documentHash nodeId recipientKeyId policy registration,
        before = earlier ++ d :: later ∧
        d.event = .acceptGrant g documentHash nodeId recipientKeyId policy registration ∧
        d.output = .accepted (.ok true) ∧
        (∀ u ∈ later, u.event.Delivers g.id → u.output ≠ .accepted (.ok true)) ∧
        t.before.boottime < d.before.boottime + 1000 * min g.localCeilingSeconds
            (min policy.localCeilingSeconds registration.localCeilingSeconds) := by
  subst ht
  obtain ⟨hrun, -, htransition⟩ := hrun.split
  rw [htransition] at hconsumed
  obtain ⟨v, v', files', grantId, authorization, policyVersion, io, hv, -, hcall, -⟩ :=
    Host.consume_of_answer hconsumed
  obtain ⟨a, ha, rfl, rfl, hdeadline, -⟩ :=
    GrantVerifier.consume_ok (authority_of_run hrun hv) hcall
  have hbound := (timely_of_run hrun hv).deadline _ a ha
  refine ⟨by omega, ?_⟩
  obtain ⟨earlier, d, later, rfl, hdelivers, houtput, hlater⟩ := accepted_provenance hrun hv ha
  cases hevent : d.event with
  | acceptGrant grant documentHash nodeId recipientKeyId policy registration =>
    rw [hevent] at hdelivers
    obtain ⟨rfl, -, hceiling⟩ := hdelivers
    refine ⟨earlier, d, later, documentHash, nodeId, recipientKeyId, policy, registration, rfl,
      hevent, houtput, fun u hu => (hlater u hu).2, ?_⟩
    have hle := GrantVerifier.localCeilingMs_le a.grant policy registration
    omega
  | _ =>
    rw [hevent] at hdelivers
    cases hdelivers

/-- A grant delivered in time and used 40 s later. -/
theorem consume_before_expiry_sample :
    let events := .restart .clean :: Sample.synchronise 100000 ++
      [Sample.deliver "gr_1", .elapse 40000]
    let reached := ((broker Sample.controller).play Sample.host events).2
    (reached.step (Sample.consume "gr_1" .clean)).2 = .consumed (.ok (Sample.grant "gr_1")) ∧
      reached.controllerClock < 160000 := by
  intro events reached
  have hrun : (broker Sample.controller).Run _ reached :=
    Execution.Machine.run_play rfl (by decide +kernel)
  have hstep := hrun.step (e := Sample.consume "gr_1" .clean) trivial
  have hconsumed : (reached.step (Sample.consume "gr_1" .clean)).2 =
      .consumed (.ok (Sample.grant "gr_1")) := by decide +kernel
  exact ⟨hconsumed, (consume_before_expiry hstep rfl hconsumed).1⟩

/-- In every run the time the broker goes by is not behind the controller's clock, and every
accepted grant is out of time here no later than it expires there. -/
theorem trusted_time_not_behind (hrun : (broker issuer).Run run h) (hv : h.verifier = some v) :
    (∀ now, v.trustedControllerTimeMs h.boottime = some now → h.controllerClock ≤ now) ∧
    ∀ (id : String) a, v.accepted[id]? = some a →
      h.controllerClock + a.deadlineBoottimeMs ≤ a.grant.expiresAtMs + h.boottime :=
  ⟨fun _ => (timely_of_run hrun hv).controllerClock_le, (timely_of_run hrun hv).deadline⟩

theorem trusted_time_not_behind_synchronised :
    let reached := ((broker Sample.controller).play Sample.host
      (.restart .clean :: Sample.synchronise 100000 ++ [Sample.deliver "gr_1", .elapse 20000])).2
    ∃ v ∈ reached.verifier, (∃ now ∈ v.trustedControllerTimeMs reached.boottime,
      reached.controllerClock ≤ now) ∧ ∃ a ∈ v.accepted["gr_1"]?,
        reached.controllerClock + a.deadlineBoottimeMs ≤ a.grant.expiresAtMs + reached.boottime := by
  intro reached
  have hrun : (broker Sample.controller).Run _ reached :=
    Execution.Machine.run_play rfl (by decide +kernel)
  obtain ⟨v, hv, hsome, haccepted⟩ : ∃ v ∈ reached.verifier,
      (v.trustedControllerTimeMs reached.boottime).isSome = true ∧
        v.accepted["gr_1"]?.isSome = true := by decide +kernel
  obtain ⟨now, hnow⟩ := Option.isSome_iff_exists.mp hsome
  obtain ⟨a, ha⟩ := Option.isSome_iff_exists.mp haccepted
  have hclock := trusted_time_not_behind hrun hv
  exact ⟨v, hv, ⟨now, hnow, hclock.1 now hnow⟩, a, ha, hclock.2 _ a ha⟩

end BlindPass.Broker
