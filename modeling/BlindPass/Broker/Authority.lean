import BlindPass.Broker.Transitions

/-!
# The authority of accepted grants

An accepted grant has the pinned issuer epoch, no tombstone and no retirement against it.
It goes back to a delivery after which nothing happened that would have retired it, so a
redelivery at any time cannot bring a revoked or superseded grant back into use.
-/

namespace BlindPass.Broker

open Fleet (Grant PolicySnapshot Registration Revocation TimeReply)

variable {authorization : WorkloadAuthorization} {grantId : String} {io : GrantJournal.RecordIo}
  {policyVersion : ℕ} {g : Grant}

namespace GrantVerifier

variable {v v' : GrantVerifier} {files files' : StateFiles} {id x : String} {a : AcceptedGrant}
  {reason : ConsumeDenial}

/-- What holds of every accepted grant. -/
structure Authority (v : GrantVerifier) : Prop where
  keyed : ∀ (id : String) a, v.accepted[id]? = some a → a.grant.id = id
  epoch : ∀ (id : String) a, v.accepted[id]? = some a → v.issuerEpoch = some a.grant.issuerEpoch
  untombed : ∀ (id : String) a, v.accepted[id]? = some a → v.revocations.tombstones[id]? = none
  unretired : ∀ (id : String) a, v.accepted[id]? = some a → v.retired.values[id]? = none
  reasons : ∀ (id : String) r, v.retired.values[id]? = some r → r ≠ .unknown

/-! ### Retiring -/

/-- Retiring adds one reason; the bound may forget others. -/
theorem retired_retire {r : ConsumeDenial}
    (h : (v.retire id reason).retired.values[x]? = some r) :
    (x = id ∧ r = reason) ∨ v.retired.values[x]? = some r :=
  BoundedMap.of_insert h

namespace Authority

/-- A change of the fields the invariant does not read, or of the tombstones so that no
accepted grant gets one. -/
theorem congr (h : v.Authority) (haccepted : v'.accepted = v.accepted)
    (hepoch : v'.issuerEpoch = v.issuerEpoch) (hretired : v'.retired = v.retired)
    (htombs : ∀ (id : String) a, v.accepted[id]? = some a → v'.revocations.tombstones[id]? = none) :
    v'.Authority where
  keyed id a ha := h.keyed id a (haccepted ▸ ha)
  epoch id a ha := hepoch ▸ h.epoch id a (haccepted ▸ ha)
  untombed id a ha := htombs id a (haccepted ▸ ha)
  unretired id a ha := hretired ▸ h.unretired id a (haccepted ▸ ha)
  reasons id r hr := h.reasons id r (hretired ▸ hr)

theorem drop (h : v.Authority) (hreason : reason ≠ .unknown) (id : String) :
    (v.drop id reason).Authority := by
  have hkept : ∀ {x : String} {a}, (v.drop id reason).accepted[x]? = some a →
      v.accepted[x]? = some a ∧ x ≠ id := by
    intro x a ha
    rw [accepted_drop, Std.TreeMap.getElem?_erase] at ha
    split at ha
    · cases ha
    · rename_i hne
      exact ⟨ha, fun heq => hne (by simp [heq])⟩
  refine ⟨fun x a ha => h.keyed x a (hkept ha).1, fun x a ha => h.epoch x a (hkept ha).1,
    fun x a ha => h.untombed x a (hkept ha).1, fun x a ha => ?_, fun x r hr => ?_⟩
  · cases hr : (v.drop id reason).retired.values[x]? with
    | none => rfl
    | some r =>
      rcases retired_retire hr with ⟨rfl, -⟩ | hold
      · exact absurd rfl (hkept ha).2
      · change v.retired.values[x]? = some r at hold
        rw [h.unretired x a (hkept ha).1] at hold
        cases hold
  · rcases retired_retire hr with ⟨-, rfl⟩ | hold
    · exact hreason
    · exact h.reasons x r hold

theorem dropWhere (h : v.Authority) (hreason : reason ≠ .unknown) (p : AcceptedGrant → Bool) :
    (v.dropWhere reason p).Authority := by
  rw [GrantVerifier.dropWhere]
  exact List.foldlRecOn _ _ h fun v hv id _ => hv.drop hreason id

theorem retireWhere (h : v.Authority) (hreason : reason ≠ .unknown) (p : Grant → Bool) :
    (v.retireWhere reason p).Authority :=
  h.dropWhere hreason _

/-- Advancing the epoch leaves nothing accepted: an accepted grant has the epoch that was
pinned. -/
theorem observeIssuerEpoch (h : v.Authority) (epoch : ℕ) :
    (v.observeIssuerEpoch epoch).Authority := by
  unfold GrantVerifier.observeIssuerEpoch
  split
  · exact h
  rename_i hadvance
  have hdrop : (v.retireWhere .epochStale fun grant => grant.issuerEpoch < epoch).Authority :=
    h.dropWhere (by decide) _
  have hempty : ∀ (id : String) a,
      (v.retireWhere .epochStale fun grant => grant.issuerEpoch < epoch).accepted[id]? ≠ some a := by
    intro id a ha
    obtain ⟨ha, hkeep⟩ := accepted_dropWhere_eq_some.mp ha
    have hepoch := h.epoch id a ha
    simp only [hepoch, Option.any_some, decide_eq_true_eq, decide_eq_false_iff_not] at hadvance hkeep
    omega
  exact ⟨fun id a ha => absurd ha (hempty id a), fun id a ha => absurd ha (hempty id a),
    fun id a ha => absurd ha (hempty id a), fun id a ha => absurd ha (hempty id a), hdrop.reasons⟩

theorem withTombstones (h : v.Authority) (revocations : RevocationJournal)
    (htombs : ∀ id : String, v.revocations.tombstones[id]? = none →
      revocations.tombstones[id]? = none) (journal : GrantJournal) :
    { v with journal := journal, revocations := revocations }.Authority :=
  h.congr rfl rfl rfl fun id a ha => htombs id (h.untombed id a ha)

end Authority

theorem missingGrantDenial_eq_unknown (h : v.missingGrantDenial id = .unknown) :
    v.journal.consumed[id]? = none ∧ v.revocations.tombstones[id]? = none ∧
      v.retired.values[id]?.getD .unknown = .unknown := by
  unfold missingGrantDenial at h
  split at h
  · cases h
  rename_i hconsumed
  split at h
  · cases h
  rename_i htomb
  rw [Std.TreeMap.contains_eq_isSome_getElem?] at hconsumed htomb
  exact ⟨by simpa using hconsumed, by simpa using htomb, h⟩

namespace Authority

variable {nodeId : String} {now : ℕ} {r : Except String Unit}

theorem acceptTimeReply {reply : TimeReply} {epoch : ℕ} {io : TimeReplyIo} (h : v.Authority)
    (hcall : v.acceptTimeReply files reply nodeId epoch now io = (v', files', r)) :
    v'.Authority := by
  have hpending : { v with pendingTime := none }.Authority := h.congr rfl rfl rfl h.untombed
  obtain ⟨rfl, -⟩ | ⟨c, -, ⟨rfl, -⟩ | ⟨estimate, highest, v₁, r₁, -, hsettle, hv'⟩⟩ :=
    acceptTimeReply_cases hcall
  · exact h
  · exact hpending
  have hsettled : v₁.Authority := by
    obtain ⟨rfl, -⟩ | ⟨journal, slot, result, revocations, -, -, rfl, hrevs⟩ :=
      settleJournals_cases hsettle
    · exact hpending
    · refine hpending.withTombstones revocations (fun id hid => ?_) journal
      obtain rfl | ⟨disk, result', hprune⟩ := hrevs
      · exact hid
      change v.revocations.tombstones[id]? = none at hid
      rcases RevocationJournal.tombstones_prune hprune with hsame | hfilter
      · exact hsame ▸ hid
      · simp [hfilter, hid]
  obtain rfl | rfl := hv'
  · exact hsettled
  · have hdropped := hsettled.dropWhere (show ConsumeDenial.expired ≠ .unknown by decide) fun a =>
      a.grant.expiresAtMs ≤ estimate || a.deadlineBoottimeMs ≤ now
    exact hdropped.congr rfl rfl rfl hdropped.untombed

theorem acceptGrant {grant : Grant} {documentHash recipientKeyId : String} {policy : PolicySnapshot}
    {registration : Registration} {r : Except String Bool} (h : v.Authority)
    (hcall : v.acceptGrant grant documentHash nodeId recipientKeyId policy registration now =
      (v', r)) : v'.Authority := by
  obtain ⟨rfl, -⟩ | ⟨nowController, deadline, -, -, hdeadline, rfl, -⟩ := acceptGrant_cases hcall
  · exact h
  obtain ⟨hunknown, -, hepoch, -, -⟩ := grantDeadline_ok hdeadline
  obtain ⟨-, htomb, hretired⟩ := missingGrantDenial_eq_unknown hunknown
  -- a retirement on record names a reason, so an unknown grant has none
  have hunretired : v.retired.values[grant.id]? = none := by
    cases hr : v.retired.values[grant.id]? with
    | none => rfl
    | some r => exact absurd (by simpa [hr] using hretired) (h.reasons _ r hr)
  have hcases : ∀ {x : String} {a : AcceptedGrant},
      (v.accepted.insert grant.id ⟨grant, deadline, documentHash⟩)[x]? = some a →
        (x = grant.id ∧ a.grant = grant) ∨ v.accepted[x]? = some a := by
    intro x a ha
    rw [Std.TreeMap.getElem?_insert] at ha
    split at ha
    · rename_i heq
      exact .inl ⟨(Std.compare_eq_iff_eq.mp heq).symm, by rw [← Option.some.inj ha]⟩
    · exact .inr ha
  refine ⟨fun x a ha => ?_, fun x a ha => ?_, fun x a ha => ?_, fun x a ha => ?_, h.reasons⟩
  all_goals rcases hcases ha with ⟨rfl, hgrant⟩ | hold
  · rw [hgrant]
  · exact h.keyed x a hold
  · rw [hgrant]
    exact hepoch
  · exact h.epoch x a hold
  · exact htomb
  · exact h.untombed x a hold
  · exact hunretired
  · exact h.unretired x a hold

theorem consume {r : Except ConsumeDenial Grant} (h : v.Authority)
    (hcall : v.consume files grantId authorization policyVersion now io = (v', files', r)) :
    v'.Authority := by
  obtain ⟨rfl, -, -⟩ | ⟨a, journal, slot, result, -, -, -, ⟨rfl, -⟩ | ⟨-, b, -, -, rfl⟩⟩ :=
    consume_cases hcall
  · exact h
  · exact h.congr rfl rfl rfl h.untombed
  · have hkept : ∀ {x : String} {a' : AcceptedGrant},
        (v.accepted.erase a.grant.id)[x]? = some a' → v.accepted[x]? = some a' :=
      fun ha => accepted_consume hcall ha
    exact ⟨fun x a ha => h.keyed x a (hkept ha), fun x a ha => h.epoch x a (hkept ha),
      fun x a ha => h.untombed x a (hkept ha), fun x a ha => h.unretired x a (hkept ha), h.reasons⟩

theorem revoke {revocation : Revocation} {observedAtMs : ℕ} {io : Storage.Slot.AppendIo}
    (h : v.Authority) (hcall : v.revoke files revocation observedAtMs io = (v', files', r)) :
    v'.Authority := by
  obtain ⟨v₁, outcome, revocations, disk, hv₁, hrec, rfl, -⟩ := revoke_cases hcall
  obtain ⟨-, hother⟩ := RevocationJournal.tombstones_record hrec
  have hauth : v₁.Authority := by
    rcases hv₁ with rfl | ⟨rfl, -⟩
    · exact h.drop (by decide) _
    · exact h
  refine hauth.congr rfl rfl rfl fun id a ha => ?_
  obtain ⟨hold, hne⟩ := accepted_revoke hcall ha
  exact (hother id hne).trans (h.untombed id a hold)

theorem call (h : v.Authority) (files : StateFiles) (now : ℕ) (e : Event) :
    (v.call files now e).1.Authority := by
  cases e with
  | beginTimeChallenge => exact h.congr rfl rfl rfl h.untombed
  | acceptTimeReply => exact h.acceptTimeReply rfl
  | acceptGrant =>
    exact h.acceptGrant rfl
  | consume => exact h.consume rfl
  | revoke => exact h.revoke rfl
  | observeIssuerEpoch epoch => exact h.observeIssuerEpoch epoch
  | retireOtherRecipientKeys key =>
    exact h.retireWhere (show ConsumeDenial.keyRotated ≠ .unknown by decide)
      fun grant => grant.recipientKeyId != key
  | revokeWorkload workloadId =>
    exact h.retireWhere (show ConsumeDenial.registrationChanged ≠ .unknown by decide)
      fun grant => grant.workloadId == workloadId
  | revokeStalePolicy policyVersion =>
    exact h.retireWhere (show ConsumeDenial.policyStale ≠ .unknown by decide)
      fun grant => grant.policyVersion != policyVersion
  | retryRevocationPersistence io =>
    refine h.congr rfl rfl rfl fun id a ha => ?_
    have htombs := RevocationJournal.tombstones_retryEach io v.revocations.unpersisted.toList
      v.revocations files.revocations
    exact htombs ▸ h.untombed id a ha
  | acknowledgeRevocationOutcome grantId io =>
    refine h.congr rfl rfl rfl fun id a ha => ?_
    have htombs := RevocationJournal.tombstones_acknowledgeOutcome v.revocations
      files.revocations grantId io
    exact htombs ▸ h.untombed id a ha
  | elapse | restart | powerLoss => exact h

theorem fresh (highest : Option ℕ) (journal : GrantJournal) (revocations : RevocationJournal) :
    (fresh highest journal revocations).Authority := by
  constructor <;> simp [GrantVerifier.fresh, BoundedMap.new]

end Authority

end GrantVerifier

/-! ### Where an accepted grant comes from -/

/-- The events that end the authority of an accepted grant, whatever the state: a revocation
of it, an epoch past its own, a rotation away from its key, a change of its workload, of the
policy version it names, and a restart, which forgets every accepted grant. -/
def Event.WouldRetire (grant : Grant) : Event → Prop
  | .revoke revocation _ _ => revocation.grantId = grant.id
  | .observeIssuerEpoch epoch => grant.issuerEpoch < epoch
  | .retireOtherRecipientKeys key => grant.recipientKeyId ≠ key
  | .revokeWorkload workloadId => grant.workloadId = workloadId
  | .revokeStalePolicy policyVersion => grant.policyVersion ≠ policyVersion
  | .restart _ | .powerLoss .. => True
  | _ => False

/-- The event delivers a grant with this id. -/
def Event.Delivers (grantId : String) : Event → Prop
  | .acceptGrant grant .. => grant.id = grantId
  | _ => False

/-- The event delivers this grant, and the deadline it gets keeps to the three ceilings. -/
def Event.DeliversWithin (a : AcceptedGrant) (now : ℕ) : Event → Prop
  | .acceptGrant grant documentHash _ _ policy registration =>
    grant = a.grant ∧ documentHash = a.documentHash ∧
      a.deadlineBoottimeMs ≤ now + GrantVerifier.localCeilingMs grant policy registration
  | _ => False

namespace GrantVerifier

variable {v v' : GrantVerifier} {files files' : StateFiles} {now : ℕ} {e : Event} {id : String}
  {a : AcceptedGrant}

/-- A grant accepted after a call was accepted before it, and the call neither retires it nor
accepts its id anew; or the call accepts it. -/
theorem accepted_call (h : v.Authority) (hstart : e.isStart = false)
    (ha : (v.call files now e).1.accepted[id]? = some a) :
    (v.accepted[id]? = some a ∧ ¬ e.WouldRetire a.grant ∧
        (e.Delivers id → (v.call files now e).2.2 ≠ .accepted (.ok true))) ∨
      (e.DeliversWithin a now ∧ a.grant.id = id ∧
        (v.call files now e).2.2 = .accepted (.ok true)) := by
  cases e with
  | beginTimeChallenge | retryRevocationPersistence | acknowledgeRevocationOutcome | elapse =>
    exact .inl ⟨ha, fun hr => hr, False.elim⟩
  | acceptTimeReply =>
    exact .inl ⟨accepted_acceptTimeReply rfl ha, fun hr => hr, False.elim⟩
  | acceptGrant grant documentHash nodeId recipientKeyId policy registration =>
    rcases hcall : v.acceptGrant grant documentHash nodeId recipientKeyId policy registration now
      with ⟨v', r⟩
    simp only [call, hcall] at ha ⊢
    obtain ⟨rfl, hr⟩ | ⟨nowController, deadline, -, hnone, hdeadline, rfl, rfl⟩ :=
      acceptGrant_cases hcall
    · exact .inl ⟨ha, fun hr => hr, fun _ heq => hr (by simpa using heq)⟩
    rw [Std.TreeMap.getElem?_insert] at ha
    split at ha
    · rename_i heq
      cases ha
      obtain ⟨-, -, -, -, hceiling⟩ := grantDeadline_ok hdeadline
      exact .inr ⟨⟨rfl, rfl, hceiling⟩, Std.compare_eq_iff_eq.mp heq, rfl⟩
    · rename_i hne
      exact .inl ⟨ha, fun hr => hr, fun hid => absurd (by simpa [Event.Delivers] using hid) hne⟩
  | consume =>
    exact .inl ⟨accepted_consume rfl ha, fun hr => hr, False.elim⟩
  | revoke =>
    obtain ⟨hold, hne⟩ := accepted_revoke rfl ha
    refine .inl ⟨hold, fun hr => hne ?_, False.elim⟩
    rw [← h.keyed id a hold]
    exact Eq.symm hr
  | observeIssuerEpoch epoch =>
    change (v.observeIssuerEpoch epoch).accepted[id]? = some a at ha
    unfold observeIssuerEpoch at ha
    split at ha
    · rename_i hle
      refine .inl ⟨ha, fun hr => ?_, False.elim⟩
      have hepoch := h.epoch id a ha
      simp only [hepoch, Option.any_some, decide_eq_true_eq] at hle
      have hlt : a.grant.issuerEpoch < epoch := hr
      omega
    · obtain ⟨hold, hkeep⟩ := accepted_retireWhere ha
      exact .inl ⟨hold, by simpa [Event.WouldRetire] using hkeep, False.elim⟩
  | retireOtherRecipientKeys | revokeWorkload | revokeStalePolicy =>
    obtain ⟨hold, hkeep⟩ := accepted_retireWhere (v := v) ha
    exact .inl ⟨hold, by simpa [Event.WouldRetire] using hkeep, False.elim⟩
  | restart | powerLoss => cases hstart

end GrantVerifier

variable {issuer : Issuer} {run : List (Execution.Transition Host Event Answer)} {h : Host}
  {v v' : GrantVerifier} {e : Event} {id : String} {a : AcceptedGrant}

theorem Host.authority_step (hauth : ∀ v, h.verifier = some v → v.Authority)
    (hv : (h.step e).1.verifier = some v') : v'.Authority := by
  cases hstart : e.isStart with
  | true =>
    obtain ⟨files, io, hopen⟩ := verifier_step_of_isStart hstart hv
    obtain ⟨highest, journal, revocations, rfl⟩ := GrantVerifier.withStateFiles_ok hopen
    exact .fresh highest journal revocations
  | false =>
    obtain ⟨v, hver, rfl, -⟩ := verifier_step_of_not_isStart hstart hv
    exact (hauth v hver).call h.files h.boottime e

theorem authority_of_run (hrun : (broker issuer).Run run h) (hv : h.verifier = some v) :
    v.Authority := by
  have hinv : ∀ v, h.verifier = some v → v.Authority := by
    refine hrun.invariant (P := fun h => ∀ v, h.verifier = some v → v.Authority) ?_ ?_
    · intro h hstart v hv
      rw [show h.verifier = none from hstart] at hv
      cases hv
    · intro h e hauth _ v' hv'
      exact Host.authority_step hauth hv'
  exact hinv v hv

/-- An event keeps an accepted grant only if it would not retire it, and otherwise delivers
it. -/
theorem Host.accepted_step (hauth : ∀ v, h.verifier = some v → v.Authority)
    (hv : (h.step e).1.verifier = some v') (ha : v'.accepted[id]? = some a) :
    (∃ v, h.verifier = some v ∧ v.accepted[id]? = some a ∧ ¬ e.WouldRetire a.grant ∧
        (e.Delivers id → (h.step e).2 ≠ .accepted (.ok true))) ∨
      (e.DeliversWithin a h.boottime ∧ a.grant.id = id ∧ (h.step e).2 = .accepted (.ok true)) := by
  cases hstart : e.isStart with
  | true =>
    -- a fresh verifier has accepted nothing
    obtain ⟨files, io, hopen⟩ := verifier_step_of_isStart hstart hv
    obtain ⟨highest, journal, revocations, rfl⟩ := GrantVerifier.withStateFiles_ok hopen
    simp [GrantVerifier.fresh] at ha
  | false =>
    obtain ⟨v, hver, rfl, hanswer⟩ := verifier_step_of_not_isStart hstart hv
    rw [hanswer]
    rcases GrantVerifier.accepted_call (hauth v hver) hstart ha with hkept | hnew
    · exact .inl ⟨v, hver, hkept⟩
    · exact .inr hnew

/-- The delivery an accepted grant goes back to, with nothing after it that would have retired
the grant or accepted its id again. -/
theorem accepted_provenance (hrun : (broker issuer).Run run h) (hv : h.verifier = some v)
    (ha : v.accepted[id]? = some a) : ∃ before t after, run = before ++ t :: after ∧
      t.event.DeliversWithin a t.before.boottime ∧ t.output = .accepted (.ok true) ∧
      ∀ u ∈ after, ¬ u.event.WouldRetire a.grant ∧
        (u.event.Delivers id → u.output ≠ .accepted (.ok true)) := by
  induction hrun generalizing v with
  | start hstart =>
    rw [show _ = none from hstart] at hv
    cases hv
  | @step run h e hrun hadm ih =>
    have hauth : ∀ v, h.verifier = some v → v.Authority := fun v hv => authority_of_run hrun hv
    obtain ⟨v₀, hv₀, ha₀, hkeep, hfresh⟩ | ⟨hdelivers, -, hanswer⟩ :=
      Host.accepted_step hauth hv ha
    · obtain ⟨before, t, after, rfl, hdelivers, houtput, hafter⟩ := ih hv₀ ha₀
      refine ⟨before, t, after ++ [(broker issuer).transition h e], by simp, hdelivers, houtput, ?_⟩
      intro u hu
      rcases List.mem_append.mp hu with hu | hu
      · exact hafter u hu
      · obtain rfl := List.mem_singleton.mp hu
        exact ⟨hkeep, hfresh⟩
    · exact ⟨run, (broker issuer).transition h e, [], rfl, hdelivers, hanswer, by simp⟩

/-- A consumption that succeeds releases an accepted grant under its own id. -/
theorem GrantVerifier.consume_ok {files files' : StateFiles} {now : ℕ} (hauth : v.Authority)
    (hcall : v.consume files grantId authorization policyVersion now io = (v', files', .ok g)) :
    ∃ a, v.accepted[grantId]? = some a ∧ a.grant = g ∧ g.id = grantId ∧ now < a.deadlineBoottimeMs ∧
      ∃ journal slot, v.journal.recordBoundConsumption files.journal g io = (journal, slot, .ok ()) ∧
        v' = { v with journal := journal, accepted := v.accepted.erase grantId } ∧
        files' = { files with journal := slot } := by
  obtain ⟨-, -, hno⟩ | ⟨a, journal, slot, result, hvalid, hrec, hfiles, ⟨-, hno⟩ | ⟨rfl, b, hb, hr, hv'⟩⟩ :=
    consume_cases hcall
  · exact absurd rfl (hno g)
  · exact absurd rfl (hno g)
  obtain ⟨ha, -, hdeadline⟩ := validateConsumption_ok hvalid
  have hid := hauth.keyed grantId a ha
  rw [hid] at hb hv'
  obtain rfl : a = b := Option.mem_unique ha hb
  cases hr
  exact ⟨a, ha, rfl, hid, hdeadline, journal, slot, hrec, hv', hfiles⟩

/-- The answer to a consumption comes from the verifier that runs. -/
theorem Host.consume_of_answer (hanswer : (h.step e).2 = .consumed (.ok g)) :
    ∃ v v' files' grantId authorization policyVersion io, h.verifier = some v ∧
      e = .consume grantId authorization policyVersion io ∧
      v.consume h.files grantId authorization policyVersion h.boottime io = (v', files', .ok g) ∧
      (h.step e).1 = { h with verifier := some v', files := files' } := by
  cases hver : h.verifier with
  | none => cases e <;> simp [step, hver] at hanswer
  | some v =>
    cases e with
    | consume grantId authorization policyVersion io =>
      simp only [step, hver, GrantVerifier.call, Answer.consumed.injEq] at hanswer ⊢
      refine ⟨v, _, _, grantId, authorization, policyVersion, io, rfl, rfl, ?_, rfl⟩
      rw [← hanswer]
    | _ => simp [step, hver, GrantVerifier.call] at hanswer

/-- In every run, an accepted grant has the pinned epoch, no tombstone and no retirement, and
goes back to a delivery after which nothing happened that would have retired it. A revocation
puts its tombstone in force even when it fails to persist it, and a consumption succeeds only
for a grant of the pinned epoch without a tombstone. -/
theorem accepted_authority (hrun : (broker issuer).Run run h) :
    (∀ v (id : String) a, h.verifier = some v → v.accepted[id]? = some a →
      v.issuerEpoch = some a.grant.issuerEpoch ∧ v.revocations.tombstones[id]? = none ∧
        v.retired.values[id]? = none ∧ ∃ before t after, run = before ++ t :: after ∧
          t.event.DeliversWithin a t.before.boottime ∧ t.output = .accepted (.ok true) ∧
          ∀ u ∈ after, ¬ u.event.WouldRetire a.grant) ∧
      (∀ t ∈ run, ∀ revocation observedAtMs io v, t.event = .revoke revocation observedAtMs io →
        t.after.verifier = some v → v.revocations.tombstones.contains revocation.grantId = true) ∧
      ∀ t ∈ run, ∀ g, t.output = .consumed (.ok g) →
        ∃ v, t.before.verifier = some v ∧ v.issuerEpoch = some g.issuerEpoch ∧
          v.revocations.tombstones[g.id]? = none := by
  refine ⟨fun v id a hv ha => ?_, ?_, ?_⟩
  · have hauth := authority_of_run hrun hv
    obtain ⟨before, t, after, hrun', hdelivers, houtput, hafter⟩ := accepted_provenance hrun hv ha
    exact ⟨hauth.epoch id a ha, hauth.untombed id a ha, hauth.unretired id a ha,
      before, t, after, hrun', hdelivers, houtput, fun u hu => (hafter u hu).1⟩
  · refine hrun.forall_mem fun run h e _ _ revocation observedAtMs io v he hv => ?_
    obtain rfl : e = _ := he
    obtain ⟨w, -, rfl, -⟩ := Host.verifier_step_of_not_isStart rfl hv
    rcases hcall : w.revoke h.files revocation observedAtMs io with ⟨w', files', r⟩
    obtain ⟨v₁, outcome, revocations, disk, -, hrec, rfl, -⟩ := GrantVerifier.revoke_cases hcall
    simp only [GrantVerifier.call, hcall]
    exact (RevocationJournal.tombstones_record hrec).1
  · refine hrun.forall_mem fun run h e hr _ g hanswer => ?_
    obtain ⟨v, v', files', grantId, authorization, policyVersion, io, hv, -, hcall, -⟩ :=
      Host.consume_of_answer hanswer
    have hauth := authority_of_run hr hv
    obtain ⟨a, ha, rfl, hid, -⟩ := GrantVerifier.consume_ok hauth hcall
    exact ⟨v, hv, hauth.epoch grantId a ha, hid ▸ hauth.untombed grantId a ha⟩

/-! ### A node to run -/

namespace Sample

/-- A grant for the one workload of the node, good for a minute. -/
def grant (id : String) : Grant where
  id := id
  operationId := "op_1"
  nodeId := "node_1"
  workloadId := "wl_1"
  invocationId := "inv_1"
  unit := "app.service"
  account := "app"
  resourceId := "secret_1"
  recipientKeyId := "node_1-1"
  registrationVersion := 1
  policyVersion := 1
  approvalReference := none
  requestEventKey := none
  action := "read"
  mode := .file
  audience := "blindpass-node"
  issuerEpoch := 1
  issuedAtMs := 100000
  expiresAtMs := 160000
  localCeilingSeconds := 60

def policy : PolicySnapshot := ⟨1, 60, ["read"], [.file]⟩

def registration : Registration where
  nodeId := "node_1"
  workloadId := "wl_1"
  unit := "app.service"
  account := "app"
  invocationId := none
  status := "active"
  consumptionMode := .file
  registrationVersion := 1
  policyVersion := 1
  localCeilingSeconds := 60

/-- A host with an empty state directory. -/
def host : Host where
  controllerClock := 100000
  boottime := 5000
  files := ⟨.absent, .absent, ⟨.absent, .absent⟩⟩
  verifier := none
  challengeSentAt := 0

/-- The controller signs two grants. -/
def controller : Issuer where
  Signed g := g = grant "gr_1" ∨ g = grant "gr_2"
  oneExpiry := by rintro g g' (rfl | rfl) (rfl | rfl) - <;> rfl

instance : DecidablePred controller.Signed := fun _ => inferInstanceAs (Decidable (_ ∨ _))

/-- Learn the epoch and the time: a challenge, and a reply to it 10 ms later. -/
def synchronise (now : ℕ) : List Event :=
  [.observeIssuerEpoch 1, .beginTimeChallenge "challenge", .elapse 10,
    .acceptTimeReply ⟨"node_1", "challenge", now + 4, now + 6, 1⟩ "node_1" 1 .clean]

def deliver (id : String) : Event :=
  .acceptGrant (grant id) "digest" "node_1" "node_1-1" policy registration

def consume (id : String) (io : GrantJournal.RecordIo) : Event :=
  .consume id ⟨"node_1", "wl_1", "app.service", "inv_1", "consume:" ++ id⟩ 1 io

/-- Both grants are accepted; the first is revoked, which fails to persist, and delivered
again; then the second is used. -/
def revoked : List Event :=
  .restart .clean :: synchronise 100000 ++
    [deliver "gr_1", deliver "gr_2",
      .revoke ⟨"gr_1", "node_1", "operator", 100010, 700000000, 1⟩ 100010
        { Storage.Slot.AppendIo.clean with sync := false },
      deliver "gr_1", consume "gr_1" .clean, consume "gr_2" .clean]

end Sample

theorem accepted_authority_sample :
    let played := (broker Sample.controller).play Sample.host Sample.revoked
    played.1.countP (fun t => t.output.releases "gr_1") = 0 ∧
      played.1.countP (fun t => t.output.releases "gr_2") = 1 ∧
      ∀ t ∈ played.1, ∀ g, t.output = .consumed (.ok g) →
        ∃ v, t.before.verifier = some v ∧ v.issuerEpoch = some g.issuerEpoch ∧
          v.revocations.tombstones[g.id]? = none :=
  ⟨by decide +kernel, by decide +kernel,
    (accepted_authority (Execution.Machine.run_play (m := broker Sample.controller) (s := Sample.host)
      rfl (by decide +kernel))).2.2⟩

end BlindPass.Broker
