import BlindPass.Broker.Authority
import BlindPass.Broker.Convergence

/-!
# Refused grants

A broker that refuses a grant queues a report of it and discards the document. The key of the report
is made from the grant alone and its body holds the reason, so that a grant which is refused again
for another reason finds its key taken.
-/

namespace BlindPass.Broker

/-- The writer accepts the snapshot. -/
def OutboxSnapshot.isWritable (H : Hash) (s : OutboxSnapshot) : Bool :=
  fitsQueue s.events && (s.isBlank || (s.contents H).isOk)

/-- The queue takes the report: it holds one of the same contents, or none under the key of the
report, and the outbox can be written with it. A full queue takes the flag of an overflow. -/
def BrokerState.TakesReport (H : Hash) (s : BrokerState) (report : PendingNodeEvent) : Prop :=
  match s.events.find? fun e => e.idempotencyKey == report.idempotencyKey with
  | some queued => queued.kind = .audit ∧
      Canon.canonicalizeValue queued.body = Canon.canonicalizeValue report.body
  | none =>
    if maxBrokerAuditEvents ≤ s.events.length then
      s.overflowPending = true ∨
        OutboxSnapshot.isWritable H { s.snapshot with overflowPending := true } = true
    else OutboxSnapshot.isWritable H { s.snapshot with events := s.events ++ [report] } = true

variable {H : Hash} {s : BrokerState}

/-- No write of the outbox fails. -/
theorem persistPendingNodeEvents_ok_iff (hio : s.surroundings.writes.headD .done = .done) :
    (persistPendingNodeEvents H s).2 = .ok () ↔ s.snapshot.isWritable H = true := by
  show (writePendingNodeEvents H s.outbox s.snapshot (s.surroundings.writes.headD .done)).2 = _ ↔ _
  rw [hio, writePendingNodeEvents, OutboxSnapshot.isWritable]
  cases hfits : fitsQueue s.snapshot.events with
  | false => simp
  | true =>
    cases hblank : s.snapshot.isBlank with
    | true =>
      simp only [Bool.not_true, Bool.false_eq_true, if_false, if_true, Bool.true_and, Bool.true_or,
        iff_true]
      split <;> rfl
    | false =>
      cases hcontents : s.snapshot.contents H with
      | error e => simp [Except.isOk, Except.toBool]
      | ok bytes => simp [Except.isOk, Except.toBool, replaceOutbox]

theorem queueGrantRejectionAudit_ok_iff {nodeId grantId code : String} {expiresAtMs : ℕ}
    (hio : s.surroundings.writes.headD .done = .done)
    (hcode : grantRejectionReasons.contains code = true)
    (hnode : Fleet.isValidOpaqueId nodeId = true) (hgr : "gr_".toList.isPrefixOf grantId.toList = true)
    (hid : Fleet.isValidOpaqueId grantId = true) (hexpires : expiresAtMs ≠ 0) :
    (queueGrantRejectionAudit H nodeId grantId expiresAtMs code s).2 = .ok () ↔
      s.TakesReport H (grantRejectionEvent H nodeId grantId expiresAtMs code) := by
  unfold queueGrantRejectionAudit BrokerState.TakesReport
  simp only [hcode, hnode, hgr, hid, hexpires, Bool.not_true, Bool.or_self, Bool.false_eq_true,
    if_false, decide_false, Command.get_bind]
  cases s.events.find? fun e => e.idempotencyKey ==
      (grantRejectionEvent H nodeId grantId expiresAtMs code).idempotencyKey with
  | some queued =>
    dsimp only
    split
    · next hsame => exact iff_of_true rfl hsame
    · next hother =>
      refine iff_of_false (fun h => ?_) hother
      cases h
  | none =>
    dsimp only
    split
    · rw [flagAuditOverflow, Command.get_bind]
      cases hpending : s.overflowPending with
      | true => exact iff_of_true rfl (.inl rfl)
      | false =>
        rw [if_neg Bool.false_ne_true, Command.modify_bind, Command.onFailure_ok_iff,
          or_iff_right Bool.false_ne_true]
        exact persistPendingNodeEvents_ok_iff hio
    · rw [queueEvent, pushEvents, Command.modify_bind, Command.onFailure_ok_iff]
      exact persistPendingNodeEvents_ok_iff hio

theorem retryPendingPersistence_of_unfenced (hfence : s.persistenceFenced = false) :
    retryPendingPersistence H s = (s, .ok ()) := by
  simp only [BrokerState.persistenceFenced, GrantVerifier.hasUnpersistedRevocations,
    Bool.or_eq_false_iff, Bool.not_eq_false'] at hfence
  obtain ⟨⟨hfenced, hunfiled⟩, hpersisted⟩ := hfence
  have hnone : s.verifier.revocations.unpersisted.toList = [] := by
    rwa [← List.isEmpty_iff, Std.TreeSet.isEmpty_toList]
  have hretried : s.verifier.retryRevocationPersistence s.files s.surroundings.retry =
      (s.verifier, s.files, .ok ()) := by
    rw [GrantVerifier.retryRevocationPersistence, RevocationJournal.retryUnpersisted, hnone]
    rfl
  rw [retryPendingPersistence, Command.get_bind, hfenced]
  have hfiled : (if s.surroundings.filing = true then [] else s.unfiled) = s.unfiled := by
    rw [List.isEmpty_iff.mp hunfiled, ite_self]
  show (_, _) = _
  dsimp only
  rw [hretried, hfiled]

theorem contains_of_rejectionCode {reason code : String} (h : rejectionCode reason = some code) :
    grantRejectionReasons.contains code = true := by
  unfold rejectionCode at h
  split at h <;> cases h <;> decide

/-- A refused grant is discarded if and only if the queue takes its report. -/
theorem grant_discarded_iff (H : Hash) (s : BrokerState) (grant : Fleet.Grant)
    (documentHash reason code : String) (registration : Fleet.Registration)
    (policy : Fleet.PolicySnapshot) (hgrant : grant.isValid = true)
    (hgr : "gr_".toList.isPrefixOf grant.id.toList = true) (hnode : grant.nodeId = s.nodeId)
    (hfence : s.persistenceFenced = false)
    (hregistration : s.fleet.registrations[grant.workloadId]? = some registration)
    (hpolicy : s.fleet.policy = some policy) (hio : s.surroundings.writes.headD .done = .done)
    (hrefused : (s.verifier.acceptGrant grant documentHash s.nodeId s.recipientKeyId policy
      registration s.surroundings.boottimeMs).2 = .error reason)
    (hcode : rejectionCode reason = some code) :
    (applyControllerDocument H (.grant grant documentHash) s).2 = .ok () ↔
      s.TakesReport H (grantRejectionEvent H s.nodeId grant.id grant.expiresAtMs code) := by
  have happly : applyControllerDocument H (.grant grant documentHash) s =
      applyGrant H grant documentHash s :=
    Command.bind_ok (retryPendingPersistence_of_unfenced hfence)
  have hsame : (s.verifier.acceptGrant grant documentHash s.nodeId s.recipientKeyId policy
      registration s.surroundings.boottimeMs).1 = s.verifier := by
    rcases hcall : s.verifier.acceptGrant grant documentHash s.nodeId s.recipientKeyId policy
      registration s.surroundings.boottimeMs with ⟨v, r⟩
    rw [hcall] at hrefused
    obtain ⟨rfl, -⟩ | ⟨_, _, _, _, _, _, rfl⟩ := GrantVerifier.acceptGrant_cases hcall
    · rfl
    · cases hrefused
  have hqueue : applyGrant H grant documentHash s =
      queueGrantRejectionAudit H s.nodeId grant.id grant.expiresAtMs code s := by
    have hunsettled : reason ≠ grantAlreadySettled := by
      rintro rfl
      cases hcode
    refine (Command.bind_ok (ensureBound_ok hnode)).trans ?_
    simp only [Command.get_bind, hfence, hregistration, hpolicy, Bool.false_eq_true, if_false,
      Command.modify_bind, hsame, hrefused, hunsettled, hcode]
  obtain ⟨hid, hvalid, -⟩ := Fleet.Grant.fields_of_isValid hgrant
  rw [happly, hqueue]
  refine queueGrantRejectionAudit_ok_iff hio (contains_of_rejectionCode hcode) (hnode ▸ hvalid) hgr
    hid fun hexpires => ?_
  simp [Fleet.Grant.isValid, hexpires] at hgrant

section Sample

/-- The hash of ones. -/
abbrev onesHash : Hash := ⟨fun _ => List.replicate 32 1, fun _ => rfl⟩

/-- A grant that stays good for five minutes. -/
def lateGrant : Fleet.Grant :=
  { Sample.grant "gr_1" with action := "noop.marker", expiresAtMs := 400000 }

/-- The policy that the grant names. -/
def latePolicy : Fleet.PolicySnapshot := { Sample.policy with allowedActions := ["noop.marker"] }

/-- A broker that learned the time more than a minute after the grant was issued. -/
def lateBroker : BrokerState :=
  { emptyBroker with
    nodeId := "node_1"
    fleet := { FleetState.empty with
      registrations := .ofList [("wl_1", Sample.registration)], policy := some latePolicy }
    verifier := { emptyBroker.verifier with
      issuerEpoch := some 1, trustedTime := some ⟨200000, 200000, 0⟩ } }

/-- The broker refuses the grant as stale, and then gets the next policy. -/
def renewedBroker : BrokerState :=
  (applyControllerDocument onesHash (.policySnapshot { latePolicy with policyVersion := 2 })
    (applyControllerDocument onesHash (.grant lateGrant "digest") lateBroker).1).1

/-- The grant comes again, no longer matches the policy, and is answered with an error. -/
theorem rejection_blocks :
    (applyControllerDocument onesHash (.grant lateGrant "digest") lateBroker).2 = .ok () ∧
      renewedBroker.persistenceFenced = false ∧
      (renewedBroker.verifier.acceptGrant lateGrant "digest" "node_1" renewedBroker.recipientKeyId
        { latePolicy with policyVersion := 2 } Sample.registration 0).2 =
        .error "grant does not match current broker policy and workload registration" ∧
      (applyControllerDocument onesHash (.grant lateGrant "digest") renewedBroker).2 =
        .error "expired grant audit key was reused with different content" := by
  decide +kernel

/-- The first report of the grant finds an empty queue. -/
theorem grant_discarded_iff_stale :
    (applyControllerDocument onesHash (.grant lateGrant "digest") lateBroker).2 = .ok () :=
  (grant_discarded_iff onesHash lateBroker lateGrant "digest"
    "grant is stale or exceeds the broker lifetime maximum" "stale_at_receipt"
    Sample.registration latePolicy (by decide +kernel) (by decide +kernel) rfl (by decide +kernel)
    (by decide +kernel) rfl rfl (by decide +kernel) rfl).mpr
    (show OutboxSnapshot.isWritable _ _ = true by decide +kernel)

end Sample

end BlindPass.Broker
