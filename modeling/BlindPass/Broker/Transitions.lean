import BlindPass.Broker.Host

/-!
# What each call of the verifier does

One lemma a call, saying all that it can do. The invariants of a run are derived from
these and never unfold a call.
-/

namespace BlindPass.Broker

open Fleet (Grant PolicySnapshot Registration Revocation TimeReply)

namespace GrantVerifier

variable {v v' : GrantVerifier} {files files' : StateFiles} {id x : String} {a : AcceptedGrant}
  {reason : ConsumeDenial} {p : AcceptedGrant → Bool}

/-! ### Dropping grants -/

@[simp] theorem accepted_drop : (v.drop id reason).accepted = v.accepted.erase id := rfl

/-- What dropping grants leaves alone. -/
structure Frame (v v' : GrantVerifier) : Prop where
  pendingTime : v'.pendingTime = v.pendingTime
  trustedTime : v'.trustedTime = v.trustedTime
  highest : v'.highestControllerTimeMs = v.highestControllerTimeMs
  issuerEpoch : v'.issuerEpoch = v.issuerEpoch
  journal : v'.journal = v.journal
  revocations : v'.revocations = v.revocations

theorem Frame.refl (v : GrantVerifier) : Frame v v := ⟨rfl, rfl, rfl, rfl, rfl, rfl⟩

theorem Frame.trans {u v w : GrantVerifier} (h : Frame u v) (h' : Frame v w) : Frame u w :=
  ⟨h'.pendingTime.trans h.pendingTime, h'.trustedTime.trans h.trustedTime,
    h'.highest.trans h.highest, h'.issuerEpoch.trans h.issuerEpoch, h'.journal.trans h.journal,
    h'.revocations.trans h.revocations⟩

theorem frame_drop (v : GrantVerifier) (id : String) (reason : ConsumeDenial) :
    Frame v (v.drop id reason) := ⟨rfl, rfl, rfl, rfl, rfl, rfl⟩

theorem frame_foldl_drop (ids : List String) (v : GrantVerifier) :
    Frame v (ids.foldl (·.drop · reason) v) := by
  induction ids generalizing v with
  | nil => exact .refl v
  | cons id rest ih => exact (frame_drop v id reason).trans (ih _)

theorem frame_dropWhere : Frame v (v.dropWhere reason p) := frame_foldl_drop _ v

theorem accepted_foldl_drop (ids : List String) (v : GrantVerifier) :
    (ids.foldl (·.drop · reason) v).accepted[x]? = if x ∈ ids then none else v.accepted[x]? := by
  induction ids generalizing v with
  | nil => simp
  | cons id rest ih =>
    rw [List.foldl_cons, ih, accepted_drop, Std.TreeMap.getElem?_erase]
    by_cases hx : x = id
    · simp [hx]
    · simp [hx, Ne.symm hx]

/-- Dropping by a condition keeps exactly the grants that do not meet it. -/
theorem accepted_dropWhere :
    (v.dropWhere reason p).accepted[x]? = v.accepted[x]?.filter fun a => !p a := by
  rw [dropWhere, accepted_foldl_drop]
  cases ha : v.accepted[x]? with
  | none => simp
  | some a =>
    cases hp : p a <;> simp [Std.TreeMap.mem_toList_iff_getElem?_eq_some, ha, hp, Option.filter]

theorem accepted_dropWhere_eq_some :
    (v.dropWhere reason p).accepted[x]? = some a ↔ v.accepted[x]? = some a ∧ p a = false := by
  rw [accepted_dropWhere, Option.filter_eq_some_iff]
  simp

/-! ### Time replies -/

section TimeReply

variable {challenge : TimeChallenge} {reply : TimeReply} {nodeId : String}
  {epoch now estimate highest : ℕ} {io : TimeReplyIo} {r : Except String Unit}

/-- The estimate is the signed time and the part of the round trip the controller did not
hold the challenge for. -/
theorem timeEstimate_ok (h : v.timeEstimate challenge reply nodeId epoch now = .ok estimate) :
    reply.challenge = challenge.value ∧ challenge.sentAtBoottimeMs ≤ now ∧
      estimate = reply.controllerTimeMs + (now - challenge.sentAtBoottimeMs -
        (reply.controllerTimeMs - reply.challengeReceivedAtMs)) := by
  unfold timeEstimate at h
  split at h
  · cases h
  rename_i hmatch
  split at h
  · cases h
  rename_i roundTrip htrip
  obtain ⟨hsub, -⟩ := Option.filter_eq_some_iff.mp htrip
  obtain ⟨hle, rfl⟩ := U64.checkedSub_eq_some.mp hsub
  dsimp only at h
  split at h
  · cases h
  rename_i est hadd
  obtain ⟨-, rfl⟩ := U64.checkedAdd_eq_some.mp hadd
  split at h
  · cases h
  split at h
  · cases h
  cases h
  push Not at hmatch
  exact ⟨hmatch.1, hle, rfl⟩

/-- Settling the journals changes them and nothing else of the verifier. -/
theorem settleJournals_cases
    (h : v.settleJournals files highest reply.controllerTimeMs io = (v', files', r)) :
    (v' = v ∧ files'.journal = files.journal) ∨ ∃ journal slot result revocations,
        v.journal.prune files.journal reply.controllerTimeMs io.journal = (journal, slot, result) ∧
        files'.journal = slot ∧ v' = { v with journal := journal, revocations := revocations } ∧
        (revocations = v.revocations ∨ ∃ disk result', v.revocations.prune files.revocations
          reply.controllerTimeMs io.revocations = (revocations, disk, result')) := by
  unfold settleJournals at h
  split at h
  · cases h
    exact .inl ⟨rfl, rfl⟩
  split at h
  · rename_i hprune
    cases h
    exact .inr ⟨_, _, _, v.revocations, hprune, rfl, rfl, .inl rfl⟩
  · rename_i hprune
    split at h
    rename_i hrevs
    cases h
    exact .inr ⟨_, _, _, _, hprune, rfl, rfl, .inr ⟨_, _, hrevs⟩⟩

/-- The verifier after the checks and the journals, with the new time in force. -/
def withTrustedTime (v : GrantVerifier) (reply : TimeReply) (highest estimate now : ℕ) :
    GrantVerifier :=
  { v.dropWhere .expired fun a =>
      a.grant.expiresAtMs ≤ estimate || a.deadlineBoottimeMs ≤ now with
    highestControllerTimeMs := some highest
    trustedTime := some ⟨reply.controllerTimeMs, estimate, now⟩ }

theorem acceptTimeReply_cases
    (h : v.acceptTimeReply files reply nodeId epoch now io = (v', files', r)) :
    (v' = v ∧ files' = files) ∨ ∃ c, v.pendingTime = some c ∧
        ((v' = { v with pendingTime := none } ∧ files' = files) ∨
          ∃ estimate highest v₁ r₁,
            { v with pendingTime := none }.timeEstimate c reply nodeId epoch now = .ok estimate ∧
            { v with pendingTime := none }.settleJournals files highest reply.controllerTimeMs io =
              (v₁, files', r₁) ∧
            (v' = v₁ ∨ v' = v₁.withTrustedTime reply highest estimate now)) := by
  unfold acceptTimeReply at h
  split at h
  · cases h
    exact .inl ⟨rfl, rfl⟩
  rename_i c hc
  refine .inr ⟨c, hc, ?_⟩
  dsimp only at h
  split at h
  · cases h
    exact .inl ⟨rfl, rfl⟩
  rename_i estimate hest
  split at h
  · rename_i hsettle
    cases h
    exact .inr ⟨estimate, _, _, _, hest, hsettle, .inl rfl⟩
  · rename_i hsettle
    cases h
    exact .inr ⟨estimate, _, _, _, hest, hsettle, .inr rfl⟩

end TimeReply

/-! ### Deliveries -/

section Delivery

variable {grant : Grant} {documentHash nodeId recipientKeyId : String} {policy : PolicySnapshot}
  {registration : Registration} {nowController now deadline : ℕ}

/-- What the deadline of a grant that passes every check satisfies. -/
theorem grantDeadline_ok (h : v.grantDeadline grant nodeId recipientKeyId policy registration
      nowController now = .ok deadline) :
    v.missingGrantDenial grant.id = .unknown ∧ nowController < grant.expiresAtMs ∧
      v.issuerEpoch = some grant.issuerEpoch ∧
      deadline ≤ now + (grant.expiresAtMs - nowController) ∧
      deadline ≤ now + localCeilingMs grant policy registration := by
  unfold grantDeadline at h
  split at h
  · cases h
  rename_i hunknown
  split at h
  · cases h
  rename_i remaining hremaining
  obtain ⟨hsub, hpos⟩ := Option.filter_eq_some_iff.mp hremaining
  obtain ⟨hle, rfl⟩ := U64.checkedSub_eq_some.mp hsub
  split at h
  · cases h
  rename_i hepoch
  iterate 3
    split at h
    · cases h
  rename_i d hd
  obtain ⟨hadd, -⟩ := Option.filter_eq_some_iff.mp hd
  obtain ⟨-, rfl⟩ := U64.checkedAdd_eq_some.mp hadd
  split at h
  · cases h
  cases h
  have hpos' : 0 < grant.expiresAtMs - nowController := by simpa using hpos
  refine ⟨not_not.mp hunknown, by omega, not_not.mp hepoch, ?_, ?_⟩
  · exact Nat.add_le_add_left (Nat.min_le_left _ _) _
  · exact Nat.add_le_add_left (Nat.min_le_right _ _) _

/-- All that a delivery does: it changes nothing, or it accepts a grant whose id was not
accepted. -/
theorem acceptGrant_cases {r : Except String Bool}
    (h : v.acceptGrant grant documentHash nodeId recipientKeyId policy registration now = (v', r)) :
    (v' = v ∧ r ≠ .ok true) ∨
      ∃ nowController deadline, v.trustedControllerTimeMs now = some nowController ∧
        v.accepted[grant.id]? = none ∧
        v.grantDeadline grant nodeId recipientKeyId policy registration nowController now =
          .ok deadline ∧
        v' = { v with accepted := v.accepted.insert grant.id ⟨grant, deadline, documentHash⟩ } ∧
        r = .ok true := by
  unfold acceptGrant at h
  split at h
  · cases h
    exact .inl ⟨rfl, by simp⟩
  rename_i nowController htime
  split at h
  · split at h <;> cases h
    all_goals exact .inl ⟨rfl, by simp⟩
  rename_i hnone
  split at h
  · cases h
    exact .inl ⟨rfl, by simp⟩
  rename_i deadline hdeadline
  cases h
  exact .inr ⟨nowController, deadline, htime, hnone, hdeadline, rfl, rfl⟩

end Delivery

/-! ### Consumptions -/

section Consumption

variable {grantId : String} {authorization : WorkloadAuthorization} {policyVersion now : ℕ}
  {io : GrantJournal.RecordIo} {r : Except ConsumeDenial Grant}

theorem validateConsumption_ok
    (h : v.validateConsumption grantId authorization policyVersion now = .ok a) :
    v.accepted[grantId]? = some a ∧ v.issuerEpoch = some a.grant.issuerEpoch ∧
      now < a.deadlineBoottimeMs := by
  unfold validateConsumption at h
  split at h
  · cases h
  rename_i accepted hacc
  dsimp only at h
  split at h
  · cases h
  split at h
  · cases h
  rename_i hepoch
  split at h
  · cases h
  split at h
  · cases h
  rename_i hdeadline
  cases h
  exact ⟨hacc, not_not.mp hepoch, by omega⟩

/-- All that a consumption does: it is refused without a trace, or it records, and the grant
leaves `accepted` exactly when the record succeeds. -/
theorem consume_cases
    (h : v.consume files grantId authorization policyVersion now io = (v', files', r)) :
    (v' = v ∧ files' = files ∧ ∀ g, r ≠ .ok g) ∨
      ∃ a journal slot result, v.validateConsumption grantId authorization policyVersion now = .ok a ∧
        v.journal.recordBoundConsumption files.journal a.grant io = (journal, slot, result) ∧
        files' = { files with journal := slot } ∧
        ((v' = { v with journal := journal } ∧ ∀ g, r ≠ .ok g) ∨
          (result = .ok () ∧ ∃ b, v.accepted[a.grant.id]? = some b ∧ r = .ok b.grant ∧
            v' = { v with journal := journal, accepted := v.accepted.erase a.grant.id })) := by
  unfold consume at h
  split at h
  · cases h
    exact .inl ⟨rfl, rfl, by simp⟩
  rename_i a hvalid
  refine .inr ?_
  split at h
  · rename_i hrec
    cases h
    exact ⟨a, _, _, _, hvalid, hrec, rfl, .inl ⟨rfl, by simp⟩⟩
  · rename_i hrec
    split at h
    · cases h
      exact ⟨a, _, _, _, hvalid, hrec, rfl, .inl ⟨rfl, by simp⟩⟩
    · rename_i b hb
      cases h
      exact ⟨a, _, _, _, hvalid, hrec, rfl, .inr ⟨rfl, b, hb, rfl, rfl⟩⟩

end Consumption

/-! ### Revocations and starts -/

variable {observedAtMs : ℕ} {revocation : Revocation}

/-- All that a revocation does: the grant is dropped, then its tombstone is recorded. -/
theorem revoke_cases {io : Storage.Slot.AppendIo} {r : Except String Unit}
    (h : v.revoke files revocation observedAtMs io = (v', files', r)) :
    ∃ v₁ outcome revocations disk, (v₁ = v.drop revocation.grantId .revoked ∨
        v₁ = v ∧ v.accepted[revocation.grantId]? = none) ∧
      v.revocations.record files.revocations revocation.grantId revocation.retainUntilMs outcome io =
        (revocations, disk, r) ∧ v' = { v₁ with revocations := revocations } ∧
      files' = { files with revocations := disk } := by
  unfold revoke at h
  split at h
  · cases h
    exact ⟨_, _, _, _, .inl rfl, rfl, rfl, rfl⟩
  rename_i hacc
  cases h
  rw [Std.TreeMap.contains_eq_isSome_getElem?] at hacc
  exact ⟨v, _, _, _, .inr ⟨rfl, by simpa using hacc⟩, rfl, rfl, rfl⟩

/-- A start reads the journal and begins with nothing accepted and nothing retired. -/
theorem withStateFiles_cases {io : OpenIo} {r : Except String GrantVerifier}
    (h : withStateFiles files io = (files', r)) : (files' = files ∧ ∀ v, r ≠ .ok v) ∨
      ∃ slot journal, GrantJournal.readLocked files.journal io.journal = (slot, journal) ∧
        files'.journal = slot ∧ ∀ v, r = .ok v → ∃ j highest revocations,
          journal = .ok j ∧ v = fresh highest j revocations := by
  unfold withStateFiles at h
  split at h
  · cases h
    exact .inl ⟨rfl, by simp⟩
  split at h
  · cases h
    exact .inl ⟨rfl, by simp⟩
  split at h
  · rename_i hread
    cases h
    exact .inr ⟨_, _, hread, rfl, by simp⟩
  rename_i slot journal hread
  split at h
  · cases h
    exact .inr ⟨_, _, hread, rfl, by simp⟩
  cases h
  refine .inr ⟨_, _, hread, rfl, fun v hv => ?_⟩
  cases hv
  exact ⟨journal, _, _, rfl, rfl⟩

theorem withStateFiles_ok {io : OpenIo} (h : (withStateFiles files io).2 = .ok v) :
    ∃ highest journal revocations, v = fresh highest journal revocations := by
  rcases hopen : withStateFiles files io with ⟨files', r⟩
  rw [hopen] at h
  obtain ⟨-, hno⟩ | ⟨slot, journal, -, -, hfresh⟩ := withStateFiles_cases hopen
  · exact absurd h (hno v)
  · obtain ⟨j, highest, revocations, -, hv⟩ := hfresh v h
    exact ⟨highest, j, revocations, hv⟩

/-! ### Accepted grants after a call -/

section Accepted

variable {now : ℕ}

theorem accepted_retireWhere {reason : ConsumeDenial} {p : Grant → Bool}
    (ha : (v.retireWhere reason p).accepted[id]? = some a) :
    v.accepted[id]? = some a ∧ p a.grant = false :=
  accepted_dropWhere_eq_some.mp ha

variable {r : Except String Unit}

theorem accepted_acceptTimeReply {reply : TimeReply} {nodeId : String} {epoch : ℕ}
    {io : TimeReplyIo} (hcall : v.acceptTimeReply files reply nodeId epoch now io = (v', files', r))
    (ha : v'.accepted[id]? = some a) : v.accepted[id]? = some a := by
  obtain ⟨rfl, -⟩ | ⟨c, -, ⟨rfl, -⟩ | ⟨estimate, highest, v₁, r₁, -, hsettle, hv⟩⟩ :=
    acceptTimeReply_cases hcall
  · exact ha
  · exact ha
  have hsettled : v₁.accepted = v.accepted := by
    obtain ⟨rfl, -⟩ | ⟨journal, slot, result, revocations, -, -, rfl, -⟩ :=
      settleJournals_cases hsettle
    all_goals rfl
  rcases hv with rfl | rfl
  · rwa [hsettled] at ha
  · obtain ⟨hkept, -⟩ := accepted_dropWhere_eq_some.mp ha
    rwa [hsettled] at hkept

theorem accepted_revoke {io : Storage.Slot.AppendIo}
    (hcall : v.revoke files revocation observedAtMs io = (v', files', r))
    (ha : v'.accepted[id]? = some a) : v.accepted[id]? = some a ∧ id ≠ revocation.grantId := by
  obtain ⟨v₁, outcome, revocations, disk, hv₁, -, rfl, -⟩ := revoke_cases hcall
  change v₁.accepted[id]? = some a at ha
  rcases hv₁ with rfl | ⟨rfl, hnone⟩
  · rw [accepted_drop, Std.TreeMap.getElem?_erase] at ha
    split at ha
    · cases ha
    · rename_i hne
      exact ⟨ha, fun heq => hne (by simp [heq])⟩
  · refine ⟨ha, ?_⟩
    rintro rfl
    rw [hnone] at ha
    cases ha

theorem accepted_consume {grantId : String} {authorization : WorkloadAuthorization}
    {policyVersion : ℕ} {io : GrantJournal.RecordIo} {r : Except ConsumeDenial Grant}
    (hcall : v.consume files grantId authorization policyVersion now io = (v', files', r))
    (ha : v'.accepted[id]? = some a) : v.accepted[id]? = some a := by
  obtain ⟨rfl, -, -⟩ | ⟨b, journal, slot, result, -, -, -, ⟨rfl, -⟩ | ⟨-, b', -, -, rfl⟩⟩ :=
    consume_cases hcall
  · exact ha
  · exact ha
  · rw [Std.TreeMap.getElem?_erase] at ha
    split at ha
    · cases ha
    · exact ha

end Accepted

end GrantVerifier

end BlindPass.Broker
