import BlindPass.Broker.Outbox.Documents
import BlindPass.Broker.Transitions
import BlindPass.Library.Latest

/-!
# The fleet state converges

A broker gets registrations and policies in any order and as often as the relay repeats them.
If the controller never signs two bodies for one version of a workload's registration or of the
policy, the broker ends with the newest of each, whatever the order was, and never refuses one for
its version. Grants that it accepts in between name the versions in force: a newer registration
drops the grants of its workload, and a newer policy those of every other policy.
-/

namespace BlindPass.Broker

open Fleet (Grant Registration PolicySnapshot)
open Command (Keeps Ensures)

variable {H : Hash} {N : NodeSigner} {s s' s₀ : BrokerState}

/-! ### What writes and reports leave alone -/

/-- The registration and the policy that a grant names by their versions are in force. -/
structure FleetState.InForce (s : FleetState) (grant : Grant) : Prop where
  registration : ∃ r, s.registrations[grant.workloadId]? = some r ∧
    grant.registrationVersion = r.registrationVersion
  policy : ∃ p, s.policy = some p ∧ grant.policyVersion = p.policyVersion

/-- The fleet and the node are the same, and a newly accepted grant names what is in force. -/
structure Calm (s s' : BrokerState) : Prop where
  fleet : s'.fleet = s.fleet
  nodeId : s'.nodeId = s.nodeId
  accepted : ∀ (id : String) a, s'.verifier.accepted[id]? = some a →
    s.verifier.accepted[id]? = some a ∨ s.fleet.InForce a.grant

theorem Calm.refl (s : BrokerState) : Calm s s := ⟨rfl, rfl, fun _ _ ha => .inl ha⟩

theorem keeps_persistPendingNodeEvents : Keeps (Calm s₀) (persistPendingNodeEvents H) :=
  fun _ hs => ⟨fun _ _ => ⟨hs.fleet, hs.nodeId, hs.accepted⟩,
    fun _ _ => ⟨hs.fleet, hs.nodeId, hs.accepted⟩⟩

theorem keeps_queueEvent (event : PendingNodeEvent) : Keeps (Calm s₀) (queueEvent H event) := by
  refine Ensures.bind (Q := fun _ => Calm s₀) (Ensures.modify fun s hs => ?_) fun _ => ?_
  · exact ⟨hs.fleet, hs.nodeId, hs.accepted⟩
  · exact keeps_persistPendingNodeEvents.onFailure fun s hs => ⟨hs.fleet, hs.nodeId, hs.accepted⟩

theorem keeps_flagAuditOverflow : Keeps (Calm s₀) (flagAuditOverflow H) := by
  refine Ensures.get fun s₁ h₁ => ?_
  split
  · exact Ensures.pure fun s hs => hs ▸ h₁
  refine Ensures.bind (Q := fun _ => Calm s₀) (Ensures.modify fun s hs => ?_) fun _ => ?_
  · subst hs
    exact ⟨h₁.fleet, h₁.nodeId, h₁.accepted⟩
  · exact keeps_persistPendingNodeEvents.onFailure fun s hs => ⟨hs.fleet, hs.nodeId, hs.accepted⟩

theorem keeps_queueGrantRejectionAudit (nodeId grantId : String) (expiresAtMs : ℕ)
    (reasonCode : String) :
    Keeps (Calm s₀) (queueGrantRejectionAudit H nodeId grantId expiresAtMs reasonCode) := by
  unfold queueGrantRejectionAudit
  split
  · exact Ensures.fail fun _ hs => hs
  split
  · exact Ensures.fail fun _ hs => hs
  refine Ensures.get fun s₁ h₁ => ?_
  split
  · split
    · exact Ensures.pure fun s hs => hs ▸ h₁
    · exact Ensures.fail fun s hs => hs ▸ h₁
  · split
    · exact keeps_flagAuditOverflow.weaken (fun s hs => hs ▸ h₁) (fun _ _ hs => hs) fun _ hs => hs
    · exact (keeps_queueEvent _).weaken (fun s hs => hs ▸ h₁) (fun _ _ hs => hs) fun _ hs => hs

/-- A document is applied to a state in which what could not be written was tried again. -/
theorem applyControllerDocument_eq (document : ControllerDocument) (s : BrokerState) :
    ∃ s₁, Calm s s₁ ∧ applyControllerDocument H document s = applyDocument H document s₁ := by
  have hretry : Ensures (Calm s) (retryPendingPersistence H) (fun _ => Calm s) fun _ => False := by
    refine Ensures.get fun s₁ h₁ => Ensures.bind (Q := fun _ => Calm s) (Ensures.when ?_ ?_)
      fun _ => Ensures.modify fun s hs => ?_
    · intro _
      exact (keeps_persistPendingNodeEvents.weaken (fun s hs => hs ▸ h₁) (fun _ _ hs => hs)
        fun _ hs => hs).ignore
    · exact fun _ s hs => hs ▸ h₁
    · exact ⟨hs.fleet, hs.nodeId, hs.accepted⟩
  obtain ⟨hok, herror⟩ := hretry s (.refl s)
  rcases hresult : retryPendingPersistence H s with ⟨s₁, result⟩
  rw [hresult] at hok herror
  cases result with
  | error e => exact (herror e rfl).elim
  | ok u =>
    exact ⟨s₁, hok u rfl, Command.bind_ok hresult⟩

/-! ### Registrations and policies -/

/-- A document was applied. Its file may not be written, which is tried again later. -/
def IsApplied (result : Except String Unit) : Prop :=
  result = .ok () ∨ result = .error "controller_document_not_durable"

theorem persistOrFence_eq (document : String) (s : BrokerState) :
    ∃ unfiled, (persistOrFence document s).1 = { s with unfiled } ∧
      IsApplied (persistOrFence document s).2 := by
  by_cases hfiling : s.surroundings.filing = true
  · refine ⟨s.unfiled.filter (· != document), ?_⟩
    simp [persistOrFence, IsApplied, Command.get, Command.modify, Bind.bind, Command.bind, hfiling]
  · refine ⟨document :: s.unfiled, ?_⟩
    simp [persistOrFence, IsApplied, Command.get, Command.modify, Command.fail, Bind.bind,
      Command.bind, hfiling]

variable {nodeId recipientKeyId : String} {grant : Grant} {now : ℕ} {policy : PolicySnapshot}
  {registration : Registration} {e : OutboxEvent}

theorem ensureBound_ok {what : String} (hnode : nodeId = s.nodeId) :
    ensureBound nodeId what s = (s, .ok ()) := by
  simp [ensureBound, Command.get, Bind.bind, Command.bind, hnode, Pure.pure]

theorem applyRegistration_eq {r : Registration} (hnode : r.nodeId = s.nodeId) :
    applyRegistration r s =
      match s.fleet.validateFleetRegistration r with
      | .error e => (s, .error e)
      | .ok false => (s, .ok ())
      | .ok true => persistOrFence ("registration:" ++ r.workloadId) { s with
          fleet := s.fleet.register r, verifier := s.verifier.revokeWorkload r.workloadId } := by
  unfold applyRegistration
  rw [Command.bind_ok (ensureBound_ok hnode)]
  simp only [Bind.bind, Command.bind, Command.get, Command.lift]
  cases s.fleet.validateFleetRegistration r with
  | error => rfl
  | ok changed => cases changed <;> rfl

theorem applyPolicy_eq (p : PolicySnapshot) :
    applyPolicy p s =
      match s.fleet.validateFleetPolicy p with
      | .error e => (s, .error e)
      | .ok false => (s, .ok ())
      | .ok true => persistOrFence "policy" { s with
          fleet := { s.fleet with policy := some p }
          verifier := s.verifier.revokeStalePolicy p.policyVersion } := by
  unfold applyPolicy
  simp only [Bind.bind, Command.bind, Command.get, Command.lift]
  cases s.fleet.validateFleetPolicy p with
  | error => rfl
  | ok changed => cases changed <;> rfl

/-! ### Grants and times -/

/-- A grant is accepted only with the versions of its registration and of the policy. -/
theorem versions_of_grantDeadline {v : GrantVerifier} {nowController deadline : ℕ}
    (h : v.grantDeadline grant nodeId recipientKeyId policy registration nowController now =
      .ok deadline) : grant.registrationVersion = registration.registrationVersion ∧
      grant.policyVersion = policy.policyVersion := by
  unfold GrantVerifier.grantDeadline at h
  iterate 4
    split at h
    · cases h
  next hmatch =>
  simp only [GrantVerifier.matchesBindings, Bool.not_eq_true', Bool.not_eq_false,
    Bool.and_eq_true, beq_iff_eq] at hmatch
  exact ⟨hmatch.1.1.1.1.1.1.1.1.1.1.1.1.1.1.2, hmatch.1.1.1.1.1.1.1.1.1.1.1.1.1.2⟩

/-- A grant that is accepted names the versions of the registration and of the policy. -/
theorem Calm.granted (h : Calm s₀ s) {documentHash : String}
    (hregistration : s.fleet.registrations[grant.workloadId]? = some registration)
    (hpolicy : s.fleet.policy = some policy) :
    Calm s₀ { s with verifier := (s.verifier.acceptGrant grant documentHash s.nodeId
      recipientKeyId policy registration now).1 } := by
  rcases hcall : s.verifier.acceptGrant grant documentHash s.nodeId recipientKeyId policy
    registration now with ⟨v', result⟩
  rcases GrantVerifier.acceptGrant_cases hcall with
    ⟨rfl, -⟩ | ⟨nowController, deadline, -, -, hdeadline, rfl, -⟩
  · exact ⟨h.fleet, h.nodeId, h.accepted⟩
  · refine ⟨h.fleet, h.nodeId, fun id a ha => ?_⟩
    rw [Std.TreeMap.getElem?_insert] at ha
    split at ha
    · cases ha
      have hversions := versions_of_grantDeadline hdeadline
      exact .inr ⟨⟨registration, h.fleet ▸ hregistration, hversions.1⟩,
        ⟨policy, h.fleet ▸ hpolicy, hversions.2⟩⟩
    · exact h.accepted id a ha

theorem keeps_ensureBound (nodeId what : String) : Keeps (Calm s₀) (ensureBound nodeId what) := by
  refine Ensures.get fun s₁ h₁ => ?_
  split
  · exact Ensures.pure fun s hs => hs ▸ h₁
  · exact Ensures.fail fun s hs => hs ▸ h₁

theorem keeps_applyGrant (grant : Grant) (documentHash : String) :
    Keeps (Calm s₀) (applyGrant H grant documentHash) := by
  refine Ensures.bind (Q := fun _ => Calm s₀) (keeps_ensureBound _ _) fun _ => ?_
  refine Ensures.get fun s₁ h₁ => ?_
  split
  · exact Ensures.fail fun s hs => hs ▸ h₁
  split
  · exact Ensures.fail fun s hs => hs ▸ h₁
  · exact Ensures.fail fun s hs => hs ▸ h₁
  next registration policy hregistration hpolicy =>
  refine Ensures.bind (Q := fun _ => Calm s₀) (Ensures.modify fun s hs => ?_) fun _ => ?_
  · subst hs
    exact h₁.granted hregistration hpolicy
  split
  · exact Ensures.pure fun _ hs => hs
  split
  · exact Ensures.pure fun _ hs => hs
  split
  · exact Ensures.fail fun _ hs => hs
  · exact keeps_queueGrantRejectionAudit _ _ _ _

/-- A call to the verifier after which no grant is newly accepted. -/
theorem keeps_callVerifier {e : Event} (hkept : ∀ (v : GrantVerifier) files now (id : String) a,
      (v.call files now e).1.accepted[id]? = some a → v.accepted[id]? = some a) :
    Keeps (Calm s₀) (callVerifier e) :=
  fun s hs =>
    have hcalm : Calm s₀ (callVerifier e s).1 :=
      ⟨hs.fleet, hs.nodeId, fun id a ha => hs.accepted id a (hkept _ _ _ id a ha)⟩
    ⟨fun _ _ => hcalm, fun _ _ => hcalm⟩

theorem keeps_timeReply (reply : Fleet.TimeReply) (epoch : ℕ) (io : GrantVerifier.TimeReplyIo) :
    Keeps (Calm s₀) (applyDocument H (.timeReply reply epoch io)) := by
  refine Ensures.bind (Q := fun _ => Calm s₀) (keeps_ensureBound _ _) fun _ => ?_
  refine Ensures.get fun s₁ h₁ => ?_
  refine Ensures.bind (Q := fun _ => Calm s₀) ?_ fun answer => ?_
  · refine Ensures.weaken (keeps_callVerifier ?_) (fun s hs => hs ▸ h₁)
      (fun _ _ hs => hs) fun _ hs => hs
    exact fun v files now id a ha => GrantVerifier.accepted_acceptTimeReply rfl ha
  · split
    · exact Ensures.lift (fun _ _ _ hs => hs) fun _ hs => hs
    · exact Ensures.pure fun _ hs => hs

theorem accepted_call_of_isClockOrEpoch {e : Event} (he : e.isClockOrEpoch = true)
    (v : GrantVerifier) (files : StateFiles) (now : ℕ) (id : String) (a : AcceptedGrant)
    (ha : (v.call files now e).1.accepted[id]? = some a) : v.accepted[id]? = some a := by
  cases e with
  | beginTimeChallenge => exact ha
  | observeIssuerEpoch =>
    simp only [GrantVerifier.call, GrantVerifier.observeIssuerEpoch] at ha
    split at ha
    · exact ha
    · exact (GrantVerifier.accepted_retireWhere ha).1
  | _ => simp [Event.isClockOrEpoch] at he

/-! ### The newest of what was delivered -/

namespace FleetState

variable {f : FleetState}

/-- A document is ignored if a newer one, or itself, is in force. -/
theorem validateVersion_cases {α : Type} [DecidableEq α] {version : α → ℕ} (reused : String)
    {previous : Option α} {x : α}
    (hunique : ∀ y, previous = some y → version y = version x → y = x) :
    (validateVersion version reused previous x = .ok false ∧
      ∃ y, previous = some y ∧ version x ≤ version y) ∨
    (validateVersion version reused previous x = .ok true ∧
      ∀ y, previous = some y → version y < version x) := by
  unfold validateVersion
  cases hprevious : previous with
  | none => exact .inr ⟨rfl, nofun⟩
  | some y =>
    rcases Nat.lt_trichotomy (version x) (version y) with hold | hsame | hnew
    · exact .inl ⟨if_pos hold, y, rfl, hold.le⟩
    · obtain rfl := hunique y hprevious hsame.symm
      exact .inl ⟨by simp, y, rfl, le_rfl⟩
    · refine .inr ⟨?_, fun z hz => Option.some.inj hz ▸ hnew⟩
      simp [not_lt.mpr hnew.le, hnew.ne']

theorem nodup_register (h : (f.workloads.map (·.workloadId)).Nodup) (r : Registration) :
    ((f.register r).workloads.map (·.workloadId)).Nodup := by
  have hothers : ((f.workloads.filter fun workload =>
      workload.workloadId != r.workloadId).map (·.workloadId)).Nodup :=
    h.sublist (List.Sublist.map _ List.filter_sublist)
  simp only [register]
  split
  · rw [List.map_append, List.map_singleton, List.nodup_append]
    refine ⟨hothers, List.nodup_singleton _, fun id hid id' hid' heq => ?_⟩
    -- the entries that stay are those of the other workloads
    obtain ⟨workload, hmem, rfl⟩ := List.mem_map.mp hid
    have hne := (List.mem_filter.mp hmem).2
    rw [List.mem_singleton] at hid'
    simp [heq, hid', WorkloadRegistration.of] at hne
  · exact hothers

end FleetState

/-- The broker holds the newest of the registrations `R` and of the policies `Q`, and the accepted
grants name what is in force. -/
structure BrokerState.Converged (R : Registration → Prop) (Q : PolicySnapshot → Prop)
    (s : BrokerState) : Prop where
  matched : s.fleet.Matched
  nodup : (s.fleet.workloads.map (·.workloadId)).Nodup
  nodeRevoked : s.fleet.nodeRevoked = false
  registrations : ∀ w : String, Latest Registration.registrationVersion
    (fun r => R r ∧ r.workloadId = w) s.fleet.registrations[w]?
  policy : Latest PolicySnapshot.policyVersion Q s.fleet.policy
  accepted : ∀ (id : String) a, s.verifier.accepted[id]? = some a → s.fleet.InForce a.grant

namespace BrokerState.Converged

variable {R R' : Registration → Prop} {Q Q' : PolicySnapshot → Prop} {r : Registration}
  {p : PolicySnapshot}

theorem empty (h : s.Empty) : s.Converged (fun _ => False) (fun _ => False) where
  matched := h.fleet ▸ FleetState.matched_empty
  nodup := by simp [h.fleet, FleetState.empty]
  nodeRevoked := by rw [h.fleet]; rfl
  registrations w := by
    rw [h.fleet, FleetState.empty, Std.TreeMap.getElem?_emptyc]
    exact Latest.empty fun _ hr => hr.1
  policy := by
    rw [h.fleet]
    exact Latest.empty fun _ hp => hp
  accepted id a ha := by simp [h.verifier, GrantVerifier.fresh] at ha

theorem congr (h : s.Converged R Q) (hR : ∀ r, R r ↔ R' r) (hQ : ∀ p, Q p ↔ Q' p) :
    s.Converged R' Q' :=
  { h with
    registrations := fun w => (h.registrations w).congr fun r => and_congr_left' (hR r)
    policy := h.policy.congr hQ }

theorem calm (h : s.Converged R Q) (hcalm : Calm s s') : s'.Converged R Q where
  matched := hcalm.fleet ▸ h.matched
  nodup := hcalm.fleet ▸ h.nodup
  nodeRevoked := hcalm.fleet ▸ h.nodeRevoked
  registrations := hcalm.fleet ▸ h.registrations
  policy := hcalm.fleet ▸ h.policy
  accepted id a ha := by
    rw [hcalm.fleet]
    exact (hcalm.accepted id a ha).elim (h.accepted id a) fun hnew => hnew

/-- One more registration concerns one workload. -/
theorem latest_registrations (h : s.Converged R Q) {registrations : Std.TreeMap String Registration}
    (hother : ∀ w : String, w ≠ r.workloadId → registrations[w]? = s.fleet.registrations[w]?)
    (hself : Latest Registration.registrationVersion
      (fun x => (R x ∧ x.workloadId = r.workloadId) ∨ x = r) registrations[r.workloadId]?)
    (w : String) : Latest Registration.registrationVersion
      (fun x => (R x ∨ x = r) ∧ x.workloadId = w) registrations[w]? := by
  by_cases hw : w = r.workloadId
  · subst hw
    exact hself.congr fun x => by grind
  · rw [hother w hw]
    exact (h.registrations w).congr fun x => by grind

theorem ignoreRegistration (h : s.Converged R Q) {y : Registration}
    (hy : s.fleet.registrations[r.workloadId]? = some y)
    (hle : r.registrationVersion ≤ y.registrationVersion) : s.Converged (fun x => R x ∨ x = r) Q :=
  { h with
    registrations := h.latest_registrations (fun _ _ => rfl)
      ((h.registrations r.workloadId).keep hy hle) }

/-- A newer registration drops the grants of its workload. -/
theorem register (h : s.Converged R Q) (hnew : ∀ y, s.fleet.registrations[r.workloadId]? = some y →
      y.registrationVersion < r.registrationVersion) (unfiled : List String) :
    { s with fleet := s.fleet.register r
             verifier := s.verifier.revokeWorkload r.workloadId
             unfiled := unfiled }.Converged (fun x => R x ∨ x = r) Q where
  matched := h.matched.register r
  nodup := FleetState.nodup_register h.nodup r
  nodeRevoked := h.nodeRevoked
  registrations := by
    apply h.latest_registrations
    · intro w hw
      rw [FleetState.getElem?_register, if_neg hw]
    · rw [FleetState.getElem?_register, if_pos rfl]
      exact (h.registrations r.workloadId).replace hnew
  policy := h.policy
  accepted id a ha := by
    obtain ⟨hbefore, hworkload⟩ := GrantVerifier.accepted_retireWhere ha
    obtain ⟨registration, hregistration⟩ := (h.accepted id a hbefore).registration
    refine ⟨⟨registration, ?_, hregistration.2⟩, (h.accepted id a hbefore).policy⟩
    rw [FleetState.getElem?_register, if_neg (by simpa using hworkload)]
    exact hregistration.1

theorem ignorePolicy (h : s.Converged R Q) {y : PolicySnapshot} (hy : s.fleet.policy = some y)
    (hle : p.policyVersion ≤ y.policyVersion) : s.Converged R (fun x => Q x ∨ x = p) :=
  { h with policy := h.policy.keep hy hle }

/-- A newer policy drops the grants of every other policy. -/
theorem adopt (h : s.Converged R Q)
    (hnew : ∀ y, s.fleet.policy = some y → y.policyVersion < p.policyVersion)
    (unfiled : List String) :
    { s with fleet := { s.fleet with policy := some p }
             verifier := s.verifier.revokeStalePolicy p.policyVersion
             unfiled := unfiled }.Converged R (fun x => Q x ∨ x = p) where
  matched := ⟨h.matched.named, h.matched.active⟩
  nodup := h.nodup
  nodeRevoked := h.nodeRevoked
  registrations := h.registrations
  policy := h.policy.replace hnew
  accepted id a ha := by
    obtain ⟨hbefore, hpolicy⟩ := GrantVerifier.accepted_retireWhere ha
    exact ⟨(h.accepted id a hbefore).registration, p, rfl, by simpa using hpolicy⟩

end BrokerState.Converged

/-! ### Runs -/

/-- The calls that bring documents about the fleet, grants and times. -/
def BrokerCall.IsDelivery (nodeId : String) : BrokerCall → Prop
  | .document (.registration r) => r.nodeId = nodeId
  | .document (.policySnapshot _) | .document (.grant ..) | .document (.timeReply ..)
  | .verifier _ => True
  | _ => False

/-- A step of the broker. -/
abbrev OutboxTransition := Execution.Transition BrokerState OutboxEvent (Except String Unit)

/-- The document was delivered. -/
def Delivered (run : List OutboxTransition) (document : ControllerDocument) : Prop :=
  ∃ t ∈ run, t.event.call = .document document

theorem delivered_append {run : List OutboxTransition} {t : OutboxTransition}
    {document : ControllerDocument} : Delivered (run ++ [t]) document ↔
      Delivered run document ∨ t.event.call = .document document := by
  simp [Delivered, or_and_right, exists_or]

/-- The controller signed one body for each version. -/
structure Consistent (run : List OutboxTransition) : Prop where
  registrations : ∀ r r', Delivered run (.registration r) → Delivered run (.registration r') →
    r.workloadId = r'.workloadId → r.registrationVersion = r'.registrationVersion → r = r'
  policies : ∀ p p', Delivered run (.policySnapshot p) → Delivered run (.policySnapshot p') →
    p.policyVersion = p'.policyVersion → p = p'

section Step

variable {R : Registration → Prop} {Q : PolicySnapshot → Prop}

theorem BrokerState.Converged.applyRegistration (h : s.Converged R Q) {r : Registration}
    (hnode : r.nodeId = s.nodeId) (hunique : ∀ y, R y → y.workloadId = r.workloadId →
      y.registrationVersion = r.registrationVersion → y = r) :
    (applyControllerDocument H (.registration r) s).1.Converged (fun x => R x ∨ x = r) Q ∧
      IsApplied (applyControllerDocument H (.registration r) s).2 := by
  obtain ⟨s₁, hcalm, heq⟩ := applyControllerDocument_eq (H := H) (.registration r) s
  have h₁ := h.calm hcalm
  rw [heq, applyDocument, applyRegistration_eq (hnode.trans hcalm.nodeId.symm)]
  have hheld : ∀ y, s₁.fleet.registrations[r.workloadId]? = some y →
      y.registrationVersion = r.registrationVersion → y = r := fun y hy =>
    hunique y ((h₁.registrations r.workloadId).delivered y hy).1
      ((h₁.registrations r.workloadId).delivered y hy).2
  rcases FleetState.validateVersion_cases _ hheld with ⟨hvalid, y, hy, hle⟩ | ⟨hvalid, hnew⟩
  · rw [FleetState.validateFleetRegistration, hvalid]
    exact ⟨h₁.ignoreRegistration hy hle, .inl rfl⟩
  · rw [FleetState.validateFleetRegistration, hvalid]
    obtain ⟨unfiled, hfiled, happlied⟩ := persistOrFence_eq ("registration:" ++ r.workloadId) { s₁ with
      fleet := s₁.fleet.register r, verifier := s₁.verifier.revokeWorkload r.workloadId }
    refine ⟨?_, happlied⟩
    rw [hfiled]
    exact h₁.register hnew unfiled

theorem BrokerState.Converged.applyPolicy (h : s.Converged R Q) {p : PolicySnapshot}
    (hunique : ∀ y, Q y → y.policyVersion = p.policyVersion → y = p) :
    (applyControllerDocument H (.policySnapshot p) s).1.Converged R (fun x => Q x ∨ x = p) ∧
      IsApplied (applyControllerDocument H (.policySnapshot p) s).2 := by
  obtain ⟨s₁, hcalm, heq⟩ := applyControllerDocument_eq (H := H) (.policySnapshot p) s
  have h₁ := h.calm hcalm
  rw [heq, applyDocument, applyPolicy_eq]
  rcases FleetState.validateVersion_cases _ fun y hy =>
    hunique y (h₁.policy.delivered y hy) with ⟨hvalid, y, hy, hle⟩ | ⟨hvalid, hnew⟩
  · rw [FleetState.validateFleetPolicy, hvalid]
    exact ⟨h₁.ignorePolicy hy hle, .inl rfl⟩
  · rw [FleetState.validateFleetPolicy, hvalid]
    obtain ⟨unfiled, hfiled, happlied⟩ := persistOrFence_eq "policy" { s₁ with
      fleet := { s₁.fleet with policy := some p }
      verifier := s₁.verifier.revokeStalePolicy p.policyVersion }
    refine ⟨?_, happlied⟩
    rw [hfiled]
    exact h₁.adopt hnew unfiled

/-- A call that keeps the fleet. -/
theorem BrokerState.Converged.keeps (h : s.Converged R Q) {α : Type} {c : Operation α}
    (hc : ∀ s₀, Keeps (Calm s₀) c) : (c s).1.Converged R Q := by
  have hkept := hc s s (.refl s)
  rcases hresult : c s with ⟨s', result⟩
  rw [hresult] at hkept
  cases result with
  | error e => exact h.calm (hkept.2 e rfl)
  | ok a => exact h.calm (hkept.1 a rfl)

/-- A document that leaves the fleet alone. -/
theorem BrokerState.Converged.applyOther (h : s.Converged R Q) (document : ControllerDocument)
    (hc : ∀ s₀, Keeps (Calm s₀) (applyDocument H document)) :
    (applyControllerDocument H document s).1.Converged R Q := by
  obtain ⟨s₁, hcalm, heq⟩ := applyControllerDocument_eq (H := H) document s
  rw [heq]
  exact (h.calm hcalm).keeps hc

end Step

/-- The broker holds the newest of what a run delivered. -/
abbrev BrokerState.ConvergedAfter (run : List OutboxTransition) (s : BrokerState) : Prop :=
  s.Converged (fun r => Delivered run (.registration r)) fun p => Delivered run (.policySnapshot p)

/-- Every registration and every policy of the run was applied. -/
def AllApplied (run : List OutboxTransition) : Prop :=
  ∀ t ∈ run, (∀ r, t.event.call = .document (.registration r) → IsApplied t.output) ∧
    ∀ p, t.event.call = .document (.policySnapshot p) → IsApplied t.output

theorem convergedAfter_step {run : List OutboxTransition} (h : s.ConvergedAfter run)
    (hparsed : e.call.IsParsed) (hcall : e.call.IsDelivery s.nodeId)
    (hconsistent : Consistent (run ++ [(outbox H N).transition s e])) :
    (s.step H N e).1.ConvergedAfter (run ++ [(outbox H N).transition s e]) ∧
      AllApplied [(outbox H N).transition s e] := by
  rcases e with ⟨call, surroundings⟩
  have h₁ : { s with surroundings }.ConvergedAfter run :=
    h.calm ⟨rfl, rfl, fun _ _ ha => .inl ha⟩
  have hlast : ∀ {document}, call = .document document →
      Delivered (run ++ [(outbox H N).transition s ⟨call, surroundings⟩]) document :=
    fun hd => delivered_append.mpr (.inr hd)
  have hprior : ∀ {document}, Delivered run document →
      Delivered (run ++ [(outbox H N).transition s ⟨call, surroundings⟩]) document :=
    fun hd => delivered_append.mpr (.inl hd)
  simp only [AllApplied, List.mem_singleton, forall_eq, Execution.Machine.transition_event,
    Execution.Machine.transition_output]
  simp only [BrokerCall.IsDelivery] at hcall
  split at hcall
  · next r =>
    obtain ⟨hnext, happlied⟩ := h₁.applyRegistration (H := H) hcall fun y hy hw hv =>
      hconsistent.registrations y r (hprior hy) (hlast rfl) hw hv
    refine ⟨hnext.congr (fun x => ?_) fun p => ?_, fun _ _ => happlied, nofun⟩
    · simp [delivered_append, eq_comm]
    · simp [delivered_append]
  · next p =>
    obtain ⟨hnext, happlied⟩ := h₁.applyPolicy (H := H) fun y hy hv =>
      hconsistent.policies y p (hprior hy) (hlast rfl) hv
    refine ⟨hnext.congr (fun x => ?_) fun x => ?_, nofun, fun _ _ => happlied⟩
    · simp [delivered_append]
    · simp [delivered_append, eq_comm]
  · next grant documentHash =>
    have hnext := h₁.applyOther (.grant grant documentHash) fun s₀ =>
      keeps_applyGrant (H := H) grant documentHash
    exact ⟨hnext.congr (by simp [delivered_append]) (by simp [delivered_append]), nofun, nofun⟩
  · next reply epoch io =>
    have hnext := h₁.applyOther (.timeReply reply epoch io) fun s₀ =>
      keeps_timeReply (H := H) reply epoch io
    exact ⟨hnext.congr (by simp [delivered_append]) (by simp [delivered_append]), nofun, nofun⟩
  · next event =>
    have hnext := h₁.keeps fun s₀ => keeps_callVerifier (accepted_call_of_isClockOrEpoch hparsed)
    exact ⟨hnext.congr (by simp [delivered_append]) (by simp [delivered_append]), nofun, nofun⟩
  · exact hcall.elim

theorem converged_of_run {run : List OutboxTransition} (h : (outbox H N).Run run s)
    (hcalls : ∀ t ∈ run, t.event.call.IsDelivery t.before.nodeId) (hconsistent : Consistent run) :
    s.ConvergedAfter run ∧ AllApplied run := by
  induction h with
  | start hs =>
    refine ⟨(BrokerState.Converged.empty hs).congr ?_ ?_, by simp [AllApplied]⟩ <;>
      simp [Delivered]
  | @step run s e hrun hadmits ih =>
    -- an earlier part of a consistent run is consistent
    have hprior : Consistent run :=
      ⟨fun r r' hr hr' => hconsistent.registrations r r' (delivered_append.mpr (.inl hr))
          (delivered_append.mpr (.inl hr')),
        fun p p' hp hp' => hconsistent.policies p p' (delivered_append.mpr (.inl hp))
          (delivered_append.mpr (.inl hp'))⟩
    obtain ⟨hs, happlied⟩ := ih (fun t ht => hcalls t (List.mem_append_left _ ht)) hprior
    have hcall := hcalls _ (List.mem_append_right run (List.mem_singleton_self _))
    obtain ⟨hnext, hlast⟩ := convergedAfter_step hs hadmits.1 hcall hconsistent
    refine ⟨hnext, fun t ht => ?_⟩
    rcases List.mem_append.mp ht with ht | ht
    · exact happlied t ht
    · exact hlast t ht

/-- The newest registration of its workload that was delivered. -/
def IsNewestRegistration (run : List OutboxTransition) (r : Registration) : Prop :=
  Delivered run (.registration r) ∧ ∀ r', Delivered run (.registration r') →
    r'.workloadId = r.workloadId → r'.registrationVersion ≤ r.registrationVersion

/-- The newest policy that was delivered. -/
def IsNewestPolicy (run : List OutboxTransition) (p : PolicySnapshot) : Prop :=
  Delivered run (.policySnapshot p) ∧
    ∀ p', Delivered run (.policySnapshot p') → p'.policyVersion ≤ p.policyVersion

namespace BrokerState.Converged

variable {run run' : List OutboxTransition}

theorem registrations_eq_some_iff (h : s.ConvergedAfter run) (hconsistent : Consistent run)
    {w : String} {r : Registration} : s.fleet.registrations[w]? = some r ↔
      IsNewestRegistration run r ∧ r.workloadId = w := by
  rw [(h.registrations w).eq_some_iff fun x y hx hy =>
    hconsistent.registrations x y hx.1 hy.1 (hx.2.trans hy.2.symm), IsNewestRegistration]
  grind

theorem policy_eq_some_iff (h : s.ConvergedAfter run) (hconsistent : Consistent run)
    {p : PolicySnapshot} : s.fleet.policy = some p ↔ IsNewestPolicy run p :=
  h.policy.eq_some_iff hconsistent.policies

theorem mem_workloads_iff (h : s.ConvergedAfter run) (hconsistent : Consistent run)
    {workload : WorkloadRegistration} : workload ∈ s.fleet.workloads ↔
      ∃ r, IsNewestRegistration run r ∧ r.status = "active" ∧ workload = .of r := by
  rw [h.matched.active]
  constructor
  · rintro ⟨w, r, hr, hstatus, rfl⟩
    exact ⟨r, ((h.registrations_eq_some_iff hconsistent).mp hr).1, hstatus, rfl⟩
  · rintro ⟨r, hr, hstatus, rfl⟩
    exact ⟨r.workloadId, r, (h.registrations_eq_some_iff hconsistent).mpr ⟨hr, rfl⟩, hstatus, rfl⟩

/-- Two brokers that were given the same documents hold the same. -/
theorem sameAuthority (h : s.ConvergedAfter run) (h' : s'.ConvergedAfter run)
    (hconsistent : Consistent run) : FleetState.SameAuthority s.fleet s'.fleet where
  registrations w := (h.registrations w).unique (h'.registrations w) fun x y hx hy =>
    hconsistent.registrations x y hx.1 hy.1 (hx.2.trans hy.2.symm)
  workloads _ := (h.mem_workloads_iff hconsistent).trans (h'.mem_workloads_iff hconsistent).symm
  policy := h.policy.unique h'.policy hconsistent.policies
  nodeRevoked := h.nodeRevoked.trans h'.nodeRevoked.symm

end BrokerState.Converged

/-- The registrations and the policy of a run determine what the broker holds, and every one of
them is applied. -/
theorem fleet_converges {run : List OutboxTransition} (h : (outbox H N).Run run s)
    (hcalls : ∀ t ∈ run, t.event.call.IsDelivery t.before.nodeId) (hconsistent : Consistent run) :
    AllApplied run ∧ (∀ (w : String) r, s.fleet.registrations[w]? = some r ↔
        IsNewestRegistration run r ∧ r.workloadId = w) ∧
      (∀ p, s.fleet.policy = some p ↔ IsNewestPolicy run p) ∧
      (∀ workload, workload ∈ s.fleet.workloads ↔
        ∃ r, IsNewestRegistration run r ∧ r.status = "active" ∧ workload = .of r) ∧
      (s.fleet.workloads.map (·.workloadId)).Nodup ∧
      (∀ (id : String) a, s.verifier.accepted[id]? = some a → s.fleet.InForce a.grant) ∧
      ∀ run' s', (outbox H N).Run run' s' → (∀ t ∈ run', t.event.call.IsDelivery t.before.nodeId) →
        (∀ r, Delivered run' (.registration r) ↔ Delivered run (.registration r)) →
        (∀ p, Delivered run' (.policySnapshot p) ↔ Delivered run (.policySnapshot p)) →
          FleetState.SameAuthority s.fleet s'.fleet := by
  obtain ⟨hs, happlied⟩ := converged_of_run h hcalls hconsistent
  refine ⟨happlied, fun w r => hs.registrations_eq_some_iff hconsistent,
    fun p => hs.policy_eq_some_iff hconsistent, fun workload => hs.mem_workloads_iff hconsistent,
    hs.nodup, hs.accepted, ?_⟩
  intro run' s' h' hcalls' hregistrations hpolicies
  have hconsistent' : Consistent run' := by
    constructor
    · intro r r' hr hr'
      exact hconsistent.registrations r r' ((hregistrations r).mp hr) ((hregistrations r').mp hr')
    · intro p p' hp hp'
      exact hconsistent.policies p p' ((hpolicies p).mp hp) ((hpolicies p').mp hp')
  have hs' := (converged_of_run h' hcalls' hconsistent').1.congr hregistrations hpolicies
  exact hs.sameAuthority hs' hconsistent

section Sample

/-- A broker that has applied nothing. -/
def emptyBroker : BrokerState where
  nodeId := "node-a"
  keys := ⟨1, ⟨"", "", String.ofList (List.replicate 64 '0')⟩, none, none⟩
  fleet := .empty
  fulfillments := []
  catalog := none
  verifier := .fresh none .empty .empty
  files := ⟨.absent, .absent, ⟨.absent, .absent⟩⟩
  events := []
  deferred := []
  recoveryCursor := none
  overflowPending := false
  owners := .new maxOperationRecords
  closures := .new maxOperationRecords
  live := []
  fenced := false
  unfiled := []
  revocationAckPending := false
  revocationAcknowledged := false
  revocationObservedAtMs := none
  outbox := .settled none
  surroundings := ⟨0, [], [], .clean, .clean, fun _ => .clean, fun _ => .clean, true, true, true⟩

theorem empty_emptyBroker : emptyBroker.Empty where
  nodeId := by decide +kernel
  keys := by decide +kernel
  fleet := rfl
  verifier := rfl
  files := rfl
  tables := rfl
  deferred := rfl
  revocation := ⟨rfl, rfl⟩
  outbox := rfl

/-- A registration of the node. -/
def sampleRegistration : Registration where
  nodeId := "node-a"
  workloadId := "workload-a"
  unit := "agent.service"
  account := "uid:1001"
  invocationId := none
  status := "active"
  consumptionMode := .file
  registrationVersion := 3
  policyVersion := 1
  localCeilingSeconds := 300

/-- The registration that `sampleRegistration` replaced. -/
def replacedRegistration : Registration := { sampleRegistration with registrationVersion := 2 }

/-- A registration comes, then the one that it replaced, and then it comes again. -/
def reorderedDocuments : List OutboxEvent :=
  [sampleRegistration, replacedRegistration, sampleRegistration].map fun r =>
    ⟨.document (.registration r), emptyBroker.surroundings⟩

/-- The machine with a hash and a signature of zeros. -/
abbrev zeroOutbox : Execution.Machine BrokerState OutboxEvent (Except String Unit) :=
  outbox ⟨fun _ => List.replicate 32 0, fun _ => rfl⟩ ⟨fun _ _ => List.replicate 64 0, fun _ _ => rfl⟩

theorem isParsed_reordered (he : e ∈ reorderedDocuments) (s : BrokerState) :
    zeroOutbox.Admits s e := by
  have hsample : ∃ v, Registration.body.ofValue v = .ok sampleRegistration :=
    ⟨.object (Registration.body.fields sampleRegistration), by rfl⟩
  have hreplaced : ∃ v, Registration.body.ofValue v = .ok replacedRegistration :=
    ⟨.object (Registration.body.fields replacedRegistration), by rfl⟩
  simp only [reorderedDocuments, List.map_cons, List.map_nil, List.mem_cons, List.not_mem_nil,
    or_false] at he
  rcases he with rfl | rfl | rfl
  · exact ⟨hsample, List.nodup_nil, nofun⟩
  · exact ⟨hreplaced, List.nodup_nil, nofun⟩
  · exact ⟨hsample, List.nodup_nil, nofun⟩

theorem run_reordered : zeroOutbox.Run (zeroOutbox.play emptyBroker reorderedDocuments).1
    (zeroOutbox.play emptyBroker reorderedDocuments).2 :=
  Execution.Machine.run_play empty_emptyBroker
    ⟨isParsed_reordered (by simp [reorderedDocuments]) _,
      isParsed_reordered (by simp [reorderedDocuments]) _,
      isParsed_reordered (by simp [reorderedDocuments]) _, trivial⟩

theorem delivered_reordered (document : ControllerDocument) :
    Delivered (zeroOutbox.play emptyBroker reorderedDocuments).1 document ↔
      document = .registration sampleRegistration ∨
        document = .registration replacedRegistration := by
  simp [Delivered, reorderedDocuments, Execution.Machine.play, eq_comm]
  tauto

/-- The registration stays when the one that it replaced comes after it. -/
theorem fleet_converges_reordered :
    (zeroOutbox.play emptyBroker reorderedDocuments).2.fleet.registrations["workload-a"]? =
      some sampleRegistration := by
  have hconverges := fleet_converges run_reordered
    (by
      intro t ht
      simp only [reorderedDocuments, List.map_cons, List.map_nil, Execution.Machine.play,
        List.mem_cons, List.not_mem_nil, or_false] at ht
      rcases ht with rfl | rfl | rfl <;> rfl)
    (by
      constructor
      · simp only [delivered_reordered, ControllerDocument.registration.injEq]
        rintro r r' (rfl | rfl) (rfl | rfl) - hversion
        · rfl
        · exact absurd hversion (by decide)
        · exact absurd hversion (by decide)
        · rfl
      · simp [delivered_reordered])
  rw [hconverges.2.1]
  refine ⟨⟨(delivered_reordered _).mpr (.inl rfl), ?_⟩, rfl⟩
  simp only [delivered_reordered, ControllerDocument.registration.injEq]
  rintro r (rfl | rfl) -
  · exact le_rfl
  · decide

end Sample

end BlindPass.Broker
