import BlindPass.Library.Table
import BlindPass.Fleet.Documents

/-!
# What a broker knows of the fleet

The broker keeps the registrations of its workloads, the fleet policy and whether its node was
revoked in memory. A registration or a policy takes effect only if its version is newer than the
one in force, and local peers are compared with the active registrations.
-/

namespace BlindPass.Broker

open Fleet (Registration PolicySnapshot)

/-! ### Applying documents -/

/-- A registration as local peers are compared with it. -/
structure WorkloadRegistration where
  nodeId : String
  workloadId : String
  unit : String
  account : String
  invocationId : Option String
  deriving DecidableEq

/-- The part of a registration that peers are compared with. -/
def WorkloadRegistration.of (r : Registration) : WorkloadRegistration :=
  ⟨r.nodeId, r.workloadId, r.unit, r.account, r.invocationId⟩

/-- The part of the broker's state that the documents about the fleet change. -/
structure FleetState where
  workloads : List WorkloadRegistration
  registrations : Std.TreeMap String Registration
  policy : Option PolicySnapshot
  nodeRevoked : Bool

namespace FleetState

/-- A broker that has applied nothing. -/
def empty : FleetState := ⟨[], ∅, none, false⟩

/-- Whether a document changes anything: not if it is older than the previous one, or the same. -/
def validateVersion {α : Type} [DecidableEq α] (version : α → ℕ) (reused : String)
    (previous : Option α) (document : α) : Except String Bool :=
  match previous with
  | none => .ok true
  | some previous =>
    if version document < version previous then .ok false
    else if version document = version previous then
      if document = previous then .ok false else .error reused
    else .ok true

/-- `validate_fleet_registration`: whether the registration changes anything. -/
def validateFleetRegistration (s : FleetState) (registration : Registration) : Except String Bool :=
  validateVersion (·.registrationVersion)
    "workload registration version was reused with different bytes"
    s.registrations[registration.workloadId]? registration

/-- The registration in force. -/
def register (s : FleetState) (registration : Registration) : FleetState :=
  let others := s.workloads.filter fun workload => workload.workloadId != registration.workloadId
  { s with
    workloads := if registration.status == "active" then others ++ [.of registration] else others
    registrations := s.registrations.insert registration.workloadId registration }

/-- `validate_fleet_policy`: whether the policy changes anything. -/
def validateFleetPolicy (s : FleetState) (policy : PolicySnapshot) : Except String Bool :=
  validateVersion (·.policyVersion) "fleet policy version was reused with different bytes"
    s.policy policy

/-- The same registrations, active workloads, policy and revocation of the node. -/
structure SameAuthority (s s' : FleetState) : Prop where
  registrations : ∀ id : String, s.registrations[id]? = s'.registrations[id]?
  workloads : ∀ workload, workload ∈ s.workloads ↔ workload ∈ s'.workloads
  policy : s.policy = s'.policy
  nodeRevoked : s.nodeRevoked = s'.nodeRevoked

/-! ### Active workloads -/

/-- The peers are compared with exactly the active registrations. -/
structure Matched (s : FleetState) : Prop where
  named : ∀ (id : String) r, s.registrations[id]? = some r → r.workloadId = id
  active : ∀ workload, workload ∈ s.workloads ↔
    ∃ (id : String) (r : Registration), s.registrations[id]? = some r ∧ r.status = "active" ∧
      workload = .of r

theorem matched_empty : Matched empty where
  named id r h := by simp [empty] at h
  active workload := by simp [empty]

theorem getElem?_register (s : FleetState) (registration : Registration) (id : String) :
    (s.register registration).registrations[id]? =
      if id = registration.workloadId then some registration else s.registrations[id]? :=
  Table.getElem?_insert

theorem Matched.register {s : FleetState} (hs : s.Matched) (registration : Registration) :
    (s.register registration).Matched where
  named id r h := by
    rw [getElem?_register] at h
    split at h
    · rename_i hid
      rw [← Option.some.inj h, ← hid]
    · exact hs.named id r h
  active workload := by
    -- a workload of the others is one of a registration that stays
    have hothers : workload ∈ s.workloads.filter (fun workload =>
        workload.workloadId != registration.workloadId) ↔ ∃ (id : String) (r : Registration),
          id ≠ registration.workloadId ∧ s.registrations[id]? = some r ∧ r.status = "active" ∧
            workload = .of r := by
      simp only [List.mem_filter, hs.active, bne_iff_ne]
      constructor
      · rintro ⟨⟨id, r, hr, hstatus, rfl⟩, hne⟩
        exact ⟨id, r, fun h => hne ((hs.named id r hr).trans h), hr, hstatus, rfl⟩
      · rintro ⟨id, r, hne, hr, hstatus, rfl⟩
        exact ⟨⟨id, r, hr, hstatus, rfl⟩, fun h => hne ((hs.named id r hr).symm.trans h)⟩
    have hnew : workload ∈ (s.register registration).workloads ↔
        workload ∈ s.workloads.filter (fun workload =>
          workload.workloadId != registration.workloadId) ∨
          registration.status = "active" ∧ workload = .of registration := by
      simp only [FleetState.register, beq_iff_eq]
      by_cases hstatus : registration.status = "active"
      all_goals simp [hstatus]
    rw [hnew, hothers]
    constructor
    · rintro (⟨id, r, hne, hr, hstatus, rfl⟩ | ⟨hstatus, rfl⟩)
      · exact ⟨id, r, by rw [getElem?_register, if_neg hne, hr], hstatus, rfl⟩
      · exact ⟨registration.workloadId, registration, by simp [getElem?_register], hstatus, rfl⟩
    · rintro ⟨id, r, hr, hstatus, rfl⟩
      rw [getElem?_register] at hr
      split at hr
      · cases hr
        exact .inr ⟨hstatus, rfl⟩
      · rename_i hne
        exact .inl ⟨id, r, hne, hr, hstatus, rfl⟩

end FleetState

end BlindPass.Broker
