import BlindPass.Controller.Transactions.Grants

/-!
# What workload, policy and node changes write

A registration that ends takes its grants and pending operations with it, and so does a
node. The rotation of a node's keys withdraws its authority too, but leaves the grants that
ran out, and the requests of the operations it cancels, to others.
-/

namespace BlindPass.Controller

open Fleet (SignedEnvelope)
open Transaction (bind_eq_ok)

variable {cfg : Config} {time : ℕ} {K : List Kind} {s s' : Store}

/-! ### Workloads -/

variable {nodeId reason id : String} {now closed expectedVersion : ℕ}
  {policy registration : SignedEnvelope}

variable {grantId workloadId : String}

theorem policyRevocation_cases {expiresAtMs epoch retain : ℕ} {envelope : SignedEnvelope}
    (h : policyRevocation grantId nodeId now expiresAtMs epoch = .ok (envelope, retain)) :
    RevokesGrant envelope grantId nodeId ∧ max now expiresAtMs + tombstoneRetentionMs ≤ retain := by
  unfold policyRevocation at h
  obtain ⟨minimum, hminimum, h⟩ := bind_eq_ok.mp h
  simp only at h
  split at h
  · cases h
    exact ⟨⟨_, rfl, rfl, rfl⟩, (minimumRetention_eq (Transaction.elim_eq_ok hminimum)).symm.le⟩
  · cases h

theorem Store.retireGrant_writes {g : GrantRow} (hs : Coherent s) (hg : s.Standing grantId g)
    (hlive : g.status.isLive = true) (h : s.retireGrant reason now grantId g = .ok s') :
    Write cfg now .withdraw s s' ∧
      ∀ (id : String) (g' : GrantRow), s.Standing id g' → s'.Standing id g' := by
  unfold Store.retireGrant at h
  obtain ⟨⟨envelope, retain⟩, henvelope, h⟩ := bind_eq_ok.mp h
  obtain ⟨buried, hburied, h⟩ := bind_eq_ok.mp h
  cases h
  obtain ⟨hrevocation, hretain⟩ := policyRevocation_cases henvelope
  have hrow := hg.get hburied
  refine ⟨Write.withdraw_grant hrow hlive ?_ rfl rfl hrevocation hretain hburied, ?_⟩
  · intro key o ho hid
    exact beq_iff_eq.mpr (hs.holder hrow ho hid)
  · intro id g' hg'
    have hkept : buried.Standing id g' := hg'.withdraw hburied
    exact hkept

theorem moves_cancel_pending {o : Operation} (ho : o.status.isPending = true) :
    o.Moves (Kind.moves .close) (o.settle .cancelled { reason := some reason }) := by
  refine Operation.moves_settle ?_
  rw [Kind.moves, ho]
  rfl

theorem Store.cancelPending_writes (h : s.cancelPending cfg workloadId reason closed = .ok s') :
    Writes cfg time [.regroup, .close] s s' := by
  refine .head (Write.regroup Regroups.expire) (by simp)
    (.single (Write.close_pending ?_ ?_ h) (by simp))
  · intro key o _ hpending
    exact moves_cancel_pending (Bool.and_eq_true_iff.mp hpending).2
  · intro key o eventKey ho hp hactive hkey
    exact s.mem_closureTargets ho hp hactive hkey

theorem Store.retireWorkloadAuthority_writes (hs : Coherent s)
    (h : s.retireWorkloadAuthority cfg workloadId reason now closed = .ok s') :
    Writes cfg now [.withdraw, .administer, .tell, .regroup, .close] s s' := by
  unfold Store.retireWorkloadAuthority at h
  simp only at h
  split at h
  · cases h
  obtain ⟨revoked, hrevoked, h⟩ := bind_eq_ok.mp h
  -- while the loop runs, the grants still to be retired are as they were read
  have hloop := Transaction.foldlM_induct
    (P := fun rest t => Writes cfg now [.withdraw] s t ∧
      ∀ e ∈ rest, e.2.status.isLive = true ∧ t.Standing e.1 e.2) ?_ hrevoked ⟨.refl, ?_⟩
  · refine (hloop.1.mono (by simp)).trans ?_
    exact (Store.cancelPending_writes h).mono (by simp)
  · rintro e rest t t' ⟨hw, hrest⟩ hstep
    obtain ⟨hlive, hstanding⟩ := hrest e (.head _)
    obtain ⟨hretire, hothers⟩ := Store.retireGrant_writes (hw.coherent hs) hstanding hlive hstep
    refine ⟨hw.tail hretire (by simp), fun e' he' => ?_⟩
    exact (hrest e' (.tail e he')).imp_right (hothers _ _)
  · intro e he
    obtain ⟨hrow, hselected⟩ := Table.mem_select.mp he
    exact ⟨(Bool.and_eq_true_iff.mp hselected).2, .inl hrow⟩

theorem Administers.of_workloads {p : String → Workload → Bool} {f : Workload → Workload}
    (h : ∀ w : Workload, (f w).nodeId = w.nodeId) : Administers s (s.updateWorkloads p f) :=
  ⟨rfl, rfl, rfl, rfl, rfl, rfl, .refl, Table.extends_updateWhere (fun _ _ => rfl) fun _ w _ => h w,
    .refl fun _ _ hn => hn, fun _ _ hn hnone => absurd (hn.symm.trans hnone) nofun⟩

/-- The two documents a registration change queues. -/
theorem tell_registration (hpolicy : deliveredGrantId policy = none)
    (hregistration : deliveredGrantId registration = none) (hK : .tell ∈ K) : Writes cfg time K s
      ((s.enqueueNodeDocument nodeId policy).enqueueNodeDocument nodeId registration) :=
  .head (Write.tell hpolicy) hK (.single (Write.tell hregistration) hK)

theorem Store.createWorkload_writes {record : Workload} {created : Bool}
    (hpolicy : deliveredGrantId policy = none)
    (hregistration : deliveredGrantId registration = none)
    (h : s.createWorkload id record registration policy = .ok (s', created)) :
    Writes cfg time [.administer, .tell] s s' := by
  unfold Store.createWorkload at h
  split at h
  · cases h
    exact .refl
  split at h
  · cases h
  next hconflict =>
  split at h
  · cases h
  cases h
  have hfree : s.workloads[id]? = none := by
    simp only [Bool.or_eq_true, not_or, Std.TreeMap.contains_eq_isSome_getElem?] at hconflict
    simpa using hconflict.1.2
  refine .head (Write.administer ?_) (by simp) (tell_registration hpolicy hregistration (by simp))
  exact ⟨rfl, rfl, rfl, rfl, rfl, rfl, .refl, Table.extends_insert (fun _ _ => rfl) hfree,
    .refl fun _ _ hn => hn, fun _ _ hn hnone => absurd (hn.symm.trans hnone) nofun⟩

theorem Store.updateWorkload_writes {change : WorkloadChange} {changed : Bool} (hs : Coherent s)
    (hpolicy : deliveredGrantId policy = none)
    (hregistration : deliveredGrantId registration = none)
    (h : s.updateWorkload cfg id expectedVersion change nodeId registration policy now closed =
      .ok (s', changed)) :
    Writes cfg now [.withdraw, .administer, .tell, .regroup, .close] s s' := by
  unfold Store.updateWorkload at h
  split at h
  · cases h
    exact .refl
  split at h
  · cases h
    exact .refl
  split at h
  · cases h
  split at h
  · cases h
    exact .refl
  split at h
  · cases h
  have hchanged : Write cfg now .administer s
      (s.updateWorkloads (fun k _ => k == id) fun w => w.change change) :=
    Write.administer (.of_workloads fun _ => rfl)
  refine .head hchanged (by simp) ?_
  simp only at h
  split at h
  · obtain ⟨retired, hretired, h⟩ := bind_eq_ok.mp h
    cases h
    exact (Store.retireWorkloadAuthority_writes (hchanged.coherent hs) hretired).trans
      (tell_registration hpolicy hregistration (by simp))
  · cases h
    exact tell_registration hpolicy hregistration (by simp)

theorem Store.revokeWorkload_writes {revoked : Bool} (hs : Coherent s)
    (hpolicy : deliveredGrantId policy = none)
    (hregistration : deliveredGrantId registration = none)
    (h : s.revokeWorkload cfg id nodeId expectedVersion registration policy now closed =
      .ok (s', revoked)) :
    Writes cfg now [.withdraw, .administer, .tell, .regroup, .close] s s' := by
  unfold Store.revokeWorkload at h
  split at h
  · cases h
    exact .refl
  split at h
  · cases h
    exact .refl
  have hchanged : Write cfg now .administer s
      (s.updateWorkloads (fun k _ => k == id) Workload.revoke) :=
    Write.administer (.of_workloads fun _ => rfl)
  obtain ⟨retired, hretired, h⟩ := bind_eq_ok.mp h
  cases h
  exact .head hchanged (by simp)
    ((Store.retireWorkloadAuthority_writes (hchanged.coherent hs) hretired).trans
      (tell_registration hpolicy hregistration (by simp)))

theorem Store.replaceFleetPolicy_writes {rules : List PolicyRule}
    {nodeDocuments : List (String × SignedEnvelope)} {replaced : Bool}
    (hdocuments : ∀ d ∈ nodeDocuments, deliveredGrantId d.2 = none)
    (h : s.replaceFleetPolicy expectedVersion rules nodeDocuments = .ok (s', replaced)) :
    Writes cfg time [.administer, .tell] s s' := by
  unfold Store.replaceFleetPolicy at h
  split at h
  · cases h
  split at h
  · cases h
    exact .refl
  split at h
  · cases h
  next next _ =>
  cases h
  have hpolicy : Administers s { s with policy := some ⟨next, rules⟩ } := .of_tables rfl .refl
  exact .head (Write.administer hpolicy) (by simp) (Writes.tellAll (by simp) hdocuments)

end BlindPass.Controller
