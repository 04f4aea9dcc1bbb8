import BlindPass.Controller.Transactions.Fleet

/-!
# What the life of a node writes

A revocation ends everything the node still has. The operations it cancels need no closure,
because their node is gone in the same transaction. A rotation does almost the same, with
two differences that matter later: it tells nobody about the operations it cancels, although
the node goes on, and it ends the grants that ran out without their operations.
-/

namespace BlindPass.Controller

open Fleet (NodeKeyRotation Revocation SignedEnvelope isValidOpaqueId)
open Transaction (bind_eq_ok)

variable {cfg : Config} {time : ℕ} {K : List Kind} {s s' : Store} {nodeId : String}

/-! ### Enrollment -/

variable {now epoch : ℕ} {envelope : SignedEnvelope} {reason key : String} {g : GrantRow} {k : Kind}

theorem Store.approveEnrollment_writes {e : Enrollment} {approved : Bool}
    (hid : isValidOpaqueId e.nodeId = true) (h : s.approveEnrollment e now = .ok (s', approved)) :
    Writes cfg time [.administer] s s' := by
  unfold Store.approveEnrollment at h
  split at h
  · cases h
  split at h
  · cases h
  split at h
  · cases h
    exact .refl
  split at h
  · cases h
  next hfree =>
  cases h
  refine .single (Write.administer ⟨rfl, rfl, rfl, rfl, rfl, rfl, .refl, .refl fun _ _ => rfl,
    ?_, ?_⟩)
    (by simp)
  · refine Table.extends_insert (fun _ _ hn => hn) ?_
    rw [Std.TreeMap.contains_eq_isSome_getElem?] at hfree
    simpa using hfree
  · intro id n hn hnone
    rw [Table.getElem?_insert] at hn
    split at hn
    · next heq =>
      rw [heq]
      exact hid
    · exact absurd (hn.symm.trans hnone) nofun

/-! ### Withdrawing the grants of a node -/

theorem validateNodeRevocation_cases {grantId : String} {expiresAtMs : ℕ} {r : Revocation}
    (h : validateNodeRevocation envelope grantId nodeId now expiresAtMs epoch reason = .ok r) :
    RevokesGrant envelope grantId nodeId ∧
      max now expiresAtMs + tombstoneRetentionMs ≤ r.retainUntilMs := by
  unfold validateNodeRevocation at h
  split at h
  · next body hbody =>
    split at h
    · cases h
    obtain ⟨minimum, hminimum, h⟩ := bind_eq_ok.mp h
    split at h
    · cases h
    next hbinding =>
    obtain rfl := Except.ok.inj h
    simp only [Bool.or_eq_true, bne_iff_ne, decide_eq_true_eq, not_or, not_not, not_lt] at hbinding
    obtain ⟨⟨⟨⟨⟨⟨⟨-, -⟩, hgrant⟩, hnode⟩, -⟩, -⟩, -⟩, hretained⟩ := hbinding
    refine ⟨⟨body, hbody, hgrant, hnode⟩, ?_⟩
    exact (minimumRetention_eq (Transaction.elim_eq_ok hminimum)).symm.le.trans hretained
  · cases h

/-- The revocation fits a live grant of the node. -/
structure WithdrawsGrant (nodeId : String) (now : ℕ) (v : NodeGrantRevocationDraft × Revocation)
    (g : GrantRow) : Prop where
  live : g.status.isLive = true
  node : nodeId = g.grant.nodeId
  envelope : RevokesGrant v.1.envelope v.1.grantId nodeId
  retained : max now g.grant.expiresAtMs + tombstoneRetentionMs ≤ v.2.retainUntilMs

variable {validated : List (NodeGrantRevocationDraft × Revocation)}
  {v : NodeGrantRevocationDraft × Revocation} {o : Operation}

/-- The drafts are revocations, one for each grant that has not expired. -/
theorem Store.validateGrantRevocations_cases {drafts : List NodeGrantRevocationDraft}
    {reason : NodeGrantRevocationDraft → String}
    (h : s.validateGrantRevocations nodeId drafts reason now = .ok validated) :
    (∀ v ∈ validated, ∃ g : GrantRow, s.grants[v.1.grantId]? = some g ∧
        WithdrawsGrant nodeId now v g) ∧
      ∀ e ∈ s.unexpiredGrants nodeId now, ∃ v ∈ validated, v.1.grantId = e.1 := by
  obtain ⟨hforth, hback⟩ := Transaction.mem_of_mapM h
  refine ⟨?_, ?_⟩
  · intro v hv
    obtain ⟨e, he, hvalid⟩ := hback v hv
    obtain ⟨hrow, hselected⟩ := Table.mem_select.mp he
    split at hvalid
    · cases hvalid
    next d hfind =>
    obtain ⟨r, hr, hpure⟩ := bind_eq_ok.mp hvalid
    cases hpure
    have hid := List.find?_some hfind
    obtain ⟨henvelope, hretained⟩ := validateNodeRevocation_cases hr
    simp only [Bool.and_eq_true, beq_iff_eq] at hselected
    rw [← eq_of_beq hid] at henvelope hrow
    exact ⟨e.2, hrow, hselected.1.2, hselected.1.1.symm, henvelope, hretained⟩
  · intro e he
    obtain ⟨v, hv, hvalid⟩ := hforth e he
    split at hvalid
    · cases hvalid
    next d hfind =>
    obtain ⟨r, -, hpure⟩ := bind_eq_ok.mp hvalid
    cases hpure
    have hid := List.find?_some hfind
    exact ⟨_, hv, eq_of_beq hid⟩

theorem Store.withdrawNodeGrant_writes (hg : s.Standing v.1.grantId g)
    (hv : WithdrawsGrant nodeId now v g) (h : s.withdrawNodeGrant nodeId reason now v = .ok s') :
    Write cfg now .withdraw s s' ∧
      ∀ (id : String) (g' : GrantRow), s.Standing id g' → s'.Standing id g' := by
  unfold Store.withdrawNodeGrant at h
  obtain ⟨buried, hburied, h⟩ := bind_eq_ok.mp h
  cases h
  refine ⟨Write.withdraw_grant (hg.get hburied) hv.live (fun _ _ _ hid => beq_iff_eq.mpr hid)
    hv.node rfl hv.envelope hv.retained hburied, ?_⟩
  intro id g' hg'
  have hkept : buried.Standing id g' := hg'.withdraw hburied
  exact hkept

theorem Store.withdrawNodeGrant_ends (h : s.withdrawNodeGrant nodeId reason now v = .ok s')
    (hg : s'.grants[v.1.grantId]? = some g) : g.status.isLive = false := by
  unfold Store.withdrawNodeGrant at h
  obtain ⟨buried, hburied, h⟩ := bind_eq_ok.mp h
  cases h
  unfold Store.insertTombstone at hburied
  split at hburied
  · cases hburied
  cases hburied
  obtain ⟨c, -, rfl⟩ := Table.getElem?_updateWhere_eq_some.mp hg
  split
  · rfl
  · next hcond => simpa using hcond

/-- The loop that withdraws the grants of a node, with all of them ended. -/
theorem withdrawNodeGrants_writes (cfg : Config)
    (hvalid : ∀ v ∈ validated, ∃ g : GrantRow, s.grants[v.1.grantId]? = some g ∧
      WithdrawsGrant nodeId now v g)
    (h : validated.foldlM (fun s v => s.withdrawNodeGrant nodeId reason now v) s = .ok s') :
    Writes cfg now [.withdraw] s s' ∧
      ∀ v ∈ validated, ∀ g, s'.grants[v.1.grantId]? = some g → g.status.isLive = false := by
  -- a grant is still to be withdrawn, and as it was read, or it has ended
  have hloop := Transaction.foldlM_induct
    (P := fun rest t => Writes cfg now [.withdraw] s t ∧
      (∀ v ∈ rest, ∃ g : GrantRow, t.Standing v.1.grantId g ∧ WithdrawsGrant nodeId now v g) ∧
      ∀ v ∈ validated, v ∈ rest ∨
        ∀ g : GrantRow, t.grants[v.1.grantId]? = some g → g.status.isLive = false) ?_ h
    ⟨.refl, fun v hv => (hvalid v hv).imp fun _ hg => hg.imp_left .inl, fun _ hv => .inl hv⟩
  · refine ⟨hloop.1, fun v hv => ?_⟩
    rcases hloop.2.2 v hv with hnil | hended
    · exact absurd hnil List.not_mem_nil
    · exact hended
  · rintro v rest t t' ⟨hw, hrest, hended⟩ hstep
    obtain ⟨g, hg, hv⟩ := hrest v (.head _)
    obtain ⟨hwithdraw, hothers⟩ : Write cfg now .withdraw t t' ∧ _ :=
      Store.withdrawNodeGrant_writes hg hv hstep
    have hw' : Writes cfg now [.withdraw] t t' := .single hwithdraw (by simp)
    refine ⟨hw.trans hw', fun v' hv' => ?_, ?_⟩
    · obtain ⟨g', hg', hfits⟩ := hrest v' (.tail v hv')
      exact ⟨g', hothers _ _ hg', hfits⟩
    intro v' hv'
    rcases hended v' hv' with hmem | hdead
    · rcases List.mem_cons.mp hmem with rfl | hmem
      · exact .inr fun g hg => Store.withdrawNodeGrant_ends hstep hg
      · exact .inl hmem
    · right
      intro g' hg'
      -- a grant that ended does not come back
      obtain ⟨g, hg, hmove⟩ := (Writes.evolves (by decide) (by decide) (by decide) hw').2.get_back hg'
      rcases hmove.status with heq | hmoved
      · rw [heq]
        exact hdead g hg
      revert hmoved
      have hnot := hdead g hg
      revert hnot
      cases g.status <;> cases g'.status <;> decide

/-! ### Cancelling the pending operations of a node -/

/-- The operations that a node's end or rotation cancels are all of that node. -/
theorem Coherent.cancelled_node (hs : Coherent s) (ho : s.operations[key]? = some o)
    (hcond : ((o.status == .awaitingApproval &&
        o.approvalId.any (s.awaitedGroups fun o => o.nodeId == nodeId).contains) ||
      (o.nodeId == nodeId && o.status.isPending)) = true) :
    o.nodeId = nodeId ∧ o.status.isPending = true := by
  rcases Bool.or_eq_true_iff.mp hcond with hgroup | hnode
  · obtain ⟨hawaiting, hmember⟩ := Bool.and_eq_true_iff.mp hgroup
    refine ⟨?_, by rw [eq_of_beq hawaiting]; rfl⟩
    -- a member of the same group is of this node, and groups do not span nodes
    obtain ⟨id, hid, hcontains⟩ := (Option.any_eq_true _ _).mp hmember
    obtain ⟨e, he, heid⟩ := List.mem_filterMap.mp (List.contains_iff_mem.mp hcontains)
    obtain ⟨hrow, hselected⟩ := Table.mem_select.mp he
    obtain ⟨a, ha, hscope⟩ := hs.grouped key o id ho hid
    obtain ⟨a', ha', hscope'⟩ := hs.grouped e.1 e.2 id hrow heid
    obtain rfl : a = a' := Option.mem_unique ha ha'
    rw [← hscope, hscope']
    exact eq_of_beq (Bool.and_eq_true_iff.mp hselected).1
  · obtain ⟨hsame, hpending⟩ := Bool.and_eq_true_iff.mp hnode
    exact ⟨eq_of_beq hsame, hpending⟩

theorem Store.cancelNodeOperations_abandons (hs : Coherent s) :
    Writes cfg time [.regroup, .abandon] s (s.cancelNodeOperations nodeId reason) := by
  refine .head (Write.regroup Regroups.expire) (by simp)
    (.single (Write.abandon_pending ?_) (by simp))
  intro key o ho hcond
  exact moves_cancel_pending (hs.cancelled_node ho hcond).2

/-- If no broker of an active node waits for one of the operations, there is nothing to
close. -/
theorem Store.cancelNodeOperations_closes (hs : Coherent s)
    (hquiet : ∀ (key : String) (o : Operation) eventKey, s.operations[key]? = some o → o.nodeId = nodeId →
      o.status.isPending = true → o.brokerEventKey = some eventKey → s.nodeActive nodeId = false) :
    Writes cfg time [.regroup, .close] s (s.cancelNodeOperations nodeId reason) := by
  have hops : Table.Evolves (fun _ => Operation.Moves (Kind.moves .close)) s.operations
      (s.cancelNodeOperations nodeId reason).operations := by
    refine evolves_updateOperations (s := s) fun key o ho hcond => ?_
    exact moves_cancel_pending (hs.cancelled_node ho hcond).2
  refine .head (Write.regroup Regroups.expire) (by simp) (.single (k := .close)
    (Write.evolve_silent rfl (fun _ => rfl) hops (Table.Evolves.refl fun _ _ => .refl) (fun _ => ?_)
      (fun _ => .of_eq) (fun _ => .of_moves hops (by decide))) (by simp))
  intro _ key o o' eventKey ho ho' hpending hended hkey hactive
  have hupdated := Table.updateWhere_of_some ho ho'
  exfalso
  split at hupdated
  · next hcond =>
    have hnode := (hs.cancelled_node ho hcond).1
    have hgone := hquiet key o eventKey ho hnode hpending hkey
    rw [hnode] at hactive
    exact absurd (hgone.symm.trans hactive) nofun
  · rw [← hupdated, hpending] at hended
    cases hended

/-! ### Grants that ran out -/

theorem isLive_of_lapsed (h : Store.lapsed nodeId now g = true) : g.status.isLive = true :=
  (Bool.and_eq_true_iff.mp (Bool.and_eq_true_iff.mp h).1).2

theorem moves_expire_lapsed (hk : k = .fail ∨ k = .lapse ∨ k = .expire) :
    Table.Evolves (fun _ => GrantRow.Moves k.grantMoves) s.grants
      (Table.updateWhere s.grants (fun _ g => Store.lapsed nodeId now g)
        fun g => g.withStatus .expired) := by
  refine Table.evolves_updateWhere (fun _ _ => .refl) fun _ g _ hlapsed =>
    GrantRow.moves_withStatus ?_
  have hlive := isLive_of_lapsed hlapsed
  rcases hk with rfl | rfl | rfl <;> rw [Kind.grantMoves, hlive] <;> rfl

/-- The grants that ran out end with their operations, which fail. Whether that is right
depends on the grants: one that was handed out may have been used. -/
theorem Write.failLapsed
    (hk : k = .fail ∨ (k = .lapse ∧ ∀ (key : String) (o : Operation) (id : String)
      (g : GrantRow), s.operations[key]? = some o →
      o.status.isOpen = true → o.grantId = some id → s.grants[id]? = some g →
      Store.lapsed nodeId now g = true → g.status = .issued)) :
    Write cfg time k s (s.failLapsed nodeId now) := by
  have hops : Table.Evolves (fun _ => Operation.Moves k.moves) s.operations
      (s.failLapsed nodeId now).operations := by
    refine evolves_updateOperations (s := s) fun key o _ hcond => Operation.moves_settle ?_
    have hopen := (Bool.and_eq_true_iff.mp hcond).1
    rcases hk with rfl | ⟨rfl, -⟩ <;> rw [Kind.moves, hopen] <;> rfl
  refine Write.evolve_silent (by rcases hk with rfl | ⟨rfl, -⟩ <;> rfl)
    (by rcases hk with rfl | ⟨rfl, -⟩ <;> decide) hops
    (moves_expire_lapsed (hk.imp id fun hlapse => .inl hlapse.1)) (fun _ => .of_moves hops ?_)
    (fun _ => ?_) (fun hfail => ?_)
  · rcases hk with rfl | ⟨rfl, -⟩ <;> decide
  · -- an operation that is still `granted` has a grant that did not run out
    intro key o' id g g' ho' hgranted hid hg hlive hg'
    obtain rfl := Table.updateWhere_of_some hg hg'
    split
    · next hlapsed =>
      exfalso
      obtain ⟨o, ho, hupdated⟩ := Table.getElem?_updateWhere_eq_some.mp ho'
      split at hupdated
      · rw [← hupdated] at hgranted
        cases hgranted
      next hcond =>
      subst hupdated
      refine hcond ?_
      rw [hgranted, hid]
      simp only [OperationStatus.isOpen, Option.any_some, Bool.true_and]
      rw [hg]
      exact hlapsed
    · exact hlive
  · obtain ⟨-, hissued⟩ := hk.resolve_left hfail
    intro key o o' ho ho' hnot hfailed
    have hupdated := Table.updateWhere_of_some ho ho'
    split at hupdated
    · next hcond =>
      obtain ⟨hopen, hheld⟩ := Bool.and_eq_true_iff.mp hcond
      obtain ⟨id, hid, hgrant⟩ := (Option.any_eq_true _ _).mp hheld
      obtain ⟨g, hg, hlapsed⟩ := (Option.any_eq_true _ _).mp hgrant
      exact ⟨id, g, hid, hg, hissued key o id g ho hopen hid hg hlapsed⟩
    · rw [← hupdated] at hfailed
      exact absurd hfailed hnot

/-- The grants that ran out end without their operations. -/
theorem Write.expireLapsed
    (hk : k = .expire ∨ (k = .lapse ∧ ∀ (key : String) (o : Operation) (id : String)
      (g : GrantRow), s.operations[key]? = some o →
      o.status = .granted → o.grantId = some id → s.grants[id]? = some g →
      Store.lapsed nodeId now g = false)) : Write cfg time k s (s.expireLapsed nodeId now) := by
  have hops : Table.Evolves (fun _ => Operation.Moves k.moves) s.operations s.operations :=
    .refl fun _ _ => .refl
  refine Write.evolve_silent (by rcases hk with rfl | ⟨rfl, -⟩ <;> rfl)
    (by rcases hk with rfl | ⟨rfl, -⟩ <;> decide) hops
    (moves_expire_lapsed (hk.elim (fun h => .inr (.inr h)) fun h => .inr (.inl h.1)))
    (fun _ => .of_moves hops ?_) (fun hexpire => ?_) (fun _ => ?_)
  · rcases hk with rfl | ⟨rfl, -⟩ <;> decide
  · obtain ⟨-, hkept⟩ := hk.resolve_left hexpire
    intro key o id g g' ho hgranted hid hg hlive hg'
    obtain rfl := Table.updateWhere_of_some hg hg'
    rw [hkept key o id g ho hgranted hid hg]
    exact hlive
  · intro key o o' ho ho' hnot hfailed
    obtain rfl : o = o' := Option.mem_unique ho ho'
    exact absurd hfailed hnot

/-! ### Revocation -/

/-- A grant of the node was handed out and ran out, while its operation is still open. -/
def Store.failsDelivered (s : Store) (nodeId : String) (now : ℕ) : Bool :=
  s.operations.toList.any fun e => e.2.status.isOpen && e.2.grantId.any fun id =>
    s.grants[id]?.any fun g => lapsed nodeId now g && g.status == .delivered

theorem Store.any_operations {p : String × Operation → Bool} (ho : s.operations[key]? = some o)
    (hp : p (key, o) = true) : s.operations.toList.any p = true :=
  List.any_eq_true.mpr ⟨(key, o), Std.TreeMap.mem_toList_iff_getElem?_eq_some.mpr ho, hp⟩

theorem validateNodeRevocationDocument_cases
    (h : validateNodeRevocationDocument envelope nodeId now epoch = .ok ()) :
    deliveredGrantId envelope = none := by
  unfold validateNodeRevocationDocument at h
  split at h
  · next hbody =>
    rw [deliveredGrantId, hbody]
  · cases h

/-- Statements that only end things leave an open operation with a live grant as it was. -/
theorem open_before {t : Store} {id : String} {o' : Operation} {g' : GrantRow}
    (hw : Writes cfg time [.withdraw, .administer, .tell, .regroup, .close] s t)
    (ho' : t.operations[key]? = some o') (hopen : o'.status.isOpen = true)
    (hid : o'.grantId = some id) (hg' : t.grants[id]? = some g') (hlive : g'.status.isLive = true) :
    ∃ (o : Operation) (g : GrantRow), s.operations[key]? = some o ∧ o.status = o'.status ∧
      o.grantId = some id ∧ s.grants[id]? = some g ∧ g.status = g'.status ∧ g.grant = g'.grant := by
  obtain ⟨hops, hgrants⟩ := Writes.evolves (by decide) (by decide) (by decide) hw
  obtain ⟨o, ho, hmove⟩ := hops.get_back ho'
  obtain ⟨g, hg, hmove'⟩ := hgrants.get_back hg'
  refine ⟨o, g, ho, ?_, hmove.grantId.symm.trans hid, hg, ?_, hmove'.grant.symm⟩
  · rcases hmove.status with heq | ⟨hmoved, -⟩
    · exact heq.symm
    · revert hmoved hopen
      generalize o.status = a, o'.status = b
      revert a b
      decide
  · rcases hmove'.status with heq | hmoved
    · exact heq.symm
    · revert hmoved hlive
      generalize g.status = a, g'.status = b
      revert a b
      decide

theorem Store.revokeNode_writes {revocations : List NodeGrantRevocationDraft}
    {nodeRevocation : SignedEnvelope} {revoked : Bool} (hs : Coherent s)
    (h : s.revokeNode nodeId revocations nodeRevocation now = .ok (s', revoked)) :
    Writes cfg now [.withdraw, .administer, .tell, .regroup, .close,
      if s.failsDelivered nodeId now then .fail else .lapse] s s' := by
  unfold Store.revokeNode at h
  split at h
  · cases h
    exact .refl
  split at h
  · cases h
    exact .refl
  obtain ⟨⟨⟩, hdocument, h⟩ := bind_eq_ok.mp h
  obtain ⟨validated, hvalidated, h⟩ := bind_eq_ok.mp h
  split at h
  · cases h
  obtain ⟨withdrawn, hwithdrawn, h⟩ := bind_eq_ok.mp h
  cases h
  obtain ⟨hdrafts, -⟩ := Store.validateGrantRevocations_cases hvalidated
  obtain ⟨hloop, -⟩ := withdrawNodeGrants_writes cfg hdrafts hwithdrawn
  -- the node and its workloads may as well be marked before its operations are cancelled
  let retired := (withdrawn.enqueueNodeDocument nodeId nodeRevocation).updateWorkloads
    (fun _ w => w.nodeId == nodeId && w.status == .active) Workload.revoke
  let gone := retired.updateNodes (fun k _ => k == nodeId)
    fun n => { n with status := .revoked, revocationQueued := true }
  have hgone : Writes cfg now [.withdraw, .administer, .tell, .regroup, .close] s gone := by
    refine (hloop.mono (by simp)).trans
      (.head (Write.tell (validateNodeRevocationDocument_cases hdocument)) (by simp)
        (.head (t := retired) (Write.administer (.of_workloads fun _ => rfl)) (by simp)
          (.single (Write.administer (.of_nodes fun _ _ => rfl)) (by simp))))
  have hinactive : gone.nodeActive nodeId = false := by
    rw [Store.nodeActive, Bool.eq_false_iff]
    intro hactive
    obtain ⟨n', hn', hstatus⟩ := (Option.any_eq_true _ _).mp hactive
    obtain ⟨n, -, hupdated⟩ := Table.getElem?_updateWhere_eq_some.mp hn'
    rw [beq_self_eq_true, if_pos rfl] at hupdated
    rw [← hupdated] at hstatus
    cases hstatus
  have hcancelled : Writes cfg now [.withdraw, .administer, .tell, .regroup, .close] s
      (gone.cancelNodeOperations nodeId "node_revoked") :=
    hgone.trans ((Store.cancelNodeOperations_closes (hgone.coherent hs)
      fun _ _ _ _ _ _ _ => hinactive).mono (by simp))
  refine (hcancelled.mono (by simp)).tail (Write.failLapsed ?_)
    (List.mem_append_right [_, _, _, _, _] (List.mem_singleton_self _))
  split
  · exact .inl rfl
  next hundelivered =>
  refine .inr ⟨rfl, ?_⟩
  intro key o id g ho hopen hid hg hlapsed
  obtain ⟨o₀, g₀, ho₀, hstatus, hid₀, hg₀, hsame, hgrant⟩ :=
    open_before hcancelled ho hopen hid hg (isLive_of_lapsed hlapsed)
  have hlapsed₀ : Store.lapsed nodeId now g₀ = true := by
    rw [Store.lapsed, hsame, hgrant]
    exact hlapsed
  by_contra hnot
  refine hundelivered (Store.any_operations ho₀ ?_)
  have hdelivered : g₀.status = .delivered := by
    have hlive := isLive_of_lapsed hlapsed₀
    rw [← hsame] at hnot
    revert hlive hnot
    cases g₀.status <;> decide
  simp [hstatus, hopen, hid₀, hg₀, hlapsed₀, hdelivered]

theorem Store.finalizeNodeRevocation_writes :
    Writes cfg time [.administer, .mark] s (s.finalizeNodeRevocation nodeId now) := by
  unfold Store.finalizeNodeRevocation
  split
  · -- the queue entry of the node, its sessions, then its inbox
    let closed := s.updateNodes (fun k _ => k == nodeId) fun n => { n with revocationQueued := false }
    have hnodes : Administers s closed := .of_nodes fun _ hn => hn
    have hsessions : Administers closed { closed with
        sessions := Table.updateWhere s.sessions (fun _ e => e.nodeId == nodeId)
          fun e => { e with revoked := true } } :=
      .of_tables rfl (.of_update fun _ => ⟨rfl, rfl⟩)
    refine .head (Write.administer hnodes) (by simp) (.head (Write.administer hsessions) (by simp)
      (.single (Write.mark (mem_map_marked ?_) fun _ _ ht => ht) (by simp)))
    intro r
    split <;> exact ⟨rfl, rfl⟩
  · exact .refl

/-! ### Key rotation -/

/-- A grant of the node ran out, while its operation is still `granted`. -/
def Store.expiresGranted (s : Store) (nodeId : String) (now : ℕ) : Bool :=
  s.operations.toList.any fun e => e.2.status == .granted && e.2.grantId.any fun id =>
    s.grants[id]?.any fun g => lapsed nodeId now g

/-- A broker waits for a pending operation of the node. -/
def Store.cancelsUnclosed (s : Store) (nodeId : String) : Bool :=
  s.operations.toList.any fun e => e.2.nodeId == nodeId && e.2.status.isPending &&
    e.2.brokerEventKey.isSome

theorem validateNodeKeyRotationDocument_cases {expected : NodeKeyRotation}
    (h : validateNodeKeyRotationDocument cfg envelope expected nodeId now epoch = .ok ()) :
    deliveredGrantId envelope = none := by
  unfold validateNodeKeyRotationDocument at h
  split at h
  · next hbody =>
    rw [deliveredGrantId, hbody]
  · cases h

theorem Store.insertRotation_administers {r : NodeKeyRotation}
    (h : s.insertRotation nodeId r = .ok s') : Administers s s' := by
  unfold Store.insertRotation at h
  split at h
  · cases h
  split at h
  · cases h
  cases h
  exact .of_tables rfl .refl

theorem Store.stageNodeKeyRotation_writes {expectedKeyVersion : ℕ} {draft : NodeKeyRotationDraft}
    {expired : ℕ} {staged : Bool} (hs : Coherent s)
    (h : s.stageNodeKeyRotation cfg nodeId expectedKeyVersion draft now expired =
      .ok (s', staged)) :
    Writes cfg now [.withdraw, .administer, .tell, .regroup,
      if s.expiresGranted nodeId now then .expire else .lapse,
      if s.cancelsUnclosed nodeId then .abandon else .close] s s' := by
  unfold Store.stageNodeKeyRotation at h
  split at h
  · cases h
    exact .refl
  split at h
  · cases h
    exact .refl
  obtain ⟨⟨⟩, hdocument, h⟩ := bind_eq_ok.mp h
  obtain ⟨validated, hvalidated, h⟩ := bind_eq_ok.mp h
  split at h
  · cases h
  obtain ⟨withdrawn, hwithdrawn, h⟩ := bind_eq_ok.mp h
  obtain ⟨inserted, hinserted, h⟩ := bind_eq_ok.mp h
  cases h
  obtain ⟨hdrafts, hcovered⟩ := Store.validateGrantRevocations_cases hvalidated
  obtain ⟨hloop, hended⟩ := withdrawNodeGrants_writes cfg hdrafts hwithdrawn
  -- what is still live after the loop had run out before it
  have hexpire : Write cfg now (if s.expiresGranted nodeId now then .expire else .lapse) withdrawn
      (withdrawn.expireLapsed nodeId expired) := by
    refine Write.expireLapsed ?_
    split
    · exact .inl rfl
    next hnone =>
    refine .inr ⟨rfl, ?_⟩
    intro key o id g ho hgranted hid hg
    rw [Bool.eq_false_iff]
    intro hlapsed
    have hlive := isLive_of_lapsed hlapsed
    obtain ⟨o₀, g₀, ho₀, hstatus, hid₀, hg₀, hsame, hgrant⟩ :=
      open_before (hloop.mono (by simp)) ho (by rw [hgranted]; rfl) hid hg hlive
    have hnode : g₀.grant.nodeId = nodeId := by
      rw [hgrant]
      exact eq_of_beq (Bool.and_eq_true_iff.mp (Bool.and_eq_true_iff.mp hlapsed).1).1
    by_cases hexpired : g₀.grant.expiresAtMs ≤ now
    · refine hnone (Store.any_operations ho₀ ?_)
      simp [hstatus, hgranted, hid₀, hg₀, Store.lapsed, hnode, hexpired, hsame, hlive]
    have hmem : (id, g₀) ∈ s.unexpiredGrants nodeId now := by
      refine Table.mem_select.mpr ⟨hg₀, ?_⟩
      simp only [hnode, beq_self_eq_true, hsame, hlive, Bool.and_self, Bool.true_and,
        decide_eq_true_eq]
      omega
    obtain ⟨v, hv, hvid⟩ := hcovered _ hmem
    have hdead := hended v hv g (by rw [hvid]; exact hg)
    rw [hlive] at hdead
    cases hdead
  have hexpired : Writes cfg now [.withdraw, .administer, .tell, .regroup,
      if s.expiresGranted nodeId now then .expire else .lapse,
      if s.cancelsUnclosed nodeId then .abandon else .close] s
      (withdrawn.expireLapsed nodeId expired) :=
    (hloop.mono (by simp)).tail hexpire (by simp)
  refine hexpired.trans (Transaction.Path.trans ?_
    (.head (Write.administer (Store.insertRotation_administers hinserted)) (by simp)
      (.single (Write.tell (validateNodeKeyRotationDocument_cases hdocument)) (by simp))))
  by_cases hquiet : s.cancelsUnclosed nodeId = true
  · exact (Store.cancelNodeOperations_abandons (hexpired.coherent hs)).mono (by simp [hquiet])
  refine (Store.cancelNodeOperations_closes (hexpired.coherent hs) ?_).mono (by simp [hquiet])
  intro key o eventKey ho hnode hpending hkey
  exfalso
  -- the pending operations are those from before the rotation
  obtain ⟨o₀, ho₀, hmove⟩ :=
    (Writes.evolves (by decide) (by decide) (by decide) hloop).1.get_back ho
  refine hquiet (Store.any_operations ho₀ ?_)
  have hstatus : o₀.status = o.status := by
    rcases hmove.status with heq | ⟨hmoved, -⟩
    · exact heq.symm
    revert hmoved hpending
    generalize o₀.status = a, o.status = b
    revert a b
    decide
  have hsame := hmove.request
  simp [hstatus, hpending, ← hsame, hnode, hkey]

theorem Store.completeNodeKeyRotation_writes {rotationId fingerprint : String} {keyVersion : ℕ} :
    Writes cfg time [.administer] s
      (s.completeNodeKeyRotation cfg nodeId rotationId keyVersion fingerprint).1 := by
  unfold Store.completeNodeKeyRotation
  iterate 4
    split
    · exact .refl
  -- the node's keys first, then the tables that follow them
  next r _ _ _ _ =>
  let switched := s.updateNodes (fun k _ => k == nodeId) fun n =>
    { n with
      signingPub := r.signingPublic
      recipientPub := r.recipientPublic
      keyVersion := r.toKeyVersion }
  have hnodes : Administers s switched := .of_nodes fun _ hn => hn
  exact .head (Write.administer hnodes) (by simp) (.single (Write.administer
    (.of_tables rfl (.of_update fun _ => ⟨rfl, rfl⟩))) (by simp))

end BlindPass.Controller
