import BlindPass.Controller.Transactions.Cancellation

/-!
# What issuing and settling grants writes

Issuing turns every draft into a grant, or denies the operations of all of them. A report
of the broker moves a grant and its operation together; an operator's revocation ends both.
-/

namespace BlindPass.Controller

open Fleet (Revocation SignedEnvelope)
open Transaction (bind_eq_ok)
open Table.Evolves (refl)

variable {cfg : Config} {time : ℕ} {s s' : Store} {d : GrantIssueDraft} {drafts : List GrantIssueDraft}

/-! ### Issuing -/

theorem Store.issueGrant_cases (h : s.issueGrant d = .ok s') : ∃ o, Issues s d o s' := by
  unfold Store.issueGrant at h
  split at h
  · cases h
  next hfree =>
  split at h
  · cases h
  next hknown =>
  cases h
  rw [Bool.or_eq_true, not_or, Std.TreeMap.contains_eq_isSome_getElem?] at hfree
  obtain ⟨o, ho, hstatus⟩ := (Option.any_eq_true _ _).mp (by simpa using hknown)
  rw [Bool.and_eq_true, beq_iff_eq, beq_iff_eq] at hstatus
  have hnone : s.grants[d.grant.id]? = none := by simpa using hfree.1
  refine ⟨o, hnone, ?_, ho, hstatus.1, ?_, ?_, rfl, rfl⟩
  · intro id g hg hsame
    refine hfree.2 (List.any_eq_true.mpr
      ⟨(id, g), Std.TreeMap.mem_toList_iff_getElem?_eq_some.mpr hg, ?_⟩)
    rw [hsame, beq_self_eq_true]
  · intro key
    change (Table.updateWhere s.operations _ _)[key]? = _
    rw [Table.getElem?_updateWhere]
    by_cases hkey : key = d.grant.operationId
    · subst hkey
      simp [ho, hstatus.1, hstatus.2]
    rw [if_neg hkey]
    rcases s.operations[key]? with _ | other
    · rfl
    · simp [hkey]
  · intro id
    change (s.grants.insert d.grant.id _)[id]? = _
    exact Table.getElem?_insert

/-- Valid drafts carry their grants, each for another operation. -/
theorem validateDrafts_cases {seen : List String} (h : validateDrafts seen drafts = .ok ()) :
    (∀ d ∈ drafts, d.envelope = ⟨d.grant.issuerEpoch, .grant d.grant⟩ ∧ d.grant.isValid = true ∧
      d.grant.operationId ∉ seen) ∧ (drafts.map fun d => d.grant.operationId).Nodup := by
  induction drafts generalizing seen with
  | nil => exact ⟨List.forall_mem_nil _, List.nodup_nil⟩
  | cons d rest ih =>
    unfold validateDrafts at h
    split at h
    · cases h
    next hvalid =>
    split at h
    · cases h
    next hbinding =>
    simp only [Bool.or_eq_true, bne_iff_ne, not_or, not_not] at hbinding
    obtain ⟨⟨-, hnew⟩, henvelope⟩ := hbinding
    obtain ⟨hrest, hnodup⟩ := ih h
    refine ⟨?_, ?_⟩
    · intro d' hd'
      rcases List.mem_cons.mp hd' with rfl | hd'
      · exact ⟨henvelope, by simpa using hvalid, by simpa using hnew⟩
      · obtain ⟨henvelope', hvalid', hnew'⟩ := hrest d' hd'
        exact ⟨henvelope', hvalid', fun hseen => hnew' (.tail _ hseen)⟩
    · refine List.nodup_cons.mpr ⟨?_, hnodup⟩
      -- a later draft for the same operation would have been refused
      intro hmem
      obtain ⟨d', hd', hsame⟩ := List.mem_map.mp hmem
      exact (hrest d' hd').2.2 (hsame ▸ (.head _))

/-- If every element has an image, the list is paired with its images. -/
theorem mem_zip_filterMap {α β : Type*} {f : α → Option β} {l : List α}
    (h : (l.filterMap f).length = l.length) {a : α} (ha : a ∈ l) :
    ∃ b, f a = some b ∧ (a, b) ∈ l.zip (l.filterMap f) := by
  induction l with
  | nil => exact absurd ha List.not_mem_nil
  | cons c rest ih =>
    rcases hc : f c with _ | b
    · rw [List.filterMap_cons_none hc, List.length_cons] at h
      have hle := List.length_filterMap_le f rest
      omega
    · rw [List.filterMap_cons_some hc] at h ⊢
      rcases List.mem_cons.mp ha with rfl | ha
      · exact ⟨b, hc, by simp⟩
      · obtain ⟨b', hb', hmem⟩ := ih (by simpa using h) ha
        exact ⟨b', hb', .tail _ hmem⟩

variable {c : GrantContext} {operationId grantId nodeId : String} {now closed : ℕ}
  {contexts : List GrantContext} {g : GrantRow}

/-- What a context says about its operation. -/
theorem Store.grantContext?_cases (h : s.grantContext? operationId = some c) :
    c.operationId = operationId ∧ s.operations[operationId]? = some c.operation ∧
      ∃ (w : Workload) (n : Node), s.workloads[c.operation.workloadId]? = some w ∧
        s.nodes[c.operation.nodeId]? = some n ∧ c.nodeId = w.nodeId ∧
        c.workloadCeiling = w.localCeilingSeconds ∧ c.workloadStatus = w.status ∧
        c.nodeStatus = n.status ∧ c.rotationPending = s.rotations.contains c.operation.nodeId ∧
        c.mode = w.consumptionMode ∧ c.unit = w.unit ∧ c.account = w.account ∧
        c.recipientKeyVersion = n.keyVersion ∧ c.workloadId = c.operation.workloadId := by
  unfold Store.grantContext? at h
  split at h
  · cases h
  next o ho =>
  split at h
  · next w n hw hn =>
    cases h
    exact ⟨rfl, ho, w, n, hw, hn, rfl, rfl, rfl, rfl, rfl, rfl, rfl, rfl, rfl, rfl⟩
  · cases h

theorem Store.grantContext?_approvalStatus (h : s.grantContext? operationId = some c) :
    c.approvalStatus =
      (c.operation.approvalId.bind fun id => s.approvals[id]?).map OperationApproval.status := by
  unfold Store.grantContext? at h
  split at h
  · cases h
  split at h
  · cases h
    rfl
  · cases h

/-- What the comparison of a draft with its context establishes. -/
structure GrantIssueDraft.Matches (d : GrantIssueDraft) (c : GrantContext)
    (currentPolicy currentEpoch now : ℕ) : Prop where
  issued : d.grant.issuedAtMs ≤ now + 5000
  unexpired : now < d.grant.expiresAtMs
  requestedTtl : d.grant.expiresAtMs ≤ d.grant.issuedAtMs + c.operation.requestedTtlSeconds * 1000
  ceiling : d.grant.expiresAtMs ≤ d.grant.issuedAtMs + c.workloadCeiling * 1000
  nodeId : d.grant.nodeId = c.nodeId
  workloadId : d.grant.workloadId = c.workloadId
  unit : d.grant.unit = c.unit
  account : d.grant.account = c.account
  policyVersion : d.grant.policyVersion = currentPolicy
  current : c.operation.policyVersion = currentPolicy
  action : d.grant.action = c.operation.action
  mode : d.grant.mode = c.mode
  issuerEpoch : d.grant.issuerEpoch = currentEpoch
  recipientKeyId : d.grant.recipientKeyId = c.nodeId ++ "-" ++ toString c.recipientKeyVersion
  localCeiling : d.grant.localCeilingSeconds = c.workloadCeiling
  decision : c.operation.decision ≠ .deny
  requested : c.operation.status = .requested
  workloadActive : c.workloadStatus = .active
  nodeActive : c.nodeStatus = .active
  unrotated : c.rotationPending = false
  approved : c.approvalStatus.all (fun status => status == .approved) = true

theorem grantMatchesContext_cases {currentPolicy currentEpoch : ℕ}
    (h : grantMatchesContext d c currentPolicy currentEpoch now = true) :
    d.Matches c currentPolicy currentEpoch now := by
  simp only [grantMatchesContext, GrantIssueDraft.isTimely, GrantIssueDraft.isBound,
    GrantContext.isAuthorized, Bool.and_eq_true, decide_eq_true_eq, beq_iff_eq, bne_iff_ne,
    Bool.not_eq_true', and_assoc] at h
  obtain ⟨-, hissued, -, -, hunexpired, -, httl, hceiling, -, -, hnode, hworkload, -, hunit,
    haccount, -, hpolicy, hcurrent, haction, hmode, -, hepoch, hkey, hlocal, -, -, hdecision,
    hrequested, hworkloadActive, hnodeActive, hrotation, happroved⟩ := h
  exact
    { issued := hissued
      unexpired := hunexpired
      requestedTtl := httl.trans (Nat.add_le_add_left I64.checkedMul_getD_le _)
      ceiling := hceiling
      nodeId := hnode
      workloadId := hworkload
      unit := hunit
      account := haccount
      policyVersion := hpolicy
      current := hcurrent
      action := haction
      mode := hmode
      issuerEpoch := hepoch
      recipientKeyId := hkey
      localCeiling := hlocal
      decision := hdecision
      requested := hrequested
      workloadActive := hworkloadActive
      nodeActive := hnodeActive
      unrotated := hrotation
      approved := happroved }

/-- A draft that fits its operation as the store knows it. -/
structure Store.Fits (s : Store) (now : ℕ) (d : GrantIssueDraft) : Prop where
  envelope : d.envelope = ⟨d.grant.issuerEpoch, .grant d.grant⟩
  valid : d.grant.isValid = true
  context : ∃ c, s.grantContext? d.grant.operationId = some c ∧ c.operation.grantId = none ∧
    grantMatchesContext d c s.policyVersion s.issuerEpoch now = true

variable {outcome : GrantIssueOutcome} {envelope : SignedEnvelope} {r : Revocation}
  {reason : String} {code : ResultCode} {existing : Option OperationResult} {status : ResultStatus}

/-- Issuing answers, denies the operations of stale drafts, or issues all drafts. -/
theorem Store.issueOperationGrants_cases
    (h : s.issueOperationGrants cfg drafts now closed = .ok (s', outcome)) : s' = s ∨
    (s.anyStale drafts now = true ∧ s.denyStale cfg (s.grantContexts drafts) closed = .ok s') ∨
    ((∀ d ∈ drafts, s.Fits now d) ∧ (drafts.map fun d => d.grant.operationId).Nodup ∧
      drafts.foldlM (fun s d => s.issueGrant d) s = .ok s') := by
  unfold Store.issueOperationGrants at h
  split at h
  · cases h
  obtain ⟨⟨⟩, hvalid, h⟩ := bind_eq_ok.mp h
  obtain ⟨hdrafts, hnodup⟩ := validateDrafts_cases hvalid
  simp only at h
  split at h
  · cases h
    exact .inl rfl
  split at h
  · cases h
    exact .inl rfl
  next hconflict =>
  rw [Bool.or_eq_true, not_or, bne_iff_ne, not_not] at hconflict
  obtain ⟨hlength, hrequested⟩ := hconflict
  split at h
  · next hstale =>
    obtain ⟨denied, hdenied, hpure⟩ := bind_eq_ok.mp h
    cases hpure
    exact .inr (.inl ⟨hstale, hdenied⟩)
  · next hfresh =>
    obtain ⟨issued, hissued, hpure⟩ := bind_eq_ok.mp h
    cases hpure
    refine .inr (.inr ⟨fun d hd => ⟨(hdrafts d hd).1, (hdrafts d hd).2.1, ?_⟩, hnodup, hissued⟩)
    obtain ⟨c, hc, hpair⟩ := mem_zip_filterMap hlength hd
    refine ⟨c, hc, ?_, ?_⟩
    · by_contra hgranted
      refine hrequested (List.any_eq_true.mpr ⟨c, (List.of_mem_zip hpair).2, ?_⟩)
      simp [Option.isSome_iff_ne_none.mpr hgranted]
    · by_contra hmismatch
      refine hfresh (List.any_eq_true.mpr ⟨(d, c), hpair, ?_⟩)
      simpa using hmismatch

/-- A draft that fits expires about an hour after the clock's reading at the latest. -/
theorem Store.Fits.signed (h : s.Fits now d) (hnow : now ≤ latestInstant) : d.Signed := by
  refine ⟨h.envelope, h.valid, ?_⟩
  obtain ⟨c, -, -, hmatch⟩ := h.context
  have hissued := (grantMatchesContext_cases hmatch).issued
  have hlifetime : d.grant.expiresAtMs - d.grant.issuedAtMs ≤ 3600000 := by
    have hvalid := h.valid
    simp only [Fleet.Grant.isValid, Bool.and_eq_true, decide_eq_true_eq] at hvalid
    exact hvalid.1.1.1.2
  omega

theorem Store.issueGrants_writes (hdrafts : ∀ d ∈ drafts, d.Signed)
    (hactions : ∀ d ∈ drafts, ∀ o : Operation, s.operations[d.grant.operationId]? = some o →
      d.grant.action = o.action)
    (h : drafts.foldlM (fun s d => s.issueGrant d) s = .ok s') : Writes cfg time [.issue] s s' := by
  refine (Transaction.foldlM_induct
    (P := fun rest t => Writes cfg time [.issue] s t ∧ (∀ d ∈ rest, d.Signed) ∧ ∀ d ∈ rest,
      ∀ o : Operation, t.operations[d.grant.operationId]? = some o → d.grant.action = o.action)
    ?_ h ⟨.refl, hdrafts, hactions⟩).1
  rintro d rest t t' ⟨hw, hrest, haction⟩ hissue
  obtain ⟨o, hissues⟩ := Store.issueGrant_cases hissue
  refine ⟨hw.tail (Write.issue (hrest d (.head _))
      (haction d (.head _) o hissues.operation) hissues) (by simp),
    fun d' hd' => hrest d' (.tail d hd'), ?_⟩
  -- issuing leaves what the later drafts name as it is
  intro d' hd' o' ho'
  rw [hissues.operations] at ho'
  split at ho'
  · next heq =>
    cases ho'
    exact haction d' (.tail d hd') o (heq ▸ hissues.operation)
  · exact haction d' (.tail d hd') o' ho'

/-! ### Stale drafts -/

theorem Store.closeDenied_cases (h : s.closeDenied cfg closed c = .ok s') :
    ∃ docs, s' = { s with inbox := s.inbox ++ docs } ∧ Queued s.inbox docs ∧
      (c.operation.isWorkloadRequest = true → ∀ o eventKey,
        s.operations[c.operationId]? = some o → o.brokerEventKey = some eventKey →
        s.nodeActive o.nodeId = true → ∃ r ∈ docs, r.Closes o.nodeId c.operationId eventKey) := by
  unfold Store.closeDenied at h
  split at h
  · next hrequester =>
    cases h
    refine ⟨[], by rw [List.append_nil], .nil, fun hworkload => ?_⟩
    rw [hworkload] at hrequester
    cases hrequester
  split at h
  · cases h
  next hsigner =>
  obtain ⟨docs, rfl, hdocs, hcover⟩ := Store.enqueueClosures_cases h
  refine ⟨docs, rfl, hdocs, fun _ o eventKey ho hkey hactive => ?_⟩
  have hcfg : cfg.signer = true := by simpa using hsigner
  exact hcover hcfg _ (s.mem_closureTargets ho (beq_self_eq_true _) hactive hkey)

/-- What the denial of stale drafts writes: every requested operation among them ends, and
the ones that workloads requested are closed. -/
theorem Store.denyStale_cases (h : s.denyStale cfg contexts closed = .ok s') :
    ∃ docs, s' = { s with
        operations := Table.updateWhere s.operations
          (fun k o => (contexts.map GrantContext.operationId).contains k && o.status == .requested)
          fun o => o.withStatus .denied
        inbox := s.inbox ++ docs } ∧
      Queued s.inbox docs ∧
      (∀ c ∈ contexts, c.operation.isWorkloadRequest = true → ∀ o eventKey,
        s.operations[c.operationId]? = some o → o.brokerEventKey = some eventKey →
        s.nodeActive o.nodeId = true → ∃ r ∈ docs, r.Closes o.nodeId c.operationId eventKey) := by
  unfold Store.denyStale at h
  simp only at h
  generalize hdenied : s.updateOperations _ _ = denied at h
  -- the loop only queues documents, for one context after the other
  have hloop := Transaction.foldlM_induct
    (P := fun rest t => ∃ docs, t = { denied with inbox := denied.inbox ++ docs } ∧
      Queued denied.inbox docs ∧
      ∀ c ∈ contexts, c ∈ rest ∨ (c.operation.isWorkloadRequest = true → ∀ o eventKey,
        denied.operations[c.operationId]? = some o → o.brokerEventKey = some eventKey →
        denied.nodeActive o.nodeId = true →
        ∃ r ∈ docs, r.Closes o.nodeId c.operationId eventKey)) ?_ h
    ⟨[], by rw [List.append_nil], .nil, fun _ hc => .inl hc⟩
  · obtain ⟨docs, rfl, hdocs, hcover⟩ := hloop
    subst hdenied
    refine ⟨docs, rfl, hdocs, fun c hc hworkload o eventKey ho hkey hactive => ?_⟩
    rcases hcover c hc with hnil | hclosed
    · exact absurd hnil List.not_mem_nil
    -- the denied row has the same node and event
    obtain ⟨o', ho', hsame⟩ : ∃ o' : Operation, (s.updateOperations
        (fun k o => (contexts.map GrantContext.operationId).contains k && o.status == .requested)
        fun o => o.withStatus .denied).operations[c.operationId]? = some o' ∧
        o'.toOperationRequest = o.toOperationRequest := by
      refine ⟨_, Table.getElem?_updateWhere_eq_some.mpr ⟨o, ho, rfl⟩, ?_⟩
      split <;> rfl
    have hnode : o'.nodeId = o.nodeId := by rw [hsame]
    rw [← hnode]
    exact hclosed hworkload o' eventKey ho' (by rw [hsame, hkey]) (by rwa [hnode])
  · rintro c rest t t' ⟨docs, rfl, hdocs, hcover⟩ hstep
    obtain ⟨more, rfl, hmore, hthis⟩ := Store.closeDenied_cases hstep
    refine ⟨docs ++ more, by rw [List.append_assoc], hdocs.append hmore, ?_⟩
    intro c' hc'
    rcases hcover c' hc' with hrest | hclosed
    · rcases List.mem_cons.mp hrest with rfl | hrest
      · refine .inr fun hworkload o eventKey ho hkey hactive => ?_
        obtain ⟨r, hr, hcloses⟩ := hthis hworkload o eventKey ho hkey hactive
        exact ⟨r, List.mem_append_right _ hr, hcloses⟩
      · exact .inl hrest
    · refine .inr fun hworkload o eventKey ho hkey hactive => ?_
      obtain ⟨r, hr, hcloses⟩ := hclosed hworkload o eventKey ho hkey hactive
      exact ⟨r, List.mem_append_left _ hr, hcloses⟩

theorem moves_deny_requested :
    Table.Evolves (fun _ => Operation.Moves (Kind.moves .close)) s.operations
      (Table.updateWhere s.operations
        (fun k o => (contexts.map GrantContext.operationId).contains k && o.status == .requested)
        fun o => o.withStatus .denied) := by
  refine Table.evolves_updateWhere (fun _ _ => .refl) fun _ o _ hcond => ?_
  refine Operation.moves_withStatus ?_
  rw [eq_of_beq (Bool.and_eq_true_iff.mp hcond).2]
  rfl

theorem Write.deny_stale (h : s.denyStale cfg contexts closed = .ok s') :
    Write cfg time .abandon s s' := by
  obtain ⟨docs, rfl, hdocs, -⟩ := Store.denyStale_cases h
  refine Write.evolve rfl moves_deny_requested (refl fun _ _ => .refl) hdocs
    (.of_quiet (k := .abandon) (fun _ => rfl) (refl fun _ _ => .refl)) (absurd rfl)
    (fun _ => .of_eq) (fun _ => .of_moves moves_deny_requested ?_)
  decide

/-- A stale draft's operation was requested by an operator, and its broker waits for it. -/
def Store.deniesUnclosed (s : Store) (drafts : List GrantIssueDraft) (now : ℕ) : Bool :=
  s.anyStale drafts now && drafts.any fun d => s.operations[d.grant.operationId]?.any fun o =>
    o.brokerEventKey.isSome && !o.isWorkloadRequest

/-- If workloads requested all the operations, the denial closes their requests. -/
theorem Write.deny_stale_closing (hstale : s.anyStale drafts now = true)
    (hclosing : s.deniesUnclosed drafts now = false)
    (h : s.denyStale cfg (s.grantContexts drafts) closed = .ok s') :
    Write cfg time .close s s' := by
  obtain ⟨docs, rfl, hdocs, hcover⟩ := Store.denyStale_cases h
  refine Write.evolve rfl moves_deny_requested (refl fun _ _ => .refl) hdocs
    (.of_quiet (k := .close) (fun _ => rfl) (refl fun _ _ => .refl)) (fun _ => ?_)
    (fun _ => .of_eq) (fun _ => .of_moves moves_deny_requested ?_)
  · intro _ key o o' eventKey ho ho' hpending hended hkey hactive
    have hupdated := Table.updateWhere_of_some ho ho'
    split at hupdated
    · next hcond =>
      -- the operation belongs to a draft, so its requester is known to be a workload
      have hids := (Bool.and_eq_true_iff.mp hcond).1
      obtain ⟨c, hc, hcid⟩ := List.mem_map.mp (List.contains_iff_mem.mp hids)
      obtain ⟨d, hd, hcontext⟩ := List.mem_filterMap.mp hc
      obtain ⟨hid, hrow, -⟩ := Store.grantContext?_cases hcontext
      have hdkey : d.grant.operationId = key := hid.symm.trans hcid
      rw [hdkey, ho] at hrow
      obtain rfl : o = c.operation := Option.some.inj hrow
      rw [← hcid]
      refine hcover c hc ?_ _ eventKey (by rwa [hcid]) hkey hactive
      by_contra hoperator
      have hany : s.deniesUnclosed drafts now = true := by
        refine Bool.and_eq_true_iff.mpr ⟨hstale, List.any_eq_true.mpr ⟨d, hd, ?_⟩⟩
        rw [hdkey, ho]
        simpa [hkey] using hoperator
      rw [hany] at hclosing
      cases hclosing
    · rw [← hupdated, hpending] at hended
      cases hended
  · decide

theorem Store.issueOperationGrants_writes (hnow : now ≤ latestInstant)
    (h : s.issueOperationGrants cfg drafts now closed = .ok (s', outcome)) :
    Writes cfg time [.issue, if s.deniesUnclosed drafts now then .abandon else .close] s s' := by
  rcases Store.issueOperationGrants_cases h with rfl | ⟨hstale, hdenied⟩ | ⟨hfits, -, hissued⟩
  · exact .refl
  · split
    · exact .single (Write.deny_stale hdenied) (by simp)
    · next hclosing =>
      exact .single (Write.deny_stale_closing hstale (by simpa using hclosing) hdenied) (by simp)
  · refine (Store.issueGrants_writes (fun d hd => (hfits d hd).signed hnow) ?_ hissued).mono (by simp)
    intro d hd o ho
    obtain ⟨c, hc, -, hmatch⟩ := (hfits d hd).context
    obtain ⟨-, hop, -⟩ := Store.grantContext?_cases hc
    obtain rfl := Option.mem_unique hop ho
    exact (grantMatchesContext_cases hmatch).action

/-! ### Revocation by an operator -/

theorem validateRevocationEnvelope_cases
    (h : validateRevocationEnvelope envelope grantId nodeId reason = .ok r) :
    RevokesGrant envelope grantId nodeId := by
  unfold validateRevocationEnvelope at h
  split at h
  · next body hbody =>
    split at h
    · cases h
    split at h
    · cases h
    next hbinding =>
    simp only [Bool.or_eq_true, bne_iff_ne, not_or, not_not] at hbinding
    exact ⟨body, hbody, hbinding.1.1.2, hbinding.1.2⟩
  · cases h

theorem validateRevocationTime_cases {expiresAtMs : ℕ}
    (h : validateRevocationTime r now expiresAtMs = .ok ()) :
    max now expiresAtMs + tombstoneRetentionMs ≤ r.retainUntilMs := by
  unfold validateRevocationTime at h
  obtain ⟨minimum, hminimum⟩ : ∃ minimum, minimumRetention now expiresAtMs = some minimum := by
    rw [← Option.ne_none_iff_exists']
    intro hnone
    rw [hnone] at h
    cases h
  rw [hminimum, Option.elim_some] at h
  split at h
  · cases h
  next htime =>
  have hretained : minimum ≤ r.retainUntilMs := not_lt.mp fun hlt => htime (.inr (.inr hlt))
  exact (minimumRetention_eq hminimum).symm.le.trans hretained

/-- In a coherent store the operation a grant names is the one that holds it. -/
theorem Coherent.holder {id key : String} {o : Operation} (hs : Coherent s)
    (hg : s.grants[id]? = some g) (ho : s.operations[key]? = some o) (hid : o.grantId = some id) :
    key = g.grant.operationId := by
  obtain ⟨g', hg', hkey⟩ := hs.held key o id ho hid
  obtain rfl : g = g' := Option.mem_unique hg hg'
  exact hkey.symm

theorem Store.revokeGrant_writes {outcome : GrantRevocationOutcome} (hs : Coherent s)
    (h : s.revokeGrant grantId reason envelope now = .ok (s', outcome)) :
    Writes cfg now [.withdraw] s s' := by
  unfold Store.revokeGrant at h
  split at h
  · cases h
  split at h
  · cases h
    exact .refl
  next g hg =>
  split at h
  · split at h
    · cases h
      exact .refl
    split at h
    · cases h
      exact .refl
    split at h
    · cases h
      exact .refl
    next hsettled =>
    rw [Bool.or_eq_true, Bool.or_eq_true, not_or, not_or] at hsettled
    obtain ⟨r, hr, h⟩ := bind_eq_ok.mp h
    obtain ⟨⟨⟩, htime, h⟩ := bind_eq_ok.mp h
    obtain ⟨buried, hburied, h⟩ := bind_eq_ok.mp h
    cases h
    refine .single (Write.withdraw_grant hg (by simpa using hsettled.1.1) ?_ rfl rfl
      (validateRevocationEnvelope_cases hr) (validateRevocationTime_cases htime) hburied) (by simp)
    intro key o ho hid
    exact beq_iff_eq.mpr (hs.holder hg ho hid)
  · cases h
    exact .refl

/-! ### Reports -/

theorem resultTransition_cases {current next : OperationStatus} {value : OperationResult}
    (h : resultTransition status current existing code = .ok (some (next, value))) :
    (Kind.moves .consume) current next = true ∨ next = current := by
  unfold resultTransition at h
  simp only at h
  split at h
  -- a confirmed execution, or a provisional one that starts
  case h_1 | h_2 | h_3 | h_4 =>
    obtain ⟨rfl, -⟩ := Prod.mk.inj (Option.some.inj (Except.ok.inj h))
    exact .inl rfl
  -- a revoked operation stays revoked
  case h_9 =>
    split at h
    · cases h
    split at h
    · cases h
    · obtain ⟨rfl, -⟩ := Prod.mk.inj (Option.some.inj (Except.ok.inj h))
      exact .inr rfl
  all_goals cases h

/-- A report always takes an operation out of `granted`. -/
theorem resultTransition_granted {transition : Option (OperationStatus × OperationResult)}
    (h : resultTransition status .granted existing code = .ok transition) :
    ∃ next value, transition = some (next, value) ∧ next ≠ .granted := by
  cases status with
  | completed | uncertain =>
    cases h
    exact ⟨_, _, rfl, nofun⟩

theorem GrantRow.moves_consume : g.Moves (Kind.grantMoves .consume) (g.consume now) := by
  refine ⟨rfl, ?_, ?_⟩
  · unfold GrantRow.consume
    simp only
    split
    · next hlive =>
      right
      rw [Kind.grantMoves, hlive]
      rfl
    · exact .inl rfl
  · intro time htime
    rw [GrantRow.consume, htime]
    rfl

/-- The report's grant is used up, and its operation moves as the report says. -/
theorem Write.consume_grant {operations' : Std.TreeMap String Operation} (hs : Coherent s)
    (hg : s.grants[grantId]? = some g) (hkey : g.grant.operationId = operationId)
    (hops : Table.Evolves (fun _ => Operation.Moves (Kind.moves .consume)) s.operations operations')
    (hmoved : ∀ o', operations'[operationId]? = some o' → o'.status ≠ .granted) :
    Write cfg time .consume s { s with
      operations := operations'
      grants := Table.updateWhere s.grants (fun k _ => k == grantId) fun g => g.consume now } := by
  refine Write.evolve_silent rfl (by decide) hops (Table.evolves_updateWhere (fun _ _ => .refl)
    fun _ _ _ _ => GrantRow.moves_consume) (fun _ => .of_moves hops ?_) (fun _ => ?_)
    (fun _ => .of_moves hops ?_)
  · decide
  · intro key o' id c c' ho' hgranted hid hc hlive hc'
    obtain rfl := Table.updateWhere_of_some hc hc'
    by_cases hthis : id = grantId
    · subst hthis
      exfalso
      obtain ⟨before, hbefore, hmove⟩ := hops.get_back ho'
      have hholder := hs.holder hg hbefore (hmove.grantId.symm.trans hid)
      refine hmoved o' ?_ hgranted
      rw [← hkey, ← hholder]
      exact ho'
    · rw [if_neg (by simp [hthis])]
      exact hlive
  · decide

theorem Store.reconcileNodeOperationResult_writes {result : NodeResult} (hs : Coherent s)
    (h : s.reconcileNodeOperationResult nodeId result now = .ok s') :
    Writes cfg time [.consume] s s' := by
  unfold Store.reconcileNodeOperationResult at h
  iterate 4
    split at h
    · cases h
  split at h
  · next g o hg ho =>
    split at h
    · cases h
    next hbinding =>
    simp only [Bool.or_eq_true, bne_iff_ne, not_or, not_not] at hbinding
    obtain ⟨transition, htransition, h⟩ := bind_eq_ok.mp h
    have hkey : g.grant.operationId = result.operationId := hbinding.1.2
    simp only at h
    split at h
    · -- a report that changes nothing does not find the operation `granted`
      cases h
      refine .single (Write.consume_grant hs hg hkey (refl fun _ _ => .refl) ?_)
        (by simp)
      intro o' ho' hgranted
      obtain rfl : o = o' := Option.mem_unique ho ho'
      rw [hgranted] at htransition
      obtain ⟨_, _, hsome, -⟩ := resultTransition_granted htransition
      cases hsome
    · next next value =>
      cases h
      refine .single (Write.consume_grant hs hg hkey (Table.evolves_updateWhere
        (fun _ _ => .refl) ?_) ?_) (by simp)
      · intro key c _ hcond
        have hstatus : c.status = o.status := eq_of_beq (Bool.and_eq_true_iff.mp hcond).2
        refine ⟨⟨rfl, rfl, Nat.le_succ _, ?_⟩, rfl⟩
        rcases resultTransition_cases htransition with hmoves | hsame
        · right
          rw [hstatus]
          exact ⟨hmoves, Nat.lt_succ_self _⟩
        · left
          rw [hstatus, ← hsame]
          rfl
      · intro o' ho' hgranted
        have hupdated := Table.updateWhere_of_some ho ho'
        rw [beq_self_eq_true, beq_self_eq_true] at hupdated
        subst hupdated
        change next = .granted at hgranted
        rcases resultTransition_cases htransition with hmoves | hsame
        · rw [hgranted] at hmoves
          revert hmoves
          cases o.status <;> decide
        · rw [← hsame, hgranted] at htransition
          obtain ⟨_, _, hsome, hne⟩ := resultTransition_granted htransition
          obtain ⟨rfl, -⟩ := Prod.mk.inj (Option.some.inj hsome)
          exact hne rfl
  · cases h

theorem Store.applyGrantRevocationOutcome_writes {outcome : String} :
    Writes cfg time [.report] s (s.applyGrantRevocationOutcome nodeId grantId outcome now).1 := by
  unfold Store.applyGrantRevocationOutcome
  iterate 4
    split
    · exact .refl
  next g _ _ _ _ _ _ =>
  have hgrants : Table.Evolves (fun _ => GrantRow.Moves (Kind.grantMoves .report)) s.grants
      (Table.updateWhere s.grants (fun k g => k == grantId && g.brokerRevocationOutcome.isNone)
        fun g => { g with
          brokerRevocationOutcome := some outcome
          consumedAtMs := if outcome == Store.alreadyConsumed then g.consumedAtMs.or (some now)
            else g.consumedAtMs }) := by
    refine Table.evolves_updateWhere (fun _ _ => .refl) fun _ c _ _ => ⟨rfl, .inl rfl, ?_⟩
    intro time htime
    simp only [htime, Option.some_or, ite_self]
  have hlive : Table.Evolves (fun _ (g g' : GrantRow) =>
      g.status.isLive = true → g'.status.isLive = true) s.grants _ :=
    hgrants.mono fun _ g g' hmove hlive => by
      rcases hmove.status with heq | hmoves
      · rwa [heq]
      · cases hmoves
  simp only
  split
  · refine .single (Write.evolve_silent (k := .report) rfl (fun _ => rfl) (Table.evolves_updateWhere
      (fun _ _ => .refl) fun _ o _ _ => ⟨⟨rfl, rfl, Nat.le_succ _, .inl rfl⟩, rfl⟩) hgrants
      (fun _ => ?_) (fun _ => .of_live hlive) (fun _ => ?_)) (by simp)
    all_goals
      exact .of_moves (M := Kind.moves .report) (Table.evolves_updateWhere (fun _ _ => .refl)
        fun _ o _ _ => ⟨⟨rfl, rfl, Nat.le_succ _, .inl rfl⟩, rfl⟩) nofun
  · refine .single (Write.evolve_silent (k := .report) rfl (fun _ => rfl)
      (refl fun _ _ => .refl) hgrants (fun _ => ?_) (fun _ => .of_live hlive) (fun _ => ?_)) (by simp)
    all_goals exact .of_moves (M := Kind.moves .report) (refl fun _ _ => .refl) nofun

end BlindPass.Controller
