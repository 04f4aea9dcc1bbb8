import BlindPass.Controller.Transactions.Channel

/-!
# What requests, decisions and cancellations write

An operation enters with its group, is approved or denied with it, and may be cancelled
alone. Whoever ends a pending operation here also closes its request.
-/

namespace BlindPass.Controller

open Fleet (isValidOpaqueId)
open Transaction (bind_eq_ok)

variable {cfg : Config} {time : ℕ} {s s' : Store}

/-! ### Groups -/

variable {p : String → OperationApproval → Bool} {t : Std.TreeMap String OperationApproval}
  {operationId : String} {input : OperationDecision} {now : ℕ} {draft : OperationDraft}

/-- An update of pending groups that approves none. -/
theorem Regroups.of_update {f : OperationApproval → OperationApproval}
    (hp : ∀ id a, p id a = true → a.status = .pending)
    (hf : ∀ a : OperationApproval, a.status = .pending →
      (f a).status ≠ .approved ∧ (f a).groupScope = a.groupScope) :
    Regroups t (Table.updateWhere t p f) where
  kept := Table.extends_updateWhere (fun _ _ => .inl rfl) fun id a ha =>
    .inr ⟨hp id a ha, hf a (hp id a ha)⟩
  fresh := by
    intro id a' ha' hnone
    obtain ⟨a, ha, -⟩ := Table.getElem?_updateWhere_eq_some.mp ha'
    rw [hnone] at ha
    cases ha

theorem Regroups.refl : Regroups t t where
  kept := .refl fun _ _ => .inl rfl
  fresh := by
    intro id a ha hnone
    rw [hnone] at ha
    cases ha

theorem Regroups.expire :
    Regroups t (Table.updateWhere t (fun id a => p id a && a.status == .pending)
      OperationApproval.expire) :=
  .of_update (fun _ _ h => eq_of_beq (Bool.and_eq_true_iff.mp h).2) fun _ _ => ⟨nofun, rfl⟩

theorem Regroups.leave {decider : Option String} :
    Regroups t (Table.updateWhere t (fun id a => p id a && a.status == .pending)
      fun a => a.leave operationId decider) := by
  refine .of_update (fun _ _ h => eq_of_beq (Bool.and_eq_true_iff.mp h).2) fun a ha => ⟨?_, rfl⟩
  unfold OperationApproval.leave
  simp only [ha]
  split <;> exact nofun

variable {approvalId : String} {closed : ℕ} {a : OperationApproval} {clock : DecisionClock}
  {outcome : OperationDecisionOutcome} {event : Option BrokerOperationEvent}

/-- A member of a group, on its way out. -/
theorem moves_of_awaits {key : String} {o : Operation} {status : OperationStatus}
    {result : OperationResult} (ho : Store.awaits approvalId key o = true)
    (hstatus : (Kind.moves .close) .awaitingApproval status = true) :
    o.Moves (Kind.moves .close) (o.settle status result) := by
  refine Operation.moves_settle ?_
  have hawaiting : o.status = .awaitingApproval := eq_of_beq (Bool.and_eq_true_iff.mp ho).2
  rwa [hawaiting]

theorem Store.endGroup_writes {reason closure : String}
    (h : s.endGroup cfg approvalId reason closure closed = .ok s') :
    Writes cfg time [.regroup, .close] s s' := by
  refine Transaction.Path.trans (.single (Write.regroup Regroups.expire) (by simp))
    (.single (Write.close_pending (fun key o _ ho => moves_of_awaits ho rfl) ?_ h) (by simp))
  intro key o eventKey ho hp hactive hkey
  exact s.mem_closureTargets ho hp hactive hkey

/-! ### Decisions -/

/-- The pending group is decided on behalf of an operator whom it names, and who requested none
of its members. -/
structure Store.Decided (s : Store) (input : OperationDecision) (s' : Store) : Prop where
  group : ∃ a : OperationApproval, s.approvals[input.id]? = some a ∧ a.status = .pending ∧
    a.names input.decidedBy input.deciderUsername = true ∧
    s'.approvals[input.id]? = some (a.decide input)
  unbiased : ∀ (key : String) (o : Operation), s.operations[key]? = some o →
    o.approvalId = some input.id → o.requestedBy ≠ input.decidedBy
  others : ∀ other : String, other ≠ input.id → s'.approvals[other]? = s.approvals[other]?

theorem OperationApproval.not_conflicts (h : ¬ a.conflicts input = true) :
    a.status = .pending ∧ a.version = input.expectedVersion := by
  simp only [OperationApproval.conflicts, Bool.or_eq_true, bne_iff_ne, not_or, not_not] at h
  exact ⟨h.1.1.1.1, h.1.1.1.2⟩

theorem Write.approve_group (ha : s.approvals[input.id]? = some a) (hpending : a.status = .pending)
    (hversion : a.version = input.expectedVersion) (hdecision : input.decision = .approved)
    (hnamed : a.names input.decidedBy input.deciderUsername = true)
    (hunbiased : ∀ (key : String) (o : Operation), s.operations[key]? = some o →
      o.approvalId = some input.id → o.requestedBy ≠ input.decidedBy)
    (hs' : s' = (s.updateApprovals
      (fun k c => k == input.id && c.status == .pending && c.version == input.expectedVersion)
      fun c => c.decide input).updateOperations (Store.awaits input.id) fun o => o.approve now) :
    s.Decided input s' ∧ Write cfg time .approve s s' := by
  subst hs'
  have hdecided : (s.updateApprovals
      (fun k c => k == input.id && c.status == .pending && c.version == input.expectedVersion)
      fun c => c.decide input).approvals[input.id]? = some (a.decide input) := by
    refine Table.getElem?_updateWhere_eq_some.mpr ⟨a, ha, if_pos ?_⟩
    simp [hpending, hversion]
  have hothers : ∀ other : String, other ≠ input.id → (s.updateApprovals
      (fun k c => k == input.id && c.status == .pending && c.version == input.expectedVersion)
      fun c => c.decide input).approvals[other]? = s.approvals[other]? := by
    intro other hother
    rw [Store.updateApprovals, Table.getElem?_updateWhere]
    rcases s.approvals[other]? with _ | b
    · rfl
    · simp [hother]
  refine ⟨⟨⟨a, ha, hpending, hnamed, hdecided⟩, hunbiased, hothers⟩, ?_⟩
  refine Write.approve ha hpending hdecided ?_ rfl rfl hothers ?_
  · rw [OperationApproval.decide, hdecision]
    rfl
  · refine Table.evolves_updateWhere (fun _ _ => .inl rfl) fun key o _ hawaits => .inr ?_
    obtain ⟨hgroup, hawaiting⟩ := Bool.and_eq_true_iff.mp hawaits
    refine ⟨eq_of_beq hgroup, ⟨rfl, rfl, Nat.le_succ _, .inr ⟨?_, Nat.lt_succ_self _⟩⟩, rfl⟩
    rw [eq_of_beq hawaiting]
    rfl

/-- A decision approves the group, or it ends the group or leaves it alone. -/
theorem Store.decideOperationApproval_cases
    (h : s.decideOperationApproval cfg input clock = .ok (s', outcome)) :
    (s.Decided input s' ∧ Write cfg time .approve s s') ∨
      Writes cfg time [.regroup, .close] s s' := by
  unfold Store.decideOperationApproval at h
  split at h
  · cases h
    exact .inr .refl
  next a ha =>
  split at h
  · cases h
    exact .inr .refl
  split at h
  · cases h
    exact .inr .refl
  next hconflict =>
  split at h
  · cases h
    exact .inr .refl
  next hnames =>
  split at h
  · cases h
    exact .inr .refl
  next hself =>
  -- the group ends when its time or its members' authority is over
  split at h
  · obtain ⟨ended, hended, hpure⟩ := bind_eq_ok.mp h
    cases hpure
    exact .inr (Store.endGroup_writes hended)
  split at h
  · obtain ⟨ended, hended, hpure⟩ := bind_eq_ok.mp h
    cases hpure
    exact .inr (Store.endGroup_writes hended)
  obtain ⟨hpending, hversion⟩ := OperationApproval.not_conflicts hconflict
  simp only at h
  split at h
  · next hdecision =>
    cases h
    refine .inl (Write.approve_group ha hpending hversion hdecision (by simpa using hnames) ?_ rfl)
    intro key o ho hgroup hrequested
    refine hself (Table.countWhere_pos.mpr ⟨key, o, ho, ?_⟩)
    simp [hgroup, hrequested]
  · next hdecision =>
    obtain ⟨closed, hclosed, hpure⟩ := bind_eq_ok.mp h
    cases hpure
    refine .inr (Transaction.Path.trans (.single (Write.regroup (.of_update ?_ ?_)) (by simp))
      (.single (Write.close_pending (fun key o _ ho => moves_of_awaits ho rfl) ?_ hclosed)
        (by simp)))
    · intro id c hc
      exact eq_of_beq (Bool.and_eq_true_iff.mp (Bool.and_eq_true_iff.mp hc).1).2
    · intro c _
      rw [OperationApproval.decide, hdecision]
      exact ⟨nofun, rfl⟩
    · intro key o eventKey ho hp hactive hkey
      exact s.mem_closureTargets ho hp hactive hkey

theorem Store.decideOperationApproval_writes
    (h : s.decideOperationApproval cfg input clock = .ok (s', outcome)) :
    Writes cfg time [.regroup, .close, .approve] s s' := by
  rcases Store.decideOperationApproval_cases h with ⟨-, happrove⟩ | hends
  · exact .single happrove (by simp)
  · exact hends.mono (by simp)

theorem Store.cancelAwaitingOperation_writes {cancelledBy : String}
    {outcome : OperationCancelOutcome}
    (h : s.cancelAwaitingOperation cfg operationId cancelledBy closed = .ok (s', outcome)) :
    Writes cfg time [.regroup, .close] s s' := by
  unfold Store.cancelAwaitingOperation at h
  split at h
  · cases h
    exact .refl
  split at h
  · cases h
    exact .refl
  obtain ⟨told, htold, hpure⟩ := bind_eq_ok.mp h
  cases hpure
  -- the member leaves its group and ends; the two updates are of different tables
  refine Transaction.Path.trans (.single (Write.regroup Regroups.leave) (by simp))
    (.single (Write.close_pending ?_ ?_ htold) (by simp))
  · intro key o _ hcond
    refine Operation.moves_settle ?_
    rw [eq_of_beq (Bool.and_eq_true_iff.mp hcond).2]
    rfl
  · intro key o eventKey ho hp hactive hkey
    exact s.mem_closureTargets ho (Bool.and_eq_true_iff.mp hp).1 hactive hkey

/-! ### Requests -/

theorem Store.insertApproval_cases {draft : OperationApprovalDraft}
    (h : s.insertApproval operationId draft now = .ok s') :
    ∃ a : OperationApproval, s.approvals[draft.id]? = none ∧
      s' = { s with approvals := s.approvals.insert draft.id a } ∧
      a.status = .pending ∧ a.groupScope = draft.groupScope := by
  unfold Store.insertApproval at h
  split at h
  · cases h
  next hfree =>
  cases h
  refine ⟨_, ?_, rfl, rfl, rfl⟩
  rw [Bool.or_eq_true, not_or, Std.TreeMap.contains_eq_isSome_getElem?, Bool.not_eq_true,
    Option.isSome_eq_false_iff, Option.isNone_iff_eq_none] at hfree
  exact hfree.1

/-- The group an operation joined is pending, and of the draft's scope. -/
theorem Store.createOrExtendApproval_cases {id : String} {draft : OperationApprovalDraft}
    (h : s.createOrExtendApproval operationId draft now = .ok (s', id)) :
    Regroups s.approvals s'.approvals ∧ s' = { s with approvals := s'.approvals } ∧
      ∃ a : OperationApproval, s'.approvals[id]? = some a ∧ a.status = .pending ∧
        a.groupScope = draft.groupScope := by
  unfold Store.createOrExtendApproval at h
  simp only at h
  split at h
  · next candidate key a hfind =>
    cases h
    have hmem := List.mem_of_mem_take (List.mem_of_find?_eq_some hfind)
    obtain ⟨ha, hcond⟩ := Table.mem_select.mp (Table.mem_orderBy.mp (List.mem_reverse.mp hmem))
    simp only [Bool.and_eq_true, beq_iff_eq] at hcond
    obtain ⟨⟨⟨hpending, -⟩, hscope⟩, -⟩ := hcond
    refine ⟨.of_update ?_ ?_, rfl, _, Table.getElem?_updateWhere_eq_some.mpr ⟨a, ha, rfl⟩, ?_⟩
    · intro id c hc
      exact eq_of_beq (Bool.and_eq_true_iff.mp (Bool.and_eq_true_iff.mp hc).1).2
    · intro c hc
      rw [hc]
      exact ⟨nofun, rfl⟩
    · split
      all_goals exact ⟨hpending, hscope⟩
  · obtain ⟨inserted, hinserted, hpure⟩ := bind_eq_ok.mp h
    cases hpure
    obtain ⟨a, hfree, rfl, hpending, hscope⟩ := Store.insertApproval_cases hinserted
    refine ⟨⟨Table.extends_insert (fun _ _ => .inl rfl) hfree, ?_⟩, rfl, a, ?_, hpending, hscope⟩
    · intro id a' ha' hnone
      rw [Std.TreeMap.getElem?_insert] at ha'
      split at ha'
      · cases ha'
        exact hpending
      · rw [hnone] at ha'
        cases ha'
    · rw [Std.TreeMap.getElem?_insert_self]

theorem Store.joinApproval_cases {approvalId : Option String}
    (h : s.joinApproval draft now = .ok (s', approvalId)) :
    Regroups s.approvals s'.approvals ∧ s' = { s with approvals := s'.approvals } ∧
      (approvalId = none → draft.request.decision ≠ .pendingApproval) ∧
      ∀ id, approvalId = some id → ∃ a : OperationApproval, s'.approvals[id]? = some a ∧
        a.status = .pending ∧ a.groupScope = draft.approval.groupScope := by
  unfold Store.joinApproval at h
  split at h
  · next hdecision =>
    obtain ⟨⟨joined, id⟩, hjoined, hpure⟩ := bind_eq_ok.mp h
    cases hpure
    obtain ⟨hgroups, hrest, a, ha⟩ := Store.createOrExtendApproval_cases hjoined
    refine ⟨hgroups, hrest, nofun, ?_⟩
    intro id' hid'
    cases hid'
    exact ⟨a, ha⟩
  · next hdecision =>
    cases h
    exact ⟨Regroups.refl, rfl, fun _ => hdecision, nofun⟩

/-- The scope of a request's group is the request's own. -/
def OperationDraft.groupScope (draft : OperationDraft) : GroupScope :=
  { nodeId := draft.request.nodeId
    workloadId := draft.request.workloadId
    unit := draft.expectedUnit
    account := draft.expectedAccount
    action := draft.request.action
    mode := draft.request.mode
    ruleId := draft.approval.ruleId
    policyVersion := draft.request.policyVersion }

/-- What a route sees to before it asks for an operation. -/
structure OperationDraft.WellFormed (draft : OperationDraft) : Prop where
  id : isValidOpaqueId draft.id = true
  binding : Fleet.supportedOperationBinding draft.request.action draft.request.mode = true
  eventKey : draft.request.brokerEventKey.all isValidOpaqueId = true
  groupScope : draft.approval.groupScope = draft.groupScope

theorem Store.insertRequest_writes {clock : CreationClock} {outcome : OperationCreateOutcome}
    (hworkload : ∃ w : Workload, s.workloads[draft.request.workloadId]? = some w ∧
      w.nodeId = draft.request.nodeId) (hnode : ∃ n : Node, s.nodes[draft.request.nodeId]? = some n)
    (hdraft : draft.WellFormed) (h : s.insertRequest cfg draft clock = .ok (s', outcome)) :
    Writes cfg time [.regroup, .create, .tell] s s' := by
  unfold Store.insertRequest at h
  obtain ⟨⟨joined, approvalId⟩, hjoined, h⟩ := bind_eq_ok.mp h
  obtain ⟨⟨inserted, row⟩, hinserted, h⟩ := bind_eq_ok.mp h
  obtain ⟨hgroups, hrest, hungrouped, hgrouped⟩ := Store.joinApproval_cases hjoined
  have hregroup : Write cfg time .regroup s joined := by
    rw [hrest]
    exact Write.regroup hgroups
  refine Transaction.Path.trans (.single hregroup (by simp)) ?_
  have hcreate : Write cfg time .create joined inserted := by
    unfold Store.insertOperation at hinserted
    simp only at hinserted
    split at hinserted
    · cases hinserted
    next hfree =>
    cases hinserted
    refine Write.create ?_ hdraft.id ⟨hdraft.binding, hdraft.eventKey, ?_, rfl, rfl, ?_, hungrouped, ?_⟩
    · rw [Std.TreeMap.contains_eq_isSome_getElem?] at hfree
      simpa using hfree
    · rw [hrest]
      exact hnode
    · rw [hrest]
      exact hworkload
    · intro id hid
      obtain ⟨a, ha, hpending, hsame⟩ := hgrouped id hid
      exact ⟨a, ha, hpending, by rw [hsame, hdraft.groupScope]; rfl⟩
  refine Transaction.Path.trans (.single hcreate (by simp)) ?_
  simp only at h
  split at h
  · obtain ⟨closed, hclosed, hpure⟩ := bind_eq_ok.mp h
    cases hpure
    exact (Store.enqueueClosures_writes hclosed).mono (by simp)
  · cases h
    exact .refl

theorem Store.workloadFits_cases (h : s.workloadFits draft = true) :
    (∃ w : Workload, s.workloads[draft.request.workloadId]? = some w ∧
      w.nodeId = draft.request.nodeId) ∧ ∃ n : Node, s.nodes[draft.request.nodeId]? = some n := by
  obtain ⟨hworkload, hactive⟩ := Bool.and_eq_true_iff.mp h
  obtain ⟨w, hw, hfits⟩ := (Option.any_eq_true _ _).mp hworkload
  obtain ⟨n, hn, -⟩ := (Option.any_eq_true _ _).mp hactive
  simp only [Bool.and_eq_true, beq_iff_eq] at hfits
  exact ⟨⟨w, hw, hfits.1.1.1.1.1⟩, n, hn⟩

theorem Store.insertReceipt_administers {receipt : Bool}
    (h : s.insertReceipt event receipt now = .ok s') :
    Administers s s' ∧ s'.workloads = s.workloads ∧ s'.nodes = s.nodes := by
  unfold Store.insertReceipt at h
  split at h
  · cases h
    exact ⟨.of_tables rfl .refl, rfl, rfl⟩
  split at h
  · cases h
  refine ⟨Store.insertNodeEvent_administers h, ?_⟩
  unfold Store.insertNodeEvent at h
  split at h
  · cases h
  · cases h
    exact ⟨rfl, rfl⟩

theorem Store.createOperation_writes {clock : CreationClock} {outcome : OperationCreateOutcome}
    (hdraft : draft.WellFormed) (h : s.createOperation cfg draft event clock = .ok (s', outcome)) :
    Writes cfg time [.administer, .regroup, .create, .tell] s s' := by
  unfold Store.createOperation at h
  split at h
  · cases h
  split at h
  · cases h
  simp only at h
  split at h
  · cases h
    exact .refl
  split at h
  · -- the requester's key is known
    split at h
    · cases h
    split at h
    all_goals
      cases h
      exact .refl
  obtain ⟨taken, -, h⟩ := bind_eq_ok.mp h
  iterate 4
    split at h
    · cases h
      exact .refl
  next hfits =>
  obtain ⟨noted, hnoted, h⟩ := bind_eq_ok.mp h
  obtain ⟨hadmin, hworkloads, hnodes⟩ := Store.insertReceipt_administers hnoted
  obtain ⟨hworkload, hnode⟩ := Store.workloadFits_cases (by simpa using hfits)
  rw [← hworkloads] at hworkload
  rw [← hnodes] at hnode
  exact Transaction.Path.trans (.single (Write.administer hadmin) (by simp))
    ((Store.insertRequest_writes hworkload hnode hdraft h).mono (by simp))

end BlindPass.Controller
