import BlindPass.Controller.Lifecycle

/-!
# Authority behind every grant

A grant is drawn up and signed outside the store, from a reading that may be old when it is
issued. Issuing compares the draft with the tables again, and the tables themselves carry
the authority: an operation that needed approval is in a group, and a group is approved only
by an operator the group names. Both facts outlive the transaction that established them,
since no operation joins a decided group and no decided group changes.

That the account of this operator is enabled is not read again by the decision: the route read
it when it let the operator in. The account may be disabled or deleted in between, and the
decision counts all the same.
-/

namespace BlindPass.Controller

open Execution (Transition)
open Fleet (SignedEnvelope)

/-- The transaction moved the pending group to `approved`, on behalf of an operator whom the group
names. -/
structure Transition.Approves (u : Transition Store Event Answer) (groupId : String)
    (input : OperationDecision) : Prop where
  event : ∃ clock, u.event = .decideOperationApproval input clock
  group : input.id = groupId
  decided : ∃ a a' : OperationApproval, u.before.approvals[groupId]? = some a ∧
    a.status = .pending ∧ a.names input.decidedBy input.deciderUsername = true ∧
    u.after.approvals[groupId]? = some a' ∧ a'.status = .approved ∧
    a'.decidedBy = some input.decidedBy

/-- The operator requested none of the group's members. -/
def Store.Unbiased (s : Store) (groupId decider : String) : Prop :=
  ∀ (key : String) (o : Operation), s.operations[key]? = some o → o.approvalId = some groupId →
    o.requestedBy ≠ decider

/-- Every approved group was approved in the run by an operator who requested none of its
members. -/
def Store.Sanctioned (run : List (Transition Store Event Answer)) (s : Store) : Prop :=
  ∀ (id : String) (a : OperationApproval), s.approvals[id]? = some a → a.status = .approved →
    ∃ input : OperationDecision, s.Unbiased id input.decidedBy ∧
      ∃ u ∈ run, Transition.Approves u id input

/-- Every operation runs on the node of its workload, and was put into a group if it needs
approval. -/
structure Store.Placed (s : Store) : Prop where
  workload : ∀ (key : String) (o : Operation), s.operations[key]? = some o →
    ∃ w : Workload, s.workloads[o.workloadId]? = some w ∧ w.nodeId = o.nodeId
  grouped : ∀ (key : String) (o : Operation), s.operations[key]? = some o →
    o.approvalId = none → o.decision ≠ .pendingApproval

variable {cfg : Config} {time : ℕ} {bytes : SignedEnvelope → ℕ} {k : Kind} {K : List Kind} {s s' : Store}
  {e : Event} {run : List (Transition Store Event Answer)}

/-! ### One statement -/

/-- Every operation was there before, or has just been created. -/
theorem Write.operation_cases (hw : Write cfg time k s s') {key : String} {o' : Operation}
    (ho' : s'.operations[key]? = some o') :
    (∃ o : Operation, s.operations[key]? = some o ∧ o'.toOperationRequest = o.toOperationRequest ∧
      o'.approvalId = o.approvalId) ∨
    (Starts s o' ∧ s'.approvals = s.approvals ∧ s'.workloads = s.workloads) := by
  by_cases hcreate : k = .create
  · subst hcreate
    cases hw with
    | create _ _ hstarts =>
      rw [Table.getElem?_insert] at ho'
      split at ho'
      · cases ho'
        exact .inr ⟨hstarts, rfl, rfl⟩
      · exact .inl ⟨o', ho', rfl, rfl⟩
    | evolve hk => cases hk
  by_cases hissue : k = .issue
  · subst hissue
    cases hw with
    | issue _ _ hissues =>
      rw [hissues.operations] at ho'
      split at ho'
      · next hkey =>
        cases ho'
        rw [hkey]
        exact .inl ⟨_, hissues.operation, rfl, rfl⟩
      · exact .inl ⟨o', ho', rfl, rfl⟩
    | evolve hk => cases hk
  · obtain ⟨o, ho, hmoves⟩ := (hw.evolves hcreate hissue).1.get_back ho'
    exact .inl ⟨o, ho, hmoves.request, hmoves.approvalId⟩

theorem Write.workloads (hw : Write cfg time k s s') :
    Table.Extends (fun _ w w' => w'.nodeId = w.nodeId) s.workloads s'.workloads := by
  cases hw with
  | administer ha => exact ha.workloads
  | issue _ _ hissues =>
    rw [hissues.rest]
    exact .refl fun _ _ => rfl
  | sign _ _ | tell _ | mark _ _ | regroup _ | create _ _ _ | approve _ _ _ _ _ _ _ _
  | evolve => exact .refl fun _ _ => rfl

theorem Write.placed (hw : Write cfg time k s s') (h : s.Placed) : s'.Placed where
  workload := by
    intro key o' ho'
    rcases hw.operation_cases ho' with ⟨o, ho, hrequest, -⟩ | ⟨hstarts, -, hworkloads⟩
    · obtain ⟨w, hwl, hnode⟩ := h.workload key o ho
      obtain ⟨w', hwl', hnode'⟩ := hw.workloads _ w hwl
      rw [congrArg OperationRequest.workloadId hrequest, congrArg OperationRequest.nodeId hrequest]
      exact ⟨w', hwl', hnode'.trans hnode⟩
    · rw [hworkloads]
      exact hstarts.workload
  grouped := by
    intro key o' ho'
    rcases hw.operation_cases ho' with ⟨o, ho, hrequest, hgroup⟩ | ⟨hstarts, -, -⟩
    · rw [hgroup, congrArg OperationRequest.decision hrequest]
      exact h.grouped key o ho
    · exact hstarts.ungrouped

/-- Statements that approve nothing: approved groups and their members are older. -/
def Store.KeepsApproved (s s' : Store) : Prop :=
  ∀ (id : String) (a : OperationApproval), s'.approvals[id]? = some a → a.status = .approved →
    s.approvals[id]? = some a ∧ ∀ decider, s.Unbiased id decider → s'.Unbiased id decider

theorem Write.keepsApproved (hw : Write cfg time k s s') (happrove : k ≠ .approve) :
    s.KeepsApproved s' := by
  intro id a ha happroved
  have hsame : s.approvals[id]? = some a := by
    cases hw with
    | administer hadmin => rwa [hadmin.approvals] at ha
    | sign _ _ | tell _ | mark _ _ | create _ _ _ | evolve _ _ _ _ _ _ _ _ => exact ha
    | issue _ _ hissues =>
      rw [hissues.rest] at ha
      exact ha
    | approve => exact absurd rfl happrove
    | regroup hgroups =>
      rcases hold : s.approvals[id]? with _ | b
      · exact absurd (hgroups.fresh id a ha hold) (by rw [happroved]; exact nofun)
      obtain ⟨a', ha', rfl | ⟨-, hnot, -⟩⟩ := hgroups.kept id b hold
      · exact ha'.symm.trans ha
      · obtain rfl := Option.mem_unique ha' ha
        exact absurd happroved hnot
  refine ⟨hsame, fun decider hunbiased key o' ho' hgroup => ?_⟩
  rcases hw.operation_cases ho' with ⟨o, ho, hrequest, happroval⟩ | ⟨hstarts, -, -⟩
  · rw [congrArg OperationRequest.requestedBy hrequest]
    exact hunbiased key o ho (happroval ▸ hgroup)
  -- a new operation joins a pending group
  obtain ⟨b, hb, hpending, -⟩ := hstarts.grouped id hgroup
  obtain rfl := Option.mem_unique hsame hb
  rw [happroved] at hpending
  cases hpending

theorem Writes.keepsApproved (hw : Writes cfg time K s s') (happrove : .approve ∉ K) :
    s.KeepsApproved s' := by
  refine hw.relates (R := Store.KeepsApproved)
    (fun s id a ha _ => ⟨ha, fun _ h => h⟩) ?_ ?_
  · intro s t u h₁ h₂ id a ha happroved
    obtain ⟨hmid, hforth⟩ := h₂ id a ha happroved
    obtain ⟨hfirst, hforth'⟩ := h₁ id a hmid happroved
    exact ⟨hfirst, fun decider => hforth decider ∘ hforth' decider⟩
  · intro k hk s t hw
    exact hw.keepsApproved fun heq => happrove (heq ▸ hk)

/-- A decision keeps unbiased operators unbiased. -/
theorem Write.unbiased (hw : Write cfg time .approve s s') {id decider : String}
    (hunbiased : s.Unbiased id decider) : s'.Unbiased id decider := by
  intro key o' ho' hgroup
  obtain ⟨o, ho, hmoves⟩ := (hw.evolves nofun nofun).1.get_back ho'
  rw [congrArg OperationRequest.requestedBy hmoves.request]
  exact hunbiased key o ho (hmoves.approvalId ▸ hgroup)

/-! ### One transaction -/

theorem Event.approve_notMem (h : ∀ input clock, e ≠ .decideOperationApproval input clock) :
    .approve ∉ e.kinds s := by
  cases e with
  | decideOperationApproval input clock => exact absurd rfl (h input clock)
  | _ => simp [Event.kinds, eq_ite_iff]

variable (cfg bytes) in
/-- A transaction approves one group, or leaves the approved groups as they were. -/
theorem step_approves (hs : Coherent s) (hadm : e.Admitted) :
    (∃ input clock, e = .decideOperationApproval input clock ∧
      s.Decided input (s.step cfg bytes e).1 ∧ Write cfg e.time .approve s (s.step cfg bytes e).1) ∨
    s.KeepsApproved (s.step cfg bytes e).1 := by
  by_cases hdecide : ∃ input clock, e = .decideOperationApproval input clock
  · obtain ⟨input, clock, rfl⟩ := hdecide
    rcases hresult : s.decideOperationApproval cfg input clock with error | ⟨s', outcome⟩
    · simp only [Store.step, hresult, Store.commit]
      exact .inr fun id a ha _ => ⟨ha, fun _ h => h⟩
    simp only [Store.step, hresult, Store.commit]
    rcases Store.decideOperationApproval_cases hresult with happrove | hends
    · exact .inl ⟨input, clock, rfl, happrove⟩
    · exact .inr (hends.keepsApproved (by decide))
  · refine .inr ((step_writes _ _ hs hadm).keepsApproved (Event.approve_notMem ?_))
    intro input clock heq
    exact hdecide ⟨input, clock, heq⟩

/-- A transaction keeps the approvals sanctioned: the new one is part of the run. -/
theorem step_sanctioned (hs : Coherent s) (hadm : e.Admitted) (h : s.Sanctioned run) :
    ((controller cfg bytes).step s e).1.Sanctioned (run ++ [(controller cfg bytes).transition s e]) := by
  intro id a' ha' happroved
  have hstep := step_approves cfg bytes hs hadm
  -- an older approval is witnessed by the run before
  have hold : s.approvals[id]? = some a' →
      (∀ decider, s.Unbiased id decider → (s.step cfg bytes e).1.Unbiased id decider) →
      ∃ input : OperationDecision, (s.step cfg bytes e).1.Unbiased id input.decidedBy ∧
        ∃ u ∈ run ++ [(controller cfg bytes).transition s e], Transition.Approves u id input := by
    intro ha hforth
    obtain ⟨input, hunbiased, u, hu, happroves⟩ := h id a' ha happroved
    exact ⟨input, hforth _ hunbiased, u, List.mem_append_left _ hu, happroves⟩
  rcases hstep with ⟨input, clock, hevent, hdecided, hw⟩ | hkeeps
  · by_cases hid : id = input.id
    · subst hid
      obtain ⟨a, ha, hpending, hnamed, hafter⟩ := hdecided.group
      obtain rfl := Option.mem_unique hafter ha'
      exact ⟨input, hw.unbiased hdecided.unbiased, _, List.mem_append_right run (.head _),
        ⟨clock, hevent⟩, rfl, a, _, ha, hpending, hnamed, ha', happroved, rfl⟩
    · exact hold ((hdecided.others id hid).symm.trans ha') fun _ => hw.unbiased
  · obtain ⟨ha, hforth⟩ := hkeeps id a' ha' happroved
    exact hold ha hforth

/-! ### Runs -/

theorem Run.placed (h : (controller cfg bytes).Run run s) : s.Placed := by
  suffices hboth : Coherent s ∧ s.Placed from hboth.2
  refine h.invariant (P := fun s => Coherent s ∧ s.Placed) ?_ ?_
  · rintro s ⟨issuerEpoch, policy, operators, -, rfl⟩
    refine ⟨Store.coherent_initial, ?_, ?_⟩
    all_goals
      intro key o ho
      exact absurd ho (by simp [Store.initial])
  · rintro s e ⟨hs, hplaced⟩ hadm
    have hw := step_writes cfg bytes hs hadm
    exact ⟨hw.coherent hs, hw.invariant (fun _ _ _ _ hw h => hw.placed h) hplaced⟩

theorem Run.sanctioned (h : (controller cfg bytes).Run run s) : s.Sanctioned run := by
  induction h with
  | start hs =>
    obtain ⟨issuerEpoch, policy, operators, -, rfl⟩ := hs
    intro id a ha
    exact absurd ha (by simp [Store.initial])
  | step hrun hadm ih => exact step_sanctioned (Run.coherent hrun) hadm ih

/-! ### Who is let in -/

/-- The operator that a route lets in by this step. -/
def Transition.operator? (u : Transition Store Event Answer) : Option (String × String) :=
  match u.output with
  | .letIn operator => operator
  | _ => none

/-- The operator on whose behalf a decision is made. -/
def Event.decider? : Event → Option (String × String)
  | .decideOperationApproval input _ => some (input.decidedBy, input.deciderUsername)
  | _ => none

/-- The routes make a decision on behalf of an operator whom they let in before. -/
def Checked (run : List (Transition Store Event Answer)) : Prop :=
  ∀ i < run.length, ∀ decider ∈ run[i]?.bind (·.event.decider?),
    ∃ u ∈ run.take i, Transition.operator? u = some decider

instance : Decidable (Checked run) := by
  unfold Checked
  infer_instance

/-- The step found the account of the operator enabled and let the operator in. -/
def Transition.LetsIn (u : Transition Store Event Answer) (input : OperationDecision) : Prop :=
  u.event = .requireApprovalOperator input.decidedBy ∧
    ∃ operator : Operator, u.before.operators[input.decidedBy]? = some operator ∧
      operator.mayDecide = true ∧ operator.username = input.deciderUsername

theorem Store.commit_letIn {α : Type} {answer : α → Answer}
    {result : Except StoreError (Store × α)} {operator : Option (String × String)}
    (h : ∀ a, answer a ≠ .letIn operator) : (s.commit answer result).2 ≠ .letIn operator := by
  rcases result with error | ⟨s', a⟩
  · exact nofun
  · exact h a

/-- Only the check of an operator lets one in. -/
theorem Store.step_letIn {operator : Option (String × String)}
    (h : (s.step cfg bytes e).2 = .letIn operator) :
    ∃ id, e = .requireApprovalOperator id ∧
      operator = (s.operators[id]?.filter (·.mayDecide)).map (id, ·.username) := by
  cases e with
  | requireApprovalOperator id => exact ⟨id, rfl, (Answer.letIn.inj h).symm⟩
  | manageOperators _ | applyGrantRevocationOutcome _ _ _ _ | finalizeNodeRevocation _ _
  | completeNodeKeyRotation _ _ _ _ | authenticateNodeSession _ _ _ _ _ _ _ | fleetFencePurge _
  | pruneFleetState _ | queueForeignDocument _ _ _ => cases h
  | _ => exact absurd h (Store.commit_letIn fun _ => nofun)

/-- In a run of the routes the operator behind a decision was let in before. -/
theorem letsIn_of_checked {before after : List (Transition Store Event Answer)}
    {u : Transition Store Event Answer} {input : OperationDecision} {clock : DecisionClock}
    (h : (controller cfg bytes).Run (before ++ u :: after) s) (hchecked : Checked (before ++ u :: after))
    (hevent : u.event = .decideOperationApproval input clock) :
    ∃ c ∈ before, Transition.LetsIn c input := by
  obtain ⟨c, hc, hoperator⟩ := hchecked before.length (by simp)
    (input.decidedBy, input.deciderUsername) (by simp [hevent, Event.decider?])
  rw [List.take_left' rfl] at hc
  refine ⟨c, hc, ?_⟩
  obtain ⟨first, rest, rfl⟩ := List.append_of_mem hc
  obtain ⟨-, -, hstep⟩ := h.split.1.split
  unfold Transition.operator? at hoperator
  split at hoperator
  · next operator houtput =>
    rw [hstep] at houtput
    obtain ⟨id, hid, rfl⟩ := Store.step_letIn houtput
    obtain ⟨account, haccount, hsame⟩ := Option.map_eq_some_iff.mp hoperator
    obtain ⟨hfound, hmay⟩ := Option.filter_eq_some_iff.mp haccount
    obtain ⟨rfl, hname⟩ := Prod.mk.inj hsame
    exact ⟨hid, account, hfound, hmay, hname⟩
  · cases hoperator

/-! ### Issuing -/

/-- What stands behind the grant that the transition `t` issues after the run `before`. -/
structure Authorized (before : List (Transition Store Event Answer))
    (t : Transition Store Event Answer) (now : ℕ) (grant : Fleet.Grant) (o : Operation) (w : Workload)
    (n : Node) : Prop where
  operation : t.before.operations[grant.operationId]? = some o
  requested : o.status = .requested
  ungranted : o.grantId = none
  sanctioned : o.decision = .allow ∨ ∃ groupId input, o.approvalId = some groupId ∧
    t.before.Unbiased groupId input.decidedBy ∧ ∃ earlier u later, before = earlier ++ u :: later ∧
      Transition.Approves u groupId input ∧ ∃ c ∈ earlier, Transition.LetsIn c input
  current : o.policyVersion = t.before.policyVersion
  workload : t.before.workloads[o.workloadId]? = some w
  workloadActive : w.status = .active
  node : t.before.nodes[o.nodeId]? = some n
  nodeActive : n.status = .active
  unrotated : t.before.rotations.contains o.nodeId = false
  sameNode : grant.nodeId = o.nodeId
  issued : grant.issuedAtMs ≤ now + 5000
  bounded : grant.expiresAtMs ≤
    grant.issuedAtMs + 1000 * min o.requestedTtlSeconds w.localCeilingSeconds
  queued : ∃ docs, t.after.inbox = t.before.inbox ++ docs ∧
    ∃ r ∈ docs, r.nodeId = grant.nodeId ∧ r.envelope = ⟨grant.issuerEpoch, .grant grant⟩

/-- The loop of an issuance: every new grant is a draft's, and its document is queued. -/
theorem Store.issueGrants_cases {drafts : List GrantIssueDraft}
    (h : drafts.foldlM (fun s d => s.issueGrant d) s = .ok s') :
    (∃ docs, s'.inbox = s.inbox ++ docs ∧ ∀ d ∈ drafts, ∃ r ∈ docs, r.nodeId = d.grant.nodeId ∧
      r.envelope = d.envelope) ∧
    ∀ (id : String) (g : GrantRow), s'.grants[id]? = some g → s.grants[id]? = none →
      ∃ d ∈ drafts, g = ⟨d.grant, .issued, none, none⟩ := by
  -- what was issued so far, with what is left
  have hloop := Transaction.foldlM_induct (P := fun rest t => ∃ done, drafts = done ++ rest ∧
    (∃ docs, t.inbox = s.inbox ++ docs ∧ ∀ d ∈ done, ∃ r ∈ docs, r.nodeId = d.grant.nodeId ∧
      r.envelope = d.envelope) ∧
    ∀ (id : String) (g : GrantRow), t.grants[id]? = some g → s.grants[id]? = none →
      ∃ d ∈ done, g = ⟨d.grant, .issued, none, none⟩) ?_ h ?_
  · obtain ⟨done, hdone, hdocs, hgrants⟩ := hloop
    obtain rfl : drafts = done := by simpa using hdone
    exact ⟨hdocs, hgrants⟩
  · rintro d rest t u ⟨done, rfl, ⟨docs, hinbox, hdocs⟩, hgrants⟩ hissue
    obtain ⟨o, hissues⟩ := Store.issueGrant_cases hissue
    refine ⟨done ++ [d], by simp, ?_, ?_⟩
    · refine ⟨docs ++ [⟨d.grant.nodeId, t.lastSeq d.grant.nodeId + 1, d.envelope, false, none⟩],
        by rw [hissues.inbox, hinbox, List.append_assoc], ?_⟩
      intro d' hd'
      rcases List.mem_append.mp hd' with hold | hlast
      · obtain ⟨r, hr, hrow⟩ := hdocs d' hold
        exact ⟨r, List.mem_append_left _ hr, hrow⟩
      · obtain rfl := List.mem_singleton.mp hlast
        exact ⟨_, List.mem_append_right docs (.head _), rfl, rfl⟩
    · intro id g hg hfresh
      rw [hissues.grants] at hg
      split at hg
      · cases hg
        exact ⟨d, by simp, rfl⟩
      · obtain ⟨d', hd', heq⟩ := hgrants id g hg hfresh
        exact ⟨d', List.mem_append_left _ hd', heq⟩
  · refine ⟨[], rfl, ⟨[], (List.append_nil _).symm, List.forall_mem_nil _⟩, ?_⟩
    intro id g hg hfresh
    rw [hfresh] at hg
    cases hg

theorem Write.grants_none (hw : Write cfg time k s s') (hissue : k ≠ .issue) {id : String}
    (hid : s.grants[id]? = none) : s'.grants[id]? = none := by
  by_cases hcreate : k = .create
  · subst hcreate
    cases hw with
    | create => exact hid
    | evolve hk => cases hk
  · exact (hw.evolves hcreate hissue).2.get_none hid

theorem step_grants (hs : Coherent s) (hadm : e.Admitted) {id : String} {g : GrantRow}
    (hfresh : s.grants[id]? = none) (hg : (s.step cfg bytes e).1.grants[id]? = some g) :
    ∃ drafts now closed, e = .issueOperationGrants drafts now closed := by
  by_contra hnot
  have hissue : .issue ∉ e.kinds s := by
    intro hmem
    rcases Event.adds_rows (.inr hmem) with ⟨draft, event, clock, rfl⟩ | hissues
    · exact absurd hmem (by simp [Event.kinds])
    · exact hnot hissues
  have hw := step_writes cfg bytes hs hadm
  have hnone : (s.step cfg bytes e).1.grants[id]? = none :=
    hw.invariant (P := fun t => t.grants[id]? = none)
      (fun k hk _ _ hw h => hw.grants_none (fun heq => hissue (heq ▸ hk)) h) hfresh
  rw [hnone] at hg
  cases hg

/-- A draft that fits rests on what the tables say. -/
theorem Store.Fits.authority {now : ℕ} {d : GrantIssueDraft} (h : s.Fits now d) (hs : Coherent s)
    (hplaced : s.Placed) (hsanctioned : s.Sanctioned run) :
    ∃ o w n, s.operations[d.grant.operationId]? = some o ∧ o.status = .requested ∧
      o.grantId = none ∧ (o.decision = .allow ∨ ∃ groupId input, o.approvalId = some groupId ∧
        s.Unbiased groupId input.decidedBy ∧ ∃ u ∈ run, Transition.Approves u groupId input) ∧
      o.policyVersion = s.policyVersion ∧ s.workloads[o.workloadId]? = some w ∧
      w.status = .active ∧ s.nodes[o.nodeId]? = some n ∧ n.status = .active ∧
      s.rotations.contains o.nodeId = false ∧ d.grant.nodeId = o.nodeId ∧
      d.grant.issuedAtMs ≤ now + 5000 ∧ d.grant.expiresAtMs ≤
        d.grant.issuedAtMs + 1000 * min o.requestedTtlSeconds w.localCeilingSeconds := by
  obtain ⟨c, hc, hnone, hmatch⟩ := h.context
  obtain ⟨-, ho, w, n, hw, hn, hnode, hceiling, hwstatus, hnstatus, hrotation, -⟩ :=
    Store.grantContext?_cases hc
  have hgroup := Store.grantContext?_approvalStatus hc
  have hfits := grantMatchesContext_cases hmatch
  refine ⟨c.operation, w, n, ho, hfits.requested, hnone, ?_, hfits.current, hw,
    hwstatus ▸ hfits.workloadActive, hn, hnstatus ▸ hfits.nodeActive, hrotation ▸ hfits.unrotated,
    ?_, hfits.issued, ?_⟩
  · -- an operation that needed approval is in a group, and the group is approved
    rcases hdecision : c.operation.decision with _ | _ | _
    · exact .inl rfl
    · right
      obtain ⟨groupId, hid⟩ := Option.ne_none_iff_exists'.mp fun hungrouped =>
        hplaced.grouped _ _ ho hungrouped hdecision
      obtain ⟨a, ha, -⟩ := hs.grouped _ _ groupId ho hid
      have happroved := hfits.approved
      rw [hgroup, hid, Option.bind_some, ha, Option.map_some, Option.all_some, beq_iff_eq] at happroved
      obtain ⟨input, hunbiased, hdecided⟩ := hsanctioned groupId a ha happroved
      exact ⟨groupId, input, hid, hunbiased, hdecided⟩
    · exact absurd hdecision hfits.decision
  · obtain ⟨w', hw', hplace⟩ := hplaced.workload _ _ ho
    obtain rfl := Option.mem_unique hw hw'
    rw [hfits.nodeId, hnode, hplace]
  · have httl := hfits.requestedTtl
    have hlocal := hfits.ceiling
    rw [hceiling] at hlocal
    rcases Nat.le_total c.operation.requestedTtlSeconds w.localCeilingSeconds with hle | hle
    · rw [Nat.min_eq_left hle]
      omega
    · rw [Nat.min_eq_right hle]
      omega

namespace Sample

/-- The decision of the named approver on the group of the waiting request. -/
def approval : Event := .decideOperationApproval
  ⟨"approval-1", 1, ["operation-1"], .approved, "bob", "bob", "decision-key"⟩ ⟨3000, 3000, 3000⟩

/-- The named approver is let in and approves the group of the waiting request. -/
def approved : List Event := awaiting ++ [.requireApprovalOperator "bob", approval]

/-- The approver's account is deleted after the approver is let in. -/
def approvedLate : List Event :=
  awaiting ++ [.requireApprovalOperator "bob", .manageOperators ∅, approval]

def approvedGrant : Fleet.Grant := { grant with approvalReference := some "approval-1" }

/-- The approved request gets its grant. -/
def issueApproved : Event :=
  .issueOperationGrants [⟨approvedGrant, 2, ⟨1, .grant approvedGrant⟩⟩] 3000 3000

end Sample

end BlindPass.Controller
