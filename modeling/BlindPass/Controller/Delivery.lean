import BlindPass.Controller.Issuance

/-!
# Failed operations and delivered grants

An operation fails if its grant ran out before the node could use it. The store knows this
from the grant's status: a poll that returns a grant marks it delivered, and no statement
takes the mark back. All transactions but one read the status when they fail an operation;
the revocation of a node fails the open operations of its lapsed grants whether or not they
were delivered.
-/

namespace BlindPass.Controller

open Execution (Transition)
open Fleet (SignedEnvelope)

/-- The answer returns the document of the grant. -/
def Answer.hands (answer : Answer) (grantId : String) : Bool :=
  answer.documents.any fun d => deliveredGrantId d.envelope == some grantId

/-- Every grant in an inbox is recorded, as a grant of the inbox's node. -/
def Store.Addressed (s : Store) : Prop :=
  ∀ r ∈ s.inbox, ∀ id, deliveredGrantId r.envelope = some id →
    ∃ g : GrantRow, s.grants[id]? = some g ∧ g.grant.nodeId = r.nodeId

/-- The grant is recorded and was taken from `issued` to another status. -/
def Store.Handed (s : Store) (grantId : String) : Prop :=
  ∃ g : GrantRow, s.grants[grantId]? = some g ∧ g.status ≠ .issued

variable {cfg : Config} {time : ℕ} {bytes : SignedEnvelope → ℕ} {k : Kind} {K : List Kind} {s s' : Store}
  {e : Event}

/-! ### What inboxes hold -/

theorem Store.Addressed.evolve (h : s.Addressed)
    (hgrants : Table.Extends (fun _ g g' => g'.grant = g.grant) s.grants s'.grants)
    (hinbox : ∀ r' ∈ s'.inbox, (∃ r ∈ s.inbox, r.nodeId = r'.nodeId ∧ r.envelope = r'.envelope) ∨
      deliveredGrantId r'.envelope = none) : s'.Addressed := by
  intro r' hr' id hid
  rcases hinbox r' hr' with ⟨r, hr, hnode, henvelope⟩ | hnone
  · obtain ⟨g, hg, hgnode⟩ := h r hr id (henvelope ▸ hid)
    obtain ⟨g', hg', hgrant⟩ := hgrants id g hg
    exact ⟨g', hg', by rw [hgrant, hgnode, hnode]⟩
  · rw [hnone] at hid
    cases hid

theorem Write.addressed (hw : Write cfg time k s s') (h : s.Addressed) : s'.Addressed := by
  have hgrants : Table.Extends (fun _ g g' => g'.grant = g.grant) s.grants s'.grants :=
    hw.extends.2.mono fun _ _ _ hmoves => hmoves.grant
  have hkept : ∀ r' ∈ s.inbox, ∃ r ∈ s.inbox, r.nodeId = r'.nodeId ∧ r.envelope = r'.envelope :=
    fun r' hr' => ⟨r', hr', rfl, rfl⟩
  cases hw with
  | administer ha =>
    refine h.evolve hgrants fun r' hr' => .inl ?_
    rw [ha.inbox] at hr'
    exact hkept r' hr'
  | tell hnone =>
    refine h.evolve hgrants fun r' hr' => ?_
    rcases List.mem_append.mp hr' with hold | hnew
    · exact .inl (hkept r' hold)
    · obtain rfl := List.mem_singleton.mp hnew
      exact .inr hnone
  | mark hmarked => exact h.evolve hgrants fun r' hr' => .inl (hmarked r' hr')
  | regroup _ | create _ _ _ | approve _ _ _ _ _ _ _ _ =>
    exact h.evolve hgrants fun r' hr' => .inl (hkept r' hr')
  | @issue _ _ d _ hsigned _ hissues =>
    intro r' hr' id hid
    rw [hissues.inbox] at hr'
    rcases List.mem_append.mp hr' with hold | hnew
    · obtain ⟨g, hg, hnode⟩ := h r' hold id hid
      obtain ⟨g', hg', hgrant⟩ := hgrants id g hg
      exact ⟨g', hg', by rw [hgrant, hnode]⟩
    · -- the new document is the new grant's
      obtain rfl := List.mem_singleton.mp hnew
      obtain rfl : d.grant.id = id := by
        rw [hsigned.envelope] at hid
        exact Option.some.inj hid
      exact ⟨_, by rw [hissues.grants, if_pos rfl], rfl⟩
  | sign hdocs _ | evolve _ _ _ hdocs _ _ _ _ =>
    refine h.evolve hgrants fun r' hr' => ?_
    rcases List.mem_append.mp hr' with hold | hnew
    · exact .inl (hkept r' hold)
    · exact .inr (hdocs.grantless r' hnew)

theorem Run.addressed {run : List (Transition Store Event Answer)}
    (h : (controller cfg bytes).Run run s) : s.Addressed := by
  suffices hboth : Coherent s ∧ s.Addressed from hboth.2
  refine h.invariant (P := fun s => Coherent s ∧ s.Addressed) ?_ ?_
  · rintro s ⟨issuerEpoch, policy, operators, -, rfl⟩
    exact ⟨Store.coherent_initial, List.forall_mem_nil _⟩
  · rintro s e ⟨hs, haddressed⟩ hadm
    have hw := step_writes cfg bytes hs hadm
    exact ⟨hw.coherent hs, hw.invariant (fun _ _ _ _ hw h => hw.addressed h) haddressed⟩

/-! ### Polls -/

variable {nodeId id : String} {now : ℕ}

/-- The documents a poll returns are those of inbox rows of the node. -/
theorem Store.mem_outstanding_marked {seq : ℕ} {r : InboxRow}
    (h : r ∈ ((s.acknowledge nodeId seq now).markDelivered nodeId).outstanding nodeId) :
    r.nodeId = nodeId ∧ ∃ r₀ ∈ s.inbox, r₀.nodeId = r.nodeId ∧ r₀.envelope = r.envelope := by
  obtain ⟨hmem, hcond⟩ := List.mem_filter.mp h
  have hnode : r.nodeId = nodeId := eq_of_beq (Bool.and_eq_true_iff.mp hcond).1
  obtain ⟨r₁, hr₁, hnode₁, henvelope₁⟩ := Store.mem_markDelivered r hmem
  obtain ⟨r₀, hr₀, hnode₀, henvelope₀⟩ := Store.mem_acknowledge r₁ hr₁
  exact ⟨hnode, r₀, hr₀, hnode₀.trans hnode₁, henvelope₀.trans henvelope₁⟩

theorem Store.pollNodeInbox_handed {sessionId : String} {ackSeq : Option ℕ}
    {documents : List InboxDocument} {d : InboxDocument} (hs : s.Addressed)
    (h : s.pollNodeInbox bytes nodeId sessionId ackSeq now = .ok (s', documents))
    (hd : d ∈ documents) (hid : deliveredGrantId d.envelope = some id) : s'.Handed id := by
  unfold Store.pollNodeInbox at h
  split at h
  · cases h
  split at h
  · cases h
  cases h
  obtain ⟨r, hr, rfl⟩ := List.mem_map.mp (pollResponse_initial.subset hd)
  obtain ⟨hnode, r₀, hr₀, hnode₀, henvelope₀⟩ :=
    Store.mem_outstanding_marked (List.mem_of_mem_take hr)
  obtain ⟨g, hg, hgnode⟩ := hs r₀ hr₀ id (henvelope₀ ▸ hid)
  -- the row is updated unless its status had moved on before
  refine ⟨_, Table.getElem?_updateWhere_eq_some.mpr ⟨g, hg, rfl⟩, ?_⟩
  have hreturned : ∀ documents : List InboxDocument, (⟨r.seq, r.envelope⟩ : InboxDocument) ∈ documents →
      (documents.filterMap fun d => deliveredGrantId d.envelope).contains id = true :=
    fun _ hmem => List.contains_iff_mem.mpr (List.mem_filterMap.mpr ⟨_, hmem, hid⟩)
  have hsame : (g.grant.nodeId == nodeId) = true := by simp [hgnode, hnode₀, hnode]
  by_cases hissued : g.status = .issued
  · rw [if_pos (by rw [hreturned _ hd, hsame, hissued]; rfl)]
    exact nofun
  · rw [if_neg (by simp [hissued])]
    exact hissued

theorem Store.Follows.handed (h : s.Follows s') (hid : s.Handed id) : s'.Handed id := by
  obtain ⟨g, hg, hstatus⟩ := hid
  obtain ⟨g', hg', hnext, -⟩ := h.grants id g hg
  refine ⟨g', hg', fun hissued => ?_⟩
  have hstep := hnext (hissued ▸ hstatus.symm)
  rw [hissued] at hstep
  revert hstep
  cases g.status <;> decide

/-! ### Failing -/

/-- A node is revoked while a grant of it that a poll returned has run out. -/
def Event.failsDelivered (s : Store) : Event → Bool
  | .revokeNode nodeId _ _ now => s.failsDelivered nodeId now
  | _ => false

/-- Statements that fail no delivered grant's operation do not do so together. -/
theorem Writes.failsUnissued (hfail : .fail ∉ K) (hcreate : .create ∉ K) (hissue : .issue ∉ K)
    (hw : Writes cfg time K s s') : FailsUnissued s s'.operations := by
  -- grants and their operations keep each other, and no grant becomes issued again
  suffices hboth : Table.Evolves (fun _ (o o' : Operation) => o'.grantId = o.grantId)
      s.operations s'.operations ∧
      Table.Evolves (fun _ (g g' : GrantRow) => g'.status = .issued → g.status = .issued)
        s.grants s'.grants ∧ FailsUnissued s s'.operations from hboth.2.2
  refine hw.relates (R := fun s t =>
    Table.Evolves (fun _ (o o' : Operation) => o'.grantId = o.grantId) s.operations t.operations ∧
      Table.Evolves (fun _ (g g' : GrantRow) => g'.status = .issued → g.status = .issued)
        s.grants t.grants ∧ FailsUnissued s t.operations) ?_ ?_ ?_
  · intro s
    refine ⟨.refl fun _ _ => rfl, .refl fun _ _ => id, ?_⟩
    intro key o o' ho ho' hopen hfailed
    obtain rfl := Option.mem_unique ho ho'
    exact absurd hfailed hopen
  · rintro s t u ⟨hops₁, hgrants₁, hfails₁⟩ ⟨hops₂, hgrants₂, hfails₂⟩
    refine ⟨hops₁.trans (fun _ _ _ _ h h' => h'.trans h) hops₂,
      hgrants₁.trans (fun _ _ _ _ h h' => h ∘ h') hgrants₂, ?_⟩
    intro key o o' ho ho' hopen hfailed
    obtain ⟨p, hp, hid⟩ := hops₁.get ho
    by_cases hearly : p.status = .failed
    · exact hfails₁ key o p ho hp hopen hearly
    · obtain ⟨id, g, hpid, hg, hissued⟩ := hfails₂ key p o' hp ho' hearly hfailed
      obtain ⟨g₀, hg₀, hback⟩ := hgrants₁.get_back hg
      exact ⟨id, g₀, hid ▸ hpid, hg₀, hback hissued⟩
  · intro k hk s t hw
    have hkfail : k ≠ .fail := fun heq => hfail (heq ▸ hk)
    obtain ⟨hops, hgrants⟩ := hw.evolves (fun heq => hcreate (heq ▸ hk)) fun heq => hissue (heq ▸ hk)
    refine ⟨hops.mono fun _ _ _ h => h.grantId, hgrants.mono fun _ g g' h hissued => ?_, ?_⟩
    · rcases h.status with heq | hmoved
      · exact heq ▸ hissued
      · rw [hissued] at hmoved
        exact absurd (Kind.grantMoves_next hmoved) (by cases g.status <;> decide)
    · cases hw with
      | evolve _ _ _ _ _ _ _ hfails => exact hfails hkfail
      | administer _ | sign _ _ | tell _ | mark _ _ | regroup _ | approve _ _ _ _ _ _ _ _ =>
        exact .of_moves hops (by decide)
      | create => exact absurd hk hcreate
      | issue => exact absurd hk hissue

/-- Statements that fail nothing. -/
theorem Writes.failsUnissued_of_moves (hK : Kind.Unchained K) (hw : Writes cfg time K s s')
    (hmoves : ∀ a, Kind.movesAny K a .failed = false) : FailsUnissued s s'.operations := by
  intro key o o' ho ho' hopen hfailed
  obtain ⟨o'', ho'', hadvances⟩ := hw.operations hK key o ho
  obtain rfl : o'' = o' := Option.mem_unique ho'' ho'
  rcases hadvances.status with heq | ⟨hmoved, -⟩
  · exact absurd (heq.symm.trans hfailed) hopen
  · rw [hfailed, hmoves] at hmoved
    cases hmoved

theorem Event.fail_notMem (h : e.failsDelivered s = false) : .fail ∉ e.kinds s := by
  cases e with
  | revokeNode nodeId revocations nodeRevocation now =>
    have hcond : s.failsDelivered nodeId now = false := h
    simp [Event.kinds, hcond]
  | _ => simp [Event.kinds, eq_ite_iff]

theorem step_failsUnissued (hs : Coherent s) (hadm : e.Admitted)
    (hcond : e.failsDelivered s = false) : FailsUnissued s (s.step cfg bytes e).1.operations := by
  have hw := step_writes cfg bytes hs hadm
  by_cases hnew : .create ∈ e.kinds s ∨ .issue ∈ e.kinds s
  · refine hw.failsUnissued_of_moves Event.unchained ?_
    rcases Event.adds_rows hnew with ⟨draft, event, clock, rfl⟩ | ⟨drafts, now, closed, rfl⟩
    · dsimp only [Event.kinds]
      decide
    · dsimp only [Event.kinds]
      cases s.deniesUnclosed drafts now <;> decide
  · rw [not_or] at hnew
    exact hw.failsUnissued (Event.fail_notMem hcond) hnew.1 hnew.2

/-! ### Runs -/

variable {run : List (Transition Store Event Answer)}

/-- A grant that a poll returned is marked in every later state. -/
theorem Run.handed (h : (controller cfg bytes).Run run s)
    (hpolled : ∃ u ∈ run, u.output.hands id = true) : s.Handed id := by
  obtain ⟨u, hu, hhands⟩ := hpolled
  obtain ⟨before, after, rfl⟩ := List.append_of_mem hu
  obtain ⟨hrun, hadm, heq⟩ := h.split
  have hstep : u.output = (u.before.step cfg bytes u.event).2 ∧
      u.after = (u.before.step cfg bytes u.event).1 :=
    ⟨congrArg Transition.output heq, congrArg Transition.after heq⟩
  -- the mark is set by the poll itself
  have hmarked : u.after.Handed id := by
    rw [hstep.1] at hhands
    obtain ⟨d, hd, hid⟩ := List.any_eq_true.mp hhands
    obtain ⟨nodeId, sessionId, ackSeq, now, hevent⟩ :=
      Store.step_documents (List.ne_nil_of_mem hd)
    rw [hevent] at hd hstep
    rw [hstep.2]
    rcases hpoll : u.before.pollNodeInbox bytes nodeId sessionId ackSeq now with _ | ⟨t, documents⟩
    · simp [Store.step, Store.commit, hpoll, Answer.documents] at hd
    · simp only [Store.step, Store.commit, hpoll, Answer.documents] at hd ⊢
      exact Store.pollNodeInbox_handed (Run.addressed hrun) hpoll hd (eq_of_beq hid)
  -- and kept by every later transaction
  refine h.relates (R := fun s t => s.Handed id → t.Handed id) (fun _ hkept => hkept)
    (fun _ _ _ h h' => h' ∘ h) ?_ hmarked
  intro run s e hrun hadm
  exact (step_follows (Run.coherent hrun) hadm).handed

/-- In a run that revokes no node with a delivered, lapsed grant: when an operation fails, no
poll has returned its grant; and once a poll returned an operation's grant, the operation
leaves `granted` and `executing` only for `completed`, `uncertain` or `revoked`. -/
theorem failed_not_handed (h : (controller cfg bytes).Run run s)
    (hcond : ∀ t ∈ run, t.event.failsDelivered t.before = false)
    (before : List (Transition Store Event Answer)) (t : Transition Store Event Answer)
    (after : List (Transition Store Event Answer)) (hsplit : run = before ++ t :: after)
    (key : String) (o o' : Operation) (ho : t.before.operations[key]? = some o)
    (ho' : t.after.operations[key]? = some o') :
    (o.status ≠ .failed → o'.status = .failed → ∃ id, o.grantId = some id ∧
      ∀ u ∈ before, u.output.hands id = false) ∧
    (o.status.isOpen = true → (∃ id, o.grantId = some id ∧ ∃ u ∈ before, u.output.hands id = true) →
      o'.status.isOpen = true ∨ o'.status = .completed ∨ o'.status = .uncertain ∨
        o'.status = .revoked) := by
  subst hsplit
  obtain ⟨hrun, hadm, heq⟩ := h.split
  have hafter : t.after = (t.before.step cfg bytes t.event).1 := congrArg Transition.after heq
  have hs := Run.coherent hrun
  have hfails : FailsUnissued t.before (t.before.step cfg bytes t.event).1.operations :=
    step_failsUnissued hs hadm (hcond t (List.mem_append_right before (.head _)))
  have hfollows : t.before.Follows (t.before.step cfg bytes t.event).1 := step_follows hs hadm
  rw [hafter] at ho'
  have hunhanded : o.status ≠ .failed → o'.status = .failed → ∃ id, o.grantId = some id ∧
      ∀ u ∈ before, u.output.hands id = false := by
    intro hopen hfailed
    obtain ⟨id, g, hid, hg, hissued⟩ := hfails key o o' ho ho' hopen hfailed
    refine ⟨id, hid, fun u hu => Bool.eq_false_iff.mpr fun hhands => ?_⟩
    -- a poll would have marked the grant
    obtain ⟨g', hg', hmarked⟩ := Run.handed hrun ⟨u, hu, hhands⟩
    obtain rfl : g = g' := Option.mem_unique hg hg'
    exact hmarked hissued
  refine ⟨hunhanded, ?_⟩
  rintro hopen ⟨id, hid, u, hu, hhands⟩
  obtain ⟨o'', ho'', hnext⟩ := hfollows.operations key o ho
  obtain rfl : o'' = o' := Option.mem_unique ho'' ho'
  by_cases hsame : o''.status = o.status
  · exact .inl (hsame ▸ hopen)
  have hmem := (hnext hsame).1
  have hne : o''.status ≠ .failed := by
    intro hfailed
    obtain ⟨id', hid', hnone⟩ := hunhanded (fun hbefore => hsame (hfailed.trans hbefore.symm)) hfailed
    obtain rfl : id = id' := Option.mem_unique hid hid'
    rw [hnone u hu] at hhands
    cases hhands
  generalize o''.status = status at hmem hne
  generalize o.status = previous at hopen hmem
  revert hopen hmem hne
  revert status previous
  decide

namespace Sample

/-- The operator's request after its grant was issued. -/
def grantedOperation : Operation :=
  { request .allow with
    approvalId := none
    status := .granted
    grantId := some "grant-1"
    result := none
    expiresAtMs := 62000
    version := 2 }

/-- The node is revoked after its grant ran out. -/
def revokeNode : Event := .revokeNode "node-1" [] ⟨1, .nodeRevocation ⟨"node-1", 70000, 1⟩⟩ 70000

end Sample

theorem failed_not_handed_undelivered :
    ((controller Sample.config fun _ => 100).step (Sample.play Sample.granted).2
        Sample.revokeNode).1.operations["operation-1"]? =
      some (Sample.grantedOperation.settle .failed { reason := some "expired" }) ∧
    ∃ id, Sample.grantedOperation.grantId = some id ∧
      ∀ u ∈ (Sample.play Sample.granted).1, u.output.hands id = false :=
  have hrun := Sample.run_play Sample.granted (by decide +kernel)
  have hfailed : ((controller Sample.config fun _ => 100).step (Sample.play Sample.granted).2
      Sample.revokeNode).1.operations["operation-1"]? =
        some (Sample.grantedOperation.settle .failed { reason := some "expired" }) := by
    decide +kernel
  ⟨hfailed, (failed_not_handed (hrun.step (e := Sample.revokeNode) trivial) (by decide +kernel)
    _ _ [] rfl "operation-1" Sample.grantedOperation _ (by decide +kernel) hfailed).1
    (by decide) rfl⟩

/-- A poll returns the grant, it runs out, and the node is revoked. -/
theorem failed_handed : ∃ run s, (controller Sample.config fun _ => 100).Run run s ∧
    (∃ u ∈ run, u.output.hands "grant-1" = true) ∧ s.operations["operation-1"]? =
      some (Sample.grantedOperation.settle .failed { reason := some "expired" }) :=
  ⟨_, _, Sample.run_play (Sample.delivered ++ [Sample.revokeNode]) (by decide +kernel),
    by decide +kernel, by decide +kernel⟩

/-- In every run the tables and the inboxes refer to each other without a gap. -/
theorem references_resolve (h : (controller cfg bytes).Run run s) :
    Coherent s ∧ s.Placed ∧ s.Addressed :=
  ⟨Run.coherent h, Run.placed h, Run.addressed h⟩

theorem references_resolve_delivered :
    let s := (Sample.play Sample.delivered).2; Coherent s ∧ s.Placed ∧ s.Addressed :=
  references_resolve (Sample.run_play Sample.delivered (by decide +kernel))

end BlindPass.Controller
