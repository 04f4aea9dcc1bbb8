import BlindPass.Controller.Transactions.Requests

/-!
# What a workload's cancellation writes

The cancellation of a browser request finds the operation in any status. It takes it out of
its group, revokes its grant even if that was used, ends it, and answers the broker with a
closure in every case.
-/

namespace BlindPass.Controller

open Fleet (OperationCancellation SignedEnvelope)
open Transaction (bind_eq_ok)

variable {cfg : Config} {time : ℕ} {s s' : Store} {request : OperationCancellation} {o : Operation}

variable {consumed : Bool} {operationId nodeId : String} {now : ℕ}

theorem Operation.moves_cancel : o.Moves (Kind.moves .cancel) (o.cancel consumed) := by
  unfold Operation.cancel
  rcases hstatus : o.status with _ | _ | _ | _ | _ | _ | _ | _ | _ | _
  -- pending operations are cancelled, open and uncertain ones revoked
  case requested | awaitingApproval | granted | executing | uncertain =>
    refine Operation.moves_settle ?_
    rw [hstatus]
    rfl
  -- the others keep their status, whatever is added to their result
  all_goals
    simp only
    split
    · exact ⟨⟨rfl, rfl, Nat.le_succ _, .inl hstatus.symm⟩, rfl⟩
    · exact .refl

theorem Operation.cancel_status_ne : (o.cancel consumed).status ≠ .granted := by
  intro hgranted
  rcases Operation.moves_cancel.status with heq | ⟨hmoves, -⟩
  · have hstatus : o.status = .granted := heq.symm.trans hgranted
    unfold Operation.cancel at hgranted
    rw [hstatus] at hgranted
    cases hgranted
  · rw [hgranted] at hmoves
    revert hmoves
    cases o.status <;> decide

theorem Store.leaveApproval_cases (h : s.leaveApproval operationId o = .ok s') :
    Regroups s.approvals s'.approvals ∧ s' = { s with approvals := s'.approvals } := by
  unfold Store.leaveApproval at h
  split at h
  · split at h
    · cases h
    split at h
    · cases h
      exact ⟨Regroups.refl, rfl⟩
    split at h
    · cases h
    · cases h
      exact ⟨Regroups.leave, rfl⟩
  · cases h
    exact ⟨Regroups.refl, rfl⟩

variable {envelope : SignedEnvelope} {epoch : ℕ} {docs : List InboxRow}
  {grants' : Std.TreeMap String GrantRow} {key : String}
  {tombstones' : Std.TreeMap String Tombstone}

theorem cancellationRevocation_cases {grantId : String} {retain : ℕ}
    (h : cancellationRevocation grantId nodeId now retain epoch = .ok envelope) :
    RevokesGrant envelope grantId nodeId := by
  unfold cancellationRevocation at h
  simp only at h
  split at h
  · cases h
    exact ⟨_, rfl, rfl, rfl⟩
  · cases h

theorem cancellationClosure_cases
    (h : cancellationClosure request operationId now epoch = .ok envelope) :
    deliveredGrantId envelope = none ∧ ∀ seq delivered acked,
      InboxRow.Closes ⟨request.nodeId, seq, envelope, delivered, acked⟩ request.nodeId
        operationId request.requestEventKey := by
  unfold cancellationClosure at h
  simp only at h
  split at h
  · cases h
    exact ⟨rfl, fun _ _ _ => ⟨rfl, _, rfl, rfl, rfl, rfl⟩⟩
  · cases h

/-- What the withdrawal of a grant, used or not, does to the grants, the tombstones and the
inbox. -/
theorem Store.withdrawGrant_cases (hs : s.Entombed)
    (h : s.withdrawGrant nodeId operationId o now = .ok (s', consumed)) :
    ∃ (grants' : Std.TreeMap String GrantRow) (tombstones' : Std.TreeMap String Tombstone)
      (docs : List InboxRow),
      s' = { s with grants := grants', tombstones := tombstones', inbox := s.inbox ++ docs } ∧
      Queued s.inbox docs ∧ Buries now s grants' tombstones' docs ∧
      Table.Evolves (fun id g g' => g' = g ∨
        (o.grantId = some id ∧ g.Moves (Kind.grantMoves .cancel) g')) s.grants grants' := by
  have hnothing : Buries now s s.grants s.tombstones [] :=
    .of_quiet (k := .report) (fun _ => rfl) (.refl fun _ _ => .refl)
  unfold Store.withdrawGrant at h
  split at h
  · cases h
    exact ⟨s.grants, s.tombstones, [], by rw [List.append_nil], .nil, hnothing,
      .refl fun _ _ => .inl rfl⟩
  next grantId hheld =>
  split at h
  · cases h
  next g hg =>
  split at h
  · cases h
  next hbinding =>
  split at h
  · cases h
    exact ⟨s.grants, s.tombstones, [], by rw [List.append_nil], .nil, hnothing,
      .refl fun _ _ => .inl rfl⟩
  next hstatus =>
  split at h
  · cases h
  next retain hretain =>
  obtain ⟨envelope, henvelope, h⟩ := bind_eq_ok.mp h
  cases h
  have hrevocation := cancellationRevocation_cases henvelope
  have hnode : g.grant.nodeId = nodeId := by
    by_contra hne
    exact hbinding (.inl hne)
  -- a tombstone would stand for a revoked grant
  have hfree : ¬ s.tombstones.contains grantId = true := by
    intro hknown
    rw [Std.TreeMap.contains_eq_isSome_getElem?, Option.isSome_iff_exists] at hknown
    obtain ⟨t, ht⟩ := hknown
    obtain ⟨g', hg', hrevoked, -⟩ := hs grantId t ht
    obtain rfl : g = g' := Option.mem_unique hg hg'
    exact hstatus hrevoked
  refine ⟨_, _, _, rfl, .next hrevocation.grantless, ?_, ?_⟩
  · change Buries now s (Table.updateWhere s.grants (fun k _ => k == grantId)
      fun g => g.withStatus .revoked) (if s.tombstones.contains grantId then s.tombstones
        else s.tombstones.insert grantId ⟨nodeId, "cancelled", now, retain, some envelope⟩) _
    rw [if_neg hfree]
    exact Buries.of_insert hg (fun _ _ _ => beq_iff_eq) hfree hnode.symm rfl hrevocation
      (minimumRetention_eq hretain).symm.le (List.mem_singleton_self _) rfl rfl
  · refine Table.evolves_updateWhere (fun _ _ => .inl rfl) fun id g' hg' hid => .inr ?_
    obtain rfl : id = grantId := eq_of_beq hid
    obtain rfl : g = g' := Option.mem_unique hg hg'
    refine ⟨hheld, GrantRow.moves_withStatus ?_⟩
    simpa [Kind.grantMoves] using hstatus

/-- The operation ends with its grant, and the documents close its request. -/
theorem Write.cancel_operation (hs : Coherent s) (ho : s.operations[key]? = some o)
    (hgrants : Table.Evolves (fun id g g' => g' = g ∨
      (o.grantId = some id ∧ g.Moves (Kind.grantMoves .cancel) g')) s.grants grants')
    (hdocs : Queued s.inbox docs) (hburies : Buries time s grants' tombstones' docs)
    (hcloses : ∀ eventKey, o.brokerEventKey = some eventKey →
      ∃ r ∈ docs, r.Closes o.nodeId key eventKey) :
    Write cfg time .cancel s { s with
      operations := Table.updateWhere s.operations (fun k _ => k == key) fun o => o.cancel consumed
      grants := grants'
      tombstones := tombstones'
      inbox := s.inbox ++ docs } := by
  have hops : Table.Evolves (fun _ => Operation.Moves (Kind.moves .cancel)) s.operations
      (Table.updateWhere s.operations (fun k _ => k == key) fun o => o.cancel consumed) :=
    Table.evolves_updateWhere (fun _ _ => .refl) fun _ _ _ _ => Operation.moves_cancel
  refine Write.evolve rfl hops (hgrants.mono ?_) hdocs hburies (fun _ => ?_) (fun _ => ?_)
    (fun _ => .of_moves hops ?_)
  · rintro _ g g' (rfl | ⟨-, hmove⟩)
    · exact .refl
    · exact hmove
  · intro _ key' o₁ o₂ eventKey ho₁ ho₂ hpending hended hkey _
    have hupdated := Table.updateWhere_of_some ho₁ ho₂
    split at hupdated
    · next hthis =>
      obtain rfl : key' = key := eq_of_beq hthis
      obtain rfl : o = o₁ := Option.mem_unique ho ho₁
      exact hcloses eventKey hkey
    · rw [← hupdated, hpending] at hended
      cases hended
  · intro key' o' id g g' ho' hgranted hid hg hlive hg'
    have hrow := hgrants.related hg hg'
    rcases hrow with rfl | ⟨hheld, -⟩
    · exact hlive
    -- only the cancelled operation holds this grant, and it is not `granted` any more
    exfalso
    obtain ⟨r, hr, hupdated⟩ := Table.getElem?_updateWhere_eq_some.mp ho'
    split at hupdated
    · rw [← hupdated] at hgranted
      exact Operation.cancel_status_ne hgranted
    next hother =>
    subst hupdated
    obtain ⟨c, hc, hkey⟩ := hs.held key o id ho hheld
    obtain ⟨c', hc', hkey'⟩ := hs.held key' r id hr hid
    obtain rfl : c = c' := Option.mem_unique hc hc'
    exact hother (beq_iff_eq.mpr (hkey'.symm.trans hkey))
  · decide

theorem Buries.more {docs' : List InboxRow} (h : Buries time s grants' tombstones' docs)
    (hdocs : docs ⊆ docs') : Buries time s grants' tombstones' docs' := by
  refine ⟨h.kept, fun id t ht => (h.raised id t ht).imp_right fun hraised => ?_, h.covered⟩
  refine ⟨hraised.revoked, fun envelope henvelope => ?_, hraised.signable⟩
  obtain ⟨hgrantless, r, hr, hrow⟩ := hraised.signed envelope henvelope
  exact ⟨hgrantless, r, hdocs hr, hrow⟩

theorem Store.cancelOperation_writes {closure : SignedEnvelope} (hs : Coherent s)
    (ho : s.operations[operationId]? = some o) (hnode : o.nodeId = request.nodeId)
    (hevent : o.brokerEventKey = some request.requestEventKey)
    (hclosure : deliveredGrantId closure = none ∧ ∀ seq delivered acked,
      InboxRow.Closes ⟨request.nodeId, seq, closure, delivered, acked⟩ request.nodeId
        operationId request.requestEventKey)
    (h : s.cancelOperation request operationId o now = .ok s') :
    Writes cfg now [.regroup, .administer, .tell, .cancel] s
      (s'.enqueueNodeDocument request.nodeId closure) := by
  unfold Store.cancelOperation at h
  split at h
  · cases h
  obtain ⟨left, hleft, h⟩ := bind_eq_ok.mp h
  obtain ⟨⟨withdrawn, consumed⟩, hwithdrawn, h⟩ := bind_eq_ok.mp h
  cases h
  obtain ⟨hgroups, hrest⟩ := Store.leaveApproval_cases hleft
  have hregroup : Write cfg now .regroup s left := by
    rw [hrest]
    exact Write.regroup hgroups
  have hleft : Coherent left := hregroup.coherent hs
  have hleftops : left.operations[operationId]? = some o := by rw [hrest, ho]
  obtain ⟨grants', tombstones', docs, rfl, hdocs, hburies, hevolves⟩ :=
    Store.withdrawGrant_cases hleft.entombed hwithdrawn
  refine .head hregroup (by simp) (.single (k := .cancel) ?_ (by simp))
  rw [Store.enqueueNodeDocument, Store.updateOperations, List.append_assoc]
  -- the revocation comes first, the closure after it
  refine Write.cancel_operation hleft hleftops hevolves (hdocs.append ?_)
    (hburies.more (List.subset_append_left _ _)) ?_
  · exact Queued.next (s := { left with inbox := left.inbox ++ docs }) hclosure.1
  · intro eventKey hkey
    obtain rfl : request.requestEventKey = eventKey := Option.mem_unique hevent hkey
    rw [hnode]
    exact ⟨_, List.mem_append_right _ (List.mem_singleton_self _), hclosure.2 _ _ _⟩

theorem Store.applyBrowserCancellation_writes {bodyHash : String} {answer : NodeEventInsert}
    (hs : Coherent s)
    (h : s.applyBrowserCancellation cfg nodeId key bodyHash request now = .ok (s', answer)) :
    Writes cfg now [.regroup, .administer, .tell, .cancel] s s' := by
  unfold Store.applyBrowserCancellation at h
  split at h
  · cases h
  split at h
  · cases h
  next hbinding =>
  split at h
  · cases h
  split at h
  · cases h
    exact .refl
  simp only at h
  split at h
  · cases h
  split at h
  · cases h
  obtain ⟨⟨operationId, cancelled⟩, hcancelled, h⟩ := bind_eq_ok.mp h
  obtain ⟨closure, hclosure, h⟩ := bind_eq_ok.mp h
  obtain ⟨noted, hnoted, h⟩ := bind_eq_ok.mp h
  cases h
  have hnode : request.nodeId = nodeId := by
    by_contra hne
    exact hbinding (.inl hne)
  refine Transaction.Path.trans ?_
    (.single (Write.administer (Store.insertNodeEvent_administers hnoted)) (by simp))
  unfold Store.cancelRequested at hcancelled
  split at hcancelled
  · -- the request is known but has no operation
    cases hcancelled
    exact .single (Write.tell (cancellationClosure_cases hclosure).1) (by simp)
  · next id o hrows =>
    obtain ⟨done, hdone, hpure⟩ := bind_eq_ok.mp hcancelled
    obtain ⟨rfl, rfl⟩ := Prod.mk.inj (Except.ok.inj hpure)
    have hrow : (id, o) ∈ Table.select s.operations fun _ o =>
        o.nodeId == nodeId && o.brokerEventKey == some request.requestEventKey := by
      rw [hrows]
      exact List.mem_singleton_self _
    obtain ⟨ho, hmatch⟩ := Table.mem_select.mp hrow
    rw [Bool.and_eq_true, beq_iff_eq, beq_iff_eq] at hmatch
    rw [← hnode]
    exact Store.cancelOperation_writes hs ho (hmatch.1.trans hnode.symm) hmatch.2
      (cancellationClosure_cases hclosure) hdone
  · cases hcancelled

end BlindPass.Controller
