import BlindPass.Controller.Transactions.Maintenance

/-!
# The expiry pass makes progress

An expiry pass handles at most two hundred rows of each kind, the earliest deadlines first.
Everything it has to sign can be signed, so it never fails; it adds nothing to what is left
to do, and it settles at least one row of each kind that has any.
-/

namespace BlindPass.Controller

open Fleet (isPositiveInteger isValidOpaqueId)
open Transaction (bind_eq_ok)
open Table (countWhere countWhere_le countWhere_lt countWhere_pos evolves_updateWhere
  exists_mem_batch mem_orderBy mem_select select)

variable {cfg : Config} {time : ℕ} {k : Kind} {K : List Kind} {s s' s'' : Store} {now : ℕ}

/-- All readings of the clock show the same time. -/
def SweepClock.still (now : ℕ) : SweepClock :=
  ⟨now, fun _ => now, now, now, now, now, now, now⟩

/-- The readings that closures are dated with fit into a document. -/
structure SweepClock.Valid (clock : SweepClock) : Prop where
  groupClosed : ∀ id, isPositiveInteger (clock.groupClosed id) = true
  operationsClosed : isPositiveInteger clock.operationsClosed = true

theorem SweepClock.valid_still (h : isPositiveInteger now = true) : (still now).Valid :=
  ⟨fun _ => h, h⟩

/-! ### What is left to do -/

/-- A live grant past its expiry. -/
def overrun (now : ℕ) (_ : String) (g : GrantRow) : Bool :=
  g.status.isLive && decide (g.grant.expiresAtMs ≤ now)

/-- A native grant past its expiry. -/
def GrantRow.isDue (now : ℕ) (g : GrantRow) : Bool :=
  decide (g.grant.expiresAtMs ≤ now ∧ g.grant.mode ≠ .browserSession)

/-- An executing operation whose native grant is past its expiry. -/
def Store.isUnconfirmed (s : Store) (now : ℕ) (_ : String) (o : Operation) : Bool :=
  o.status == .executing && (o.grantId.bind fun id => s.grants[id]?).any (GrantRow.isDue now)

/-- The number of rows that expiry passes at the time `now` still have to settle. -/
def Store.backlog (s : Store) (now : ℕ) : ℕ :=
  countWhere s.operations (Store.overdue now) + countWhere s.grants (overrun now) +
    countWhere s.operations (s.isUnconfirmed now)

/-- A part of the pass that settles rows and starts none. -/
structure Store.Recedes (s s' : Store) : Prop where
  operations : Ends s s'
  grants : Table.Evolves (fun _ g g' => g'.grant = g.grant ∧
    (g'.status.isLive = true → g.status.isLive = true)) s.grants s'.grants

theorem Store.Recedes.refl : s.Recedes s := ⟨.refl, .refl fun _ _ => ⟨rfl, fun h => h⟩⟩

theorem Store.Recedes.trans (h₁ : s.Recedes s') (h₂ : s'.Recedes s'') : s.Recedes s'' where
  operations := h₁.operations.trans h₂.operations
  grants := h₁.grants.trans (fun _ _ _ _ h h' => ⟨h'.1.trans h.1, h.2 ∘ h'.2⟩) h₂.grants

/-- A grant does not come back to life. -/
theorem Kind.grantMoves_isLive {a b : GrantStatus} (h : k.grantMoves a b = true)
    (hb : b.isLive = true) : a.isLive = true := by
  revert a b
  cases k <;> decide

theorem Store.Recedes.of_writes (hcreate : .create ∉ K) (hissue : .issue ∉ K)
    (hw : Writes cfg time K s s') (hends : Ends s s') : s.Recedes s' where
  operations := hends
  grants := by
    refine hw.relates (R := fun s t => Table.Evolves (fun _ g g' =>
      g'.grant = g.grant ∧ (g'.status.isLive = true → g.status.isLive = true)) s.grants t.grants)
      (fun _ => .refl fun _ _ => ⟨rfl, fun h => h⟩) ?_ ?_
    · intro s t u h₁ h₂
      exact h₁.trans (fun _ _ _ _ h h' => ⟨h'.1.trans h.1, h.2 ∘ h'.2⟩) h₂
    · intro k hk s t hw
      have hgrants := (hw.evolves (fun heq => hcreate (heq ▸ hk)) fun heq => hissue (heq ▸ hk)).2
      refine hgrants.mono fun _ g g' hmoves => ⟨hmoves.grant, fun hlive => ?_⟩
      rcases hmoves.status with heq | hmoved
      · rwa [← heq]
      · exact Kind.grantMoves_isLive hmoved hlive

theorem Store.Recedes.overdue (h : s.Recedes s') (now : ℕ) :
    ∀ (key : String) (o' : Operation), s'.operations[key]? = some o' →
      Store.overdue now key o' = true →
      ∃ o : Operation, s.operations[key]? = some o ∧ Store.overdue now key o = true := by
  intro key o' ho' hdue
  obtain ⟨o, ho, rfl | ⟨hended, -⟩⟩ := h.operations.get_back ho'
  · exact ⟨o', ho, hdue⟩
  · rw [Store.overdue, hended] at hdue
    cases hdue

theorem Store.Recedes.overrun (h : s.Recedes s') (now : ℕ) :
    ∀ (id : String) (g' : GrantRow), s'.grants[id]? = some g' → overrun now id g' = true →
      ∃ g : GrantRow, s.grants[id]? = some g ∧ overrun now id g = true := by
  intro id g' hg' hdue
  obtain ⟨hlive, hpast⟩ := Bool.and_eq_true_iff.mp hdue
  obtain ⟨g, hg, hgrant, hkept⟩ := h.grants.get_back hg'
  refine ⟨g, hg, Bool.and_eq_true_iff.mpr ⟨hkept hlive, ?_⟩⟩
  rwa [← hgrant]

theorem Store.Recedes.unconfirmed (h : s.Recedes s') (now : ℕ) :
    ∀ (key : String) (o' : Operation), s'.operations[key]? = some o' →
      s'.isUnconfirmed now key o' = true →
      ∃ o : Operation, s.operations[key]? = some o ∧ s.isUnconfirmed now key o = true := by
  intro key o' ho' hdue
  obtain ⟨hexecuting, hgrant⟩ := Bool.and_eq_true_iff.mp hdue
  obtain ⟨o, ho, rfl | ⟨-, hended⟩⟩ := h.operations.get_back ho'
  · refine ⟨o', ho, Bool.and_eq_true_iff.mpr ⟨hexecuting, ?_⟩⟩
    obtain ⟨g', hg', hpast⟩ := (Option.any_eq_true _ _).mp hgrant
    obtain ⟨id, hid, hg'⟩ := Option.bind_eq_some_iff.mp hg'
    obtain ⟨g, hg, hsame, -⟩ := h.grants.get_back hg'
    refine (Option.any_eq_true _ _).mpr ⟨g, Option.bind_eq_some_iff.mpr ⟨id, hid, hg⟩, ?_⟩
    rwa [GrantRow.isDue, ← hsame]
  · rw [eq_of_beq hexecuting] at hended
    cases hended

/-! ### Signing succeeds -/

/-- The target has identifiers a closure may carry. -/
structure ClosureTarget.Valid (t : ClosureTarget) : Prop where
  operationId : isValidOpaqueId t.operationId = true
  nodeId : isValidOpaqueId t.nodeId = true
  eventKey : isValidOpaqueId t.eventKey = true

theorem Sound.closureTargets (h : Sound s) {p : String → Operation → Bool} :
    ∀ t ∈ s.closureTargets p, t.Valid := by
  intro t ht
  obtain ⟨⟨key, o⟩, he, htarget⟩ := List.mem_filterMap.mp ht
  obtain ⟨ho, -⟩ := mem_select.mp (mem_orderBy.mp he)
  obtain ⟨hkey, hnode, heventKey, -⟩ := h.operations key o ho
  split at htarget
  · obtain ⟨eventKey, hsome, rfl⟩ := Option.map_eq_some_iff.mp htarget
    rw [hsome] at heventKey
    exact ⟨hkey, hnode, heventKey⟩
  · cases htarget

theorem Store.enqueueClosures_ok {targets : List ClosureTarget} {status : String}
    (hepoch : isPositiveInteger s.issuerEpoch = true) (hnow : isPositiveInteger now = true)
    (htargets : ∀ t ∈ targets, t.Valid)
    (hstatus : ["rejected", "expired", "cancelled", "denied"].contains status = true) :
    ∃ s', s.enqueueClosures cfg targets status now = .ok s' := by
  unfold Store.enqueueClosures
  by_cases hsigner : cfg.signer = true
  · rw [if_neg (by simp [hsigner])]
    -- queueing does not change the epoch the next closure is signed under
    refine Transaction.foldlM_ok (P := fun rest (t : Store) =>
      isPositiveInteger t.issuerEpoch = true ∧ ∀ target ∈ rest, target.Valid) ?_ ⟨hepoch, htargets⟩
    rintro target rest t ⟨hepoch, hrest⟩
    obtain ⟨hoperation, hnode, heventKey⟩ := hrest target (.head _)
    refine ⟨t.enqueueNodeDocument target.nodeId ⟨t.issuerEpoch, .operationClosed
      ⟨target.nodeId, target.operationId, target.eventKey, status, now, t.issuerEpoch⟩⟩, ?_,
      hepoch, fun target' h' => hrest target' (.tail target h')⟩
    rw [closureEnvelope, if_pos]
    · rfl
    · simp only [Fleet.OperationClosed.isValid, hoperation, hnode, heventKey, hstatus, hnow,
        hepoch, Bool.and_self]
  · exact ⟨s, by rw [if_pos (by simp [hsigner])]⟩

theorem tombstoneEnvelope_ok {grantId : String} {t : Tombstone} {epoch : ℕ}
    (ht : t.Signable grantId) (hepoch : isPositiveInteger epoch = true) :
    ∃ envelope, tombstoneEnvelope grantId t epoch = .ok envelope := by
  refine ⟨_, if_pos ?_⟩
  simp only [Fleet.Revocation.isValid, ht.grantId, ht.nodeId, ht.created, ht.retained, hepoch,
    ht.order, decide_true, Bool.and_self, Bool.and_true]
  decide

theorem Store.signTombstones_ok (h : Sound s) :
    ∃ result, s.signTombstones cfg now = .ok result := by
  unfold Store.signTombstones
  by_cases hsigner : cfg.signer = true
  · rw [if_pos hsigner, Store.signPendingTombstones]
    refine Transaction.bind_ok ?_ fun signed _ => ⟨_, rfl⟩
    refine Transaction.foldlM_ok (P := fun rest (t : Store) =>
      isPositiveInteger t.issuerEpoch = true ∧
        ∀ e ∈ rest, (e : String × Tombstone).2.Signable e.1) ?_ ⟨h.issuerEpoch, ?_⟩
    · rintro e rest t ⟨hepoch, hrest⟩
      obtain ⟨envelope, henvelope⟩ := tombstoneEnvelope_ok (hrest e (.head _)) hepoch
      refine ⟨_, bind_eq_ok.mpr ⟨envelope, henvelope, rfl⟩, hepoch, ?_⟩
      exact fun e' he' => hrest e' (.tail e he')
    · rintro ⟨id, t⟩ he
      obtain ⟨ht, hcond⟩ := mem_select.mp (mem_orderBy.mp (List.mem_of_mem_take he))
      simp only [Bool.and_eq_true, Option.isNone_iff_eq_none] at hcond
      exact h.tombstones id t ht hcond.1.2
  · exact ⟨(s, 0), if_neg hsigner⟩

variable {clock : SweepClock} {n : ℕ} {g : GrantRow}

theorem expireGroups_ok {groups : List String} (h : Sound s) (hclock : clock.Valid) :
    ∃ result, groups.foldlM (fun e id => e.1.expireGroup cfg clock e.2 id) (s, n) = .ok result := by
  refine Transaction.foldlM_ok (P := fun _ e => Sound (e : Store × ℕ).1) ?_ h
  rintro id _ ⟨t, m⟩ ht
  obtain ⟨t', ht'⟩ : ∃ t', t.endGroup cfg id "approval_expired" "expired"
      (clock.groupClosed id) = .ok t' :=
    Store.enqueueClosures_ok ht.issuerEpoch (hclock.groupClosed id) ht.closureTargets (by decide)
  have hw : Writes cfg 0 [.regroup, .close] t t' := Store.endGroup_writes ht'
  exact ⟨(t', _), bind_eq_ok.mpr ⟨t', ht', rfl⟩, hw.sound ht⟩

theorem Store.denyOverdue_ok (h : Sound s) (hclock : clock.Valid) :
    ∃ result, s.denyOverdue cfg clock = .ok result := by
  refine Transaction.bind_ok
    (Store.enqueueClosures_ok h.issuerEpoch hclock.operationsClosed ?_ (by decide)) fun closed _ => ⟨_, rfl⟩
  intro t ht
  exact h.closureTargets t (List.mem_filter.mp ht).1

/-- On a sound store the pass succeeds. -/
theorem Store.expireFleetState_ok (hs : Coherent s) (h : Sound s) (hclock : clock.Valid) :
    ∃ result, s.expireFleetState cfg clock = .ok result := by
  refine Transaction.bind_ok (expireGroups_ok h hclock) ?_
  rintro ⟨grouped, members⟩ hgrouped
  have hgroups : Writes cfg 0 [.regroup, .close] s grouped := (expireGroups_writes cfg hgrouped).1
  refine Transaction.bind_ok (Store.denyOverdue_ok (hgroups.sound h) hclock) ?_
  rintro ⟨denied, overdue⟩ hdenied
  have hdeny : Write cfg 0 _ grouped denied := Write.denyOverdue hdenied
  have hlapse : Writes cfg 0 [.lapse] denied _ := expireGrants_writes cfg
    (l := denied.expiredGrants clock.grants) (hdeny.coherent (hgroups.coherent hs))
    (fun _ he => Store.mem_expiredGrants he)
    pairwise_expiredGrants
  refine Transaction.bind_ok (Store.signTombstones_ok ?_) fun signed _ => ⟨_, rfl⟩
  exact Writes.sound (hlapse.tail Write.doubtUnconfirmed (.head _))
    (hdeny.sound (hgroups.sound h))

/-! ### The parts of the pass -/

theorem Store.denyOverdue_ends (h : s.denyOverdue cfg clock = .ok (s', n)) : Ends s s' := by
  obtain ⟨closed, hclosed, hpure⟩ := bind_eq_ok.mp h
  cases hpure
  obtain ⟨docs, rfl, -⟩ := Store.enqueueClosures_cases hclosed
  exact evolves_updateWhere (fun _ _ => .inl rfl) fun _ _ _ _ => .inr ⟨rfl, rfl⟩

theorem Store.denyOverdue_recedes (h : s.denyOverdue cfg clock = .ok (s', n)) : s.Recedes s' := by
  have hw : Writes cfg 0 [if s.overdueBetween clock.targets clock.operations then .abandon
      else .close] s s' := .single (Write.denyOverdue h) (.head _)
  refine .of_writes ?_ ?_ hw (Store.denyOverdue_ends h)
  all_goals split <;> decide

/-- If an operation is overdue, one of them is denied. -/
theorem Store.denyOverdue_lt (h : s.denyOverdue cfg (.still now) = .ok (s', n))
    (hpos : 0 < countWhere s.operations (Store.overdue now)) :
    countWhere s'.operations (Store.overdue now) < countWhere s.operations (Store.overdue now) := by
  refine countWhere_lt ((Store.denyOverdue_recedes h).overdue now) ?_
  obtain ⟨key, o, hdue⟩ := countWhere_pos.mp hpos
  obtain ⟨⟨key, o⟩, he⟩ : ∃ e, e ∈ (Table.orderBy (select s.operations (Store.overdue now))
      fun o => o.expiresAtMs).take expiryBatch :=
    exists_mem_batch (by decide) (mem_select.mpr hdue)
  obtain ⟨ho, hdue⟩ := mem_select.mp (mem_orderBy.mp (List.mem_of_mem_take he))
  have hlisted : key ∈ s.overdueOperations now := List.mem_map_of_mem he
  refine ⟨key, o, ho, hdue, fun o' ho' => ?_⟩
  -- the denial found the row as it was read
  obtain ⟨closed, hclosed, hpure⟩ := bind_eq_ok.mp h
  cases hpure
  obtain ⟨docs, rfl, -⟩ := Store.enqueueClosures_cases hclosed
  obtain rfl := Table.updateWhere_of_some ho ho'
  have hmatch : ((s.overdueOperations now).contains key && o.status.isPending) = true :=
    Bool.and_eq_true_iff.mpr ⟨List.contains_iff_mem.mpr hlisted, (Bool.and_eq_true_iff.mp hdue).1⟩
  rw [SweepClock.still, if_pos hmatch]
  rfl

theorem Operation.lapse_ended {o : Operation} {status : GrantStatus} :
    (o.lapse status).status.isPending = false ∧ (o.lapse status).status.isOpen = false := by
  unfold Operation.lapse
  split
  · change (if status = .issued then OperationStatus.failed else .uncertain).isPending = false ∧
      (if status = .issued then OperationStatus.failed else .uncertain).isOpen = false
    split <;> exact ⟨rfl, rfl⟩
  · exact ⟨rfl, rfl⟩

theorem Store.expireGrant_recedes {id : String} : s.Recedes (s.expireGrant id g) where
  operations := evolves_updateWhere (fun _ _ => .inl rfl) fun _ _ _ _ =>
    .inr Operation.lapse_ended
  grants := by
    refine evolves_updateWhere (fun _ _ => ⟨rfl, fun h => h⟩) fun _ c _ hcond => ⟨rfl, ?_⟩
    exact fun _ => (Bool.and_eq_true_iff.mp hcond).2

theorem Store.expireGrants_recedes {l : List (String × GrantRow)} :
    s.Recedes (l.foldl (fun s e => s.expireGrant e.1 e.2) s) :=
  Transaction.foldl_induct (P := fun _ t => s.Recedes t)
    (fun _ _ _ h => h.trans Store.expireGrant_recedes) .refl

theorem Store.expireGrant_dead {id : String} {g' : GrantRow}
    (h : (s.expireGrant id g).grants[id]? = some g') : g'.status.isLive = false := by
  obtain ⟨c, -, rfl⟩ := Table.getElem?_updateWhere_eq_some.mp h
  by_cases hlive : c.status.isLive = true
  · rw [if_pos (by simp [hlive])]
    rfl
  · rw [if_neg (by simp [hlive])]
    simpa using hlive

/-- If a live grant is past its expiry, one of them is expired. -/
theorem Store.expireGrants_lt (hpos : 0 < countWhere s.grants (overrun now)) :
    countWhere ((s.expiredGrants now).foldl (fun s e => s.expireGrant e.1 e.2) s).grants
      (overrun now) < countWhere s.grants (overrun now) := by
  refine countWhere_lt (Store.expireGrants_recedes.overrun now) ?_
  obtain ⟨id, g, hdue⟩ := countWhere_pos.mp hpos
  obtain ⟨⟨id, g⟩, he⟩ : ∃ e, e ∈ s.expiredGrants now :=
    exists_mem_batch (by decide) (mem_select.mpr hdue)
  obtain ⟨hg, hdue⟩ := mem_select.mp (mem_orderBy.mp (List.mem_of_mem_take he))
  refine ⟨id, g, hg, hdue, fun g' hg' => ?_⟩
  -- the grant is dead after its turn, and the later turns do not revive it
  obtain ⟨before, after, hsplit⟩ := List.append_of_mem he
  rw [hsplit, List.foldl_append, List.foldl_cons] at hg'
  obtain ⟨c, hc, -, hkept⟩ := Store.expireGrants_recedes.grants.get_back hg'
  rw [overrun, Bool.and_eq_false_iff]
  left
  by_contra hlive
  rw [Bool.not_eq_false] at hlive
  have hdead := Store.expireGrant_dead hc
  rw [hkept hlive] at hdead
  cases hdead

theorem Store.doubtUnconfirmed_recedes {ids : List String} :
    s.Recedes (s.doubtUnconfirmed ids) where
  operations := evolves_updateWhere (fun _ _ => .inl rfl) fun _ _ _ _ => .inr ⟨rfl, rfl⟩
  grants := .refl fun _ _ => ⟨rfl, fun h => h⟩

theorem Store.mem_unconfirmedRows {key : String} :
    (key, g) ∈ ((select s.operations fun _ o => o.status == .executing).filterMap fun e =>
      (e.2.grantId.bind fun id => s.grants[id]?).bind fun g =>
        if g.grant.expiresAtMs ≤ now ∧ g.grant.mode ≠ .browserSession then some (e.1, g) else none) ↔
      ∃ o : Operation, s.operations[key]? = some o ∧ o.status = .executing ∧
        (o.grantId.bind fun id => s.grants[id]?) = some g ∧ g.isDue now = true := by
  rw [List.mem_filterMap]
  constructor
  · rintro ⟨⟨key', o⟩, he, hrow⟩
    obtain ⟨ho, hexecuting⟩ := mem_select.mp he
    obtain ⟨c, hc, hdue⟩ := Option.bind_eq_some_iff.mp hrow
    split at hdue
    · next hpast =>
      obtain ⟨rfl, rfl⟩ := Prod.mk.inj (Option.some.inj hdue)
      exact ⟨o, ho, eq_of_beq hexecuting, hc, decide_eq_true hpast⟩
    · cases hdue
  · rintro ⟨o, ho, hexecuting, hg, hdue⟩
    refine ⟨(key, o), mem_select.mpr ⟨ho, beq_iff_eq.mpr hexecuting⟩, ?_⟩
    rw [hg, Option.bind_some, if_pos (of_decide_eq_true hdue)]

/-- If an execution is unconfirmed, one of them is given up. -/
theorem Store.doubtUnconfirmed_lt (hpos : 0 < countWhere s.operations (s.isUnconfirmed now)) :
    countWhere (s.doubtUnconfirmed (s.unconfirmed now)).operations
        ((s.doubtUnconfirmed (s.unconfirmed now)).isUnconfirmed now) <
      countWhere s.operations (s.isUnconfirmed now) := by
  refine countWhere_lt (Store.doubtUnconfirmed_recedes.unconfirmed now) ?_
  obtain ⟨key, o, ho, hdue⟩ := countWhere_pos.mp hpos
  obtain ⟨hexecuting, hgrant⟩ := Bool.and_eq_true_iff.mp hdue
  obtain ⟨g, hg, hpast⟩ := (Option.any_eq_true _ _).mp hgrant
  -- the batch has a row, which need not be this one
  have hrow := Store.mem_unconfirmedRows.mpr ⟨o, ho, eq_of_beq hexecuting, hg, hpast⟩
  obtain ⟨⟨key, g⟩, he⟩ := exists_mem_batch (n := expiryBatch) (by decide) hrow
  obtain ⟨o, ho, hexecuting, hg, hpast⟩ :=
    Store.mem_unconfirmedRows.mp (mem_orderBy.mp (List.mem_of_mem_take he))
  have hlisted : key ∈ s.unconfirmed now := List.mem_map_of_mem he
  refine ⟨key, o, ho, ?_, fun o' ho' => ?_⟩
  · rw [Store.isUnconfirmed, hexecuting, hg]
    exact hpast
  obtain rfl := Table.updateWhere_of_some ho ho'
  have hmatch : ((s.unconfirmed now).contains key && o.status == .executing) = true :=
    Bool.and_eq_true_iff.mpr ⟨List.contains_iff_mem.mpr hlisted, beq_iff_eq.mpr hexecuting⟩
  rw [if_pos hmatch]
  rfl

theorem Store.signTombstones_operations (h : s.signTombstones cfg now = .ok (s', n)) :
    s'.operations = s.operations := by
  unfold Store.signTombstones at h
  split at h
  · obtain ⟨signed, hsigned, hpure⟩ := bind_eq_ok.mp h
    cases hpure
    refine Transaction.foldlM_induct (P := fun _ t => t.operations = s.operations) ?_ hsigned rfl
    intro e _ t t' ht hstep
    obtain ⟨envelope, -, hpure⟩ := bind_eq_ok.mp hstep
    cases hpure
    exact ht
  · cases h
    rfl

theorem Store.signTombstones_recedes (h : s.signTombstones cfg now = .ok (s', n)) :
    s.Recedes s' := by
  have hw : Writes cfg now [.sign] s s' := Store.signTombstones_writes h
  refine .of_writes (by decide) (by decide) hw ?_
  rw [Ends, Store.signTombstones_operations h]
  exact Table.Evolves.refl fun _ _ => .inl rfl

/-! ### The pass -/

/-- As long as something is left to do, the pass settles a part of it. -/
theorem Store.backlog_lt {summary : FleetExpirySummary}
    (h : s.expireFleetState cfg (.still now) = .ok (s', summary)) (hpos : 0 < s.backlog now) :
    s'.backlog now < s.backlog now := by
  obtain ⟨⟨grouped, members⟩, hgrouped, h⟩ := bind_eq_ok.mp h
  obtain ⟨⟨denied, overdue⟩, hdenied, h⟩ := bind_eq_ok.mp h
  obtain ⟨⟨signed, tombstones⟩, hsigned, h⟩ := bind_eq_ok.mp h
  obtain ⟨rfl, -⟩ := Prod.mk.inj (Except.ok.inj h)
  let lapsed := (denied.expiredGrants now).foldl (fun s e => s.expireGrant e.1 e.2) denied
  let doubted := lapsed.doubtUnconfirmed (lapsed.unconfirmed now)
  obtain ⟨hgroupsw, hgroupsends⟩ : Writes cfg now [.regroup, .close] s grouped ∧ Ends s grouped :=
    expireGroups_writes cfg hgrouped
  have hgroups : s.Recedes grouped := .of_writes (by decide) (by decide) hgroupsw hgroupsends
  have hdeny : grouped.Recedes denied := Store.denyOverdue_recedes hdenied
  have hlapse : denied.Recedes lapsed := Store.expireGrants_recedes
  have hdoubt : lapsed.Recedes doubted := Store.doubtUnconfirmed_recedes
  have hsign : doubted.Recedes signed := Store.signTombstones_recedes hsigned
  -- each of the three counts falls in its own part of the pass and rises in none
  have hoverdue : countWhere signed.operations (Store.overdue now) ≤
      countWhere s.operations (Store.overdue now) - 1 := by
    have hbefore := countWhere_le (hgroups.overdue now)
    have hafter := countWhere_le (((hlapse.trans hdoubt).trans hsign).overdue now)
    have hturn := Store.denyOverdue_lt hdenied
    have hkept := countWhere_le (hdeny.overdue now)
    omega
  have hoverrun : countWhere signed.grants (overrun now) ≤
      countWhere s.grants (overrun now) - 1 := by
    have hbefore := countWhere_le ((hgroups.trans hdeny).overrun now)
    have hafter := countWhere_le ((hdoubt.trans hsign).overrun now)
    have hturn : 0 < countWhere denied.grants (overrun now) →
        countWhere lapsed.grants (overrun now) <
          countWhere denied.grants (overrun now) := Store.expireGrants_lt
    have hkept := countWhere_le (hlapse.overrun now)
    omega
  have hunconfirmed : countWhere signed.operations (signed.isUnconfirmed now) ≤
      countWhere s.operations (s.isUnconfirmed now) - 1 := by
    have hbefore := countWhere_le (((hgroups.trans hdeny).trans hlapse).unconfirmed now)
    have hafter := countWhere_le (hsign.unconfirmed now)
    have hturn : 0 < countWhere lapsed.operations (lapsed.isUnconfirmed now) →
        countWhere doubted.operations (doubted.isUnconfirmed now) <
          countWhere lapsed.operations (lapsed.isUnconfirmed now) :=
      Store.doubtUnconfirmed_lt
    have hkept := countWhere_le (hdoubt.unconfirmed now)
    omega
  unfold Store.backlog at hpos ⊢
  omega

end BlindPass.Controller
