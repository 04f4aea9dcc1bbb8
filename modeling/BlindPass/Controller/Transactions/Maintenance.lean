import BlindPass.Controller.Transactions.Nodes

/-!
# What maintenance writes

The expiry pass ends overdue groups, operations and grants one after the other, each batch
from a reading of its own. A clock fence denies every pending operation and tells nobody.
Pruning removes rows that no operation refers to.
-/

namespace BlindPass.Controller

open Fleet (SignedEnvelope)
open Transaction (bind_eq_ok)

variable {cfg : Config} {time : ℕ} {s s' : Store}

/-! ### Overdue groups and operations -/

/-- Each operation is as it was, or it ended. -/
abbrev Ends (s s' : Store) : Prop :=
  Table.Evolves (fun _ (o o' : Operation) =>
    o' = o ∨ (o'.status.isPending = false ∧ o'.status.isOpen = false)) s.operations s'.operations

theorem Ends.refl : Ends s s := Table.Evolves.refl fun _ _ => .inl rfl

theorem Ends.trans {t : Store} (h₁ : Ends s t) (h₂ : Ends t s') : Ends s s' := by
  refine Table.Evolves.trans ?_ h₁ h₂
  rintro _ o o' o'' hfirst (rfl | hended)
  · exact hfirst
  · exact .inr hended

variable {reason grantId : String} {clock : SweepClock} {n now : ℕ} {g : GrantRow}

theorem Store.endGroup_ends {approvalId closure : String} {closed : ℕ}
    (h : s.endGroup cfg approvalId reason closure closed = .ok s') : Ends s s' := by
  unfold Store.endGroup at h
  simp only at h
  obtain ⟨docs, rfl, -⟩ := Store.enqueueClosures_cases h
  exact Table.evolves_updateWhere (fun _ _ => .inl rfl) fun _ _ _ _ => .inr ⟨rfl, rfl⟩

/-- The overdue groups end one after the other. -/
theorem expireGroups_writes (cfg : Config) {groups : List String} {n' : ℕ}
    (h : groups.foldlM (fun e id => e.1.expireGroup cfg clock e.2 id) (s, n) = .ok (s', n')) :
    Writes cfg time [.regroup, .close] s s' ∧ Ends s s' := by
  refine Transaction.foldlM_induct
    (P := fun _ e => Writes cfg time [.regroup, .close] s e.1 ∧ Ends s e.1) ?_ h ⟨.refl, .refl⟩
  rintro id _ ⟨t, m⟩ ⟨t', m'⟩ ⟨hw, hends⟩ hstep
  obtain ⟨ended, hended, hpure⟩ := bind_eq_ok.mp hstep
  cases hpure
  exact ⟨hw.trans (Store.endGroup_writes hended), hends.trans (Store.endGroup_ends hended)⟩

/-- A broker waits for an operation that came due between the two readings. -/
def Store.overdueBetween (s : Store) (first second : ℕ) : Bool :=
  s.operations.toList.any fun e => e.2.status.isPending && e.2.brokerEventKey.isSome &&
    decide (first < e.2.expiresAtMs) && decide (e.2.expiresAtMs ≤ second)

theorem Store.mem_overdueOperations {key : String} (h : key ∈ s.overdueOperations now) :
    ∃ o : Operation, s.operations[key]? = some o ∧ o.status.isPending = true ∧
      o.expiresAtMs ≤ now := by
  obtain ⟨⟨key', o⟩, he, rfl⟩ := List.mem_map.mp h
  obtain ⟨ho, hcond⟩ := Table.mem_select.mp (Table.mem_orderBy.mp (List.mem_of_mem_take he))
  obtain ⟨hpending, hdue⟩ := Bool.and_eq_true_iff.mp hcond
  exact ⟨o, ho, hpending, of_decide_eq_true hdue⟩

theorem moves_deny_overdue (p : String → Bool) (reason : String) :
    ∀ key o, s.operations[key]? = some o → (p key && o.status.isPending) = true →
      o.Moves (Kind.moves .close) (o.settle .denied { reason := some reason }) := by
  intro key o _ hcond
  refine Operation.moves_settle ?_
  rw [Kind.moves, (Bool.and_eq_true_iff.mp hcond).2]
  rfl

theorem Write.denyOverdue (h : s.denyOverdue cfg clock = .ok (s', n)) :
    Write cfg time (if s.overdueBetween clock.targets clock.operations then .abandon else .close)
      s s' := by
  unfold Store.denyOverdue at h
  obtain ⟨closed, hclosed, hpure⟩ := bind_eq_ok.mp h
  cases hpure
  split
  · -- some request may stay open
    obtain ⟨docs, rfl, hdocs, -⟩ := Store.enqueueClosures_cases hclosed
    have hops := evolves_updateOperations (s := s) (M := Kind.moves .abandon)
      (moves_deny_overdue (s.overdueOperations clock.operations).contains "expired")
    exact Write.evolve rfl hops (Table.Evolves.refl fun _ _ => .refl) hdocs
      (.of_quiet (k := .abandon) (fun _ => rfl) (Table.Evolves.refl fun _ _ => .refl)) (absurd rfl)
      (fun _ => .of_eq) (fun _ => .of_moves hops (by decide))
  · next hsame =>
    refine Write.close_pending (moves_deny_overdue _ _) ?_ hclosed
    intro key o eventKey ho hp hactive hkey
    obtain ⟨hid, hpending⟩ := Bool.and_eq_true_iff.mp hp
    refine List.mem_filter.mpr ⟨s.mem_closureTargets ho ?_ hactive hkey, hid⟩
    obtain ⟨o', ho', -, hdue⟩ := Store.mem_overdueOperations (List.contains_iff_mem.mp hid)
    obtain rfl : o = o' := Option.mem_unique ho ho'
    refine Bool.and_eq_true_iff.mpr ⟨hpending, decide_eq_true ?_⟩
    by_contra hlate
    refine hsame (Store.any_operations ho ?_)
    simp only [hpending, hkey, Option.isSome_some, Bool.and_self, Bool.true_and,
      Bool.and_eq_true, decide_eq_true_eq]
    omega

/-! ### Expired grants -/

/-- One expired grant, as it was read, ends with its operation. -/
theorem Write.expireGrant (hs : Coherent s) (hg : s.grants[grantId]? = some g) :
    Write cfg time .lapse s (s.expireGrant grantId g) := by
  have hops : Table.Evolves (fun _ => Operation.Moves (Kind.moves .lapse)) s.operations
      (s.expireGrant grantId g).operations := by
    refine evolves_updateOperations (s := s) fun key o _ hcond => ?_
    have hopen := (Bool.and_eq_true_iff.mp hcond).2
    unfold Operation.lapse
    split
    · refine Operation.moves_settle ?_
      rw [Kind.moves, hopen]
      split <;> rfl
    · refine Operation.moves_withStatus ?_
      rw [Kind.moves, hopen]
      rfl
  have hgrants : Table.Evolves (fun _ => GrantRow.Moves (Kind.grantMoves .lapse)) s.grants
      (s.expireGrant grantId g).grants := by
    refine evolves_updateGrants (s := s) fun id c _ hcond => GrantRow.moves_withStatus ?_
    rw [Kind.grantMoves, (Bool.and_eq_true_iff.mp hcond).2]
    rfl
  refine Write.evolve_silent rfl (by decide) hops hgrants (fun _ => .of_moves hops (by decide)) (fun _ => ?_)
    (fun _ => ?_)
  · intro key o' id c c' ho' hgranted hid hc hlive hc'
    obtain rfl := Table.updateWhere_of_some hc hc'
    by_cases hthis : id = grantId
    · -- the holder of the grant left `granted` in the same statement
      subst hthis
      exfalso
      obtain ⟨o, ho, hupdated⟩ := Table.getElem?_updateWhere_eq_some.mp ho'
      split at hupdated
      · rw [← hupdated, Operation.lapse] at hgranted
        split at hgranted
        · change (if g.status = .issued then OperationStatus.failed else .uncertain) = _ at hgranted
          split at hgranted <;> cases hgranted
        · cases hgranted
      · next hcond =>
        subst hupdated
        refine hcond ?_
        rw [hs.holder hg ho hid, hgranted, beq_self_eq_true]
        rfl
    · rw [if_neg (by simp [hthis])]
      exact hlive
  · intro key o o' ho ho' hnot hfailed
    have hupdated := Table.updateWhere_of_some ho ho'
    split at hupdated
    · next hcond =>
      obtain ⟨owner, howner, hid⟩ := hs.owned grantId g hg
      rw [← eq_of_beq (Bool.and_eq_true_iff.mp hcond).1, ho] at howner
      cases howner
      refine ⟨grantId, g, hid, hg, ?_⟩
      -- only a grant that was still `issued` lets its operation fail
      rw [← hupdated, Operation.lapse] at hfailed
      split at hfailed
      · by_contra hdelivered
        change (if g.status = .issued then OperationStatus.failed else .uncertain) = _ at hfailed
        rw [if_neg hdelivered] at hfailed
        cases hfailed
      · cases hfailed
    · rw [← hupdated] at hfailed
      exact absurd hfailed hnot

/-- The keys of a selection are distinct, in any order. -/
theorem pairwise_expiredGrants : (s.expiredGrants now).Pairwise fun e e' => e.1 ≠ e'.1 := by
  refine List.Pairwise.sublist (List.take_sublist _ _) ?_
  exact Table.pairwise_select.perm (List.perm_insertionSort _ _).symm fun hne => hne.symm

theorem Store.expireGrant_other {id : String} (hne : id ≠ grantId) :
    (s.expireGrant grantId g).grants[id]? = s.grants[id]? := by
  change (Table.updateWhere s.grants _ _)[id]? = _
  rw [Table.getElem?_updateWhere]
  rcases s.grants[id]? with _ | c
  · rfl
  · simp [hne]

/-- The expired grants end one after the other. A later one is still as it was read. -/
theorem expireGrants_writes (cfg : Config) {l : List (String × GrantRow)} (hs : Coherent s)
    (hl : ∀ e ∈ l, s.grants[e.1]? = some e.2) (hkeys : l.Pairwise fun e e' => e.1 ≠ e'.1) :
    Writes cfg time [.lapse] s (l.foldl (fun s e => s.expireGrant e.1 e.2) s) := by
  refine (Transaction.foldl_induct
    (P := fun rest t => Writes cfg time [.lapse] s t ∧
      (∀ e ∈ rest, t.grants[e.1]? = some e.2) ∧ rest.Pairwise fun e e' => e.1 ≠ e'.1)
    ?_ ⟨.refl, hl, hkeys⟩).1
  rintro e rest t ⟨hw, hrest, hpairwise⟩
  obtain ⟨hother, hpairwise⟩ := List.pairwise_cons.mp hpairwise
  refine ⟨hw.tail (Write.expireGrant (hw.coherent hs) (hrest e (.head _))) (by simp),
    ?_, hpairwise⟩
  intro e' he'
  rw [Store.expireGrant_other (hother e' he').symm]
  exact hrest e' (.tail e he')

theorem Store.mem_expiredGrants {e : String × GrantRow} (he : e ∈ s.expiredGrants now) :
    s.grants[e.1]? = some e.2 :=
  (Table.mem_select.mp (Table.mem_orderBy.mp (List.mem_of_mem_take he))).1

theorem Write.doubtUnconfirmed {ids : List String} :
    Write cfg time .lapse s (s.doubtUnconfirmed ids) := by
  have hops : Table.Evolves (fun _ => Operation.Moves (Kind.moves .lapse)) s.operations
      (s.doubtUnconfirmed ids).operations := by
    refine evolves_updateOperations (s := s) fun key o _ hcond => Operation.moves_settle ?_
    rw [eq_of_beq (Bool.and_eq_true_iff.mp hcond).2]
    rfl
  refine Write.evolve_silent rfl (by decide) hops (Table.Evolves.refl fun _ _ => .refl)
    (fun _ => .of_moves hops (by decide)) (fun _ => .of_eq) (fun _ => ?_)
  intro key o o' ho ho' hnot hfailed
  exfalso
  have hupdated := Table.updateWhere_of_some ho ho'
  split at hupdated
  · rw [← hupdated] at hfailed
    cases hfailed
  · rw [← hupdated] at hfailed
    exact hnot hfailed

/-! ### Tombstones -/

theorem tombstoneEnvelope_cases {t : Tombstone} {epoch : ℕ} {envelope : SignedEnvelope}
    (h : tombstoneEnvelope grantId t epoch = .ok envelope) :
    RevokesGrant envelope grantId t.nodeId := by
  unfold tombstoneEnvelope at h
  simp only at h
  split at h
  · cases h
    exact ⟨_, rfl, rfl, rfl⟩
  · cases h

/-- One tombstone is signed, and its revocation is queued. -/
theorem Write.sign_tombstone {nodeId : String} {envelope : SignedEnvelope}
    (hnode : ∀ t : Tombstone, s.tombstones[grantId]? = some t → t.nodeId = nodeId)
    (henvelope : RevokesGrant envelope grantId nodeId) :
    Write cfg time .sign s ({ s with
      tombstones := Table.updateWhere s.tombstones (fun k t => k == grantId && t.envelope.isNone)
        fun t => { t with envelope := some envelope } }.enqueueNodeDocument nodeId envelope) := by
  refine Write.sign (.next henvelope.grantless) (Table.evolves_updateWhere (fun _ _ => .inl rfl) ?_)
  intro id t ht hcond
  obtain ⟨hid, hunsigned⟩ := Bool.and_eq_true_iff.mp hcond
  obtain rfl : id = grantId := eq_of_beq hid
  exact .inr ⟨Option.isNone_iff_eq_none.mp hunsigned, envelope, rfl, hnode t ht ▸ henvelope, _,
    List.mem_singleton_self _, (hnode t ht).symm, rfl⟩

theorem Store.signPendingTombstones_writes (h : s.signPendingTombstones now = .ok (s', n)) :
    Writes cfg time [.sign] s s' := by
  unfold Store.signPendingTombstones at h
  obtain ⟨signed, hsigned, hpure⟩ := bind_eq_ok.mp h
  cases hpure
  -- a tombstone still to be signed belongs to the node it was read with
  refine (Transaction.foldlM_induct (P := fun rest u => Writes cfg time [.sign] s u ∧
    ∀ e ∈ rest, ∀ t : Tombstone, u.tombstones[e.1]? = some t → t.nodeId = e.2.nodeId) ?_ hsigned
    ⟨.refl, ?_⟩).1
  · rintro e rest u u' ⟨hw, hrest⟩ hstep
    obtain ⟨envelope, henvelope, hpure⟩ := bind_eq_ok.mp hstep
    cases hpure
    refine ⟨hw.tail (Write.sign_tombstone (hrest e (.head _))
      (tombstoneEnvelope_cases henvelope)) (by simp), ?_⟩
    intro e' he' t' ht'
    obtain ⟨t, ht, rfl⟩ := Table.getElem?_updateWhere_eq_some.mp ht'
    have hnode := hrest e' (.tail e he') t ht
    split <;> exact hnode
  · intro e he t ht
    obtain ⟨hrow, -⟩ := Table.mem_select.mp (Table.mem_orderBy.mp (List.mem_of_mem_take he))
    obtain rfl : t = e.2 := Option.mem_unique ht hrow
    rfl

theorem Store.signTombstones_writes (h : s.signTombstones cfg now = .ok (s', n)) :
    Writes cfg time [.sign] s s' := by
  unfold Store.signTombstones at h
  split at h
  · exact Store.signPendingTombstones_writes h
  · cases h
    exact .refl

/-! ### The expiry pass -/

theorem Store.expireFleetState_writes {summary : FleetExpirySummary} (hs : Coherent s)
    (h : s.expireFleetState cfg clock = .ok (s', summary)) :
    Writes cfg time [.regroup, .close, .lapse, .sign,
      if s.overdueBetween clock.targets clock.operations then .abandon else .close] s s' := by
  unfold Store.expireFleetState at h
  obtain ⟨⟨grouped, members⟩, hgrouped, h⟩ := bind_eq_ok.mp h
  obtain ⟨⟨denied, overdue⟩, hdenied, h⟩ := bind_eq_ok.mp h
  obtain ⟨⟨signed, tombstones⟩, hsigned, h⟩ := bind_eq_ok.mp h
  cases h
  obtain ⟨hgroups, hends⟩ := expireGroups_writes cfg hgrouped
  -- an operation that is still pending after the groups ended is as it was before
  have hbetween : grouped.overdueBetween clock.targets clock.operations = true →
      s.overdueBetween clock.targets clock.operations = true := by
    intro hafter
    obtain ⟨⟨key, o'⟩, he, hcond⟩ := List.any_eq_true.mp hafter
    obtain ⟨o, ho, hrow⟩ := hends.get_back (Std.TreeMap.mem_toList_iff_getElem?_eq_some.mp he)
    rcases hrow with rfl | ⟨hended, -⟩
    · exact Store.any_operations ho hcond
    · simp only [hended, Bool.false_and] at hcond
      cases hcond
  have hdenied' : Writes cfg time [.regroup, .close, .lapse, .sign,
      if s.overdueBetween clock.targets clock.operations then .abandon else .close] s denied := by
    refine (hgroups.mono (by simp)).tail (Write.denyOverdue hdenied) ?_
    by_cases hafter : grouped.overdueBetween clock.targets clock.operations = true
    · simp [hafter, hbetween hafter]
    · simp [hafter]
  have hlapsed : Writes cfg time [.lapse] denied _ := expireGrants_writes cfg
    (l := denied.expiredGrants clock.grants)
    (hdenied'.coherent hs) (fun _ he => Store.mem_expiredGrants he) pairwise_expiredGrants
  exact Transaction.Path.trans
    ((hdenied'.trans (hlapsed.mono (by simp))).tail Write.doubtUnconfirmed (by simp))
    ((Store.signTombstones_writes hsigned).mono (by simp))

/-! ### The clock fence -/

/-- A broker waits for a pending operation. -/
def Store.fencesUnclosed (s : Store) : Bool :=
  s.operations.toList.any fun e => e.2.status.isPending && e.2.brokerEventKey.isSome

/-- The tombstone of a fence can be signed as soon as the clock is trusted. -/
theorem Sound.fence_signable {id : String} (hs : Sound s) (hg : s.grants[id]? = some g)
    (hpositive : 0 < now) (hnow : now ≤ latestInstant) :
    (⟨g.grant.nodeId, reason, now, max g.grant.expiresAtMs now + tombstoneRetentionMs, none⟩ :
      Tombstone).Signable id := by
  obtain ⟨hid, hnode, hexpires⟩ := hs.grants id g hg
  have hmax : max g.grant.expiresAtMs now ≤ latestInstant + 3605000 :=
    max_le hexpires (hnow.trans (Nat.le_add_right _ _))
  have hle : now ≤ max g.grant.expiresAtMs now := le_max_right _ _
  generalize max g.grant.expiresAtMs now = last at hmax hle
  unfold latestInstant at hnow hmax
  refine ⟨hid, hnode, Fleet.isPositiveInteger_iff.mpr ⟨hpositive, ?_⟩,
    Fleet.isPositiveInteger_iff.mpr ?_, ?_⟩
  · change now ≤ 9007199254740991
    omega
  all_goals
    simp only [tombstoneRetentionMs]
    omega

/-- The tombstone a fence raises for a grant. -/
def GrantRow.fenceTombstone (g : GrantRow) (now : ℕ) : Tombstone :=
  ⟨g.grant.nodeId, "policy", now, max g.grant.expiresAtMs now + tombstoneRetentionMs, none⟩

/-- A fence keeps the tombstones there are, and raises one for every live grant without. -/
structure Store.Fences (s : Store) (now : ℕ) (tombstones' : Std.TreeMap String Tombstone) :
    Prop where
  kept : ∀ (id : String) (t : Tombstone), s.tombstones[id]? = some t → tombstones'[id]? = some t
  raised : ∀ (id : String) (t : Tombstone), tombstones'[id]? = some t →
    s.tombstones[id]? = some t ∨ ∃ g : GrantRow, s.grants[id]? = some g ∧
      g.status.isLive = true ∧ t = g.fenceTombstone now
  covers : ∀ (id : String) (g : GrantRow), s.grants[id]? = some g → g.status.isLive = true →
    ∃ t : Tombstone, tombstones'[id]? = some t

theorem Store.fenceTombstones_fences : s.Fences now (s.fenceTombstones now) := by
  -- every live grant is covered already or still to come
  have hloop := Transaction.foldl_induct (s := s.tombstones)
    (l := Table.select s.grants fun _ g => g.status.isLive)
    (f := fun tombstones e => if tombstones.contains e.1 then tombstones
      else tombstones.insert e.1 (e.2.fenceTombstone now))
    (P := fun rest tombstones =>
      (∀ e ∈ rest, s.grants[e.1]? = some e.2 ∧ e.2.status.isLive = true) ∧
      (∀ (id : String) (t : Tombstone), s.tombstones[id]? = some t →
        tombstones[id]? = some t) ∧
      (∀ (id : String) (t : Tombstone), tombstones[id]? = some t → s.tombstones[id]? = some t ∨
        ∃ g : GrantRow, s.grants[id]? = some g ∧ g.status.isLive = true ∧
          t = g.fenceTombstone now) ∧
      ∀ (id : String) (g : GrantRow), s.grants[id]? = some g → g.status.isLive = true →
        (id, g) ∈ rest ∨ ∃ t : Tombstone, tombstones[id]? = some t)
    ?_ ⟨fun e he => Table.mem_select.mp he, fun _ _ ht => ht, fun _ _ ht => .inl ht,
      fun id g hg hlive => .inl (Table.mem_select.mpr ⟨hg, hlive⟩)⟩
  · obtain ⟨-, hkept, hraised, hcovers⟩ := hloop
    refine ⟨hkept, hraised, fun id g hg hlive => ?_⟩
    exact (hcovers id g hg hlive).resolve_left List.not_mem_nil
  · rintro e rest tombstones ⟨hrest, hkept, hraised, hcovers⟩
    refine ⟨fun e' he' => hrest e' (.tail e he'), ?_⟩
    split
    · next hknown =>
      refine ⟨hkept, hraised, fun id g hg hlive => ?_⟩
      refine (hcovers id g hg hlive).elim (fun hmem => ?_) .inr
      refine (List.mem_cons.mp hmem).symm.imp_right ?_
      rintro rfl
      rwa [Std.TreeMap.contains_eq_isSome_getElem?, Option.isSome_iff_exists] at hknown
    · next hfree =>
      have hnone : tombstones[e.1]? = none := by
        rw [Std.TreeMap.contains_eq_isSome_getElem?] at hfree
        simpa using hfree
      refine ⟨?_, ?_, ?_⟩
      · intro id t ht
        have hne : id ≠ e.1 := by
          rintro rfl
          exact absurd ((hkept _ t ht).symm.trans hnone) nofun
        rw [Table.getElem?_insert, if_neg hne]
        exact hkept id t ht
      · intro id t ht
        rw [Table.getElem?_insert] at ht
        split at ht
        · next hid =>
          cases ht
          rw [hid]
          exact .inr ⟨e.2, (hrest e (.head _)).1, (hrest e (.head _)).2, rfl⟩
        · exact hraised id t ht
      · intro id g hg hlive
        rw [Table.getElem?_insert]
        split
        · exact .inr ⟨_, rfl⟩
        next hne =>
        refine (hcovers id g hg hlive).elim (fun hmem => ?_) .inr
        refine .inl ((List.mem_cons.mp hmem).resolve_left ?_)
        rintro rfl
        exact hne rfl

theorem Write.fence_grants (hs : s.Entombed) (hpositive : 0 < now) (hnow : now ≤ latestInstant) :
    Write cfg now .withdraw s { s with tombstones := s.fenceTombstones now }.fenceGrants := by
  have hops : Table.Evolves (fun _ => Operation.Moves (Kind.moves .withdraw)) s.operations
      s.fenceGrants.operations := by
    refine evolves_updateOperations (s := s) fun key o _ hcond => Operation.moves_settle ?_
    rw [eq_of_beq (Bool.and_eq_true_iff.mp hcond).1]
    rfl
  have hgrants : Table.Evolves (fun _ => GrantRow.Moves (Kind.grantMoves .withdraw)) s.grants
      s.fenceGrants.grants := by
    refine evolves_updateGrants (s := s) fun id g _ hlive => GrantRow.moves_withStatus ?_
    rw [Kind.grantMoves, hlive]
    rfl
  have hfences : s.Fences now (s.fenceTombstones now) := Store.fenceTombstones_fences
  have hburies : Buries now s s.fenceGrants.grants (s.fenceTombstones now) [] := by
    refine ⟨hfences.kept, fun id t ht => (hfences.raised id t ht).imp_right ?_, ?_⟩
    · rintro ⟨g, hg, hlive, rfl⟩
      refine ⟨⟨g.withStatus .revoked, ?_, rfl, rfl⟩, by rintro _ ⟨⟩, fun _ hsound => ?_⟩
      · exact Table.getElem?_updateWhere_eq_some.mpr ⟨g, hg, if_pos hlive⟩
      · exact hsound.fence_signable hg hpositive hnow
    · intro id g g' hg hg' hnot hrevoked
      have hupdated := Table.updateWhere_of_some hg hg'
      split at hupdated
      · next hlive =>
        obtain ⟨t, ht⟩ := hfences.covers id g hg hlive
        refine ⟨t, ht, ?_⟩
        rcases hfences.raised id t ht with hold | ⟨c', hc', -, rfl⟩
        · -- a grant under a tombstone is not live
          obtain ⟨c', hc', hstatus, -⟩ := hs id t hold
          obtain rfl : g = c' := Option.mem_unique hg hc'
          exact absurd hstatus hnot
        · obtain rfl : g = c' := Option.mem_unique hg hc'
          rw [max_comm]
          exact le_refl (max g.grant.expiresAtMs now + tombstoneRetentionMs)
      · rw [← hupdated] at hrevoked
        exact absurd hrevoked hnot
  have hw : Write cfg now .withdraw s { s with
      operations := s.fenceGrants.operations
      grants := s.fenceGrants.grants
      tombstones := s.fenceTombstones now
      inbox := s.inbox ++ [] } := by
    refine Write.evolve rfl hops hgrants .nil hburies (fun _ => .of_moves hops (by decide))
      (fun _ => ?_) (fun _ => ?_)
    · intro key o' id g g' ho' hgranted hid hg hlive _
      -- a granted operation with a live grant was revoked
      exfalso
      obtain ⟨o, ho, hupdated⟩ := Table.getElem?_updateWhere_eq_some.mp ho'
      split at hupdated
      · rw [← hupdated] at hgranted
        cases hgranted
      next hcond =>
      subst hupdated
      refine hcond ?_
      simp [hgranted, hid, hg, hlive]
    · intro key o o' ho ho' hnot hfailed
      exfalso
      have hupdated := Table.updateWhere_of_some ho ho'
      split at hupdated
      · rw [← hupdated] at hfailed
        cases hfailed
      · rw [← hupdated] at hfailed
        exact hnot hfailed
  rwa [List.append_nil] at hw

theorem moves_fence_pending :
    ∀ (key : String) o, s.operations[key]? = some o → o.status.isPending = true →
      o.Moves (Kind.moves .close) (o.settle .denied { reason := some reason }) := by
  intro key o _ hpending
  refine Operation.moves_settle ?_
  rw [Kind.moves, hpending]
  rfl

/-- The fence denies every pending operation. It leaves no request open if there was none. -/
theorem Write.deny_fenced (reason : String) :
    Write cfg time (if s.fencesUnclosed then .abandon else .close) s
      (s.updateOperations (fun _ o => o.status.isPending)
        fun o => o.settle .denied { reason := some reason }) := by
  have hops : Table.Evolves (fun _ => Operation.Moves (Kind.moves .close)) s.operations
      (s.updateOperations (fun _ o => o.status.isPending)
        fun o => o.settle .denied { reason := some reason }).operations :=
    evolves_updateOperations moves_fence_pending
  split
  · exact Write.abandon_pending moves_fence_pending
  next hnone =>
  refine Write.evolve_silent rfl (fun _ => rfl) hops (Table.Evolves.refl fun _ _ => .refl)
    (fun _ => ?_) (fun _ => .of_eq) (fun _ => .of_moves hops (by decide))
  intro _ key o o' eventKey ho _ hpending _ hkey _
  exact absurd (Store.any_operations ho (by simp [hpending, hkey])) hnone

theorem Store.fleetFencePurge_writes (hs : Coherent s) (hpositive : 0 < now)
    (hnow : now ≤ latestInstant) :
    Writes cfg now [.regroup, if s.fencesUnclosed then .abandon else .close, .withdraw, .administer]
      s (s.fleetFencePurge now).1 := by
  have hgroups : Regroups s.approvals (Table.updateWhere s.approvals
      (fun _ a => a.status == .pending) OperationApproval.expire) :=
    .of_update (fun _ _ h => eq_of_beq h) fun _ _ => ⟨nofun, rfl⟩
  -- ending the groups does not change which requests are open
  let expired := s.updateApprovals (fun _ a => a.status == .pending) OperationApproval.expire
  have hdeny : Write cfg now (if s.fencesUnclosed then .abandon else .close) expired
      (expired.updateOperations (fun _ o => o.status.isPending)
        fun o => o.settle .denied { reason := some "clock_fence" }) :=
    Write.deny_fenced (s := expired) "clock_fence"
  refine .head (Write.regroup hgroups) (by simp) (.head hdeny (by simp)
    (.head (Write.fence_grants hs.entombed hpositive hnow) (by simp)
      (.single (Write.administer ?_) (by simp))))
  exact .of_tables rfl (.of_update fun _ => ⟨rfl, rfl⟩)

/-! ### Pruning -/

theorem Store.pruneFleetState_writes :
    Writes cfg time [.administer, .mark] s (s.pruneFleetState now) := by
  let swept := { s with nodeEvents := (s.pruneFleetState now).nodeEvents }
  have hswept : Administers s swept := .of_tables rfl .refl
  have hmarked : Write cfg time .mark swept (s.pruneFleetState now) := by
    refine Write.mark (s := swept) (fun r hr => ?_) fun id t ht => ?_
    · exact ⟨r, (List.mem_filter.mp hr).1, rfl, rfl⟩
    · exact Table.getElem?_of_foldl_erase ht
  exact .head (Write.administer hswept) (by simp) (.single hmarked (by simp))

end BlindPass.Controller
