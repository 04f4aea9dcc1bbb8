import BlindPass.Controller.Writes

/-!
# The statements the transactions share

Most transactions end with a closure for each operation they ended, and most writes are an
`UPDATE` of operations or grants. This file shows of which kind these statements are.
-/

namespace BlindPass.Controller

open Fleet (SignedEnvelope)

variable {cfg : Config} {time : ℕ} {k : Kind} {K : List Kind} {s s' : Store}
  {M : OperationStatus → OperationStatus → Bool} {N : GrantStatus → GrantStatus → Bool}
  {operations' : Std.TreeMap String Operation} {grants' : Std.TreeMap String GrantRow}
  {p : String → Operation → Bool} {f : Operation → Operation}

/-! ### Queueing documents -/

variable {inbox docs : List InboxRow} {envelope : SignedEnvelope} {nodeId status : String}
  {nowMs : ℕ} {targets : List ClosureTarget} {g : GrantRow}

theorem Numbered.nil : Numbered inbox [] :=
  ⟨List.forall_mem_nil _, fun _ _ => List.forall_mem_nil _, .nil⟩

theorem Numbered.append {docs' : List InboxRow} (h : Numbered inbox docs)
    (h' : Numbered (inbox ++ docs) docs') : Numbered inbox (docs ++ docs') where
  fresh := by
    intro r hr
    exact (List.mem_append.mp hr).elim (h.fresh r) (h'.fresh r)
  later := by
    intro r₀ hr₀ r hr
    rcases List.mem_append.mp hr with hr | hr
    · exact h.later r₀ hr₀ r hr
    · exact h'.later r₀ (List.mem_append_left docs hr₀) r hr
  increasing := by
    refine List.pairwise_append.mpr ⟨h.increasing, h'.increasing, ?_⟩
    intro r hr r' hr'
    exact h'.later r (List.mem_append_right inbox hr) r' hr'

/-- The next number of a node is above all earlier ones. -/
theorem Numbered.next :
    Numbered s.inbox [⟨nodeId, s.lastSeq nodeId + 1, envelope, false, none⟩] where
  fresh := List.forall_mem_singleton.mpr ⟨rfl, rfl, Nat.succ_pos _⟩
  later := by
    intro r₀ hr₀ r hr hnode
    obtain rfl := List.mem_singleton.mp hr
    have hle : r₀.seq ≤ s.lastSeq r₀.nodeId := Store.le_lastSeq hr₀
    rw [hnode] at hle
    exact Nat.lt_succ_of_le hle
  increasing := List.pairwise_singleton _ _

theorem Queued.nil : Queued inbox [] := ⟨.nil, List.forall_mem_nil _⟩

theorem Queued.append {docs' : List InboxRow} (h : Queued inbox docs)
    (h' : Queued (inbox ++ docs) docs') : Queued inbox (docs ++ docs') := by
  refine ⟨h.toNumbered.append h'.toNumbered, ?_⟩
  intro r hr
  exact (List.mem_append.mp hr).elim (h.grantless r) (h'.grantless r)

theorem Queued.next (henvelope : deliveredGrantId envelope = none) :
    Queued s.inbox [⟨nodeId, s.lastSeq nodeId + 1, envelope, false, none⟩] :=
  ⟨.next, List.forall_mem_singleton.mpr henvelope⟩

/-! ### The three promises -/

/-- Where no pending operation ends, nothing is to be closed. -/
theorem Closed.of_moves (hops : Table.Evolves (fun _ => Operation.Moves M) s.operations operations')
    (hM : ∀ a b, M a b = true → a.isPending = true → b.isPending = true) :
    Closed cfg s operations' docs := by
  intro _ key o o' eventKey ho ho' hpending hended _ _
  have hmove := hops.related ho ho'
  exfalso
  rcases hmove.status with heq | ⟨hmoves, -⟩
  · rw [heq, hpending] at hended
    cases hended
  · rw [hM _ _ hmoves hpending] at hended
    cases hended

theorem FailsUnissued.of_moves
    (hops : Table.Evolves (fun _ => Operation.Moves M) s.operations operations')
    (hM : ∀ a b, M a b = true → b ≠ .failed) : FailsUnissued s operations' := by
  intro key o o' ho ho' hnot hfailed
  have hmove := hops.related ho ho'
  exfalso
  rcases hmove.status with heq | ⟨hmoves, -⟩
  · exact hnot (heq.symm.trans hfailed)
  · exact hM _ _ hmoves hfailed

/-- Where no live grant ends, operations and grants agree as before. -/
theorem Agrees.of_live
    (hgrants : Table.Evolves (fun _ g g' => g.status.isLive = true → g'.status.isLive = true)
      s.grants grants') : Agrees s operations' grants' := by
  intro key o' id g g' _ _ _ hg hlive hg'
  have hkept := hgrants.related hg hg'
  exact hkept hlive

theorem Agrees.of_eq : Agrees s operations' s.grants :=
  .of_live (Table.Evolves.refl fun _ _ h => h)

/-! ### Updates -/

/-- Where no grant is revoked, the tombstones stay as they are. -/
theorem Buries.of_quiet (hk : ∀ a, k.grantMoves a .revoked = false)
    (hgrants : Table.Evolves (fun _ => GrantRow.Moves k.grantMoves) s.grants grants') :
    Buries time s grants' s.tombstones docs := by
  refine ⟨fun _ _ ht => ht, fun _ _ ht => .inl ht, ?_⟩
  intro id g g' hg hg' hnot hrevoked
  have hmoves := hgrants.related hg hg'
  exfalso
  rcases hmoves.status with heq | hmoved
  · exact hnot (heq.symm.trans hrevoked)
  · rw [hrevoked, hk] at hmoved
    cases hmoved

/-- Rows change in place, no grant is revoked, and no document is queued. -/
theorem Write.evolve_silent (hk : k.evolves = true) (hquiet : ∀ a, k.grantMoves a .revoked = false)
    (hops : Table.Evolves (fun _ => Operation.Moves k.moves) s.operations operations')
    (hgrants : Table.Evolves (fun _ => GrantRow.Moves k.grantMoves) s.grants grants')
    (hclosed : k ≠ .abandon → Closed cfg s operations' [])
    (hagree : k ≠ .expire → Agrees s operations' grants')
    (hfail : k ≠ .fail → FailsUnissued s operations') :
    Write cfg time k s { s with operations := operations', grants := grants' } := by
  have hw : Write cfg time k s { s with
      operations := operations', grants := grants', inbox := s.inbox ++ [] } :=
    Write.evolve hk hops hgrants .nil (.of_quiet hquiet hgrants) hclosed hagree hfail
  rwa [List.append_nil] at hw

/-- An update changes the rows that meet its condition as they may. -/
theorem evolves_updateOperations
    (h : ∀ key o, s.operations[key]? = some o → p key o = true → o.Moves M (f o)) :
    Table.Evolves (fun _ => Operation.Moves M) s.operations (s.updateOperations p f).operations :=
  Table.evolves_updateWhere (fun _ _ => .refl) h

theorem evolves_updateGrants {p : String → GrantRow → Bool} {f : GrantRow → GrantRow}
    (h : ∀ id g, s.grants[id]? = some g → p id g = true → g.Moves N (f g)) :
    Table.Evolves (fun _ => GrantRow.Moves N) s.grants (s.updateGrants p f).grants :=
  Table.evolves_updateWhere (fun _ _ => .refl) h

/-- Pending operations end, and nobody is told. -/
theorem Write.abandon_pending (h : ∀ key o, s.operations[key]? = some o → p key o = true →
      o.Moves (Kind.moves .abandon) (f o)) :
    Write cfg time .abandon s (s.updateOperations p f) := by
  have hops := evolves_updateOperations h
  refine Write.evolve_silent rfl (fun _ => rfl) hops (Table.Evolves.refl fun _ _ => .refl)
    (absurd rfl) (fun _ => .of_eq) (fun _ => .of_moves hops ?_)
  decide

/-! ### Documents -/

theorem Write.tell_writes (henvelope : deliveredGrantId envelope = none) (hK : .tell ∈ K) :
    Writes cfg time K s (s.enqueueNodeDocument nodeId envelope) :=
  .single (Write.tell henvelope) hK

/-- A loop that queues documents. -/
theorem Writes.tellAll {α : Type*} {nodeId : α → String} {envelope : α → SignedEnvelope}
    (hK : .tell ∈ K) {l : List α} (hl : ∀ a ∈ l, deliveredGrantId (envelope a) = none) :
    Writes cfg time K s (l.foldl (fun s a => s.enqueueNodeDocument (nodeId a) (envelope a)) s) := by
  -- what is left to queue carries no grant either
  refine (Transaction.foldl_induct (s := s)
    (P := fun rest t => Writes cfg time K s t ∧ ∀ a ∈ rest, deliveredGrantId (envelope a) = none)
    ?_ ⟨.refl, hl⟩).1
  rintro a rest t ⟨hw, hrest⟩
  exact ⟨hw.trans (Write.tell_writes (hrest a (.head _)) hK),
    fun b hb => hrest b (.tail a hb)⟩

theorem closureEnvelope_cases {target : ClosureTarget} {epoch : ℕ}
    (h : closureEnvelope target status nowMs epoch = .ok envelope) :
    deliveredGrantId envelope = none ∧ ∀ seq delivered acked,
      InboxRow.Closes ⟨target.nodeId, seq, envelope, delivered, acked⟩ target.nodeId
        target.operationId target.eventKey := by
  unfold closureEnvelope at h
  simp only at h
  split at h
  · cases h
    exact ⟨rfl, fun _ _ _ => ⟨rfl, _, rfl, rfl, rfl, rfl⟩⟩
  · cases h

/-- What a closing loop queues: only closures, and with an issuer one for each target. -/
theorem Store.enqueueClosures_cases (h : s.enqueueClosures cfg targets status nowMs = .ok s') :
    ∃ docs, s' = { s with inbox := s.inbox ++ docs } ∧ Queued s.inbox docs ∧
      (cfg.signer = true → ∀ t ∈ targets, ∃ r ∈ docs, r.Closes t.nodeId t.operationId t.eventKey) := by
  unfold Store.enqueueClosures at h
  split at h
  · next hsigner =>
    cases h
    refine ⟨[], by rw [List.append_nil], .nil, fun hcfg => ?_⟩
    rw [hcfg] at hsigner
    cases hsigner
  · -- the invariant: every target is queued already or still to come
    have hloop := Transaction.foldlM_induct
      (P := fun rest t => ∃ docs, t = { s with inbox := s.inbox ++ docs } ∧ Queued s.inbox docs ∧
        ∀ target ∈ targets, target ∈ rest ∨
          ∃ r ∈ docs, r.Closes target.nodeId target.operationId target.eventKey) ?_ h
      ⟨[], by rw [List.append_nil], .nil, fun _ ht => .inl ht⟩
    · obtain ⟨docs, hs', hdocs, hcover⟩ := hloop
      refine ⟨docs, hs', hdocs, fun _ t ht => ?_⟩
      rcases hcover t ht with hnil | hr
      · exact absurd hnil List.not_mem_nil
      · exact hr
    · rintro target rest t t' ⟨docs, rfl, hdocs, hcover⟩ hstep
      obtain ⟨envelope, henvelope, hpure⟩ := Transaction.bind_eq_ok.mp hstep
      cases hpure
      obtain ⟨hgrant, hcloses⟩ := closureEnvelope_cases henvelope
      refine ⟨docs ++ [_], by rw [Store.enqueueNodeDocument, List.append_assoc],
        hdocs.append (Queued.next (s := { s with inbox := s.inbox ++ docs }) hgrant), ?_⟩
      · intro other hother
        rcases hcover other hother with hrest | ⟨r, hr, hclose⟩
        · rcases List.mem_cons.mp hrest with rfl | hrest
          · exact .inr ⟨_, List.mem_append_right _ (List.mem_singleton_self _), hcloses _ _ _⟩
          · exact .inl hrest
        · exact .inr ⟨r, List.mem_append_left _ hr, hclose⟩

theorem Store.enqueueClosures_writes (h : s.enqueueClosures cfg targets status nowMs = .ok s') :
    Writes cfg time [.tell] s s' := by
  unfold Store.enqueueClosures at h
  split at h
  · cases h
    exact .refl
  refine Transaction.foldlM_induct (P := fun _ t => Writes cfg time [.tell] s t) ?_ h .refl
  intro target _ t t' hw hstep
  obtain ⟨envelope, henvelope, hpure⟩ := Transaction.bind_eq_ok.mp hstep
  cases hpure
  exact hw.trans (Write.tell_writes (closureEnvelope_cases henvelope).1 (by simp))

theorem Store.mem_closureTargets {key eventKey : String} {o : Operation}
    (ho : s.operations[key]? = some o) (hp : p key o = true)
    (hactive : s.nodeActive o.nodeId = true) (hkey : o.brokerEventKey = some eventKey) :
    ⟨key, o.nodeId, eventKey⟩ ∈ s.closureTargets p := by
  rw [Store.closureTargets, List.mem_filterMap]
  refine ⟨(key, o), Table.mem_orderBy.mpr (Table.mem_select.mpr ⟨ho, hp⟩), ?_⟩
  rw [if_pos hactive, hkey]
  rfl

/-- Pending operations end, and the requests among the targets are closed. -/
theorem Write.close_pending
    (hp : ∀ key o, s.operations[key]? = some o → p key o = true → o.Moves (Kind.moves .close) (f o))
    (htargets : ∀ key o eventKey, s.operations[key]? = some o → p key o = true →
      s.nodeActive o.nodeId = true → o.brokerEventKey = some eventKey →
      ⟨key, o.nodeId, eventKey⟩ ∈ targets)
    (h : (s.updateOperations p f).enqueueClosures cfg targets status nowMs = .ok s') :
    Write cfg time .close s s' := by
  obtain ⟨docs, rfl, hdocs, hcover⟩ := Store.enqueueClosures_cases h
  have hops := evolves_updateOperations hp
  refine Write.evolve rfl hops (Table.Evolves.refl fun _ _ => .refl) hdocs
    (.of_quiet (k := .close) (fun _ => rfl) (Table.Evolves.refl fun _ _ => .refl)) ?_
    (fun _ => .of_eq) (fun _ => .of_moves hops ?_)
  · intro _ hsigner key o o' eventKey ho ho' hpending hended hkey hactive
    refine hcover hsigner _ (htargets key o eventKey ho ?_ hactive hkey)
    -- a row the update left alone would still be pending
    have hupdated := Table.updateWhere_of_some ho ho'
    by_contra hnot
    rw [if_neg hnot] at hupdated
    rw [← hupdated, hpending] at hended
    cases hended
  · decide

/-! ### Withdrawing a grant -/

/-- A new tombstone for the one grant that is revoked. -/
theorem Buries.of_insert {grantId : String} {t : Tombstone} {r : InboxRow}
    {q : String → GrantRow → Bool} (hg : s.grants[grantId]? = some g)
    (hq : ∀ (id : String) (c : GrantRow), s.grants[id]? = some c → (q id c = true ↔ id = grantId))
    (hfree : ¬ s.tombstones.contains grantId = true) (hnode : t.nodeId = g.grant.nodeId)
    (ht : t.envelope = some envelope) (henvelope : RevokesGrant envelope grantId t.nodeId)
    (hretain : max time g.grant.expiresAtMs + tombstoneRetentionMs ≤ t.retainUntilMs)
    (hr : r ∈ docs) (hrnode : r.nodeId = t.nodeId) (hrenvelope : r.envelope = envelope) :
    Buries time s (Table.updateWhere s.grants q fun g => g.withStatus .revoked)
      (s.tombstones.insert grantId t) docs where
  kept := by
    intro id t' ht'
    have hne : id ≠ grantId := by
      rintro rfl
      rw [Std.TreeMap.contains_eq_isSome_getElem?, ht'] at hfree
      exact hfree rfl
    rw [Table.getElem?_insert, if_neg hne, ht']
  raised := by
    intro id t' ht'
    rw [Table.getElem?_insert] at ht'
    split at ht'
    · next hid =>
      cases ht'
      subst hid
      refine .inr ⟨⟨g.withStatus .revoked, ?_, rfl, hnode.symm⟩, ?_, ?_⟩
      · refine Table.getElem?_updateWhere_eq_some.mpr ⟨g, hg, if_pos ((hq id g hg).mpr rfl)⟩
      · intro envelope' henvelope'
        obtain rfl := Option.mem_unique ht henvelope'
        exact ⟨henvelope, r, hr, hrnode, hrenvelope⟩
      · intro hunsigned
        rw [ht] at hunsigned
        cases hunsigned
    · exact .inl ht'
  covered := by
    intro id c c' hc hc' hnot hrevoked
    have hupdated := Table.updateWhere_of_some hc hc'
    split at hupdated
    · next hmatch =>
      obtain rfl := (hq id c hc).mp hmatch
      obtain rfl : g = c := Option.mem_unique hg hc
      exact ⟨t, by rw [Table.getElem?_insert, if_pos rfl], hretain⟩
    · rw [hupdated] at hnot
      exact absurd hrevoked hnot

/-- A live grant is withdrawn together with the operation that holds it, and buried under a
tombstone whose revocation is queued. -/
theorem Write.withdraw_grant {grantId reason : String} {t : Tombstone} {buried : Store}
    (hg : s.grants[grantId]? = some g) (hlive : g.status.isLive = true)
    (hp : ∀ key o, s.operations[key]? = some o → o.grantId = some grantId → p key o = true)
    (hnode : t.nodeId = g.grant.nodeId) (ht : t.envelope = some envelope)
    (henvelope : RevokesGrant envelope grantId t.nodeId)
    (hretain : max time g.grant.expiresAtMs + tombstoneRetentionMs ≤ t.retainUntilMs)
    (h : (s.revokeGrantRow grantId p reason).insertTombstone grantId t = .ok buried) :
    Write cfg time .withdraw s (buried.enqueueNodeDocument t.nodeId envelope) := by
  have hops : Table.Evolves (fun _ => Operation.Moves (Kind.moves .withdraw)) s.operations
      (s.revokeGrantRow grantId p reason).operations := by
    refine evolves_updateOperations (s := s) fun key o _ hcond => Operation.moves_settle ?_
    have hopen : o.status.isOpen = true := (Bool.and_eq_true_iff.mp hcond).2
    rw [Kind.moves, hopen]
    rfl
  have hgrants : Table.Evolves (fun _ => GrantRow.Moves (Kind.grantMoves .withdraw)) s.grants
      (s.revokeGrantRow grantId p reason).grants := by
    refine evolves_updateGrants (s := s) fun id c _ hcond => GrantRow.moves_withStatus ?_
    have hlive : c.status.isLive = true := (Bool.and_eq_true_iff.mp hcond).2
    rw [Kind.grantMoves, hlive]
    rfl
  unfold Store.insertTombstone at h
  split at h
  · cases h
  next hfree =>
  cases h
  refine Write.evolve rfl hops hgrants (.next henvelope.grantless) ?_ (fun _ => .of_moves hops ?_)
    (fun _ => ?_) (fun _ => ?_)
  · refine Buries.of_insert hg ?_ hfree hnode ht henvelope hretain (List.mem_singleton_self _) rfl
      rfl
    intro id c hc
    rw [Bool.and_eq_true, beq_iff_eq]
    refine ⟨fun hcond => hcond.1, ?_⟩
    rintro rfl
    obtain rfl : g = c := Option.mem_unique hg hc
    exact ⟨rfl, hlive⟩
  · decide
  · intro key o' id g g' ho' hgranted hid hg hlive hg'
    obtain rfl := Table.updateWhere_of_some hg hg'
    by_cases hthis : id = grantId
    · -- the holder of this grant was open, so it is not `granted` any more
      subst hthis
      exfalso
      obtain ⟨o, ho, hupdated⟩ := Table.getElem?_updateWhere_eq_some.mp ho'
      split at hupdated
      · rw [← hupdated] at hgranted
        cases hgranted
      next hcond =>
      subst hupdated
      refine hcond ?_
      rw [hp key o ho hid, hgranted]
      rfl
    · rw [if_neg (by simp [hthis])]
      exact hlive
  · intro key o o' ho ho' hnot hfailed
    exfalso
    have hupdated := Table.updateWhere_of_some ho ho'
    split at hupdated
    · rw [← hupdated] at hfailed
      cases hfailed
    · rw [hupdated] at hnot
      exact hnot hfailed

/-- The grant is as it was read, or already buried. -/
def Store.Standing (s : Store) (id : String) (g : GrantRow) : Prop :=
  s.grants[id]? = some g ∨ s.tombstones.contains id = true

section Standing

variable {grantId reason : String} {t : Tombstone} {buried : Store}

/-- A second tombstone is refused, so the grant to bury is as it was read. -/
theorem Store.Standing.get (hg : s.Standing grantId g)
    (h : (s.revokeGrantRow grantId p reason).insertTombstone grantId t = .ok buried) :
    s.grants[grantId]? = some g := by
  refine hg.resolve_right fun hburied => ?_
  unfold Store.insertTombstone at h
  rw [if_pos (show (s.revokeGrantRow grantId p reason).tombstones.contains grantId = true
    from hburied)] at h
  cases h

/-- A withdrawal leaves the other grants as they were read. -/
theorem Store.Standing.withdraw {id : String} (hg : s.Standing id g)
    (h : (s.revokeGrantRow grantId p reason).insertTombstone grantId t = .ok buried) :
    buried.Standing id g := by
  unfold Store.insertTombstone at h
  split at h
  · cases h
  cases h
  by_cases hid : id = grantId
  · subst hid
    exact .inr (Std.TreeMap.contains_insert_self)
  refine hg.imp (fun hrow => ?_) fun hburied => ?_
  · refine Table.getElem?_updateWhere_eq_some.mpr ⟨g, hrow, if_neg ?_⟩
    simp [hid]
  · rw [Std.TreeMap.contains_insert, Bool.or_eq_true]
    exact .inr hburied

end Standing

end BlindPass.Controller
