import BlindPass.Controller.Statements

/-!
# What the node channel writes

A session, a poll and an event are about delivery: they queue revocations again, mark
documents and move grants from `issued` to `delivered`. No operation changes.
-/

namespace BlindPass.Controller

open Fleet (SignedEnvelope)

variable {cfg : Config} {time : ℕ} {s s' : Store}

variable {sessions : Std.TreeMap String NodeSession} {seq : ℕ} {documents : List InboxDocument}
  {event : NodeEvent}

theorem KeepsMarks.refl : KeepsMarks sessions sessions :=
  fun id e he => .inr ⟨id, e, he, rfl, rfl⟩

/-- Sessions end without a change of their marks. -/
theorem KeepsMarks.of_update {p : String → NodeSession → Bool} {f : NodeSession → NodeSession}
    (hf : ∀ e, (f e).nodeId = e.nodeId ∧ (f e).deliveredSeq = e.deliveredSeq) :
    KeepsMarks sessions (Table.updateWhere sessions p f) := by
  intro id e' he'
  obtain ⟨e, he, rfl⟩ := Table.getElem?_updateWhere_eq_some.mp he'
  refine .inr ⟨id, e, he, ?_⟩
  split
  · exact ⟨(hf e).1.symm, (hf e).2.symm⟩
  · exact ⟨rfl, rfl⟩

/-- The tables nobody refers to by row. -/
theorem Administers.of_tables
    (h : s' = { s with
      operators := s'.operators
      policy := s'.policy
      rotations := s'.rotations
      nodeKeys := s'.nodeKeys
      sessions := s'.sessions
      nodeEvents := s'.nodeEvents })
    (hsessions : KeepsMarks s.sessions s'.sessions) : Administers s s' := by
  rw [h]
  exact ⟨rfl, rfl, rfl, rfl, rfl, rfl, hsessions, .refl fun _ _ => rfl, .refl fun _ _ hn => hn,
    fun _ _ hn hnone => absurd (hn.symm.trans hnone) nofun⟩

theorem Administers.of_nodes {p : String → Node → Bool} {f : Node → Node}
    (h : ∀ n : Node, n.status = .revoked → (f n).status = .revoked) :
    Administers s (s.updateNodes p f) := by
  refine ⟨rfl, rfl, rfl, rfl, rfl, rfl, .refl, .refl fun _ _ => rfl,
    Table.extends_updateWhere (fun _ _ hn => hn) fun _ n _ => h n, ?_⟩
  intro id n hn hnone
  obtain ⟨n₀, hn₀, -⟩ := Table.getElem?_updateWhere_eq_some.mp hn
  exact absurd (hn₀.symm.trans hnone) nofun

/-! ### Sessions -/

variable {nodeId sessionId : String} {now : ℕ}

theorem deliveredGrantId_requeued (hs : s.HoldsRevocations) :
    ∀ envelope ∈ s.requeuedRevocations nodeId now, deliveredGrantId envelope = none := by
  intro envelope henvelope
  obtain ⟨e, he, hsome⟩ := List.mem_filterMap.mp henvelope
  have hrow := (Table.mem_select.mp (Table.mem_orderBy.mp (List.mem_of_mem_take he))).1
  exact (hs e.1 e.2 envelope hrow hsome).grantless

theorem Store.createNodeSession_writes {draft : NodeSessionDraft} {created : Bool} (hs : Coherent s)
    (h : s.createNodeSession draft now = .ok (s', created)) :
    Writes cfg time [.administer, .tell] s s' := by
  unfold Store.createNodeSession at h
  split at h
  · cases h
  simp only at h
  split at h
  · cases h
    exact .refl
  cases h
  refine Transaction.Path.trans (.single (Write.administer (.of_tables rfl ?_)) (by simp))
    (Writes.tellAll (by simp) (deliveredGrantId_requeued hs.tombstones))
  -- the new session takes over the highest mark of its node
  intro id e' he'
  rw [Table.getElem?_insert] at he'
  split at he'
  · cases he'
    rcases Table.foldl_max_cases (l := Table.select s.sessions fun _ n => n.nodeId == draft.nodeId)
      (f := fun e => e.2.deliveredSeq) (n := 0) with hzero | ⟨⟨id₀, e⟩, he, hmax⟩
    · exact .inl hzero
    · obtain ⟨hrow, hnode⟩ := Table.mem_select.mp he
      exact .inr ⟨id₀, e, hrow, eq_of_beq hnode, hmax.symm⟩
  · exact .inr ⟨id, e', he', rfl, rfl⟩

theorem Store.authenticateNodeSession_writes {tokenHash protocolVersion : String}
    {keyVersion issuerEpoch : ℕ} :
    Writes cfg time [.administer] s (s.authenticateNodeSession sessionId nodeId tokenHash keyVersion
      issuerEpoch protocolVersion now).1 := by
  unfold Store.authenticateNodeSession
  simp only
  split
  · exact .single (Write.administer (.of_nodes fun _ h => h)) (by simp)
  · exact .refl

/-! ### Polling -/

/-- Marking rows leaves the documents where they are. -/
theorem mem_map_marked {f : InboxRow → InboxRow}
    (hf : ∀ r, (f r).nodeId = r.nodeId ∧ (f r).envelope = r.envelope) {inbox : List InboxRow} :
    ∀ r' ∈ inbox.map f, ∃ r ∈ inbox, r.nodeId = r'.nodeId ∧ r.envelope = r'.envelope := by
  intro r' hr'
  obtain ⟨r, hr, rfl⟩ := List.mem_map.mp hr'
  exact ⟨r, hr, (hf r).1.symm, (hf r).2.symm⟩

theorem Store.mem_acknowledge : ∀ r' ∈ (s.acknowledge nodeId seq now).inbox,
      ∃ r ∈ s.inbox, r.nodeId = r'.nodeId ∧ r.envelope = r'.envelope := by
  refine mem_map_marked fun r => ?_
  split <;> exact ⟨rfl, rfl⟩

theorem Store.mem_markDelivered : ∀ r' ∈ (s.markDelivered nodeId).inbox,
      ∃ r ∈ s.inbox, r.nodeId = r'.nodeId ∧ r.envelope = r'.envelope := by
  refine mem_map_marked fun r => ?_
  split <;> exact ⟨rfl, rfl⟩

theorem Write.acknowledge : Write cfg time .mark s (s.acknowledge nodeId seq now) :=
  Write.mark Store.mem_acknowledge fun _ _ ht => ht

theorem Write.markDelivered : Write cfg time .mark s (s.markDelivered nodeId) :=
  Write.mark Store.mem_markDelivered fun _ _ ht => ht

theorem Store.recordDelivery_writes :
    Writes cfg time [.mark, .deliver] s (s.recordDelivery nodeId sessionId documents) := by
  have hsessions : Write cfg time .mark s
      { s with sessions := (s.recordDelivery nodeId sessionId documents).sessions } :=
    Write.mark (fun r hr => ⟨r, hr, rfl, rfl⟩) fun _ _ ht => ht
  refine .head hsessions (by simp) (.single (Write.evolve_silent (k := .deliver) rfl ?_
    (Table.Evolves.refl fun _ _ => .refl) ?_ (fun _ => ?_) (fun _ => .of_live ?_) (fun _ => ?_))
    (by simp))
  · decide
  · refine evolves_updateGrants (s := s) fun id g _ hcond => GrantRow.moves_withStatus ?_
    have hissued := (Bool.and_eq_true_iff.mp hcond).2
    rw [Kind.grantMoves, hissued]
    rfl
  · exact .of_moves (M := Kind.moves .deliver) (Table.Evolves.refl fun _ _ => .refl) (by decide)
  · exact Table.evolves_updateWhere (fun _ _ h => h) fun _ _ _ _ _ => rfl
  · exact .of_moves (M := Kind.moves .deliver) (Table.Evolves.refl fun _ _ => .refl) (by decide)

theorem Store.pollNodeInbox_writes {bytes : SignedEnvelope → ℕ} {ackSeq : Option ℕ}
    (h : s.pollNodeInbox bytes nodeId sessionId ackSeq now = .ok (s', documents)) :
    Writes cfg time [.mark, .deliver] s s' := by
  unfold Store.pollNodeInbox at h
  split at h
  · cases h
  split at h
  · cases h
  cases h
  exact ((Transaction.Path.single Write.acknowledge (by simp)).trans
    (.single Write.markDelivered (by simp))).trans
    (Store.recordDelivery_writes.mono (by simp))

/-! ### Events -/

theorem Store.insertNodeEvent_administers (h : s.insertNodeEvent event = .ok s') :
    Administers s s' := by
  unfold Store.insertNodeEvent at h
  split at h
  · cases h
  · cases h
    exact .of_tables rfl .refl

theorem Store.recordNodeEvent_writes {answer : NodeEventInsert}
    (h : s.recordNodeEvent event = .ok (s', answer)) : Writes cfg time [.administer] s s' := by
  unfold Store.recordNodeEvent at h
  split at h
  · cases h
    exact .refl
  · obtain ⟨recorded, hrecorded, hpure⟩ := Transaction.bind_eq_ok.mp h
    cases hpure
    exact .single (Write.administer (Store.insertNodeEvent_administers hrecorded)) (by simp)

end BlindPass.Controller
