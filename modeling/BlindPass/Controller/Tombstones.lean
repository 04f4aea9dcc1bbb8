import BlindPass.Controller.Mailbox
import BlindPass.Controller.Sweep
import BlindPass.Controller.Closure

/-!
# Revoked grants stay under tombstones

A grant may be revoked by an operator, with its workload, its node or its browser session, by
a key rotation or by the clock fence. Each of these leaves a tombstone that is kept for seven
days after the grant could have been used last, and a signed revocation in the node's inbox.
The fence has no signer; its revocations are signed by the next expiry pass. A revocation that
the relay acknowledged, but the broker did not report as applied, is queued again when the
relay opens its next session.
-/

namespace BlindPass.Controller

open Execution (Transition)
open Fleet (SignedEnvelope)
open Transaction (bind_eq_ok)

/-- The document waits in the node's inbox. -/
def Store.Waits (s : Store) (nodeId : String) (envelope : SignedEnvelope) : Prop :=
  ∃ r ∈ s.inbox, r.nodeId = nodeId ∧ r.envelope = envelope ∧ r.ackedAtMs = none

/-- The transition revokes the grant. -/
def Transition.Withdraws (t : Transition Store Event Answer) (id : String) : Prop :=
  (∀ g : GrantRow, t.before.grants[id]? = some g → g.status ≠ .revoked) ∧
    ∃ g' : GrantRow, t.after.grants[id]? = some g' ∧ g'.status = .revoked

/-- The node's relay claims the document, and it is acknowledged. -/
def Transition.Acknowledges (u : Transition Store Event Answer) (nodeId : String)
    (envelope : SignedEnvelope) : Prop :=
  ∃ sessionId claimed now, u.event = .pollNodeInbox nodeId sessionId (some claimed) now ∧
    ∃ r ∈ u.before.inbox, ∃ r' ∈ u.after.inbox, r.Same r' ∧ r.nodeId = nodeId ∧
      r.envelope = envelope ∧ r.seq ≤ claimed ∧ r.ackedAtMs = none ∧ r'.ackedAtMs.isSome = true

variable {cfg : Config} {time : ℕ} {bytes : SignedEnvelope → ℕ} {k : Kind} {K : List Kind}
  {s s' s'' : Store} {e : Event} {run : List (Transition Store Event Answer)}

/-! ### What a transaction does to tombstones -/

/-- Tombstones stay, a grant that is revoked gets one, and one that is signed has its
revocation queued. -/
structure Store.Entombs (time : ℕ) (s s' : Store) : Prop where
  kept : ∀ (id : String) (t : Tombstone), s.tombstones[id]? = some t →
    ∃ t' : Tombstone, s'.tombstones[id]? = some t' ∧ t'.retainUntilMs = t.retainUntilMs
  covered : ∀ (id : String) (g' : GrantRow), s'.grants[id]? = some g' → g'.status = .revoked →
    (∃ g : GrantRow, s.grants[id]? = some g ∧ g.status = .revoked) ∨
    ∃ t : Tombstone, s'.tombstones[id]? = some t ∧
      max time g'.grant.expiresAtMs + tombstoneRetentionMs ≤ t.retainUntilMs
  signed : ∀ (id : String) (t' : Tombstone) envelope, s'.tombstones[id]? = some t' →
    t'.envelope = some envelope → (∃ t : Tombstone, s.tombstones[id]? = some t ∧
      t.envelope = some envelope ∧ t.nodeId = t'.nodeId) ∨ s'.Waits t'.nodeId envelope
  grants : Table.Extends (fun _ g g' => g'.grant = g.grant) s.grants s'.grants
  inbox : ∃ docs, s'.inbox = s.inbox ++ docs

variable {docs : List InboxRow} {envelope : SignedEnvelope} {nodeId id : String} {now : ℕ}
  {t : Tombstone} {clock : SweepClock}

theorem Store.Waits.append (h : s.Waits nodeId envelope) (hinbox : s'.inbox = s.inbox ++ docs) :
    s'.Waits nodeId envelope := by
  obtain ⟨r, hr, hrow⟩ := h
  refine ⟨r, ?_, hrow⟩
  rw [hinbox]
  exact List.mem_append_left docs hr

/-- A document that was just queued waits. -/
theorem Queued.waits {r : InboxRow} (h : Queued s.inbox docs) (hinbox : s'.inbox = s.inbox ++ docs)
    (hr : r ∈ docs) : s'.Waits r.nodeId r.envelope := by
  refine ⟨r, ?_, rfl, rfl, (h.fresh r hr).2.1⟩
  rw [hinbox]
  exact List.mem_append_right s.inbox hr

/-- Statements that leave grants and tombstones alone. -/
theorem Store.Entombs.of_eq (hgrants : s'.grants = s.grants)
    (htombstones : s'.tombstones = s.tombstones) (hinbox : s'.inbox = s.inbox ++ docs) :
    Store.Entombs time s s' where
  kept := by
    intro id t ht
    exact ⟨t, by rw [htombstones, ht], rfl⟩
  covered := by
    intro id g' hg' hrevoked
    rw [hgrants] at hg'
    exact .inl ⟨g', hg', hrevoked⟩
  signed := by
    intro id t' envelope ht' henvelope
    rw [htombstones] at ht'
    exact .inl ⟨t', ht', henvelope, rfl⟩
  grants := by
    rw [hgrants]
    exact .refl fun _ _ => rfl
  inbox := ⟨docs, hinbox⟩

theorem Store.Entombs.refl : Store.Entombs time s s := .of_eq rfl rfl (List.append_nil _).symm

theorem Store.Entombs.trans (h₁ : Store.Entombs time s s') (h₂ : Store.Entombs time s' s'') :
    Store.Entombs time s s'' where
  kept := by
    intro id t ht
    obtain ⟨t', ht', hretain'⟩ := h₁.kept id t ht
    obtain ⟨t'', ht'', hretain''⟩ := h₂.kept id t' ht'
    exact ⟨t'', ht'', hretain''.trans hretain'⟩
  covered := by
    intro id g'' hg'' hrevoked
    rcases h₂.covered id g'' hg'' hrevoked with ⟨g', hg', hrevoked'⟩ | hcovered
    · refine (h₁.covered id g' hg' hrevoked').imp_right ?_
      rintro ⟨t, ht, hretain⟩
      -- the tombstone of the first part is still there
      obtain ⟨t', ht', hsame⟩ := h₂.kept id t ht
      obtain ⟨g, hg, hgrant⟩ := h₂.grants id g' hg'
      obtain rfl : g'' = g := Option.mem_unique hg'' hg
      exact ⟨t', ht', by rwa [hsame, hgrant]⟩
    · exact .inr hcovered
  signed := by
    intro id t'' envelope ht'' henvelope
    rcases h₂.signed id t'' envelope ht'' henvelope with ⟨t', ht', henvelope', hnode'⟩ | hwaits
    · rcases h₁.signed id t' envelope ht' henvelope' with ⟨t, ht, hsigned, hnode⟩ | hwaits
      · exact .inl ⟨t, ht, hsigned, hnode.trans hnode'⟩
      · obtain ⟨docs, hinbox⟩ := h₂.inbox
        rw [hnode'] at hwaits
        exact .inr (hwaits.append hinbox)
    · exact .inr hwaits
  grants := h₁.grants.trans (fun _ _ _ _ h h' => h'.trans h) h₂.grants
  inbox := by
    obtain ⟨docs₁, hinbox₁⟩ := h₁.inbox
    obtain ⟨docs₂, hinbox₂⟩ := h₂.inbox
    exact ⟨docs₁ ++ docs₂, by rw [hinbox₂, hinbox₁, List.append_assoc]⟩

/-- Issuing adds a grant that is not revoked. -/
theorem Issues.entombs {d : GrantIssueDraft} {o : Operation} (h : Issues s d o s') :
    Store.Entombs time s s' where
  kept := by
    intro id t ht
    rw [h.rest]
    exact ⟨t, ht, rfl⟩
  covered := by
    intro id g' hg' hrevoked
    rw [h.grants] at hg'
    split at hg'
    · cases hg'
      cases hrevoked
    · exact .inl ⟨g', hg', hrevoked⟩
  signed := by
    intro id t' envelope ht' henvelope
    rw [h.rest] at ht'
    exact .inl ⟨t', ht', henvelope, rfl⟩
  grants := by
    intro id g hg
    have hne : id ≠ d.grant.id := by
      rintro rfl
      exact absurd (hg.symm.trans h.fresh) nofun
    exact ⟨g, by rw [h.grants, if_neg hne, hg], rfl⟩
  inbox := ⟨_, h.inbox⟩

variable {tombstones' : Std.TreeMap String Tombstone} {ackSeq : Option ℕ}
  {documents : List InboxDocument} {sessionId : String} {n : ℕ}

/-- Rows change in place, and the grants that are revoked are buried. -/
theorem Store.Entombs.of_evolve {operations' : Std.TreeMap String Operation}
    {grants' : Std.TreeMap String GrantRow}
    (hgrants : Table.Evolves (fun _ => GrantRow.Moves k.grantMoves) s.grants grants')
    (hdocs : Queued s.inbox docs) (hburies : Buries time s grants' tombstones' docs) :
    Store.Entombs time s { s with
      operations := operations'
      grants := grants'
      tombstones := tombstones'
      inbox := s.inbox ++ docs } where
  kept := fun id t ht => ⟨t, hburies.kept id t ht, rfl⟩
  covered := by
    intro id g' hg' hrevoked
    obtain ⟨g, hg, hmoves⟩ := hgrants.get_back hg'
    by_cases hbefore : g.status = .revoked
    · exact .inl ⟨g, hg, hbefore⟩
    · obtain ⟨t, ht, hretain⟩ := hburies.covered id g g' hg hg' hbefore hrevoked
      exact .inr ⟨t, ht, by rwa [hmoves.grant]⟩
  signed := by
    intro id t' envelope ht' henvelope
    rcases hburies.raised id t' ht' with hold | hraised
    · exact .inl ⟨t', hold, henvelope, rfl⟩
    · obtain ⟨-, r, hr, hnode, hsame⟩ := hraised.signed envelope henvelope
      rw [← hnode, ← hsame]
      exact .inr (hdocs.waits rfl hr)
  grants := hgrants.extends.mono fun _ _ _ hmoves => hmoves.grant
  inbox := ⟨docs, rfl⟩

theorem Store.Entombs.of_sign (hdocs : Queued s.inbox docs)
    (hsigns : Table.Evolves (Tombstone.Signs docs) s.tombstones tombstones') :
    Store.Entombs time s { s with tombstones := tombstones', inbox := s.inbox ++ docs } where
  kept := by
    intro id t ht
    obtain ⟨t', ht', rfl | ⟨-, envelope, rfl, -⟩⟩ := hsigns.get ht
    · exact ⟨t', ht', rfl⟩
    · exact ⟨_, ht', rfl⟩
  covered := fun id g' hg' hrevoked => .inl ⟨g', hg', hrevoked⟩
  signed := by
    intro id t' envelope ht' henvelope
    obtain ⟨t, ht, rfl | ⟨-, envelope', rfl, -, r, hr, hnode, hsame⟩⟩ := hsigns.get_back ht'
    · exact .inl ⟨t', ht, henvelope, rfl⟩
    · cases henvelope
      rw [← hsame]
      exact .inr (hnode ▸ hdocs.waits rfl hr)
  grants := .refl fun _ _ => rfl
  inbox := ⟨docs, rfl⟩

theorem Write.entombs (hk : k ≠ .mark) (hw : Write cfg time k s s') : Store.Entombs time s s' := by
  cases hw with
  | administer ha => exact .of_eq ha.grants ha.tombstones (ha.inbox.trans (List.append_nil _).symm)
  | mark => exact absurd rfl hk
  | tell => exact .of_eq rfl rfl rfl
  | regroup _ | create _ _ _ | approve _ _ _ _ _ _ _ _ =>
    exact .of_eq rfl rfl (List.append_nil _).symm
  | sign hdocs hsigns => exact .of_sign hdocs hsigns
  | issue _ _ hissues => exact hissues.entombs
  | evolve _ _ hgrants hdocs hburies => exact .of_evolve hgrants hdocs hburies

theorem Writes.entombs (hK : .mark ∉ K) (hw : Writes cfg time K s s') : Store.Entombs time s s' := by
  refine hw.relates (R := Store.Entombs time) (fun _ => .refl)
    (fun _ _ _ => .trans) ?_
  intro k hk s t hw
  exact hw.entombs fun heq => hK (heq ▸ hk)

/-! ### One transaction -/

theorem Store.pollNodeInbox_tombstones
    (h : s.pollNodeInbox bytes nodeId sessionId ackSeq now = .ok (s', documents)) :
    s'.tombstones = s.tombstones := by
  unfold Store.pollNodeInbox at h
  split at h
  · cases h
  split at h
  · cases h
  · cases h
    rfl

theorem Store.finalizeNodeRevocation_tombstones :
    (s.finalizeNodeRevocation nodeId now).tombstones = s.tombstones := by
  unfold Store.finalizeNodeRevocation
  split <;> rfl

/-- The transactions that touch rows in place leave tombstones alone, unless they prune. -/
theorem step_marks_tombstones (hmark : .mark ∈ e.kinds s) :
    (s.step cfg bytes e).1.tombstones = s.tombstones ∨ ∃ now, e = .pruneFleetState now := by
  obtain ⟨nodeId, sessionId, ackSeq, now, rfl⟩ | ⟨nodeId, now, rfl⟩ | ⟨now, rfl⟩ :=
    Event.marks hmark
  · left
    rcases hpoll : s.pollNodeInbox bytes nodeId sessionId ackSeq now with error | ⟨s', documents⟩
    · rw [Store.step, hpoll]
      rfl
    · rw [Store.step, hpoll]
      exact Store.pollNodeInbox_tombstones hpoll
  · exact .inl Store.finalizeNodeRevocation_tombstones
  · exact .inr ⟨now, rfl⟩

/-- A pass removes only tombstones whose time is over. -/
theorem Store.pruneFleetState_kept (ht : s.tombstones[id]? = some t) :
    (s.pruneFleetState now).tombstones[id]? = some t ∨ t.retainUntilMs < now := by
  change (List.foldl _ s.tombstones _)[id]? = some t ∨ _
  rw [Table.getElem?_foldl_erase Prod.fst]
  split
  · next hpruned =>
    obtain ⟨⟨id, t'⟩, he, rfl⟩ := List.mem_map.mp hpruned
    obtain ⟨ht', hover⟩ := Table.mem_select.mp (List.mem_of_mem_take he)
    obtain rfl : t = t' := Option.mem_unique ht ht'
    exact .inr (of_decide_eq_true hover)
  · exact .inl ht

/-- A tombstone stays until a pass removes it after its time. -/
theorem step_kept (hs : Coherent s) (hadm : e.Admitted) (ht : s.tombstones[id]? = some t) :
    (∃ t' : Tombstone, (s.step cfg bytes e).1.tombstones[id]? = some t' ∧
      t'.retainUntilMs = t.retainUntilMs) ∨
    ∃ now, e = .pruneFleetState now ∧ t.retainUntilMs < now := by
  by_cases hmark : .mark ∈ e.kinds s
  · rcases step_marks_tombstones hmark with hsame | ⟨now, rfl⟩
    · exact .inl ⟨t, by rw [hsame, ht], rfl⟩
    · exact (Store.pruneFleetState_kept ht).imp (fun hkept => ⟨t, hkept, rfl⟩)
        fun hover => ⟨now, rfl, hover⟩
  · exact .inl (((step_writes _ _ hs hadm).entombs hmark).kept id t ht)

/-- The transactions that touch rows in place revoke nothing. -/
theorem Event.quiet_of_mark (h : .mark ∈ e.kinds s) : .create ∉ e.kinds s ∧ .issue ∉ e.kinds s ∧
    ∀ a, Kind.grantMovesAny (e.kinds s) a .revoked = false := by
  cases e with
  | finalizeNodeRevocation nodeId now | pruneFleetState now
  | pollNodeInbox =>
    dsimp only [Event.kinds]
    decide
  | _ => simp [Event.kinds, eq_ite_iff] at h

/-- A grant that a transaction revokes is covered from its time on. -/
theorem step_covered (hs : Coherent s) (hadm : e.Admitted) {g' : GrantRow}
    (hg' : (s.step cfg bytes e).1.grants[id]? = some g') (hrevoked : g'.status = .revoked) :
    (∃ g : GrantRow, s.grants[id]? = some g ∧ g.status = .revoked) ∨
    ∃ t : Tombstone, (s.step cfg bytes e).1.tombstones[id]? = some t ∧
      max e.time g'.grant.expiresAtMs + tombstoneRetentionMs ≤ t.retainUntilMs := by
  have hw := step_writes cfg bytes hs hadm
  by_cases hmark : .mark ∈ e.kinds s
  · obtain ⟨hcreate, hissue, hquiet⟩ := Event.quiet_of_mark hmark
    obtain ⟨g, hg, hmoves⟩ := (hw.evolves Event.unchained hcreate hissue).2.get_back hg'
    rcases hmoves.status with hsame | hmoved
    · exact .inl ⟨g, hg, hsame ▸ hrevoked⟩
    · rw [hrevoked, hquiet] at hmoved
      cases hmoved
  · exact (hw.entombs hmark).covered id g' hg' hrevoked

theorem step_nodes (hs : Coherent s) (hadm : e.Admitted) :
    Table.Extends (fun _ n n' => n.status = .revoked → n'.status = .revoked) s.nodes
      (s.step cfg bytes e).1.nodes := by
  have hw := step_writes cfg bytes hs hadm
  refine hw.relates (R := fun s t => Table.Extends
    (fun _ n n' => n.status = .revoked → n'.status = .revoked) s.nodes t.nodes)
    (fun _ => .refl fun _ _ => id) ?_ ?_
  · intro s t u h₁ h₂
    exact h₁.trans (fun _ _ _ _ h h' => h' ∘ h) h₂
  · intro k _ s t hw
    exact hw.nodes

/-- A tombstone that is signed after a transaction was signed before, or its revocation waits. -/
theorem step_signed (hs : Coherent s) (hadm : e.Admitted) {t' : Tombstone}
    (ht' : (s.step cfg bytes e).1.tombstones[id]? = some t')
    (hsigned : t'.envelope = some envelope) :
    (∃ t : Tombstone, s.tombstones[id]? = some t ∧ t.envelope = some envelope ∧
      t.nodeId = t'.nodeId) ∨ (s.step cfg bytes e).1.Waits t'.nodeId envelope := by
  by_cases hmark : .mark ∈ e.kinds s
  · left
    obtain hsame | ⟨now, rfl⟩ : (s.step cfg bytes e).1.tombstones = s.tombstones ∨
      ∃ now, e = .pruneFleetState now := step_marks_tombstones hmark
    · rw [hsame] at ht'
      exact ⟨t', ht', hsigned, rfl⟩
    · exact ⟨t', Table.getElem?_of_foldl_erase ht', hsigned, rfl⟩
  · exact ((step_writes _ _ hs hadm).entombs hmark).signed id t' envelope ht' hsigned

theorem Polls.waits {u : Transition Store Event Answer}
    (h : Polls u.before nodeId sessionId ackSeq documents u.after)
    (hevent : u.event = .pollNodeInbox nodeId sessionId ackSeq now)
    (hpos : ∀ r ∈ u.before.inbox, 0 < r.seq) {owner : String}
    (hwaits : u.before.Waits owner envelope) :
    u.after.Waits owner envelope ∨ Transition.Acknowledges u owner envelope := by
  obtain ⟨r, hr, hnode, henvelope, hnone⟩ := hwaits
  obtain ⟨f, hinbox, hsame, -, hclaims⟩ := h.inbox
  have hmem : f r ∈ u.after.inbox := by
    rw [hinbox]
    exact List.mem_map_of_mem hr
  cases hafter : (f r).ackedAtMs with
  | none =>
    refine .inl ⟨f r, hmem, ?_, ?_, hafter⟩
    · rw [← (hsame r).1, hnode]
    · rw [← henvelope]
      exact congrArg InboxDocument.envelope (hsame r).2.symm
  | some =>
    have hacked : (f r).ackedAtMs.isSome = true := by rw [hafter]; rfl
    obtain ⟨howner, claimed, rfl, hle, -⟩ := hclaims r (hpos r hr) hnone hacked
    obtain rfl : nodeId = owner := howner.symm.trans hnode
    exact .inr ⟨sessionId, claimed, now, hevent, r, hr, f r, hmem, hsame r, hnode, henvelope, hle,
      hnone, hacked⟩

/-- Documents of a revoked node are acknowledged for it, those of other nodes wait on. -/
theorem Store.Waits.finalizeNodeRevocation {revoked : String} (h : s.Waits nodeId envelope) :
    (s.finalizeNodeRevocation revoked now).Waits nodeId envelope ∨
      ∃ n : Node, s.nodes[nodeId]? = some n ∧ n.status = .revoked := by
  unfold Store.finalizeNodeRevocation
  split
  · next hqueued =>
    by_cases hown : revoked = nodeId
    · subst hown
      obtain ⟨n, hn, hrevoked⟩ := (Option.any_eq_true _ _).mp hqueued
      exact .inr ⟨n, hn, eq_of_beq (Bool.and_eq_true_iff.mp hrevoked).1⟩
    · obtain ⟨r, hr, hnode, hrow⟩ := h
      refine .inl ⟨r, List.mem_map.mpr ⟨r, hr, if_neg ?_⟩, hnode, hrow⟩
      rw [hnode]
      simp [Ne.symm hown]
  · exact .inl h

/-- Only acknowledged documents are removed. -/
theorem Store.Waits.pruneFleetState (h : s.Waits nodeId envelope) :
    (s.pruneFleetState now).Waits nodeId envelope := by
  obtain ⟨r, hr, hnode, henvelope, hnone⟩ := h
  refine ⟨r, List.mem_filter.mpr ⟨hr, ?_⟩, hnode, henvelope, hnone⟩
  rw [Bool.not_eq_true', Bool.eq_false_iff]
  intro hmem
  obtain ⟨-, hcond⟩ := List.mem_filter.mp (List.mem_of_mem_take (List.contains_iff_mem.mp hmem))
  rw [Store.inboxRowPrunable, hnone] at hcond
  cases hcond

/-- A document waits until it is acknowledged, or its node is gone. -/
theorem step_waits (hs : Coherent s) (hadm : e.Admitted) (hpos : ∀ r ∈ s.inbox, 0 < r.seq)
    (hwaits : s.Waits nodeId envelope) : (s.step cfg bytes e).1.Waits nodeId envelope ∨
      Transition.Acknowledges ((controller cfg bytes).transition s e) nodeId envelope ∨
      ∃ n : Node, s.nodes[nodeId]? = some n ∧ n.status = .revoked := by
  by_cases hmark : .mark ∈ e.kinds s
  · obtain ⟨polled, sessionId, ackSeq, now, rfl⟩ | ⟨revoked, now, rfl⟩ | ⟨now, rfl⟩ :=
      Event.marks hmark
    · obtain ⟨documents, s', hstep, hpolls⟩ | ⟨error, hstep⟩ :=
        step_polls cfg bytes s polled sessionId ackSeq now
      · let u := (controller cfg bytes).transition s (.pollNodeInbox polled sessionId ackSeq now)
        have hafter : u.after = s' := congrArg Prod.fst hstep
        rw [← hafter] at hpolls
        exact (Polls.waits (u := u) hpolls rfl hpos hwaits).imp_right .inl
      · rw [hstep]
        exact .inl hwaits
    · exact hwaits.finalizeNodeRevocation.imp_right .inr
    · exact .inl hwaits.pruneFleetState
  · have hw := step_writes cfg bytes hs hadm
    obtain ⟨docs, hinbox⟩ := (hw.entombs hmark).inbox
    exact .inl (hwaits.append hinbox)

/-! ### What a run leaves of a revoked grant -/

/-- A transition of the run revoked the grant, and its tombstone outlasts by seven days the
later of that time and the grant's expiry; or that moment is over, and a retention pass saw
that it is. -/
def Store.Covered (s : Store) (run : List (Transition Store Event Answer)) : Prop :=
  ∀ (id : String) (g : GrantRow), s.grants[id]? = some g → g.status = .revoked →
    ∃ before t after, run = before ++ t :: after ∧ Transition.Withdraws t id ∧
      ((∃ tombstone : Tombstone, s.tombstones[id]? = some tombstone ∧
          max t.event.time g.grant.expiresAtMs + tombstoneRetentionMs ≤ tombstone.retainUntilMs) ∨
        ∃ u ∈ after, ∃ now, u.event = .pruneFleetState now ∧
          max t.event.time g.grant.expiresAtMs + tombstoneRetentionMs < now)

/-- A signed revocation waits, was acknowledged, or is for a node that is gone. -/
def Store.Announced (s : Store) (run : List (Transition Store Event Answer)) : Prop :=
  ∀ (id : String) (t : Tombstone) envelope, s.tombstones[id]? = some t →
    t.envelope = some envelope → s.Waits t.nodeId envelope ∨
      (∃ u ∈ run, Transition.Acknowledges u t.nodeId envelope) ∨
      ∃ n : Node, s.nodes[t.nodeId]? = some n ∧ n.status = .revoked

theorem Store.Covered.step (h : s.Covered run) (hs : Coherent s) (hadm : e.Admitted) :
    (s.step cfg bytes e).1.Covered (run ++ [(controller cfg bytes).transition s e]) := by
  intro id g' hg' hrevoked
  by_cases hold : ∃ g : GrantRow, s.grants[id]? = some g ∧ g.status = .revoked
  · obtain ⟨g, hg, hbefore⟩ := hold
    obtain ⟨before, t, after, rfl, hwithdraws, hcovered⟩ := h id g hg hbefore
    have hw := step_writes cfg bytes hs hadm
    obtain ⟨g'', hg'', hmoves⟩ := hw.grants Event.unchained id g hg
    obtain rfl : g' = g'' := Option.mem_unique hg' hg''
    rw [← hmoves.grant] at hcovered
    refine ⟨before, t, after ++ [(controller cfg bytes).transition s e], by simp, hwithdraws, ?_⟩
    rcases hcovered with ⟨tombstone, htombstone, hretain⟩ | ⟨u, hu, now, hevent, hover⟩
    · obtain ⟨kept, hkept, hsame⟩ | ⟨now, rfl, hover⟩ := step_kept hs hadm htombstone
      · exact .inl ⟨kept, hkept, hsame ▸ hretain⟩
      · exact .inr ⟨_, List.mem_append_right after (List.mem_singleton_self _), now, rfl,
          hretain.trans_lt hover⟩
    · exact .inr ⟨u, List.mem_append_left _ hu, now, hevent, hover⟩
  · have hcovered := (step_covered hs hadm hg' hrevoked).resolve_left hold
    refine ⟨run, _, [], rfl, ⟨?_, g', hg', hrevoked⟩, .inl hcovered⟩
    intro g hg hbefore
    exact hold ⟨g, hg, hbefore⟩

theorem Store.Announced.step (h : s.Announced run) (hs : Coherent s) (hadm : e.Admitted)
    (hpos : ∀ r ∈ s.inbox, 0 < r.seq) :
    (s.step cfg bytes e).1.Announced (run ++ [(controller cfg bytes).transition s e]) := by
  intro id t' envelope ht' hsigned
  -- a revoked node stays revoked
  have hgone : (∃ n : Node, s.nodes[t'.nodeId]? = some n ∧ n.status = .revoked) →
      ∃ n' : Node, (s.step cfg bytes e).1.nodes[t'.nodeId]? = some n' ∧ n'.status = .revoked := by
    rintro ⟨n, hn, hrevoked⟩
    obtain ⟨n', hn', hstays⟩ := step_nodes hs hadm t'.nodeId n hn
    exact ⟨n', hn', hstays hrevoked⟩
  rcases step_signed hs hadm ht' hsigned with ⟨t, ht, hbefore, hnode⟩ | hwaits
  · have hknown := h id t envelope ht hbefore
    rw [hnode] at hknown
    rcases hknown with hwaits | ⟨u, hu, hacknowledged⟩ | hrevoked
    · refine (step_waits hs hadm hpos hwaits).imp_right (Or.imp (fun hacknowledged => ?_) hgone)
      exact ⟨_, List.mem_append_right run (List.mem_singleton_self _), hacknowledged⟩
    · exact .inr (.inl ⟨u, List.mem_append_left _ hu, hacknowledged⟩)
    · exact .inr (.inr (hgone hrevoked))
  · exact .inl hwaits

theorem Run.covered (h : (controller cfg bytes).Run run s) : s.Covered run := by
  induction h with
  | start hs =>
    obtain ⟨issuerEpoch, policy, operators, -, rfl⟩ := hs
    intro id g hg
    exact absurd hg (by simp [Store.initial])
  | step hrun hadm ih => exact ih.step (Run.coherent hrun) hadm

theorem Run.announced (h : (controller cfg bytes).Run run s) : s.Announced run := by
  induction h with
  | start hs =>
    obtain ⟨issuerEpoch, policy, operators, -, rfl⟩ := hs
    intro id t envelope ht
    exact absurd ht (by simp [Store.initial])
  | step hrun hadm ih => exact ih.step (Run.coherent hrun) hadm (Run.backed hrun).positive

/-! ### Queueing again -/

theorem Store.waits_enqueueAll {envelopes : List SignedEnvelope}
    (h : envelope ∈ envelopes ∨ s.Waits nodeId envelope) :
    (envelopes.foldl (fun s envelope => s.enqueueNodeDocument nodeId envelope) s).Waits nodeId
      envelope := by
  -- the document is still to be queued, or waits
  have hloop := Transaction.foldl_induct (l := envelopes) (s := s)
    (f := fun s envelope => s.enqueueNodeDocument nodeId envelope)
    (P := fun rest t => envelope ∈ rest ∨ t.Waits nodeId envelope) ?_ h
  · exact hloop.resolve_left List.not_mem_nil
  · rintro next rest t (hrest | hwaits)
    · rcases List.mem_cons.mp hrest with rfl | hrest
      · exact .inr ⟨_, List.mem_append_right t.inbox (List.mem_singleton_self _), rfl, rfl, rfl⟩
      · exact .inl hrest
    · exact .inr (hwaits.append rfl)

/-- The rows of the batch before the tombstone, in the order of time and grant. -/
def Tombstone.placeIn (t : Tombstone) (id : String) (rows : List (String × Tombstone)) : ℕ :=
  rows.countP fun e => e.2.createdAtMs < t.createdAtMs ∨
    e.2.createdAtMs = t.createdAtMs ∧ compare e.1 id = .lt

/-- A relay of the node shows a challenge that is still good and was not used, with the key, the
protocol and the capabilities that the node is enrolled with. -/
structure Store.Recognizes (s : Store) (draft : NodeSessionDraft) (now : ℕ) : Prop where
  expires : 0 < draft.expiresAtMs
  lasts : draft.expiresAtMs ≤ draft.challengeExpiresAtMs + nodeSessionTtlMs
  epoch : draft.issuerEpoch = s.issuerEpoch
  challenged : now < draft.challengeExpiresAtMs
  node : ∃ n : Node, s.nodes[draft.nodeId]? = some n ∧ n.status = .active ∧
    n.protocolVersion = draft.protocolVersion ∧ n.keyVersion = draft.keyVersion ∧
    n.capabilities = draft.capabilities
  unused : ∀ e ∈ s.sessions.toList, e.1 ≠ draft.sessionId ∧ e.2.nonceHash ≠ draft.nonceHash ∧
    e.2.tokenHash ≠ draft.tokenHash

/-- A session of a relay that is recognized is opened. -/
theorem Store.Recognizes.createNodeSession {draft : NodeSessionDraft} (h : s.Recognizes draft now) :
    ∃ s', s.createNodeSession draft now = .ok (s', true) := by
  obtain ⟨n, hn, hstatus, hprotocol, hkey, hcapabilities⟩ := h.node
  have hexpiry : ¬ (draft.expiresAtMs = 0 ∨
      nodeSessionTtlMs < draft.expiresAtMs - draft.challengeExpiresAtMs) := by
    have := h.expires
    have := h.lasts
    omega
  have hfresh : s.sessions.contains draft.sessionId = false := by
    rw [Std.TreeMap.contains_eq_isSome_getElem?, Option.isSome_eq_false_iff,
      Option.isNone_iff_eq_none]
    by_contra hused
    obtain ⟨session, hsession⟩ := Option.ne_none_iff_exists'.mp hused
    exact (h.unused _ (Std.TreeMap.mem_toList_iff_getElem?_eq_some.mpr hsession)).1 rfl
  have hnew : (s.sessions.toList.any fun e =>
      e.2.nonceHash == draft.nonceHash || e.2.tokenHash == draft.tokenHash) = false := by
    rw [List.any_eq_false]
    intro e he
    obtain ⟨-, hnonce, htoken⟩ := h.unused e he
    simp [hnonce, htoken]
  have heligible : (s.issuerEpoch == draft.issuerEpoch && decide (now < draft.challengeExpiresAtMs)
      && s.nodes[draft.nodeId]?.any fun n =>
        s.mayAuthenticate draft.nodeId n draft.keyVersion draft.protocolVersion &&
          n.capabilities == draft.capabilities) = true := by
    simp [hn, Store.mayAuthenticate, hstatus, hprotocol, hkey, hcapabilities, h.epoch, h.challenged]
  rw [Store.createNodeSession, if_neg hexpiry]
  simp only [heligible, hfresh, hnew, Bool.not_true, Bool.or_self, Bool.false_eq_true, if_false]
  exact ⟨_, rfl⟩

/-- A session that is opened while the revocation is retained queues it again, if the batch
reaches it. -/
theorem Store.createNodeSession_waits {draft : NodeSessionDraft} {g : GrantRow}
    (h : s.createNodeSession draft now = .ok (s', true)) (hnode : draft.nodeId = t.nodeId)
    (ht : s.tombstones[id]? = some t) (hsigned : t.envelope = some envelope)
    (hg : s.grants[id]? = some g) (hunknown : g.brokerRevocationOutcome = none)
    (hretained : now < t.retainUntilMs)
    (hbatch : t.placeIn id (s.requeueable t.nodeId now) < requeueLimit) :
    s'.Waits t.nodeId envelope := by
  unfold Store.createNodeSession at h
  split at h
  · cases h
  dsimp only at h
  split at h
  · exact absurd (Except.ok.inj h) (by simp)
  cases h
  rw [hnode]
  refine Store.waits_enqueueAll ?_
  by_cases hwaits : s.Waits t.nodeId envelope
  · exact .inr hwaits
  refine .inl (List.mem_filterMap.mpr ⟨(id, t), ?_, hsigned⟩)
  refine Table.mem_batch Table.pairwise_compare_select (Table.mem_select.mpr ⟨ht, ?_⟩) hbatch
  -- the revocation is retained, not reported and not waiting
  have hidle : (s.inbox.any fun r => r.nodeId == t.nodeId && r.ackedAtMs.isNone &&
      r.envelope == envelope) = false := by
    rw [Bool.eq_false_iff]
    intro hany
    obtain ⟨r, hr, hcond⟩ := List.any_eq_true.mp hany
    simp only [Bool.and_eq_true, beq_iff_eq, Option.isNone_iff_eq_none] at hcond
    exact hwaits ⟨r, hr, hcond.1.1, hcond.2, hcond.1.2⟩
  have hreported : (s.grants[id]?.any fun g => g.brokerRevocationOutcome.isNone) = true := by
    rw [hg, Option.any_some, hunknown]
    rfl
  simp only [hsigned, Option.any_some, hreported, hidle, decide_eq_true hretained,
    beq_self_eq_true, Bool.and_self, Bool.not_false]

/-! ### Signing -/

theorem tombstoneEnvelope_revokes {epoch : ℕ} (h : tombstoneEnvelope id t epoch = .ok envelope) :
    RevokesGrant envelope id t.nodeId := by
  unfold tombstoneEnvelope at h
  dsimp only at h
  split at h
  · cases h
    exact ⟨_, rfl, rfl, rfl⟩
  · cases h

/-- The tombstone is signed, and its revocation waits. -/
def Store.Signed (s : Store) (id : String) (t : Tombstone) : Prop :=
  ∃ envelope, RevokesGrant envelope id t.nodeId ∧
    s.tombstones[id]? = some { t with envelope := some envelope } ∧ s.Waits t.nodeId envelope

/-- A loop over some unsigned tombstones signs each of them. -/
theorem signTombstones_signed {rows : List (String × Tombstone)}
    (hloop : rows.foldlM (fun (s : Store) e => do
      let envelope ← tombstoneEnvelope e.1 e.2 s.issuerEpoch
      let marked := { s with
        tombstones := Table.updateWhere s.tombstones (fun k t => k == e.1 && t.envelope.isNone)
          fun t => { t with envelope := some envelope } }
      return marked.enqueueNodeDocument e.2.nodeId envelope) s = .ok s')
    (hrows : ∀ e ∈ rows, s.tombstones[e.1]? = some e.2 ∧ e.2.envelope = none)
    (hkeys : rows.Pairwise fun e e' => e.1 ≠ e'.1) (hmem : (id, t) ∈ rows) : s'.Signed id t := by
  -- what is left to sign is as it was read, and the tombstone is among it or signed
  have hdone := Transaction.foldlM_induct (P := fun rest (u : Store) =>
    rest.Pairwise (fun e e' => e.1 ≠ e'.1) ∧
    (∀ e ∈ rest, u.tombstones[e.1]? = some e.2 ∧ e.2.envelope = none) ∧
    ((id, t) ∈ rest ∨ u.Signed id t)) ?_ hloop ⟨hkeys, hrows, .inl hmem⟩
  · exact hdone.2.2.resolve_left List.not_mem_nil
  · rintro ⟨key, row⟩ rest u u' ⟨hkeys, hrows, hleft⟩ hstep
    obtain ⟨hother, hkeys'⟩ := List.pairwise_cons.mp hkeys
    obtain ⟨envelope, henvelope, hpure⟩ := bind_eq_ok.mp hstep
    cases hpure
    obtain ⟨hrow, hnone⟩ := hrows (key, row) (.head _)
    refine ⟨hkeys', ?_, ?_⟩
    · intro e he
      obtain ⟨hkept, hunsigned⟩ := hrows e (.tail _ he)
      refine ⟨Table.getElem?_updateWhere_eq_some.mpr ⟨e.2, hkept, ?_⟩, hunsigned⟩
      rw [if_neg]
      simp [Ne.symm (hother e he)]
    · rcases hleft with hleft | ⟨signed, hrevokes, hsigned, hwaits⟩
      · rcases List.mem_cons.mp hleft with heq | hrest
        · cases heq
          refine .inr ⟨envelope, tombstoneEnvelope_revokes henvelope, ?_, ?_⟩
          · refine Table.getElem?_updateWhere_eq_some.mpr ⟨t, hrow, ?_⟩
            rw [if_pos (by simp [show t.envelope = none from hnone])]
          · exact ⟨_, List.mem_append_right u.inbox (List.mem_singleton_self _), rfl, rfl, rfl⟩
        · exact .inl hrest
      · refine .inr ⟨signed, hrevokes, ?_, hwaits.append rfl⟩
        refine Table.getElem?_updateWhere_eq_some.mpr ⟨_, hsigned, ?_⟩
        rw [if_neg (by simp)]

/-- The stores agree on what there is to sign. -/
def Store.SignsAlike (s s' : Store) : Prop :=
  s'.tombstones = s.tombstones ∧ s'.nodes = s.nodes

theorem expireGroups_signsAlike {groups : List String} {n' : ℕ}
    (h : groups.foldlM (fun e id => e.1.expireGroup cfg clock e.2 id) (s, n) = .ok (s', n')) :
    s.SignsAlike s' := by
  refine Transaction.foldlM_induct (P := fun _ e => s.SignsAlike (e : Store × ℕ).1) ?_ h ⟨rfl, rfl⟩
  rintro id _ ⟨t, m⟩ ⟨t', m'⟩ halike hstep
  obtain ⟨ended, hended, hpure⟩ := bind_eq_ok.mp hstep
  cases hpure
  obtain ⟨docs, rfl, -⟩ := Store.enqueueClosures_cases hended
  exact halike

theorem Store.denyOverdue_signsAlike (h : s.denyOverdue cfg clock = .ok (s', n)) :
    s.SignsAlike s' := by
  obtain ⟨closed, hclosed, hpure⟩ := bind_eq_ok.mp h
  cases hpure
  obtain ⟨docs, rfl, -⟩ := Store.enqueueClosures_cases hclosed
  exact ⟨rfl, rfl⟩

theorem Store.expireGrants_signsAlike {l : List (String × GrantRow)} :
    s.SignsAlike (l.foldl (fun s e => s.expireGrant e.1 e.2) s) := by
  refine Transaction.foldl_induct (P := fun _ t => s.SignsAlike t) ?_ ⟨rfl, rfl⟩
  intro e _ t halike
  exact halike

/-- An expiry pass with an issuer signs the tombstone, if the batch reaches it. -/
theorem Store.expireFleetState_signed {summary : FleetExpirySummary}
    (h : s.expireFleetState cfg clock = .ok (s', summary)) (hsigner : cfg.signer = true)
    (ht : s.tombstones[id]? = some t) (hnone : t.envelope = none)
    (hactive : s.nodeActive t.nodeId = true) (hretained : clock.tombstones < t.retainUntilMs)
    (hbatch : t.placeIn id (s.unsignedTombstones clock.tombstones) < signBatch) :
    s'.Signed id t := by
  obtain ⟨⟨grouped, members⟩, hgrouped, h⟩ := bind_eq_ok.mp h
  obtain ⟨⟨denied, overdue⟩, hdenied, h⟩ := bind_eq_ok.mp h
  obtain ⟨⟨signed, tombstones⟩, hsigned, h⟩ := bind_eq_ok.mp h
  cases h
  -- the parts before the last one leave tombstones and nodes alone
  let lapsed := (denied.expiredGrants clock.grants).foldl (fun s e => s.expireGrant e.1 e.2) denied
  obtain ⟨htombstones, hnodes⟩ : s.SignsAlike lapsed := by
    obtain ⟨hgroups, hgroupNodes⟩ := expireGroups_signsAlike hgrouped
    obtain ⟨hdenies, hdenyNodes⟩ := Store.denyOverdue_signsAlike hdenied
    obtain ⟨hlapses, hlapseNodes⟩ : denied.SignsAlike lapsed := Store.expireGrants_signsAlike
    exact ⟨hlapses.trans (hdenies.trans hgroups), hlapseNodes.trans (hdenyNodes.trans hgroupNodes)⟩
  let doubted := lapsed.doubtUnconfirmed (lapsed.unconfirmed clock.executing)
  have hunsigned : doubted.unsignedTombstones clock.tombstones =
      s.unsignedTombstones clock.tombstones := by
    change Table.select lapsed.tombstones (fun _ t => (lapsed.nodes[t.nodeId]?.any _ &&
      t.envelope.isNone && decide (clock.tombstones < t.retainUntilMs))) = _
    rw [htombstones, hnodes]
    rfl
  change doubted.signTombstones cfg clock.tombstones = _ at hsigned
  rw [Store.signTombstones, if_pos hsigner] at hsigned
  obtain ⟨signed', hloop, hpure⟩ := bind_eq_ok.mp hsigned
  cases hpure
  refine signTombstones_signed hloop ?_ ?_ ?_
  · rintro ⟨id, t⟩ he
    obtain ⟨hrow, hcond⟩ := Table.mem_select.mp (Table.mem_orderBy.mp (List.mem_of_mem_take he))
    simp only [Bool.and_eq_true, Option.isNone_iff_eq_none] at hcond
    exact ⟨hrow, hcond.1.2⟩
  · refine List.Pairwise.sublist (List.take_sublist _ _) ?_
    exact Table.pairwise_select.perm (List.perm_insertionSort _ _).symm fun hne => hne.symm
  · rw [hunsigned]
    refine Table.mem_batch Table.pairwise_compare_select (Table.mem_select.mpr ⟨ht, ?_⟩) hbatch
    simp only [hactive, hnone, Option.isNone_none, decide_eq_true hretained, Bool.and_self]

/-! ### Every run -/

/-- What becomes of a revocation whose outcome is not known. It waits in the inbox; or the
relay acknowledged it, a session of a relay that is recognized is opened, and each session that
is opened queues it again; or it is not signed yet and the next expiry pass signs and queues it.
A session and a pass take the oldest first, up to the size of their batch. -/
inductive Tombstone.Pursued (cfg : Config) (s : Store) (run : List (Transition Store Event Answer))
    (id : String) (t : Tombstone) : Prop
  | waiting {envelope : SignedEnvelope} :
      t.envelope = some envelope → RevokesGrant envelope id t.nodeId →
      s.Waits t.nodeId envelope → Pursued cfg s run id t
  | acknowledged {envelope : SignedEnvelope} :
      t.envelope = some envelope → RevokesGrant envelope id t.nodeId →
      (∃ u ∈ run, Transition.Acknowledges u t.nodeId envelope) →
      (∀ draft now, draft.nodeId = t.nodeId → now < t.retainUntilMs →
        t.placeIn id (s.requeueable t.nodeId now) < requeueLimit →
        (s.Recognizes draft now → ∃ s', s.createNodeSession draft now = .ok (s', true)) ∧
        ∀ s', s.createNodeSession draft now = .ok (s', true) → s'.Waits t.nodeId envelope) →
      Pursued cfg s run id t
  | unsigned :
      t.envelope = none →
      (cfg.signer = true → ∀ clock : SweepClock, clock.Valid → clock.tombstones < t.retainUntilMs →
        t.placeIn id (s.unsignedTombstones clock.tombstones) < signBatch →
        ∃ s' summary, s.expireFleetState cfg clock = .ok (s', summary) ∧ s'.Signed id t) →
      Pursued cfg s run id t

/-- In every run every revoked grant is covered by a tombstone until its time is over, and the
revocation of a tombstone is pursued as long as its node is active and the broker did not
report an outcome. -/
theorem revocations_pursued (h : (controller cfg bytes).Run run s) :
    s.Covered run ∧ ∀ (id : String) (t : Tombstone) (g : GrantRow), s.tombstones[id]? = some t →
      s.grants[id]? = some g → g.brokerRevocationOutcome = none →
      s.nodeActive t.nodeId = true → t.Pursued cfg s run id := by
  refine ⟨Run.covered h, ?_⟩
  intro id t g ht hg hunknown hactive
  cases hsigned : t.envelope with
  | none =>
    refine .unsigned hsigned ?_
    intro hsigner clock hclock hretained hbatch
    obtain ⟨⟨s', summary⟩, hsweep⟩ : ∃ result, s.expireFleetState cfg clock = .ok result :=
      Store.expireFleetState_ok (Run.coherent h) (Run.sound h) hclock
    exact ⟨s', summary, hsweep,
      Store.expireFleetState_signed hsweep hsigner ht hsigned hactive hretained hbatch⟩
  | some envelope =>
    have hrevokes := (Run.coherent h).tombstones id t envelope ht hsigned
    rcases Run.announced h id t envelope ht hsigned with hwaits | hacknowledged | ⟨n, hn, hrevoked⟩
    · exact .waiting hsigned hrevokes hwaits
    · refine .acknowledged hsigned hrevokes hacknowledged ?_
      intro draft now hnode hretained hbatch
      refine ⟨Store.Recognizes.createNodeSession, fun s' hsession => ?_⟩
      exact Store.createNodeSession_waits hsession hnode ht hsigned hg hunknown hretained hbatch
    · rw [Store.nodeActive, hn, Option.any_some, hrevoked] at hactive
      cases hactive

namespace Sample

/-- The clock is found to be wrong after a grant was issued. -/
def fenced : List Event := granted ++ [.fleetFencePurge 3000]

/-- What the fence leaves of the grant. -/
def fencedTombstone : Tombstone := ⟨"node-1", "policy", 3000, 62000 + tombstoneRetentionMs, none⟩

/-- The revocation that an operator signs. -/
def revocation : SignedEnvelope :=
  ⟨1, .revocation ⟨"grant-1", "node-1", "operator", 3000, 62000 + tombstoneRetentionMs, 1⟩⟩

/-- An operator revokes a grant, and the relay takes the revocation and acknowledges it. -/
def acknowledged : List Event :=
  delivered ++ [.revokeGrant "grant-1" "operator" revocation 3000,
    .pollNodeInbox "node-1" "session-1" (some 3) 3100,
    .pollNodeInbox "node-1" "session-1" (some 4) 3200]

/-- What the operator leaves of the grant. -/
def revokedTombstone : Tombstone :=
  ⟨"node-1", "operator", 3000, 62000 + tombstoneRetentionMs, some revocation⟩

/-- The relay connects again. -/
def reconnection : NodeSessionDraft :=
  ⟨"node-1", 1, 1, "1", "none", "nonce-2", 9000, "session-2", "token-2", 9000⟩

end Sample

/-- The fence leaves a tombstone that the next expiry pass signs; the revocation of an operator
was acknowledged, and the next session of the relay is opened and queues it again. -/
theorem revocations_pursued_fenced :
    ((Sample.play Sample.fenced).2.tombstones["grant-1"]? = some Sample.fencedTombstone ∧
      (Sample.play Sample.fenced).2.Covered (Sample.play Sample.fenced).1 ∧
      Sample.fencedTombstone.Pursued Sample.config (Sample.play Sample.fenced).2
        (Sample.play Sample.fenced).1 "grant-1") ∧
    (Sample.play Sample.acknowledged).2.tombstones["grant-1"]? = some Sample.revokedTombstone ∧
      (¬ ∃ r ∈ (Sample.play Sample.acknowledged).2.inbox, r.ackedAtMs = none) ∧
      ∃ s', (Sample.play Sample.acknowledged).2.createNodeSession Sample.reconnection 4000 =
        .ok (s', true) ∧ s'.Waits "node-1" Sample.revocation := by
  have hrun := Sample.run_play Sample.fenced (by decide +kernel)
  have htombstone : (Sample.play Sample.fenced).2.tombstones["grant-1"]? =
      some Sample.fencedTombstone := by decide +kernel
  have hrun' := Sample.run_play Sample.acknowledged (by decide +kernel)
  have htombstone' : (Sample.play Sample.acknowledged).2.tombstones["grant-1"]? =
      some Sample.revokedTombstone := by decide +kernel
  have hempty : ¬ ∃ r ∈ (Sample.play Sample.acknowledged).2.inbox, r.ackedAtMs = none := by
    decide +kernel
  refine ⟨⟨htombstone, (revocations_pursued hrun).1, ?_⟩, htombstone', hempty, ?_⟩
  · exact (revocations_pursued hrun).2 "grant-1" Sample.fencedTombstone
      (GrantRow.withStatus ⟨Sample.grant, .issued, none, none⟩ .revoked) htombstone
      (by decide +kernel) rfl (by decide +kernel)
  · have hpursued := (revocations_pursued hrun').2 "grant-1" Sample.revokedTombstone
      (GrantRow.withStatus ⟨Sample.grant, .delivered, none, none⟩ .revoked) htombstone'
      (by decide +kernel) rfl (by decide +kernel)
    cases hpursued with
    | waiting _ _ hwaits =>
      obtain ⟨r, hr, -, -, hnone⟩ := hwaits
      exact absurd ⟨r, hr, hnone⟩ hempty
    | acknowledged hsigned _ _ hsessions =>
      cases hsigned
      obtain ⟨hopens, hqueues⟩ := hsessions Sample.reconnection 4000 rfl (by decide)
        (by decide +kernel)
      obtain ⟨s', hs'⟩ := hopens
        { expires := by decide
          lasts := by decide
          epoch := by decide +kernel
          challenged := by decide
          node := ⟨_, rfl, rfl, rfl, rfl, rfl⟩
          unused := by decide +kernel }
      exact ⟨s', hs', hqueues s' hs'⟩
    | unsigned hnone => cases hnone

end BlindPass.Controller
